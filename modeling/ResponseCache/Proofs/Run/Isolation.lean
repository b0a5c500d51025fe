import ResponseCache.Proofs.Key
import ResponseCache.Proofs.Run.Served

/-!
# Private responses and principals

A request that says `Cache-Control: private` and nothing else is kept apart from others by its
credential, the first `Authorization` value. The key alone does this: a hit comes from the last
write under the key of the request (`exists_write_of_hit`), and the key of a private request
determines its credential (`Request.PrivateTo.authorization_eq`). A credential that is not visible
ASCII counts as absent, though, and so the requests with such a credential share their key with
those that have none.
-/

namespace ResponseCache

namespace HeaderValue

theorem ofNat_toNat_inj {b b' : UInt8} (h : Char.ofNat b.toNat = Char.ofNat b'.toNat) : b = b' := by
  have hchar : ∀ b : UInt8, (Char.ofNat b.toNat).toNat = b.toNat := fun b => by
    have hb : b.toNat < 256 := b.toNat_lt
    have hvalid : b.toNat.isValidChar := .inl (by omega)
    rw [Char.ofNat, dif_pos hvalid]
    rfl
  refine UInt8.toNat_inj.1 ?_
  rw [← hchar b, h, hchar]

theorem visible?_inj {v v' : HeaderValue} {s : List Char} (h : v.visible? = some s)
    (h' : v'.visible? = some s) : v = v' := by
  have htext : ∀ {v : HeaderValue}, v.visible? = some s →
      v.bytes.map (fun b => Char.ofNat b.toNat) = s := by
    intro v hv
    unfold visible? Bytes.visible? at hv
    split at hv
    · exact Option.some.inj hv
    · cases hv
  have hbytes : v.bytes = v'.bytes :=
    (List.map_inj_right fun _ _ => ofNat_toNat_inj).1 ((htext h).trans (htext h').symm)
  cases v
  cases v'
  cases hbytes
  rfl

end HeaderValue

/-- The request is for the principal of credential `a` alone: its first `Cache-Control` value is the
one word `private`, and its first `Authorization` value is `a`, which is not empty. -/
structure Request.PrivateTo (r : Request) (a : HeaderValue) : Prop where
  isPrivate : ∃ s, r.headers.firstText? .cacheControl = some s ∧ Key.isPrivate s = true
  credential : r.headers.first? .authorization = some a
  nonempty : a.bytes ≠ []

namespace Request.PrivateTo

variable {r r' : Request} {a : HeaderValue} {s : List Char}

theorem partition_eq (h : r.PrivateTo a) (ha : a.visible? = some s) :
    Key.partition r = some s := by
  obtain ⟨cc, hcc, hprivate⟩ := h.isPrivate
  have hs : s.isEmpty = false := by
    unfold HeaderValue.visible? Bytes.visible? at ha
    split at ha
    · rw [← Option.some.inj ha]
      simp [h.nonempty]
    · cases ha
  have hcredential : r.headers.firstText? .authorization = some s := by
    rw [Headers.firstText?, h.credential, Option.bind_some, ha]
  simp [Key.partition, Key.partition?, hcc, hprivate, hcredential, hs]

/-- A request is set apart by the text of its first `Authorization` value and by nothing else. -/
theorem firstText?_of_partition (h : Key.partition r = some s) :
    r.headers.firstText? .authorization = some s := by
  unfold Key.partition Key.partition? at h
  split at h
  · exact (Option.filter_eq_some_iff.1 h).1
  · cases h

/-- A request with the key of a private one carries the same credential, if this is visible. -/
theorem authorization_eq (h : r.PrivateTo a) (hkey : Key.ofRequest r = Key.ofRequest r') :
    r'.headers.first? .authorization = some a ∨ a.visible? = none := by
  cases ha : a.visible? with
  | none => exact .inr rfl
  | some s =>
    -- of the parts that the two keys share, only the partition tells of a credential
    obtain ⟨-, -, hpartition⟩ := Key.ofRequest_eq_iff.1 hkey
    rw [h.partition_eq ha] at hpartition
    have htext := firstText?_of_partition hpartition.symm
    rw [Headers.firstText?, Option.bind_eq_some_iff] at htext
    obtain ⟨a', hfirst, ha'⟩ := htext
    rw [hfirst, HeaderValue.visible?_inj ha' ha]
    exact .inl rfl

end Request.PrivateTo

namespace Run

variable {c : Config} {origin tag : String} {u : Run Store} {r : Request} {now own e : Instant}

/-- What a request is answered with from the storage was written by the last write under its key. -/
theorem exists_write_of_hit (hu : Accounted c origin u)
    (h : (u.ask c now own r).event? = some (.hit tag e)) :
    ∃ x q, u.lastWrite? (Key.ofRequest r) = some x ∧ Key.ofRequest x.request = Key.ofRequest r
      ∧ (u.ask c now own r).answer = some q ∧ x.response.ServedAs q x.now origin := by
  obtain ⟨entry, p, w', q, hget, hserved, -, htag, hmarked, hanswer⟩ := Cache.servable_of_hit h
  obtain ⟨slot, hslot, hkey, rfl⟩ := Store.lookup_eq_ok hget
  obtain ⟨x, w, hkept⟩ := hu.slots slot hslot
  rw [hkey] at hkept
  have horigin : tag = origin := htag.symm.trans (Store.origin_lookup.trans hu.origin_eq)
  have hwire : slot.entry.wire = Wire.encode x.response := by
    rw [hkept.entry_eq]
    rfl
  have hstored : slot.entry.storedAt = x.now := by
    rw [hkept.entry_eq]
    rfl
  obtain ⟨body, rfl⟩ := Entry.exists_body hwire hserved.decodes
  rw [hstored, horigin] at hmarked
  exact ⟨x, q, hkept.lastWrite?, hkept.key_eq, hanswer, Response.servedAs_of_marked? hmarked⟩

/-- No private response crosses to another principal. At any point of any run that starts from an
empty store, let a request be answered with a hit. The answer is the response of the last write
under its key, and if that was a response to a request private to a credential, then the request
that is answered now carries the same credential, octet by octet. Only credentials that are not
visible ASCII are exempt. -/
theorem same_principal_of_hit (c : Config) (limits : Limits) (origin : String) (turns : List Turn)
    {r : Request} {now own e : Instant} {tag : String}
    (h : ((ofTurns c limits origin turns).ask c now own r).event? = some (.hit tag e)) :
    ∃ x q, (ofTurns c limits origin turns).lastWrite? (Key.ofRequest r) = some x
      ∧ ((ofTurns c limits origin turns).ask c now own r).answer = some q
      ∧ x.response.ServedAs q x.now origin
      ∧ ∀ a, x.request.PrivateTo a →
        r.headers.first? .authorization = some a ∨ a.visible? = none := by
  obtain ⟨x, q, hlast, hkey, hanswer, hserved⟩ :=
    exists_write_of_hit (Accounted.ofTurns c limits origin turns) h
  exact ⟨x, q, hlast, hanswer, hserved, fun a ha => ha.authorization_eq hkey⟩

end Run

namespace Sample

/-- The sample request as one that is private to the principal of a credential. -/
def ownedBy (credential : HeaderValue) : Request :=
  { request with
    headers :=
      (Headers.empty.append .cacheControl ⟨Bytes.ofText "private", by decide⟩
        Headers.hasRoom_empty).append .authorization credential (Headers.hasRoom_append_empty ..) }

def visibleCredential : HeaderValue := ⟨Bytes.ofText "Bearer y", by decide⟩

/-- A credential with an octet that is no ASCII character. -/
def hiddenCredential : HeaderValue := ⟨Bytes.ofText "Bearer " ++ [0xff], by decide⟩

/-- A shared cache after a private request was answered with the sample response. -/
def ownedRun (credential : HeaderValue) : Run Store :=
  Run.ofTurns .sharedCache .standard Store.defaultOrigin
    [⟨.epoch, .epoch, .ask (ownedBy credential)⟩, ⟨.epoch, .epoch, .reply 0 (.ok response)⟩]

end Sample

namespace Run

theorem same_principal_of_sample_hit :
    ((Sample.ownedRun Sample.visibleCredential).ask .sharedCache .epoch .epoch
        (Sample.ownedBy Sample.visibleCredential)).event? = some (.hit "memory" Sample.expiry)
      ∧ (Sample.ownedBy Sample.visibleCredential).PrivateTo Sample.visibleCredential
      ∧ (Sample.ownedBy Sample.visibleCredential).headers.first? .authorization
        = some Sample.visibleCredential := by
  have hhit : ((Sample.ownedRun Sample.visibleCredential).ask .sharedCache .epoch .epoch
      (Sample.ownedBy Sample.visibleCredential)).event? = some (.hit "memory" Sample.expiry) :=
    Event.bind_hit?_eq_some_iff.1 (by decide +kernel)
  have hprivate : (Sample.ownedBy Sample.visibleCredential).PrivateTo Sample.visibleCredential :=
    ⟨⟨"private".toList, by decide +kernel, by decide +kernel⟩, by decide +kernel, by decide⟩
  have hlast : (Sample.ownedRun Sample.visibleCredential).lastWrite?
        (Key.ofRequest (Sample.ownedBy Sample.visibleCredential))
      = some ⟨Sample.ownedBy Sample.visibleCredential, Sample.response, .epoch, Sample.expiry⟩ := by
    decide +kernel
  obtain ⟨x, q, hx, -, -, hsame⟩ :=
    same_principal_of_hit .sharedCache .standard Store.defaultOrigin _ hhit
  obtain rfl := Option.some.inj (hlast.symm.trans hx)
  exact ⟨hhit, hprivate, (hsame _ hprivate).resolve_right (by decide)⟩

/-- A response to a request private to a credential that is not visible ASCII is served to a request
without any credential. -/
theorem hit_of_hiddenCredential :
    (Sample.ownedBy Sample.hiddenCredential).PrivateTo Sample.hiddenCredential
      ∧ (Sample.ownedRun Sample.hiddenCredential).lastWrite? (Key.ofRequest Sample.request)
        = some ⟨Sample.ownedBy Sample.hiddenCredential, Sample.response, .epoch, Sample.expiry⟩
      ∧ Sample.request.headers.first? .authorization = none
      ∧ ((Sample.ownedRun Sample.hiddenCredential).ask .sharedCache .epoch .epoch
        Sample.request).event? = some (.hit "memory" Sample.expiry) :=
  ⟨⟨⟨"private".toList, by decide +kernel, by decide +kernel⟩, by decide +kernel, by decide⟩,
    by decide +kernel, rfl, Event.bind_hit?_eq_some_iff.1 (by decide +kernel)⟩

end Run

end ResponseCache
