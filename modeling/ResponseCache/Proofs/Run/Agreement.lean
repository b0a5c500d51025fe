import ResponseCache.Proofs.Key
import ResponseCache.Proofs.Run.Provenance
import ResponseCache.Proofs.Wire.RoundTrip

/-!
# The second judgement agrees with the first

A response is judged twice, when it is written and when it is found again, and the two look at
different data: the live headers with the time of receipt, and the headers read back from the wire
form with the time of writing. They agree. The wire form keeps all headers and the status, the key
keeps the method, and the time of expiry belongs to the response alone; so what was written expires
when it was said to, nothing but a `no-store` of the later request speaks against serving it, and
what the later lookup comes to can be told from that request and the clock (`event?_of_found`).
-/

namespace ResponseCache.Run

open Exchange

variable {c : Config} {origin : String} {history : List Deed} {entry : Entry} {u : Run Store}
  {r r' : Request} {p p' : Response} {stored e now own : Instant} {asked : List Char}
  {ds : RequestDirectives} {w : Reading}

/-- A response that expires at `e`, was stored at `stored` and is asked for with directives `ds` is
fresh at `now`: it is no older than `max-age` and does not expire within `min-fresh`. -/
def IsFresh (ds : RequestDirectives) (stored e now : Instant) : Prop :=
  (∀ n ∈ ds.maxAge, max (now.since stored) 0 ≤ n * nanosPerSecond)
    ∧ (ds.minFresh.getD 0 : Nat) * nanosPerSecond < e.since now

instance (ds : RequestDirectives) (stored e now : Instant) :
    Decidable (IsFresh ds stored e now) :=
  inferInstanceAs (Decidable (_ ∧ _))

/-- The response that is found is the one that was written, as far as its judgement goes. -/
theorem Kept.exchange_eq (h : Kept c origin history (Key.ofRequest r') entry ⟨r, p, stored, e⟩ w)
    (hdecodes : entry.response r'.method = .ok p') :
    entry.storedAt = stored ∧ (r'.exchange p').method = (r.exchange p).method
      ∧ (r'.exchange p').status = (r.exchange p).status
      ∧ (r'.exchange p').responseHeaders = (r.exchange p).responseHeaders := by
  rw [h.response_eq, Wire.decode_encode, map_eq_ok_iff] at hdecodes
  obtain ⟨body, -, rfl⟩ := hdecodes
  refine ⟨?_, (Key.method_eq h.key_eq).symm, rfl, rfl⟩
  rw [h.entry_eq]
  rfl

/-- The headers of the found response and of the later request are well formed if those of the later
request are, and the two judgements agree. -/
theorem Kept.assessment_agrees
    (h : Kept c origin history (Key.ofRequest r') entry ⟨r, p, stored, e⟩ w)
    (hdecodes : entry.response r'.method = .ok p')
    (hasked : cacheControl r'.headers = .ok asked)
    (hds : RequestDirectives.ofText asked = .ok ds) :
    (r'.exchange p').Reads (w.asking asked ds)
      ∧ ∀ now, ((w.asking asked ds).assessment (r'.exchange p') now stored).expiresAt c = e
        ∧ ((w.asking asked ds).assessment (r'.exchange p') now stored).reasons c
          = if ds.noStore then [.requestNoStore] else [] := by
  obtain ⟨-, hmethod, hstatus, hheaders⟩ := h.exchange_eq hdecodes
  have hreads := h.admissible.toReads.asking hheaders hasked hds
  refine ⟨hreads, fun now => ⟨?_, ?_⟩⟩
  · rw [expiresAt_asking w asked ds c (r.exchange p) (r'.exchange p') stored now stored]
    exact h.expires
  · exact reasons_asking h.admissible hreads hmethod hstatus now stored

/-- What a request comes to that finds what was written: it is bypassed, refused for its own
`no-store`, answered until the time of expiry that was reported for the write, or too late; and if
there is no room for the markers, it crashes where it would be answered. -/
theorem event?_of_found (hu : Accounted c origin u)
    (hlast : u.lastWrite? (Key.ofRequest r') = some ⟨r, p, stored, e⟩)
    (hfound : (u.storage.lookup (Key.ofRequest r') own).1 = .ok entry)
    (hdecodes : entry.response r'.method = .ok p')
    (hasked : cacheControl r'.headers = .ok asked)
    (hds : RequestDirectives.ofText asked = .ok ds) :
    (u.ask c now own r').event? =
      if Cache.looksUp c r' = false then some .bypass
      else if ds.noStore = true then some (.miss .ineligible)
      else if IsFresh ds stored e now then
        if p'.headers.dressedLength < HeaderField.capacity then some (.hit origin e) else none
      else some (.miss .expired) := by
  obtain ⟨w, hkept⟩ := hu.kept_of_lookup hlast hfound
  obtain ⟨hreads, hagrees⟩ := hkept.assessment_agrees hdecodes hasked hds
  obtain ⟨he, hreasons⟩ := hagrees now
  have hstored : entry.storedAt = stored := (hkept.exchange_eq hdecodes).1
  have hfresh : ((w.asking asked ds).assessment (r'.exchange p') now stored).freshness e = .fresh
      ↔ IsFresh ds stored e now := Assessment.freshness_eq_fresh_iff
  cases hlooks : Cache.looksUp c r' with
  | false =>
    rw [ask, Cache.start_of_bypass hlooks]
    rfl
  | true =>
    have hget : ((Store.backendAt own).get u.storage (Key.ofRequest r') now).1 = .ok entry := hfound
    have horigin : (Store.backendAt own).origin
        ((Store.backendAt own).get u.storage (Key.ofRequest r') now).2 = origin :=
      Store.origin_lookup.trans hu.origin_eq
    rw [ask, Cache.start_of_looksUp hlooks]
    dsimp only
    rw [hget, horigin, Cache.Started.event?, Cache.find_ok, Cache.consider_of_reads hdecodes hreads,
      hstored]
    dsimp only
    rw [he, hreasons]
    cases hstore : ds.noStore with
    | true => rfl
    | false =>
      by_cases hf : IsFresh ds stored e now
      · cases hmarked : p'.marked? stored origin with
        | none =>
          have hfull := Response.marked?_eq_none_iff.1 hmarked
          simp [hfresh.2 hf, hf, Nat.not_lt.2 hfull, Cache.Finding.event?]
        | some q =>
          have hroom := (p'.exists_marked?_iff stored origin).1 ⟨q, hmarked⟩
          simp [hfresh.2 hf, hf, hroom, Cache.Finding.event?]
      · simp [mt hfresh.1 hf, hf, Cache.Finding.event?]

end ResponseCache.Run
