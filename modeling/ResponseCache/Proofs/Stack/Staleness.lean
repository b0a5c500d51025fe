import ResponseCache.Proofs.Evaluation.Freshness
import ResponseCache.Proofs.Run.Served
import ResponseCache.Proofs.Stack.Run
import ResponseCache.Proofs.Time.Later

/-!
# How old an answer of a stack can be

Every tier counts the age of a response from its own receipt, and nothing tells it how long a deeper
tier has kept the response before it was served and kept again. So each tier that a response passes
through adds the lifetime once more: the tier that is `k`th from the origin serves a response with a
`max-age` of `N` seconds until less than `k * N` seconds after the fetch, and that long it can be.

The invariant is `Traced`. It says of every kept response which fetch it comes from (`source?`),
that it is a copy of what was fetched, and that its lifetime at its tier ends no later than that
bound.
-/

namespace ResponseCache

/-- The names of the markers of a served response. -/
def Marker.names : List HeaderName := [storedAt, served, origin]

namespace Response

/-- `q` is `p` but for the body and the values of the markers. -/
structure Copies (p q : Response) : Prop where
  version : q.version = p.version
  status : q.status = p.status
  values : ∀ name, name ∉ Marker.names → q.headers.values name = p.headers.values name

/-- A response that states a lifetime of `n` seconds in a `max-age`, and no `s-maxage`. -/
def StatesMaxAge (p : Response) (n : Nat) : Prop :=
  ∃ told ds, Exchange.cacheControl p.headers = .ok told
    ∧ ResponseDirectives.ofText told = .ok ds ∧ ds.maxAge = some n ∧ ds.sharedMaxAge = none

variable {p q q' : Response} {n : Nat}

theorem Copies.refl (p : Response) : p.Copies p :=
  ⟨rfl, rfl, fun _ _ => rfl⟩

theorem Copies.trans (h : p.Copies q) (h' : q.Copies q') : p.Copies q' :=
  ⟨h'.version.trans h.version, h'.status.trans h.status,
    fun name hname => (h'.values name hname).trans (h.values name hname)⟩

theorem ServedAs.copies {storedAt : Instant} {origin : String} (h : p.ServedAs q storedAt origin) :
    p.Copies q := by
  obtain ⟨date, -, hvalues⟩ := h.values
  refine ⟨h.version, h.status, fun name hname => ?_⟩
  simp only [Marker.names, List.mem_cons, List.not_mem_nil, or_false, not_or] at hname
  rw [hvalues, Headers.markersUnder, if_neg hname.1, if_neg hname.2.1, if_neg hname.2.2]
  simp

theorem copies_of_marked? {storedAt : Instant} {origin : String}
    (h : p.marked? storedAt origin = some q) : p.Copies q :=
  (servedAs_of_marked? h).copies

theorem copies_of_decode {entry : Entry} {m : Method} (hwire : entry.wire = Wire.encode p)
    (h : entry.response m = .ok q) : p.Copies q := by
  obtain ⟨body, rfl⟩ := Entry.exists_body hwire h
  exact ⟨rfl, rfl, fun _ _ => rfl⟩

theorem StatesMaxAge.copies (h : p.StatesMaxAge n) (hcopies : p.Copies q) : q.StatesMaxAge n := by
  obtain ⟨told, ds, htold, hds⟩ := h
  refine ⟨told, ds, ?_, hds⟩
  rw [Exchange.cacheControl, hcopies.values _ (by decide)]
  exact htold

/-- A response that states a lifetime expires that many seconds after its receipt. -/
theorem StatesMaxAge.expiresAt_eq (h : p.StatesMaxAge n) {r : Request} {w : Exchange.Reading}
    (hw : (r.exchange p).Reads w) (c : Config) (now receivedAt : Instant) :
    (w.assessment (r.exchange p) now receivedAt).expiresAt c = receivedAt.afterSeconds n := by
  obtain ⟨told, ds, htold, hds, hmax, hshared⟩ := h
  obtain rfl : w.told = told := Except.ok.inj (hw.told.symm.trans htold)
  obtain rfl : w.response = ds := Except.ok.inj (hw.response.symm.trans hds)
  have hlifetime : (w.assessment (r.exchange p) now receivedAt).lifetime c = .ofSeconds n := by
    have hnone : (if c.shared = true then w.response.sharedMaxAge else none) = none := by
      rw [hshared, ite_self]
    simp only [Assessment.lifetime, Exchange.Reading.assessment, hnone, hmax]
  have hspan : (Lifetime.ofSeconds n).span = n * 1000000000 :=
    Int.max_eq_left (Int.mul_nonneg (Int.natCast_nonneg n) (by decide))
  rw [Assessment.expiresAt, hlifetime, hspan]
  rfl

end Response

namespace Stack

variable {n N : Nat} {history : List Deed} {r : Request} {now : Instant} {p q : Response}
  {slot : Slot} {t t' : Tier Store} {f : Fetch} {i : Nat}

/-! ## What a turn does to the slots of a tier -/

section Slots

/-- All that a tier holds it held before. -/
def Shrinks (t t' : Tier Store) : Prop :=
  ∀ slot ∈ t'.storage.slots, ∃ old ∈ t.storage.slots, slot.Agrees old

theorem shrinks_started : Shrinks t (started Store.backend r now t) := by
  intro slot hslot
  rw [started, Cache.start_storage] at hslot
  split at hslot
  · exact Store.mem_slots_lookup hslot
  · exact ⟨slot, hslot, rfl, rfl, rfl⟩

theorem shrinks_clear : Shrinks t { t with storage := t.storage.clear } := by
  intro slot hslot
  refine ⟨slot, ?_, rfl, rfl, rfl⟩
  have hsub : t.storage.clear.slots.Sublist t.storage.slots := by
    apply Store.unlinkAll_inv fun s => s.slots.Sublist t.storage.slots
    · intro s slot hs
      exact List.filter_sublist.trans hs
    · exact List.Sublist.refl _
  exact hsub.subset hslot

/-- After a response came up to a tier, a slot of it holds the response, if the tier reports a
write, or is an old one, which is under another key in that case. -/
theorem mem_slots_settled (h : slot ∈ (settled Store.backend r now p t).storage.slots) :
    Keeps Store.backend r now p t ∧ slot.key = Key.ofRequest r
        ∧ slot.entry = Entry.ofResponse r.method r.uri.text now p t.storage.origin
      ∨ slot ∈ t.storage.slots
        ∧ (Keeps Store.backend r now p t → slot.key ≠ Key.ofRequest r) := by
  unfold Keeps
  rw [settled] at h
  rcases Cache.settle_cases Store.backend t.config t.storage r now p with
    ⟨w, e, -, -, hresult, hsettle⟩ | ⟨failure, hresult, hsettle⟩ | ⟨event, hskip, hsettle⟩
  · rw [hsettle] at h ⊢
    rcases Store.mem_slots_insert hresult h with ⟨hkey, hentry⟩ | ⟨hold, hkey⟩
    · exact .inl ⟨⟨e, rfl⟩, hkey, hentry⟩
    · exact .inr ⟨hold, fun _ => hkey⟩
  · have hstore : (Cache.offer Store.backend t.config t.storage r now p).state = t.storage :=
      Store.insert_of_error hresult
    rw [hsettle] at h ⊢
    rw [hstore] at h
    refine .inr ⟨h, ?_⟩
    rintro ⟨e, he⟩
    cases he
  · rw [hsettle] at h ⊢
    refine .inr ⟨h, ?_⟩
    rintro ⟨e, he⟩
    obtain ⟨cause, rfl⟩ | ⟨fault, rfl⟩ := hskip <;> cases he

end Slots

/-! ## The invariant -/

/-- What a slot at a depth holds comes from the fetch `f`: it is a copy of what was fetched, and if
that states a lifetime of `N` seconds, then its lifetime from the time of writing on ends no later
than one such lifetime for each tier from here on after the fetch. -/
structure Traces (n N : Nat) (history : List Deed) (depth : Nat) (slot : Slot) (f : Fetch) :
    Prop where
  source : source? history depth slot.key = some f
  copies : ∃ p, slot.entry.wire = Wire.encode p ∧ f.response.Copies p
  outside : (slot.entry.storedAt.afterSeconds N).isLeap = false
  bound : f.response.StatesMaxAge N →
    slot.entry.storedAt.afterSeconds N ≤ f.now.afterSeconds ((n - depth) * N)

structure Traced (n N : Nat) (u : Run) : Prop where
  length : u.tiers.length = n
  slots : ∀ i t, u.tiers[i]? = some t → ∀ slot ∈ t.storage.slots, ∃ f, Traces n N u.history i slot f

theorem Traces.of_agrees {old : Slot} (h : Traces n N history i old f) (hagrees : slot.Agrees old) :
    Traces n N history i slot f := by
  obtain ⟨hkey, hentry, -⟩ := hagrees
  exact ⟨hkey ▸ h.source, hentry ▸ h.copies, hentry ▸ h.outside, hentry ▸ h.bound⟩

/-- A hit is on time: what a slot gives as an answer is a copy of what was fetched, and is given
before the lifetimes of the tiers from here on are over. -/
theorem Traces.of_answer (h : Traces n N history i slot f) {c : Config} {entry : Entry}
    {tag : String} {w : Exchange.Reading} (hentry : slot.entry = entry)
    (hserved : Cache.Servable c r now entry p w)
    (hmarked : p.marked? entry.storedAt tag = some q) :
    f.response.Copies q
      ∧ (f.response.StatesMaxAge N → now < f.now.afterSeconds ((n - i) * N)) := by
  subst hentry
  obtain ⟨p₀, hwire, hcopies₀⟩ := h.copies
  have hcopies : f.response.Copies p :=
    hcopies₀.trans (Response.copies_of_decode hwire hserved.decodes)
  refine ⟨hcopies.trans (Response.copies_of_marked? hmarked), fun hstates => ?_⟩
  have hfresh := hserved.fresh
  rw [(hstates.copies hcopies).expiresAt_eq hserved.admissible.toReads,
    Assessment.freshness_eq_fresh_iff] at hfresh
  have hreserve : 0 ≤ ((w.request.minFresh.getD 0 : Nat) : Int) * nanosPerSecond :=
    Int.mul_nonneg (Int.natCast_nonneg _) (by decide)
  have hspan : 0 < (slot.entry.storedAt.afterSeconds N).since now :=
    Int.lt_of_le_of_lt hreserve hfresh.2
  exact lt_of_lt_of_le (Instant.lt_of_since_pos h.outside hspan) (h.bound hstates)

theorem Traces.cons {d : Deed} (h : Traces n N history i slot f)
    (hd : source? (d :: history) i slot.key = source? history i slot.key) :
    Traces n N (d :: history) i slot f :=
  ⟨hd.trans h.source, h.copies, h.outside, h.bound⟩

namespace Traced

variable {u v : Run} {setups : List Setup} {turns : List Turn} {count : Nat}
  {deed : List Nat → Deed}

theorem fresh (setups : List Setup) (N : Nat) : Traced setups.length N (Run.fresh setups) := by
  refine ⟨List.length_map _, fun i t ht slot hslot => ?_⟩
  rw [Run.fresh, List.getElem?_map, Option.map_eq_some_iff] at ht
  obtain ⟨s, -, rfl⟩ := ht
  cases hslot

/-- A turn that keeps nothing new leaves everything traced. -/
theorem of_shrinks (h : Traced n N u) (hhistory : v.history = u.history)
    (hlength : v.tiers.length = u.tiers.length)
    (htiers : ∀ (i : Nat) (t' : Tier Store), v.tiers[i]? = some t' →
      ∃ t, u.tiers[i]? = some t ∧ Shrinks t t') :
    Traced n N v := by
  refine ⟨hlength.trans h.length, fun i t' ht' slot hslot => ?_⟩
  obtain ⟨t, ht, hshrinks⟩ := htiers i t' ht'
  obtain ⟨old, hold, hagrees⟩ := hshrinks slot hslot
  obtain ⟨f, htraces⟩ := h.slots i t ht old hold
  rw [hhistory]
  exact ⟨f, htraces.of_agrees hagrees⟩

theorem descend (h : Traced n N u) (r : Request) (now : Instant) :
    Traced n N { u with tiers := (Stack.descend Store.backend r now 0 u.tiers).tiers } := by
  refine h.of_shrinks rfl (length_descend u.tiers 0) fun i t' ht' => ?_
  dsimp only at ht'
  rw [tiers_descend, getElem?_map_take, Option.map_eq_some_iff] at ht'
  obtain ⟨t, ht, rfl⟩ := ht'
  refine ⟨t, ht, ?_⟩
  split
  · exact shrinks_started
  · exact fun slot hslot => ⟨slot, hslot, rfl, rfl, rfl⟩

theorem clear (h : Traced n N u) (depth : Nat) :
    Traced n N { u with
      tiers := u.tiers.modify depth fun t => { t with storage := t.storage.clear } } := by
  refine h.of_shrinks rfl (List.length_modify _ _ _) fun i t' ht' => ?_
  rw [List.getElem?_modify, Option.map_eq_map, Option.map_eq_some_iff] at ht'
  obtain ⟨t, ht, rfl⟩ := ht'
  refine ⟨t, ht, ?_⟩
  split
  · exact shrinks_clear
  · exact fun slot hslot => ⟨slot, hslot, rfl, rfl, rfl⟩

/-- What comes up the first tiers is traced where it is kept, if it is a copy of what was fetched
and its lifetime from now on is within the bound of each of these tiers. -/
theorem keep (h : Traced n N u) (hnow : (now.afterSeconds N).isLeap = false)
    (hcopies : f.response.Copies p)
    (hbound : f.response.StatesMaxAge N → ∀ i < count,
      now.afterSeconds N ≤ f.now.afterSeconds ((n - i) * N))
    (hsource : ∀ kept depth key, source? (deed kept :: u.history) depth key =
      if Key.ofRequest r = key ∧ depth ∈ kept then some f else source? u.history depth key) :
    Traced n N (u.keep r now p count deed) := by
  refine ⟨Run.length_keep.trans h.length, fun i t' ht' slot hslot => ?_⟩
  rw [Run.getElem?_keep, Option.map_eq_some_iff] at ht'
  obtain ⟨t, ht, rfl⟩ := ht'
  -- what was there before keeps its fetch, as the deed is about other slots
  have hold : slot ∈ t.storage.slots → (i < count → Keeps Store.backend r now p t →
      slot.key ≠ Key.ofRequest r) →
      ∃ f', Traces n N (u.keep r now p count deed).history i slot f' := by
    intro hmem hkey
    obtain ⟨f', htraces⟩ := h.slots i t ht slot hmem
    refine ⟨f', htraces.cons ((hsource _ _ _).trans (if_neg ?_))⟩
    rintro ⟨hsame, hi⟩
    obtain ⟨hlt, t', ht', hkeeps⟩ := mem_keepers_ascend_zero.1 hi
    rw [ht, Option.some.injEq] at ht'
    exact hkey hlt (ht' ▸ hkeeps) hsame.symm
  split at hslot
  · rename_i hi
    rcases mem_slots_settled hslot with ⟨hkeeps, hkey, hentry⟩ | ⟨hmem, hkey⟩
    · refine ⟨f, ?_, ⟨p, ?_, hcopies⟩, ?_, fun hstates => ?_⟩
      · exact (hsource _ _ _).trans (if_pos ⟨hkey.symm,
          mem_keepers_ascend_zero.2 ⟨hi, t, ht, hkeeps⟩⟩)
      · rw [hentry]
        rfl
      · rw [hentry]
        exact hnow
      · rw [hentry]
        exact hbound hstates i hi
    · exact hold hmem fun _ => hkey
  · rename_i hi
    exact hold hslot fun hlt => absurd hlt hi

/-- What a tier answers comes from a fetch of which it has a slot, and is given in time. -/
theorem source_of_answer (h : Traced n N u)
    (hanswer : (Stack.descend Store.backend r now 0 u.tiers).standing = .answered q) :
    (Stack.descend Store.backend r now 0 u.tiers).passed < n
      ∧ ∃ f, source? u.history (Stack.descend Store.backend r now 0 u.tiers).passed
          (Key.ofRequest r) = some f
        ∧ f.response.Copies q
        ∧ (f.response.StatesMaxAge N →
          now < f.now.afterSeconds
            ((n - (Stack.descend Store.backend r now 0 u.tiers).passed) * N)) := by
  obtain ⟨t, ht, hstop⟩ := getElem?_passed_descend (by rw [hanswer]; exact nofun)
  rw [hanswer] at hstop
  obtain ⟨tag, e, hserve⟩ := serve_of_stopAt hstop
  obtain ⟨-, -, entry, hget, hconsider⟩ := Cache.start_eq_serve_iff.1 hserve
  obtain ⟨-, p, w, hserved, hmarked, -⟩ := Cache.consider_eq_serve_iff.1 hconsider
  obtain ⟨slot, hslot, hkey, hentry⟩ := Store.lookup_eq_ok hget
  obtain ⟨f, htraces⟩ := h.slots _ t ht slot hslot
  obtain ⟨hcopies, hbound⟩ := htraces.of_answer hentry hserved hmarked
  refine ⟨?_, f, hkey ▸ htraces.source, hcopies, hbound⟩
  rw [← h.length]
  exact (List.getElem?_eq_some_iff.1 ht).1

theorem step_ask (h : Traced n N u) (hnow : (now.afterSeconds N).isLeap = false) (r : Request) :
    Traced n N (u.step ⟨now, .ask r⟩) := by
  have hdown := h.descend r now
  cases hstanding : (Stack.descend Store.backend r now 0 u.tiers).standing with
  | passed =>
    rw [Run.step_ask_of_passed hstanding]
    exact ⟨hdown.length, hdown.slots⟩
  | crashed =>
    rw [Run.step_ask_of_crashed hstanding]
    exact hdown
  | answered q =>
    obtain ⟨hlt, f, hsource, hcopies, hbound⟩ := h.source_of_answer hstanding
    rw [Run.step_ask_of_answered hstanding]
    refine hdown.keep hnow hcopies (fun hstates i hi => ?_) fun kept depth key => ?_
    · exact Instant.afterSeconds_le_of_lt_mul (hbound hstates) (by omega) (by omega)
    · rw [source?]
      refine ite_congr rfl (fun hkey => ?_) fun _ => rfl
      rw [← hkey.1]
      exact hsource

theorem step_reply_ok (h : Traced n N u) (hnow : (now.afterSeconds N).isLeap = false) {place : Nat}
    (hr : u.waiting[place]? = some r) : Traced n N (u.step ⟨now, .reply place (.ok p)⟩) := by
  have hwaiting : Traced n N { u with waiting := u.waiting.eraseIdx place } := ⟨h.length, h.slots⟩
  have hcopies : (Fetch.mk p now).response.Copies p := .refl p
  rw [Run.step_reply_ok hr]
  refine hwaiting.keep hnow hcopies (fun _ i hi => ?_) fun kept depth key => ?_
  · rw [h.length] at hi
    exact now.afterSeconds_le_mul (by omega) N
  · rw [source?]

theorem step (h : Traced n N u) (t : Turn) (ht : (t.now.afterSeconds N).isLeap = false) :
    Traced n N (u.step t) := by
  obtain ⟨now, move⟩ := t
  cases move with
  | ask r => exact h.step_ask ht r
  | clear depth => exact h.clear depth
  | reply place result =>
    cases hr : u.waiting[place]? with
    | none =>
      rw [Run.step_reply_none hr]
      exact h
    | some r =>
      cases result with
      | ok p => exact h.step_reply_ok ht hr
      | error halt =>
        rw [Run.step_reply_error hr]
        exact ⟨h.length, h.slots⟩

/-- Everything is traced at every point of every run over stores that were empty, unless lifetimes
of no seconds meet leap seconds. -/
theorem ofTurns (setups : List Setup) (turns : List Turn) (N : Nat)
    (hleap : N = 0 → ∀ t ∈ turns, t.now.isLeap = false) :
    Traced setups.length N (Run.ofTurns setups turns) := by
  refine Run.after_inv (Traced setups.length N) turns (fun u t ht hu => hu.step t ?_)
    (Traced.fresh setups N)
  -- a leap second is over after any other number of seconds
  rcases Nat.eq_zero_or_pos N with rfl | hN
  · rw [Instant.afterSeconds_zero]
    exact hleap rfl t ht
  · exact t.now.isLeap_afterSeconds hN

end Traced

/-- How old the answers of a stack can be. At any point of any run of a stack whose stores were
empty, whatever the clock shows, let a request be answered by a tier. The answer is a copy of a
response that was fetched for a request of the same key, and if that response stated a lifetime of
`N` seconds, then the answer is given before as many such lifetimes have passed since the fetch as
there are tiers from the answering one down to the last. (Only where the lifetime is zero a leap
second on the clock can delay the end.) -/
theorem answered_before (setups : List Setup) (turns : List Turn) {r : Request} {now : Instant}
    {q : Response}
    (h : (descend Store.backend r now 0 (Run.ofTurns setups turns).tiers).answer = some q) :
    let u := Run.ofTurns setups turns
    let depth := (descend Store.backend r now 0 u.tiers).passed
    depth < setups.length
      ∧ ∃ f, source? u.history depth (Key.ofRequest r) = some f
        ∧ (∃ r' kept, Deed.fetched r' f kept ∈ u.history ∧ Key.ofRequest r' = Key.ofRequest r)
        ∧ f.response.Copies q
        ∧ ∀ N, f.response.StatesMaxAge N → (N = 0 → ∀ t ∈ turns, t.now.isLeap = false) →
          now < f.now.afterSeconds ((setups.length - depth) * N) := by
  intro u depth
  have hstanding := Descent.answer_eq_some_iff.1 h
  -- the fetch is the same for every lifetime: it is found with one that asks nothing of the clock
  obtain ⟨hdepth, f, hsource, hcopies, -⟩ :=
    (Traced.ofTurns setups turns 1 fun hN => by cases hN).source_of_answer hstanding
  refine ⟨hdepth, f, hsource, mem_of_source? hsource, hcopies, fun N hstates hleap => ?_⟩
  obtain ⟨-, f', hsource', -, hbound⟩ :=
    (Traced.ofTurns setups turns N hleap).source_of_answer hstanding
  obtain rfl : f = f' := Option.some.inj (hsource.symm.trans hsource')
  exact hbound hstates

end Stack

namespace Sample

open Stack

/-- A shared cache in front of another one. -/
def twoTiers : List Setup :=
  [⟨.sharedCache, .standard, "outer"⟩, ⟨.sharedCache, .standard, "inner"⟩]

/-- Both tiers keep what is fetched at a time. -/
def fetchedAt (now : Instant) (p : Response) : List Stack.Turn :=
  [⟨now, .ask request⟩, ⟨now, .reply 0 (.ok p)⟩]

/-- The outer tier loses the sample response and gets it back from the inner one, fifty seconds
after it was fetched. -/
def regained : List Stack.Turn :=
  fetchedAt .epoch response
    ++ [⟨.epoch, .clear 0⟩, ⟨Instant.epoch.afterSeconds 50, .ask request⟩]

/-- The leap second at the end of the year 2016. -/
def leapSecond : Instant := ⟨1483228799, 1500000000, by decide, by decide, by decide, by decide⟩

def nextDay : Instant :=
  ⟨1483228800, 0, by decide, by decide, Instant.epoch.nanos_lt, by decide⟩

def shortLived : Response :=
  { response with
    headers :=
      Headers.empty.append .cacheControl ⟨Bytes.ofText "max-age=0", by decide⟩
        Headers.hasRoom_empty }

end Sample

namespace Stack

/-- The way of the sample request down the two tiers after some turns. -/
def sampleDescent (turns : List Turn) (now : Instant) : Descent Store :=
  descend Store.backend Sample.request now 0 (Run.ofTurns Sample.twoTiers turns).tiers

theorem states_sample : Sample.response.StatesMaxAge 60 :=
  ⟨"max-age=60".toList, { maxAge := some 60 }, eq_ok_of_toOption (by decide +kernel),
    eq_ok_of_toOption (by decide +kernel), rfl, rfl⟩

theorem answered_before_sample :
    ∃ q, (sampleDescent Sample.regained (Instant.epoch.afterSeconds 100)).answer = some q
      ∧ Sample.response.Copies q
      ∧ Instant.epoch.afterSeconds 100 < Instant.epoch.afterSeconds (2 * 60) := by
  have hanswered : (sampleDescent Sample.regained
      (Instant.epoch.afterSeconds 100)).answer.isSome = true := by decide +kernel
  have hpassed : (sampleDescent Sample.regained (Instant.epoch.afterSeconds 100)).passed = 0 := by
    decide +kernel
  have hsource : source? (Run.ofTurns Sample.twoTiers Sample.regained).history 0
      (Key.ofRequest Sample.request) = some ⟨Sample.response, .epoch⟩ := by decide +kernel
  obtain ⟨q, hq⟩ := Option.isSome_iff_exists.1 hanswered
  obtain ⟨-, f, hf, -, hcopies, hbefore⟩ := answered_before Sample.twoTiers Sample.regained hq
  rw [show (descend Store.backend _ _ _ _).passed = 0 from hpassed] at hf hbefore
  obtain rfl := Option.some.inj (hsource.symm.trans hf)
  exact ⟨q, hq, hcopies, hbefore 60 states_sample (by decide)⟩

/-- Two tiers can answer later than one lifetime after the fetch. The outer one regains a response
of a minute after fifty seconds and still serves it when a hundred have passed. And a response
without any lifetime that came in during a leap second at the end of a day is served on the next
day. -/
theorem answered_late :
    ((sampleDescent Sample.regained (Instant.epoch.afterSeconds 100)).answer.isSome = true
        ∧ source? (Run.ofTurns Sample.twoTiers Sample.regained).history
          (sampleDescent Sample.regained (Instant.epoch.afterSeconds 100)).passed
          (Key.ofRequest Sample.request) = some ⟨Sample.response, .epoch⟩
        ∧ Sample.response.StatesMaxAge 60
        ∧ ¬ Instant.epoch.afterSeconds 100 < Instant.epoch.afterSeconds 60)
      ∧ ((sampleDescent (Sample.fetchedAt Sample.leapSecond Sample.shortLived)
          Sample.nextDay).answer.isSome = true
        ∧ Sample.shortLived.StatesMaxAge 0
        ∧ ¬ Sample.nextDay < Sample.leapSecond.afterSeconds 0) := by
  refine ⟨⟨by decide +kernel, by decide +kernel, states_sample, by decide +kernel⟩,
    by decide +kernel, ⟨"max-age=0".toList, { maxAge := some 0 }, ?_, ?_, rfl, rfl⟩,
    by decide +kernel⟩
  · exact eq_ok_of_toOption (by decide +kernel)
  · exact eq_ok_of_toOption (by decide +kernel)

end Stack

end ResponseCache
