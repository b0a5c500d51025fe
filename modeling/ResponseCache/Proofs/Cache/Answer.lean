import ResponseCache.Cache.Answer
import ResponseCache.Proofs.Evaluation.Freshness
import ResponseCache.Proofs.Wire.Overfull

/-!
# What a cache decides

One theorem for each decision of a cache, in terms of what its inputs say: when a found entry is
served (`consider_eq_serve_iff`), when it crashes the cache (`consider_eq_crash_iff`), when a live
response is written (`weigh_eq_write_iff`), and what the two parts of an answer report and leave in
the storage. All other ways through a decision end in an event that is neither a hit nor a write
(`isPass_of_find`, `isSkip_of_weigh`).
-/

namespace ResponseCache

namespace Event

/-- The tag and the time of expiry that a hit reports. -/
def hit? : Event → Option (String × Instant)
  | .hit origin e => some (origin, e)
  | _ => none

theorem hit?_eq_some_iff {event : Event} {origin : String} {e : Instant} :
    event.hit? = some (origin, e) ↔ event = .hit origin e := by
  cases event <;> simp [hit?]

theorem bind_hit?_eq_some_iff {event? : Option Event} {origin : String} {e : Instant} :
    event?.bind hit? = some (origin, e) ↔ event? = some (.hit origin e) := by
  cases event? with
  | none => exact iff_of_false nofun nofun
  | some event => rw [Option.bind_some, hit?_eq_some_iff, Option.some.injEq]

end Event

namespace Cache

open Exchange

variable {σ : Type} {b : Backend σ} {c : Config} {storage : σ} {r : Request} {origin : String}
  {now e : Instant} {entry : Entry} {p q : Response} {w : Reading} {event : Event}

/-- Entry `entry` may be served at `now` as the answer to `r`: it decodes to a response `p` whose
headers say `w`, which may be kept, and which is fresh. -/
structure Servable (c : Config) (r : Request) (now : Instant) (entry : Entry) (p : Response)
    (w : Reading) : Prop where
  decodes : entry.response r.method = .ok p
  admissible : (r.exchange p).Admissible c w
  fresh : (w.assessment (r.exchange p) now entry.storedAt).freshness
    ((w.assessment (r.exchange p) now entry.storedAt).expiresAt c) = .fresh

/-- Entry `entry` crashes a cache that gives it to `r` at `now`: it is not to be read, for it has
more header names than there is room for, or it may be served and the markers find no room. -/
inductive Overfull (c : Config) (r : Request) (now : Instant) (entry : Entry) : Prop
  | reading (h : Wire.Overfull entry.wire)
  | marking {p : Response} {w : Reading} (h : Servable c r now entry p w)
    (hfull : HeaderField.capacity ≤ p.headers.dressedLength)

/-- What a lookup comes to when the entry decodes and the headers of both sides are well formed. -/
theorem consider_of_reads (hp : entry.response r.method = .ok p) (hw : (r.exchange p).Reads w) :
    consider c r origin now entry =
      let a := w.assessment (r.exchange p) now entry.storedAt
      if a.reasons c ≠ [] then .pass (.miss .ineligible)
      else if a.freshness (a.expiresAt c) = .fresh then
        match p.marked? entry.storedAt origin with
        | some marked => .serve origin marked (a.expiresAt c)
        | none => .crash
      else .pass (.miss .expired) := by
  unfold consider
  simp only [hp, hw.assess, Assessment.verdict, Verdict.isStorable,
    Assessment.freshness_eq_stale_iff]
  by_cases hreasons : (w.assessment (r.exchange p) now entry.storedAt).reasons c = []
  · cases p.marked? entry.storedAt origin <;> simp [hreasons]
  · simp [hreasons]

/-- What a lookup comes to when the entry may be served: the answer if the markers find room. -/
theorem consider_of_servable (h : Servable c r now entry p w) :
    consider c r origin now entry =
      match p.marked? entry.storedAt origin with
      | some marked =>
        .serve origin marked ((w.assessment (r.exchange p) now entry.storedAt).expiresAt c)
      | none => .crash := by
  have hreasons := (reasons_eq_nil_iff h.admissible.toReads c now entry.storedAt).2 h.admissible
  rw [consider_of_reads h.decodes h.admissible.toReads]
  simp only [hreasons, ne_eq, not_true_eq_false, if_false, h.fresh, if_true]

/-- A lookup that comes to anything but an event has found a servable entry or octets that crash the
reader. -/
theorem servable_of_consider (h : ∀ event, consider c r origin now entry ≠ .pass event) :
    (∃ p w, Servable c r now entry p w) ∨ entry.response r.method = .error .crashed := by
  cases hp : entry.response r.method with
  | error halt =>
    cases halt with
    | failed fault => exact absurd (by rw [consider, hp]) (h _)
    | crashed => exact .inr rfl
  | ok p =>
    refine .inl ?_
    cases ha : (r.exchange p).assess now entry.storedAt with
    | error fault =>
      refine absurd ?_ (h (.validationFailed .lookup fault))
      simp only [consider, hp, ha]
    | ok a =>
      obtain ⟨w, hw, -⟩ := assess_eq_ok_iff.1 ha
      have hconsider : consider c r origin now entry = _ := consider_of_reads hp hw
      dsimp only at hconsider
      split at hconsider
      · exact absurd hconsider (h _)
      · rename_i hreasons
        split at hconsider
        · rename_i hfresh
          have hadm := (reasons_eq_nil_iff hw c now entry.storedAt).1 (Decidable.not_not.1 hreasons)
          exact ⟨p, w, hp, hadm, hfresh⟩
        · exact absurd hconsider (h _)

/-- A found entry is served exactly if it is servable and the markers find room: with the markers
and until it expires. -/
theorem consider_eq_serve_iff {tag : String} :
    consider c r origin now entry = .serve tag q e ↔
      origin = tag ∧ ∃ p w, Servable c r now entry p w
        ∧ p.marked? entry.storedAt tag = some q
        ∧ (w.assessment (r.exchange p) now entry.storedAt).expiresAt c = e := by
  constructor
  · intro h
    have hpass : ∀ event, consider c r origin now entry ≠ .pass event := fun _ hpass =>
      nomatch h.symm.trans hpass
    rcases servable_of_consider hpass with ⟨p, w, hs⟩ | hcrashed
    · rw [consider_of_servable hs] at h
      cases hmarked : p.marked? entry.storedAt origin with
      | none =>
        rw [hmarked] at h
        cases h
      | some marked =>
        rw [hmarked, Finding.serve.injEq] at h
        obtain ⟨rfl, rfl, rfl⟩ := h
        exact ⟨rfl, p, w, hs, hmarked, rfl⟩
    · rw [consider, hcrashed] at h
      cases h
  · rintro ⟨rfl, p, w, hs, hmarked, rfl⟩
    rw [consider_of_servable hs, hmarked]

/-- A found entry crashes the cache exactly if it is overfull. -/
theorem consider_eq_crash_iff :
    consider c r origin now entry = .crash ↔ Overfull c r now entry := by
  constructor
  · intro h
    have hpass : ∀ event, consider c r origin now entry ≠ .pass event := fun _ hpass =>
      nomatch h.symm.trans hpass
    rcases servable_of_consider hpass with ⟨p, w, hs⟩ | hcrashed
    · rw [consider_of_servable hs] at h
      cases hmarked : p.marked? entry.storedAt origin with
      | none => exact .marking hs (Response.marked?_eq_none_iff.1 hmarked)
      | some marked =>
        rw [hmarked] at h
        cases h
    · exact .reading ((Wire.decode_eq_crashed_iff _ _).1 hcrashed)
  · rintro (hread | ⟨hs, hfull⟩)
    · have hcrashed : entry.response r.method = .error .crashed :=
        (Wire.decode_eq_crashed_iff _ _).2 hread
      rw [consider, hcrashed]
    · rw [consider_of_servable hs, Response.marked?_eq_none_iff.2 hfull]

/-- The events of a lookup that serves nothing: a miss, a failed lookup or malformed headers. -/
def IsPass (event : Event) : Prop :=
  (∃ cause, event = .miss cause) ∨ (∃ failure, event = .lookupFailed failure)
    ∨ ∃ fault, event = .validationFailed .lookup fault

theorem isPass_of_consider (h : consider c r origin now entry = .pass event) : IsPass event := by
  unfold consider at h
  split at h
  · cases h
  · cases h
    exact .inr (.inl ⟨_, rfl⟩)
  · split at h
    · cases h
      exact .inr (.inr ⟨_, rfl⟩)
    · dsimp only at h
      split at h
      · cases h
        exact .inl ⟨_, rfl⟩
      · split at h
        · cases h
          exact .inl ⟨_, rfl⟩
        · split at h <;> cases h

theorem find_ok : find c r origin now (.ok entry) = consider c r origin now entry := by
  rw [find]

theorem isPass_of_find {got : Except Failure Entry} (h : find c r origin now got = .pass event) :
    IsPass event := by
  cases got with
  | ok entry =>
    rw [find_ok] at h
    exact isPass_of_consider h
  | error failure =>
    unfold find at h
    dsimp only at h
    split at h
    · cases h
      exact .inl ⟨_, rfl⟩
    · split at h
      · cases h
        exact .inl ⟨_, rfl⟩
      · cases h
        exact .inr (.inl ⟨_, rfl⟩)

theorem find_error_eq_pass (failure : Failure) :
    ∃ event, find c r origin now (.error failure) = .pass event := by
  unfold find
  dsimp only
  split
  · exact ⟨_, rfl⟩
  · split <;> exact ⟨_, rfl⟩

/-- What is not an event comes from an entry. -/
theorem exists_entry_of_find {got : Except Failure Entry}
    (h : ∀ event, find c r origin now got ≠ .pass event) :
    ∃ entry, got = .ok entry ∧ find c r origin now got = consider c r origin now entry := by
  cases got with
  | ok entry => exact ⟨entry, rfl, find_ok⟩
  | error failure =>
    obtain ⟨event, hpass⟩ : ∃ event, find c r origin now (.error failure) = .pass event :=
      find_error_eq_pass failure
    exact absurd hpass (h event)

theorem find_eq_serve_iff {got : Except Failure Entry} {tag : String} :
    find c r origin now got = .serve tag q e ↔
      ∃ entry, got = .ok entry ∧ consider c r origin now entry = .serve tag q e := by
  constructor
  · intro h
    obtain ⟨entry, hgot, heq⟩ := exists_entry_of_find fun _ hpass => nomatch h.symm.trans hpass
    exact ⟨entry, hgot, heq.symm.trans h⟩
  · rintro ⟨entry, rfl, h⟩
    rw [find_ok, h]

theorem find_eq_crash_iff {got : Except Failure Entry} :
    find c r origin now got = .crash ↔ ∃ entry, got = .ok entry ∧ Overfull c r now entry := by
  constructor
  · intro h
    obtain ⟨entry, hgot, heq⟩ := exists_entry_of_find fun _ hpass => nomatch h.symm.trans hpass
    exact ⟨entry, hgot, consider_eq_crash_iff.1 (heq.symm.trans h)⟩
  · rintro ⟨entry, rfl, h⟩
    rw [find_ok, consider_eq_crash_iff.2 h]

/-! ## Before the origin is asked -/

section Start

theorem start_of_bypass (h : looksUp c r = false) :
    start b c storage r now = ⟨storage, .pass .bypass⟩ := by
  rw [start, if_neg (by simp [h])]

theorem start_of_looksUp (h : looksUp c r = true) :
    start b c storage r now =
      let got := b.get storage (Key.ofRequest r) now
      ⟨got.2, find c r (b.origin got.2) now got.1⟩ := by
  unfold start
  exact if_pos h

/-- The first part of an answer changes the storage by the lookup alone. -/
theorem start_storage :
    (start b c storage r now).storage =
      if looksUp c r then (b.get storage (Key.ofRequest r) now).2 else storage := by
  cases h : looksUp c r with
  | false =>
    rw [start_of_bypass h]
    rfl
  | true =>
    rw [start_of_looksUp h]
    rfl

/-- What is passed on is reported with a bypass or with what kept the lookup from serving. -/
theorem event_of_start_eq_pass (h : (start b c storage r now).finding = .pass event) :
    (looksUp c r = false ∧ event = .bypass) ∨ (looksUp c r = true ∧ IsPass event) := by
  cases hlooks : looksUp c r with
  | false =>
    rw [start_of_bypass hlooks] at h
    cases h
    exact .inl ⟨rfl, rfl⟩
  | true =>
    rw [start_of_looksUp hlooks] at h
    exact .inr ⟨rfl, isPass_of_find h⟩

/-- A cache serves a response exactly when it looks for one and the lookup comes to it. -/
theorem start_eq_serve_iff :
    (start b c storage r now).finding = .serve origin q e ↔
      looksUp c r = true ∧ b.origin (b.get storage (Key.ofRequest r) now).2 = origin
        ∧ ∃ entry, (b.get storage (Key.ofRequest r) now).1 = .ok entry
          ∧ consider c r origin now entry = .serve origin q e := by
  cases h : looksUp c r with
  | false => simp [start_of_bypass h]
  | true =>
    rw [start_of_looksUp h]
    dsimp only
    rw [find_eq_serve_iff]
    constructor
    · rintro ⟨entry, hget, hserve⟩
      obtain ⟨rfl, -⟩ := consider_eq_serve_iff.1 hserve
      exact ⟨rfl, rfl, entry, hget, hserve⟩
    · rintro ⟨-, rfl, entry, hget, hserve⟩
      exact ⟨entry, hget, hserve⟩

/-- A cache crashes exactly when it looks for an answer and is given an overfull entry. -/
theorem start_eq_crash_iff :
    (start b c storage r now).finding = .crash ↔
      looksUp c r = true ∧ ∃ entry, (b.get storage (Key.ofRequest r) now).1 = .ok entry
        ∧ Overfull c r now entry := by
  cases h : looksUp c r with
  | false => simp [start_of_bypass h]
  | true =>
    rw [start_of_looksUp h]
    dsimp only
    rw [find_eq_crash_iff, eq_self, true_and]

/-- A cache reports a hit exactly when it serves a response, and then it answers with that
response. -/
theorem start_eq_hit_iff :
    (start b c storage r now).event? = some (.hit origin e) ↔
      ∃ q, (start b c storage r now).finding = .serve origin q e
        ∧ (start b c storage r now).answer = some q := by
  unfold Started.event? Started.answer
  cases hfinding : (start b c storage r now).finding with
  | serve tag q e' =>
    simp only [Finding.event?, Finding.answer?, Option.some.injEq, Event.hit.injEq,
      Finding.serve.injEq]
    constructor
    · rintro ⟨rfl, rfl⟩
      exact ⟨q, ⟨rfl, rfl, rfl⟩, rfl⟩
    · rintro ⟨q', ⟨rfl, -, rfl⟩, -⟩
      exact ⟨rfl, rfl⟩
  | pass event =>
    refine iff_of_false (fun h => ?_) (fun ⟨_, h, _⟩ => nomatch h)
    rw [Finding.event?, Option.some.injEq] at h
    subst h
    rcases event_of_start_eq_pass hfinding with ⟨-, h⟩ | ⟨-, ⟨_, h⟩ | ⟨_, h⟩ | ⟨_, h⟩⟩ <;> cases h
  | crash => simp [Finding.event?]

/-- Behind a hit stands an entry of the storage that is servable, and the answer is the response
that it decodes to, with the three markers. -/
theorem servable_of_hit (h : (start b c storage r now).event? = some (.hit origin e)) :
    ∃ entry p w q, (b.get storage (Key.ofRequest r) now).1 = .ok entry
      ∧ Servable c r now entry p w
      ∧ (w.assessment (r.exchange p) now entry.storedAt).expiresAt c = e
      ∧ b.origin (b.get storage (Key.ofRequest r) now).2 = origin
      ∧ p.marked? entry.storedAt origin = some q
      ∧ (start b c storage r now).answer = some q := by
  obtain ⟨q, hserve, hanswer⟩ := start_eq_hit_iff.1 h
  obtain ⟨-, horigin, entry, hget, hserve⟩ := start_eq_serve_iff.1 hserve
  obtain ⟨-, p, w, hs, hmarked, he⟩ := consider_eq_serve_iff.1 hserve
  exact ⟨entry, p, w, q, hget, hs, he, horigin, hmarked, hanswer⟩

/-- What a cache answers without asking the origin it reports as a hit. -/
theorem exists_hit_of_answer (h : (start b c storage r now).answer = some q) :
    looksUp c r = true ∧ ∃ origin e, (start b c storage r now).event? = some (.hit origin e) := by
  unfold Started.answer at h
  cases hfinding : (start b c storage r now).finding with
  | serve tag q' e =>
    obtain ⟨hlooks, -⟩ := start_eq_serve_iff.1 hfinding
    exact ⟨hlooks, tag, e, congrArg Finding.event? hfinding⟩
  | pass event => simp [hfinding, Finding.answer?] at h
  | crash => simp [hfinding, Finding.answer?] at h

end Start

/-! ## When a live response is in -/

section Settle

/-- A live response is written exactly if it may be kept: as the entry of the response, and until it
expires. -/
theorem weigh_eq_write_iff :
    weigh c r origin now p = .write entry e ↔
      ∃ w, (r.exchange p).Admissible c w
        ∧ Entry.ofResponse r.method r.uri.text now p origin = entry
        ∧ (w.assessment (r.exchange p) now now).expiresAt c = e := by
  constructor
  · intro h
    unfold weigh judge at h
    split at h
    · cases h
    · cases ha : (r.exchange p).assess now now with
      | error fault =>
        rw [ha] at h
        cases h
      | ok a =>
        obtain ⟨w, hw, rfl⟩ := assess_eq_ok_iff.1 ha
        rw [ha] at h
        dsimp only [Except.map] at h
        split at h
        · rename_i hstorable
          have hreasons := List.isEmpty_iff.1 hstorable
          dsimp only [Assessment.verdict] at h
          rw [Admission.write.injEq] at h
          exact ⟨w, (reasons_eq_nil_iff hw c now now).1 hreasons, h.1, h.2⟩
        · cases h
  · rintro ⟨w, h, rfl, rfl⟩
    have hstatus : p.status.isCacheable = true := Status.isCacheable_iff.2 h.success
    have hreasons := (reasons_eq_nil_iff h.toReads c now now).2 h
    simp only [weigh, judge, hstatus, h.toReads.assess, Except.map, Bool.not_true,
      Bool.false_eq_true, if_false, Assessment.verdict, Verdict.isStorable, hreasons,
      List.isEmpty_nil, if_true]

/-- The events of a live response that is not offered to the storage: it is skipped or malformed. -/
def IsSkip (event : Event) : Prop :=
  (∃ cause, event = .storeSkipped cause) ∨ ∃ fault, event = .validationFailed .store fault

theorem isSkip_of_weigh (h : weigh c r origin now p = .skip event) : IsSkip event := by
  unfold weigh at h
  split at h
  · cases h
    exact .inl ⟨_, rfl⟩
  · split at h
    · cases h
      exact .inr ⟨_, rfl⟩
    · split at h
      · cases h
      · cases h
        exact .inl ⟨_, rfl⟩

/-- The write of the entry of a live response. -/
def offer (b : Backend σ) (c : Config) (storage : σ) (r : Request) (now : Instant) (p : Response) :
    WriteReply σ :=
  b.set storage (Key.ofRequest r) (Entry.ofResponse r.method r.uri.text now p (b.origin storage))
    c.entryTtl now

/-- The second part of an answer changes the storage by the write alone. -/
theorem settle_storage :
    (settle b c storage r now p).storage =
      match weigh c r (b.origin storage) now p with
      | .skip _ => storage
      | .write entry _ => (b.set storage (Key.ofRequest r) entry c.entryTtl now).state := by
  unfold settle
  cases weigh c r (b.origin storage) now p with
  | skip event => rfl
  | write entry e =>
    dsimp only
    split <;> rfl

/-- The second part of an answer offers the entry of the response to the storage if the response may
be kept, and reports whether the storage took it; otherwise it leaves the storage alone. -/
theorem settle_cases (b : Backend σ) (c : Config) (storage : σ) (r : Request) (now : Instant)
    (p : Response) :
    (∃ w e, (r.exchange p).Admissible c w
        ∧ (w.assessment (r.exchange p) now now).expiresAt c = e
        ∧ (offer b c storage r now p).result = .ok ()
        ∧ settle b c storage r now p = ⟨(offer b c storage r now p).state, .stored e,
          (offer b c storage r now p).records⟩)
      ∨ (∃ failure, (offer b c storage r now p).result = .error failure
        ∧ settle b c storage r now p = ⟨(offer b c storage r now p).state, .storeFailed failure,
          (offer b c storage r now p).records⟩)
      ∨ ∃ event, IsSkip event ∧ settle b c storage r now p = ⟨storage, event, []⟩ := by
  cases hw : weigh c r (b.origin storage) now p with
  | skip event =>
    refine .inr (.inr ⟨event, isSkip_of_weigh hw, ?_⟩)
    rw [settle, hw]
  | write entry e =>
    obtain ⟨w, hadm, rfl, he⟩ := weigh_eq_write_iff.1 hw
    rw [settle, hw]
    dsimp only
    rw [← offer]
    cases hresult : (offer b c storage r now p).result with
    | ok _ => exact .inl ⟨w, e, hadm, he, rfl, rfl⟩
    | error failure => exact .inr (.inl ⟨failure, rfl, rfl⟩)

end Settle

end Cache

/-! A request, a response to it and a store, for the instances of general theorems. -/

namespace Sample

/-- A request without headers for the target `/`. -/
def request : Request := ⟨.get, ⟨"/", by decide⟩, .empty, []⟩

/-- A response that stays fresh for a minute. -/
def response : Response where
  version := .http11
  status := ⟨200, by decide, by decide⟩
  headers :=
    Headers.empty.append .cacheControl ⟨Bytes.ofText "max-age=60", by decide⟩ Headers.hasRoom_empty
  body := Bytes.ofText "hello"

/-- When the response expires if it is received at the epoch. -/
def expiry : Instant := (Instant.epoch.shift? 60000000000).getD .epoch

/-- An empty store of standard limits. -/
def store : Store := Store.empty .standard Store.defaultOrigin

end Sample

end ResponseCache
