import Mathlib
import ResponseCache.Proofs.Traffic.Statistics

/-!
# What becomes of the lookups

A lookup serves a kept response or falls through to the origin, and if it falls through it reports a
miss or a failure. The statistics count the failures apart from the misses, together with failures
of other kinds. So the misses are the lookups that fall through less the failed ones
(`misses_of_sends`), and the part of hits is taken among the lookups that have not failed. A lookup
fails when the storage does, when the entry does not decode or when the headers are malformed
(`Cache.Unusable`). A lookup that crashes does neither and is not counted.
-/

namespace ResponseCache

namespace Event

/-- A lookup has failed: the storage, the entry or the headers were no good. -/
def isFailedLookup : Event → Bool
  | .lookupFailed _ | .validationFailed .lookup _ => true
  | _ => false

end Event

/-- The part of hits, when hits and misses add up to `n`, modulo `2 ^ 64`. -/
theorem Stats.hitRatio_eq {s : Stats} {n : UInt64} (h : s.hits + s.misses = n) :
    s.hitRatio = if n = 0 then 0 else s.hits.toFloat / n.toFloat := by
  rw [hitRatio, h]

/-! ## One lookup -/

namespace Cache

/-- What the storage gives is of no use to a lookup for `r`: it fails other than by having nothing,
or its entry does not decode, or the headers of the exchange are malformed. -/
inductive Unusable (r : Request) : Except Failure Entry → Prop
  | failed {failure : Failure} (h : failure.isMiss = false) : Unusable r (.error failure)
  | undecodable {entry : Entry} {fault : WireFault}
    (h : entry.response r.method = .error (.failed fault)) : Unusable r (.ok entry)
  | malformed {entry : Entry} {p : Response} (hp : entry.response r.method = .ok p)
    (h : ∀ w, ¬ (r.exchange p).Reads w) : Unusable r (.ok entry)

/-- A lookup has come to nothing by a failure. -/
def Finding.isFailed : Finding → Bool
  | .pass event => event.isFailedLookup
  | _ => false

variable {σ : Type} {b : Backend σ} {c : Config} {storage : σ} {r : Request} {origin : String}
  {now : Instant} {entry : Entry} {got : Except Failure Entry}

theorem isFailed_consider_iff :
    (consider c r origin now entry).isFailed = true ↔ Unusable r (.ok entry) := by
  cases hp : entry.response r.method with
  | error halt =>
    cases halt with
    | failed fault =>
      refine iff_of_true ?_ (.undecodable hp)
      simp only [consider, hp]
      rfl
    | crashed =>
      refine iff_of_false ?_ fun h => ?_
      · simp only [consider, hp]
        exact Bool.false_ne_true
      · cases h with
        | undecodable hfault => cases hp.symm.trans hfault
        | malformed hp' _ => cases hp.symm.trans hp'
  | ok p =>
    cases ha : (r.exchange p).assess now entry.storedAt with
    | error fault =>
      have hnot : ∀ w, ¬ (r.exchange p).Reads w := fun w hw => by
        rw [hw.assess] at ha
        cases ha
      refine iff_of_true ?_ (.malformed hp hnot)
      simp only [consider, hp, ha]
      rfl
    | ok a =>
      obtain ⟨w, hw, -⟩ := Exchange.assess_eq_ok_iff.1 ha
      refine iff_of_false ?_ fun h => ?_
      · rw [consider_of_reads hp hw]
        dsimp only
        split
        · exact Bool.false_ne_true
        · split
          · cases p.marked? entry.storedAt origin <;> simp [Finding.isFailed]
          · exact Bool.false_ne_true
      · cases h with
        | undecodable hfault => cases hp.symm.trans hfault
        | malformed hp' hnot =>
          obtain rfl := Except.ok.inj (hp.symm.trans hp')
          exact hnot w hw

theorem isFailed_find_iff :
    (find c r origin now got).isFailed = true ↔ Unusable r got := by
  cases got with
  | ok entry =>
    rw [find_ok]
    exact isFailed_consider_iff
  | error failure =>
    have hunusable : Unusable r (.error failure) ↔ failure.isMiss = false :=
      ⟨fun h => by cases h; assumption, .failed⟩
    rw [hunusable]
    unfold find
    dsimp only
    split
    · rename_i hexpired
      simp [Finding.isFailed, Event.isFailedLookup, Failure.isMiss, hexpired]
    · split
      · rename_i hmiss
        simp [Finding.isFailed, Event.isFailedLookup, hmiss]
      · rename_i hmiss
        simp [Finding.isFailed, Event.isFailedLookup, hmiss]

/-- A cache reports a failed lookup exactly when it looks for a kept response and the storage gives
something of no use. -/
theorem isFailed_start_iff :
    (start b c storage r now).finding.isFailed = true ↔
      looksUp c r = true ∧ Unusable r (b.get storage (Key.ofRequest r) now).1 := by
  cases h : looksUp c r with
  | false =>
    rw [start_of_bypass h]
    exact iff_of_false Bool.false_ne_true fun h => Bool.false_ne_true h.1
  | true =>
    rw [and_iff_right rfl, start_of_looksUp h]
    exact isFailed_find_iff

theorem start_eq_bypass_iff :
    (start b c storage r now).finding = .pass .bypass ↔ looksUp c r = false := by
  constructor
  · intro h
    obtain ⟨hlooks, -⟩ | ⟨-, ⟨_, h⟩ | ⟨_, h⟩ | ⟨_, h⟩⟩ := event_of_start_eq_pass h
    · exact hlooks
    all_goals cases h
  · intro h
    rw [start_of_bypass h]

end Cache

namespace Traffic

variable {ι σ : Type}

/-! ## The lookup of one send -/

section Send

variable {r : Request} {stage : Stage} {acts : List Act} {looks : Bool} {event : Event}

/-- What a send has done begins with a bypass exactly if the send does not look anything up, and a
send that crashes has looked something up. -/
structure Agrees (looks : Bool) (acts : List Act) : Prop where
  bypass : ∀ event answer, .looked event answer ∈ acts → (event.event = .bypass ↔ looks = false)
  crash : .crashed ∈ acts → looks = true

/-- A send looked for a kept response and went on to the origin, whose answer may still be due. -/
def passedOn (looks : Bool) (stage : Stage) (acts : List Act) : Bool :=
  looks && (stage.isPassed || acts.any Act.isFetch)

/-- Of the events that open a send which is not answered from the storage, one says that nothing was
looked up, and all others are either misses or failed lookups. -/
theorem counts_of_opening (h : Opening event) (hlooks : event = .bypass ↔ looks = false) :
    ((if event.isOf .miss then 1 else 0) + if event.isFailedLookup then 1 else 0)
      = if looks then 1 else 0 := by
  rcases h with rfl | hpass
  · obtain rfl := hlooks.1 rfl
    rfl
  · have htrue : looks = true := by
      refine Bool.of_not_eq_false fun hfalse => ?_
      have hbypass := hlooks.2 hfalse
      obtain ⟨_, rfl⟩ | ⟨_, rfl⟩ | ⟨_, rfl⟩ := hpass <;> cases hbypass
    subst htrue
    obtain ⟨_, rfl⟩ | ⟨_, rfl⟩ | ⟨_, rfl⟩ := hpass <;> rfl

/-- The act reports nothing of a lookup. -/
def NoLookup (act : Act) : Prop :=
  act.isHit = false ∧ act.reports (Event.isOf .miss) = false
    ∧ act.reports Event.isFailedLookup = false

theorem noLookup_fetched (reply : Except (Halt Failure) Response) : NoLookup (.fetched r reply) :=
  ⟨rfl, rfl, rfl⟩

theorem noLookup_settled {key : Key} {p : Response} {now : Instant} {records : List LogRecord}
    (h : Closing event) : NoLookup (.settled r p now ⟨key, event⟩ records) := by
  refine ⟨isHit_of_closing h, ?_⟩
  rcases h with ⟨_, rfl⟩ | ⟨_, rfl⟩ | ⟨_, rfl⟩ | ⟨_, rfl⟩ <;> exact ⟨rfl, rfl⟩

/-- Whatever a send does after its lookup, the lookup alone counts as a miss or as a failure. -/
theorem counts_of_opened {later : List Act} {key : Key}
    (hacts : acts = later ++ [.looked ⟨key, event⟩ none]) (hopening : Opening event)
    (hagrees : Agrees looks acts) (hlater : ∀ act ∈ later, NoLookup act) :
    acts.countP Act.isHit = 0
      ∧ acts.countP (Act.reports (Event.isOf .miss))
          + acts.countP (Act.reports Event.isFailedLookup)
        = if looks then 1 else 0 := by
  have hzero : ∀ kind : Act → Bool, (∀ act ∈ later, kind act = false) →
      acts.countP kind = if kind (.looked ⟨key, event⟩ none) then 1 else 0 := by
    intro kind hkind
    have hnone : later.countP kind = 0 :=
      List.countP_eq_zero.2 fun act hact => Bool.eq_false_iff.1 (hkind act hact)
    rw [hacts, List.countP_append, hnone, Nat.zero_add, List.countP_singleton]
  have hlooks : event = .bypass ↔ looks = false := by
    refine hagrees.bypass ⟨key, event⟩ none ?_
    rw [hacts]
    exact List.mem_append_right _ (List.mem_singleton_self _)
  rw [hzero _ fun act hact => (hlater act hact).1, hzero _ fun act hact => (hlater act hact).2.1,
    hzero _ fun act hact => (hlater act hact).2.2, isHit_of_opening hopening]
  exact ⟨rfl, counts_of_opening hopening hlooks⟩

/-- A send that looks for a kept response hits, or crashes, or goes on to the origin, and if it goes
on, it has reported one miss or one failed lookup. -/
theorem Course.lookup (h : Course r stage acts) (hagrees : Agrees looks acts) :
    acts.countP Act.isHit + (if passedOn looks stage acts then 1 else 0)
          + (if stage.isCrashed then 1 else 0)
        = (if stage.hasBegun && looks then 1 else 0)
      ∧ acts.countP (Act.reports (Event.isOf .miss))
          + acts.countP (Act.reports Event.isFailedLookup)
        = if passedOn looks stage acts then 1 else 0 := by
  cases h with
  | idle => cases looks <;> exact ⟨rfl, rfl⟩
  | hit =>
    have hlooks := hagrees.bypass _ _ List.mem_cons_self
    obtain rfl : looks = true := by simpa using hlooks
    exact ⟨rfl, rfl⟩
  | crashed =>
    obtain rfl := hagrees.crash List.mem_cons_self
    exact ⟨rfl, rfl⟩
  | passed hopening =>
    have hlater : ∀ act ∈ [], NoLookup act := List.forall_mem_nil _
    obtain ⟨hhit, hcounts⟩ := counts_of_opened rfl hopening hagrees hlater
    cases looks <;> exact ⟨congrArg (· + _ + _) hhit, hcounts⟩
  | @failed event failure hopening =>
    have hlater : ∀ act ∈ [Act.fetched r (.error failure)], NoLookup act :=
      List.forall_mem_singleton.2 (noLookup_fetched _)
    obtain ⟨hhit, hcounts⟩ := counts_of_opened rfl hopening hagrees hlater
    cases looks <;> exact ⟨congrArg (· + _ + _) hhit, hcounts⟩
  | @fetched event p hopening =>
    have hlater : ∀ act ∈ [Act.fetched r (.ok p)], NoLookup act :=
      List.forall_mem_singleton.2 (noLookup_fetched _)
    obtain ⟨hhit, hcounts⟩ := counts_of_opened rfl hopening hagrees hlater
    cases looks <;> exact ⟨congrArg (· + _ + _) hhit, hcounts⟩
  | @settled event closing p now records hopening hclosing =>
    have hlater : ∀ act ∈ [Act.settled r p now ⟨Key.ofRequest r, closing⟩ records,
        .fetched r (.ok p)], NoLookup act :=
      List.forall_mem_cons.2
        ⟨noLookup_settled hclosing, List.forall_mem_singleton.2 (noLookup_fetched _)⟩
    obtain ⟨hhit, hcounts⟩ := counts_of_opened rfl hopening hagrees hlater
    cases looks <;> exact ⟨congrArg (· + _ + _) hhit, hcounts⟩

theorem countP_eq_ite_any {kind : Act → Bool} (h : acts.countP kind ≤ 1) :
    acts.countP kind = if acts.any kind then 1 else 0 := by
  by_cases hany : acts.any kind = true
  · have hpos : 0 < acts.countP kind := List.countP_pos_iff.2 (List.any_eq_true.1 hany)
    rw [if_pos hany]
    omega
  · have hnone : acts.countP kind = 0 :=
      List.countP_eq_zero.2 fun act hact hkind =>
        hany (List.any_eq_true.2 ⟨act, hact, hkind⟩)
    rw [if_neg hany, hnone]

/-- At most one lookup of a send has failed, and only one that went on to the origin. -/
theorem Course.failedLookup (h : Course r stage acts) (hagrees : Agrees looks acts) :
    acts.countP (Act.reports Event.isFailedLookup)
        = (if acts.any (Act.reports Event.isFailedLookup) then 1 else 0)
      ∧ (acts.any (Act.reports Event.isFailedLookup) = true
        → passedOn looks stage acts = true) := by
  have hone := (h.lookup hagrees).2
  have hle : acts.countP (Act.reports Event.isFailedLookup) ≤ 1 := by
    split at hone <;> omega
  have hcount := countP_eq_ite_any hle
  refine ⟨hcount, fun hany => ?_⟩
  by_contra hnot
  rw [if_neg hnot, hcount, if_pos hany] at hone
  omega

end Send

/-! ## The lookups of a run -/

/-- Only the first step of a send is a lookup. -/
theorem finding_of_take {b : Instant → Backend σ} {c : Config} {r : Request} {storage : σ}
    {t : Turn ι} {stage : Stage} {taken : Taken σ}
    (htake : take b c r storage t stage = some taken)
    (hact : (∃ event answer, taken.act = .looked event answer) ∨ taken.act = .crashed) :
    taken.act = .ofFinding (Key.ofRequest r)
      (Cache.start (b t.storageNow) c storage r t.now).finding := by
  cases stage with
  | idle =>
    obtain rfl := Option.some.inj htake
    rfl
  | passed =>
    obtain rfl := Option.some.inj htake
    rcases hact with ⟨_, _, hact⟩ | hact <;> cases hact
  | fetched p =>
    obtain rfl := Option.some.inj htake
    rcases hact with ⟨_, _, hact⟩ | hact <;> cases hact
  | done result => cases htake
  | crashed => cases htake

/-- A lookup that is done is a bypass exactly if there was nothing to look up. -/
theorem bypass_iff_of_ofFinding {b : Backend σ} {c : Config} {r : Request} {storage : σ}
    {now : Instant} {event : KeyedEvent} {answer : Option Response}
    (h : .looked event answer
      = Act.ofFinding (Key.ofRequest r) (Cache.start b c storage r now).finding) :
    event.event = .bypass ↔ Cache.looksUp c r = false := by
  rw [← @Cache.start_eq_bypass_iff σ b c storage r now]
  cases hfinding : (Cache.start b c storage r now).finding with
  | serve tag q e =>
    rw [hfinding, Act.ofFinding, Act.looked.injEq] at h
    obtain ⟨rfl, -⟩ := h
    exact iff_of_false nofun nofun
  | pass event' =>
    rw [hfinding, Act.ofFinding, Act.looked.injEq] at h
    obtain ⟨rfl, -⟩ := h
    rw [Cache.Finding.pass.injEq]
  | crash =>
    rw [hfinding] at h
    cases h

variable [DecidableEq ι]

/-- Every send reports a bypass exactly if its request rules a lookup out. -/
theorem agrees_after (b : Instant → Backend σ) (c : Config) (request : ι → Request) (storage : σ)
    (turns : List (Turn ι)) (i : ι) :
    Agrees (Cache.looksUp c (request i)) (((fresh storage).after b c request turns).actsOf i) := by
  revert i
  apply after_inv fun u => ∀ i, Agrees (Cache.looksUp c (request i)) (u.actsOf i)
  · intro u t hu
    refine forall_step (P := fun i _ acts => Agrees (Cache.looksUp c (request i)) acts) u t hu ?_
    intro taken htake
    refine ⟨fun event answer hmem => ?_, fun hmem => ?_⟩
    · rcases List.mem_cons.1 hmem with hact | hmem
      · exact bypass_iff_of_ofFinding
          (hact.trans (finding_of_take htake (.inl ⟨event, answer, hact.symm⟩)))
      · exact (hu t.name).bypass event answer hmem
    · rcases List.mem_cons.1 hmem with hact | hmem
      · have hfinding := hact.trans (finding_of_take htake (.inr hact.symm))
        cases hcrash :
            (Cache.start (b t.storageNow) c u.storage (request t.name) t.now).finding with
        | crash => exact (Cache.start_eq_crash_iff.1 hcrash).1
        | serve tag q e =>
          rw [hcrash] at hfinding
          cases hfinding
        | pass event =>
          rw [hcrash] at hfinding
          cases hfinding
      · exact (hu t.name).crash hmem
  · intro i
    refine ⟨fun event answer hmem => ?_, fun hmem => ?_⟩ <;> cases hmem

/-- The send has looked for a kept response and fallen through: it has asked the origin, or is about
to. -/
def FellThrough (c : Config) (request : ι → Request) (u : Traffic ι σ) (i : ι) : Prop :=
  Cache.looksUp c (request i) = true ∧ (u.stage i = .passed ∨ u.fetchesOf i ≠ [])

/-- The lookup of the send has failed, by what the send reports. -/
def LookupFailed (u : Traffic ι σ) (i : ι) : Prop :=
  ∃ event ∈ u.eventsOf i, event.event.isFailedLookup = true

section Meaning

variable {c : Config} {request : ι → Request} {u : Traffic ι σ} {i : ι}

theorem fetchesOf_ne_nil_iff : u.fetchesOf i ≠ [] ↔ (u.actsOf i).any Act.isFetch = true := by
  rw [fetchesOf, ne_eq, List.filterMap_eq_nil_iff, List.any_eq_true]
  simp only [List.mem_reverse, not_forall, Act.isFetch, Option.isSome_iff_ne_none, exists_prop]

theorem passedOn_iff :
    passedOn (Cache.looksUp c (request i)) (u.stage i) (u.actsOf i) = true
      ↔ u.FellThrough c request i := by
  rw [passedOn, Bool.and_eq_true, Bool.or_eq_true, Stage.isPassed_iff, ← fetchesOf_ne_nil_iff]
  rfl

theorem any_reports_iff :
    (u.actsOf i).any (Act.reports Event.isFailedLookup) = true ↔ u.LookupFailed i := by
  rw [LookupFailed, eventsOf, List.any_eq_true]
  simp only [List.mem_filterMap, List.mem_reverse]
  constructor
  · rintro ⟨act, hact, hreports⟩
    cases hevent : act.event? with
    | none =>
      rw [Act.reports, hevent] at hreports
      cases hreports
    | some event =>
      rw [Act.reports, hevent] at hreports
      exact ⟨event, ⟨act, hact, hevent⟩, hreports⟩
  · rintro ⟨event, ⟨act, hact, hevent⟩, hfailed⟩
    refine ⟨act, hact, ?_⟩
    rw [Act.reports, hevent]
    exact hfailed

end Meaning

/-! ## The counts of a run -/

section Counts

variable {looks : ι → Bool} {request : ι → Request} {u : Traffic ι σ} {sends : Finset ι}
  (hcourse : ∀ i, Course (request i) (u.stage i) (u.actsOf i))
  (hagrees : ∀ i, Agrees (looks i) (u.actsOf i))
  (hnames : ∀ x ∈ u.history, x.1 ∈ sends)

include hcourse hagrees hnames

/-- The misses and the failed lookups are all that is passed on. -/
theorem misses_add_failed :
    (u.events.map KeyedEvent.event).countP (Event.isOf .miss)
        + (sends.filter fun i =>
          (u.actsOf i).any (Act.reports Event.isFailedLookup) = true).card
      = (sends.filter fun i => passedOn (looks i) (u.stage i) (u.actsOf i) = true).card := by
  rw [countP_events, countP_history u _ hnames, Finset.card_filter, Finset.card_filter,
    ← Finset.sum_add_distrib]
  refine Finset.sum_congr rfl fun i _ => ?_
  rw [← ((hcourse i).failedLookup (hagrees i)).1]
  exact ((hcourse i).lookup (hagrees i)).2

/-- The hits are the lookups that are not passed on and do not crash. -/
theorem hits_add_passedOn (hbegun : ∀ i ∈ sends, (u.stage i).hasBegun = true) :
    (u.events.map KeyedEvent.event).countP (Event.isOf .hit)
        + (sends.filter fun i => passedOn (looks i) (u.stage i) (u.actsOf i) = true).card
        + (sends.filter fun i => (u.stage i).isCrashed = true).card
      = (sends.filter fun i => looks i = true).card := by
  rw [countP_events, countP_history u _ hnames, Finset.card_filter, Finset.card_filter,
    Finset.card_filter, ← Finset.sum_add_distrib, ← Finset.sum_add_distrib]
  refine Finset.sum_congr rfl fun i hi => ?_
  have hlookup := ((hcourse i).lookup (hagrees i)).1
  rw [hbegun i hi, Bool.true_and] at hlookup
  exact hlookup

/-- Every failed lookup is one of the events. -/
theorem card_failed_le :
    (sends.filter fun i => (u.actsOf i).any (Act.reports Event.isFailedLookup) = true).card
      ≤ u.events.length := by
  calc (sends.filter fun i => (u.actsOf i).any (Act.reports Event.isFailedLookup) = true).card
      = ∑ i ∈ sends, (u.actsOf i).countP (Act.reports Event.isFailedLookup) := by
        rw [Finset.card_filter]
        exact Finset.sum_congr rfl fun i _ => ((hcourse i).failedLookup (hagrees i)).1.symm
    _ = (u.events.map KeyedEvent.event).countP Event.isFailedLookup := by
        rw [countP_events, countP_history u _ hnames]
    _ ≤ u.events.length := by
        rw [← List.length_map KeyedEvent.event]
        exact List.countP_le_length

end Counts

/-- The lookups of a run, and of these the ones that fell through, that failed and that crashed; and
how their counts fit together. -/
theorem exists_lookups {c : Config} {request : ι → Request} {u : Traffic ι σ}
    (hcourse : ∀ i, Course (request i) (u.stage i) (u.actsOf i))
    (hagrees : ∀ i, Agrees (Cache.looksUp c (request i)) (u.actsOf i)) :
    ∃ lookups through failed crashed : Finset ι,
      (∀ i, i ∈ lookups ↔ u.stage i ≠ .idle ∧ Cache.looksUp c (request i) = true)
      ∧ (∀ i, i ∈ through ↔ u.FellThrough c request i)
      ∧ (∀ i, i ∈ failed ↔ u.LookupFailed i)
      ∧ (∀ i, i ∈ crashed ↔ u.stage i = .crashed)
      ∧ failed ⊆ through ∧ failed.card ≤ u.events.length
      ∧ (u.events.map KeyedEvent.event).countP (Event.isOf .miss) + failed.card = through.card
      ∧ (u.events.map KeyedEvent.event).countP (Event.isOf .hit) + through.card + crashed.card
        = lookups.card := by
  have hmem := mem_names_iff hcourse
  have hnames : ∀ x ∈ u.history, x.1 ∈ (u.history.map Prod.fst).toFinset := by
    intro x hx
    exact List.mem_toFinset.2 (List.mem_map_of_mem hx)
  generalize (u.history.map Prod.fst).toFinset = sends at hmem hnames
  -- what is counted of a send shows that it has begun
  have hbegun : ∀ i (kind : Act → Bool), (u.actsOf i).any kind = true → i ∈ sends := by
    intro i kind hany
    rw [hmem, (hcourse i).hasBegun_iff]
    intro hnil
    rw [hnil] at hany
    cases hany
  have hmisses := misses_add_failed hcourse hagrees hnames
  have hhits := hits_add_passedOn hcourse hagrees hnames fun i hi => (hmem i).1 hi
  have hfailed := card_failed_le hcourse hagrees hnames
  refine ⟨_, _, _, _, ?_, ?_, ?_, ?_, ?_, hfailed, hmisses, hhits⟩
  · intro i
    rw [Finset.mem_filter, hmem, Stage.hasBegun_iff]
  · intro i
    rw [Finset.mem_filter, passedOn_iff, and_iff_right_of_imp]
    rintro ⟨-, hpassed | hfetches⟩
    · rw [hmem, hpassed]
      rfl
    · exact hbegun i _ (fetchesOf_ne_nil_iff.1 hfetches)
  · intro i
    rw [Finset.mem_filter, any_reports_iff, and_iff_right_of_imp]
    exact fun h => hbegun i _ (any_reports_iff.2 h)
  · intro i
    rw [Finset.mem_filter, hmem, Stage.isCrashed_iff]
    cases u.stage i <;> simp [Stage.hasBegun]
  · intro i hi
    obtain ⟨hsend, hany⟩ := Finset.mem_filter.1 hi
    exact Finset.mem_filter.2 ⟨hsend, ((hcourse i).failedLookup (hagrees i)).2 hany⟩

/-- In any run of sends, overlapping in any way, over any storage: the lookups that fall through are
the misses and the failed lookups, and all others are hits or crash. So the misses are all that fall
through exactly if no lookup has failed, and the part of hits is taken among the lookups that have
neither failed nor crashed. The counters obey this modulo `2 ^ 64`, and their values do as long as
there are less than `2 ^ 64` events. A lookup fails exactly if what the storage gives is of no use:
the storage fails, the entry does not decode or the headers are malformed; and it crashes exactly at
an overfull entry. -/
theorem misses_of_sends (b : Instant → Backend σ) (c : Config) (request : ι → Request) (storage : σ)
    (turns : List (Turn ι)) :
    let u := (fresh storage).after b c request turns
    let s := Stats.ofEvents (u.events.map KeyedEvent.event)
    ∃ lookups through failed crashed : Finset ι,
      (∀ i, i ∈ lookups ↔ u.stage i ≠ .idle ∧ Cache.looksUp c (request i) = true)
        ∧ (∀ i, i ∈ through ↔ u.FellThrough c request i)
        ∧ (∀ i, i ∈ failed ↔ u.LookupFailed i)
        ∧ (∀ i, i ∈ crashed ↔ u.stage i = .crashed)
        ∧ failed ⊆ through
        ∧ s.misses + .ofNat failed.card = .ofNat through.card
        ∧ s.hits + .ofNat (through.card + crashed.card) = .ofNat lookups.card
        ∧ (u.events.length < 2 ^ 64 →
          s.misses.toNat + failed.card = through.card
          ∧ s.hits.toNat + through.card + crashed.card = lookups.card
          ∧ (s.misses.toNat = through.card ↔ failed = ∅))
        ∧ (let judged := UInt64.ofNat (lookups.card - failed.card - crashed.card)
          s.hitRatio = if judged = 0 then 0 else s.hits.toFloat / judged.toFloat)
        ∧ ∀ own storage r now,
          ((Cache.start (b own) c storage r now).finding.isFailed = true ↔
            Cache.looksUp c r = true
              ∧ Cache.Unusable r ((b own).get storage (Key.ofRequest r) now).1)
          ∧ ((Cache.start (b own) c storage r now).finding = .crash ↔
            Cache.looksUp c r = true
              ∧ ∃ entry, ((b own).get storage (Key.ofRequest r) now).1 = .ok entry
                ∧ Cache.Overfull c r now entry) := by
  intro u s
  have hcourse : ∀ i, Course (request i) (u.stage i) (u.actsOf i) :=
    course_after b c request storage turns
  have hagrees : ∀ i, Agrees (Cache.looksUp c (request i)) (u.actsOf i) :=
    agrees_after b c request storage turns
  obtain ⟨lookups, through, failed, crashed, hlookups, hthrough, hfailed, hcrashed, hsubset, hle,
    hmisses, hhits⟩ := exists_lookups hcourse hagrees
  have hkind := Stats.ofKind_ofEvents (u.events.map KeyedEvent.event)
  have hs_misses : s.misses = _ := hkind .miss
  have hs_hits : s.hits = _ := hkind .hit
  refine ⟨lookups, through, failed, crashed, hlookups, hthrough, hfailed, hcrashed, hsubset,
    ?_, ?_, fun hlt => ?_, ?_,
    fun own storage r now => ⟨Cache.isFailed_start_iff, Cache.start_eq_crash_iff⟩⟩
  · rw [hs_misses, ← UInt64.ofNat_add, hmisses]
  · rw [hs_hits, ← UInt64.ofNat_add, ← Nat.add_assoc, hhits]
  · rw [← List.length_map KeyedEvent.event] at hlt
    have hs_misses' : s.misses.toNat = _ := Stats.toNat_ofKind_ofEvents hlt .miss
    have hs_hits' : s.hits.toNat = _ := Stats.toNat_ofKind_ofEvents hlt .hit
    rw [hs_misses', hs_hits', ← Finset.card_eq_zero]
    omega
  · refine Stats.hitRatio_eq ?_
    rw [hs_misses, hs_hits, ← UInt64.ofNat_add]
    congr 1
    omega

end Traffic

namespace Sample

/-- A store whose lookups fail whenever its clock is not at the epoch. -/
def unreliable (own : Instant) : Backend Store where
  origin := Store.backend.origin
  get s key now :=
    if own = .epoch then Store.backend.get s key now
    else (.error (.storage (.text "connection refused")), s)
  set := Store.backend.set

/-- All turns of one send, at one time. -/
def sendAt (i : Fin 3) (t : Instant) : List (Traffic.Turn (Fin 3)) :=
  List.replicate 3 ⟨i, t, t, .ok response⟩

/-- Three sends, the last one when lookups fail. -/
def threeSends : Traffic (Fin 3) Store :=
  (Traffic.fresh store).after unreliable .sharedCache (fun _ => request)
    ((List.finRange 3).flatMap fun i => sendAt i (if i.val < 2 then .epoch else expiry))

end Sample

namespace Traffic

/-- Of three lookups one hits and two fall through to the origin, but there is only one miss: the
other one counts as a failure, and in the part of hits it does not count at all. -/
theorem misses_of_threeSends :
    (∀ i, Sample.threeSends.FellThrough .sharedCache (fun _ => Sample.request) i ↔ i.val ≠ 1)
      ∧ Stats.ofEvents (Sample.threeSends.events.map KeyedEvent.event)
        = { hits := 1, misses := 1, stores := 2, failures := 1 } := by
  refine ⟨fun i => ?_, by decide +kernel⟩
  have hpassed : ∀ i, passedOn (Cache.looksUp .sharedCache Sample.request)
      (Sample.threeSends.stage i) (Sample.threeSends.actsOf i) = true ↔ i.val ≠ 1 := by
    decide +kernel
  exact passedOn_iff.symm.trans (hpassed i)

end Traffic

end ResponseCache
