import Mathlib
import ResponseCache.Cache.Stats
import ResponseCache.Proofs.Traffic.Basic

/-!
# What the statistics add up to

Every send reports how it begins and, if a live response has come in, how it ends (`Reports`); one
that crashes reports nothing. This is read off its course, and so the counts of one send fit
together (`Course.counts`). The counts of a whole run are the sums of those of its sends
(`countP_history`), whatever way these were mixed. The counters of the statistics hold these counts
modulo `2 ^ 64` (`Stats.ofKind_ofEvents`).
-/

namespace ResponseCache

namespace Event

/-- The kinds of events that are counted apart. -/
inductive Kind where
  | hit | miss | bypass | store | skip | failure
deriving DecidableEq

def kind : Event → Kind
  | .bypass => .bypass
  | .hit .. => .hit
  | .miss _ => .miss
  | .lookupFailed _ | .validationFailed .. | .storeFailed _ => .failure
  | .stored _ => .store
  | .storeSkipped _ => .skip

def isOf (kind : Kind) (event : Event) : Bool :=
  decide (event.kind = kind)

/-- Every event is of one kind. -/
theorem countP_kinds (events : List Event) :
    events.countP (isOf .hit) + events.countP (isOf .miss) + events.countP (isOf .bypass)
      + events.countP (isOf .store) + events.countP (isOf .skip)
      + events.countP (isOf .failure) = events.length := by
  induction events with
  | nil => rfl
  | cons event events ih =>
    have hone : (if isOf .hit event then 1 else 0) + (if isOf .miss event then 1 else 0)
        + (if isOf .bypass event then 1 else 0) + (if isOf .store event then 1 else 0)
        + (if isOf .skip event then 1 else 0) + (if isOf .failure event then 1 else 0) = 1 := by
      cases event <;> rfl
    simp only [List.countP_cons, List.length_cons]
    omega

end Event

namespace Stats

/-- The counter of a kind of events. -/
def ofKind (s : Stats) : Event.Kind → UInt64
  | .hit => s.hits
  | .miss => s.misses
  | .bypass => s.bypasses
  | .store => s.stores
  | .skip => s.skipped
  | .failure => s.failures

/-- An event adds one to the counter of its kind, and nothing to the others. -/
theorem ofKind_count (s : Stats) (event : Event) (kind : Event.Kind) :
    (s.count event).ofKind kind = s.ofKind kind + if Event.isOf kind event then 1 else 0 := by
  cases event <;> cases kind <;> simp [count, ofKind, Event.isOf, Event.kind]

/-- Each counter holds the number of the events of its kind, modulo `2 ^ 64`. -/
theorem ofKind_ofEvents (events : List Event) (kind : Event.Kind) :
    (ofEvents events).ofKind kind = UInt64.ofNat (events.countP (Event.isOf kind)) := by
  have hfold : ∀ s, (events.foldl count s).ofKind kind
      = s.ofKind kind + UInt64.ofNat (events.countP (Event.isOf kind)) := by
    induction events with
    | nil => exact fun s => (UInt64.add_zero _).symm
    | cons event events ih =>
      intro s
      rw [List.foldl_cons, ih, ofKind_count, List.countP_cons, Nat.add_comm, UInt64.ofNat_add,
        UInt64.add_assoc]
      split <;> rfl
  have hzero : ({} : Stats).ofKind kind = 0 := by cases kind <;> rfl
  rw [ofEvents, hfold, hzero, UInt64.zero_add]

/-- The counters are the numbers of events themselves as long as there are less than `2 ^ 64`. -/
theorem toNat_ofKind_ofEvents {events : List Event} (h : events.length < 2 ^ 64)
    (kind : Event.Kind) :
    ((ofEvents events).ofKind kind).toNat = events.countP (Event.isOf kind) := by
  rw [ofKind_ofEvents, UInt64.toNat_ofNat_of_lt' (Nat.lt_of_le_of_lt List.countP_le_length h)]

theorem total_ofEvents (events : List Event) :
    (ofEvents events).hits + (ofEvents events).misses + (ofEvents events).bypasses
      + (ofEvents events).stores + (ofEvents events).skipped + (ofEvents events).failures
      = UInt64.ofNat events.length := by
  have hkind := ofKind_ofEvents events
  rw [show (ofEvents events).hits = _ from hkind .hit,
    show (ofEvents events).misses = _ from hkind .miss,
    show (ofEvents events).bypasses = _ from hkind .bypass,
    show (ofEvents events).stores = _ from hkind .store,
    show (ofEvents events).skipped = _ from hkind .skip,
    show (ofEvents events).failures = _ from hkind .failure]
  simp only [← UInt64.ofNat_add, Event.countP_kinds]

theorem toNat_total_ofEvents {events : List Event} (h : events.length < 2 ^ 64) :
    (ofEvents events).hits.toNat + (ofEvents events).misses.toNat
      + (ofEvents events).bypasses.toNat + (ofEvents events).stores.toNat
      + (ofEvents events).skipped.toNat + (ofEvents events).failures.toNat = events.length := by
  have hkind := toNat_ofKind_ofEvents h
  rw [show (ofEvents events).hits.toNat = _ from hkind .hit,
    show (ofEvents events).misses.toNat = _ from hkind .miss,
    show (ofEvents events).bypasses.toNat = _ from hkind .bypass,
    show (ofEvents events).stores.toNat = _ from hkind .store,
    show (ofEvents events).skipped.toNat = _ from hkind .skip,
    show (ofEvents events).failures.toNat = _ from hkind .failure]
  exact Event.countP_kinds events

end Stats

namespace Stage

def hasBegun : Stage → Bool
  | .idle => false
  | _ => true

def isPassed : Stage → Bool
  | .passed => true
  | _ => false

def isFetched : Stage → Bool
  | .fetched _ => true
  | _ => false

def isCrashed : Stage → Bool
  | .crashed => true
  | _ => false

theorem hasBegun_iff {stage : Stage} : stage.hasBegun = true ↔ stage ≠ .idle := by
  cases stage <;> simp [hasBegun]

theorem isPassed_iff {stage : Stage} : stage.isPassed = true ↔ stage = .passed := by
  cases stage <;> simp [isPassed]

theorem isFetched_iff {stage : Stage} : stage.isFetched = true ↔ ∃ p, stage = .fetched p := by
  cases stage <;> simp [isFetched]

theorem isCrashed_iff {stage : Stage} : stage.isCrashed = true ↔ stage = .crashed := by
  cases stage <;> simp [isCrashed]

end Stage

namespace Traffic

variable {ι σ : Type}

/-- The events of a run, in order. -/
def events (u : Traffic ι σ) : List KeyedEvent :=
  u.history.reverse.filterMap fun x => x.2.event?

/-- The calls of the origin in a run, in order. -/
def fetches (u : Traffic ι σ) : List (Request × Except (Halt Failure) Response) :=
  u.history.reverse.filterMap fun x => x.2.fetch?

/-- What a send of `r` has reported at each stage, and its calls of the origin. -/
def Reports (r : Request) (events : List KeyedEvent)
    (fetches : List (Request × Except (Halt Failure) Response)) : Stage → Prop
  | .idle | .crashed => events = [] ∧ fetches = []
  | .passed => ∃ opening, Opening opening ∧ events = [⟨Key.ofRequest r, opening⟩] ∧ fetches = []
  | .fetched p =>
    ∃ opening, Opening opening ∧ events = [⟨Key.ofRequest r, opening⟩] ∧ fetches = [(r, .ok p)]
  | .done result =>
    (∃ tag e q, result = .ok q ∧ events = [⟨Key.ofRequest r, .hit tag e⟩] ∧ fetches = [])
      ∨ (∃ opening halt, Opening opening ∧ result = .error halt
        ∧ events = [⟨Key.ofRequest r, opening⟩] ∧ fetches = [(r, result)])
      ∨ ∃ opening closing p, Opening opening ∧ Closing closing ∧ result = .ok p
        ∧ events = [⟨Key.ofRequest r, opening⟩, ⟨Key.ofRequest r, closing⟩]
        ∧ fetches = [(r, result)]

variable {u : Traffic ι σ} {r : Request} {stage : Stage} {acts : List Act}

theorem Course.reports (h : Course r stage acts) :
    Reports r (acts.reverse.filterMap Act.event?) (acts.reverse.filterMap Act.fetch?) stage := by
  cases h with
  | idle => exact ⟨rfl, rfl⟩
  | hit => exact .inl ⟨_, _, _, rfl, rfl, rfl⟩
  | crashed => exact ⟨rfl, rfl⟩
  | passed hopening => exact ⟨_, hopening, rfl, rfl⟩
  | failed hopening => exact .inr (.inl ⟨_, _, hopening, rfl, rfl, rfl⟩)
  | fetched hopening => exact ⟨_, hopening, rfl, rfl⟩
  | settled hopening hclosing => exact .inr (.inr ⟨_, _, _, hopening, hclosing, rfl, rfl, rfl⟩)

/-! ## The counts of one send -/

namespace Act

def isEvent (a : Act) : Bool := a.event?.isSome

/-- The act reports an event of some kind. -/
def reports (kind : Event → Bool) (a : Act) : Bool :=
  (a.event?.map fun event => kind event.event).getD false

def isHit (a : Act) : Bool := a.reports (Event.isOf .hit)

def isFetch (a : Act) : Bool := a.fetch?.isSome

def isFailure (a : Act) : Bool := (a.fetch?.map fun fetch => !fetch.2.isOk).getD false

end Act

theorem isHit_of_opening {event : Event} {key : Key} {answer : Option Response}
    (h : Opening event) : (Act.looked ⟨key, event⟩ answer).isHit = false := by
  rcases h with rfl | ⟨_, rfl⟩ | ⟨_, rfl⟩ | ⟨_, rfl⟩ <;> rfl

theorem isHit_of_closing {event : Event} {key : Key} {p : Response} {now : Instant}
    {records : List LogRecord} (h : Closing event) :
    (Act.settled r p now ⟨key, event⟩ records).isHit = false := by
  rcases h with ⟨_, rfl⟩ | ⟨_, rfl⟩ | ⟨_, rfl⟩ | ⟨_, rfl⟩ <;> rfl

/-- A send that has begun hits, or crashes, or waits for the origin, or has asked it once. It is
good for two events, of which it misses one as long as it is under way, one for good if it hits or
its call of the origin fails, and both if it crashes. -/
theorem Course.counts (h : Course r stage acts) :
    acts.countP Act.isHit + acts.countP Act.isFetch + (if stage.isPassed then 1 else 0)
          + (if stage.isCrashed then 1 else 0)
        = (if stage.hasBegun then 1 else 0)
      ∧ acts.countP Act.isEvent + acts.countP Act.isHit + acts.countP Act.isFailure
          + (if stage.isPassed then 1 else 0) + (if stage.isFetched then 1 else 0)
          + 2 * (if stage.isCrashed then 1 else 0)
        = 2 * (if stage.hasBegun then 1 else 0) := by
  cases h with
  | idle => exact ⟨rfl, rfl⟩
  | hit => exact ⟨rfl, rfl⟩
  | crashed => exact ⟨rfl, rfl⟩
  | passed hopening =>
    simp only [List.countP_cons, isHit_of_opening hopening]
    exact ⟨rfl, rfl⟩
  | failed hopening =>
    simp only [List.countP_cons, isHit_of_opening hopening]
    exact ⟨rfl, rfl⟩
  | fetched hopening =>
    simp only [List.countP_cons, isHit_of_opening hopening]
    exact ⟨rfl, rfl⟩
  | settled hopening hclosing =>
    simp only [List.countP_cons, isHit_of_opening hopening, isHit_of_closing hclosing]
    exact ⟨rfl, rfl⟩

/-! ## The counts of a run -/

theorem length_events (u : Traffic ι σ) :
    u.events.length = u.history.countP fun x => x.2.isEvent := by
  rw [events, List.length_filterMap_eq_countP, List.countP_reverse]
  rfl

theorem length_fetches (u : Traffic ι σ) :
    u.fetches.length = u.history.countP fun x => x.2.isFetch := by
  rw [fetches, List.length_filterMap_eq_countP, List.countP_reverse]
  rfl

theorem countP_events (u : Traffic ι σ) (kind : Event → Bool) :
    (u.events.map KeyedEvent.event).countP kind = u.history.countP fun x => x.2.reports kind := by
  rw [List.countP_map, events, List.countP_filterMap, List.countP_reverse]
  rfl

theorem failures_fetches (u : Traffic ι σ) :
    (u.fetches.countP fun fetch => !fetch.2.isOk) = u.history.countP fun x => x.2.isFailure := by
  rw [fetches, List.countP_filterMap, List.countP_reverse]
  rfl

variable [DecidableEq ι]

/-- What is counted in a run is counted in one of its sends. -/
theorem countP_history (u : Traffic ι σ) (p : Act → Bool) {sends : Finset ι}
    (hsends : ∀ x ∈ u.history, x.1 ∈ sends) :
    (u.history.countP fun x => p x.2) = ∑ i ∈ sends, (u.actsOf i).countP p := by
  obtain ⟨storage, stage, history⟩ := u
  dsimp only at hsends ⊢
  induction history with
  | nil => simp [actsOf]
  | cons x history ih =>
    obtain ⟨name, act⟩ := x
    have hname : name ∈ sends := hsends _ List.mem_cons_self
    have hacts : ∀ i, (actsOf ⟨storage, stage, (name, act) :: history⟩ i).countP p
        = (actsOf ⟨storage, stage, history⟩ i).countP p
          + if name = i then (if p act then 1 else 0) else 0 := by
      intro i
      rw [actsOf_cons]
      split
      · rw [List.countP_cons]
      · rfl
    rw [List.countP_cons, ih fun x hx => hsends x (List.mem_cons_of_mem _ hx)]
    simp only [hacts]
    rw [Finset.sum_add_distrib, Finset.sum_ite_eq, if_pos hname]

omit [DecidableEq ι] in
theorem Course.hasBegun_iff (h : Course r stage acts) : stage.hasBegun = true ↔ acts ≠ [] := by
  cases h <;> simp [Stage.hasBegun]

/-- The sends that have done something are those that have begun. -/
theorem mem_names_iff {u : Traffic ι σ} {request : ι → Request}
    (hcourse : ∀ i, Course (request i) (u.stage i) (u.actsOf i)) (i : ι) :
    i ∈ (u.history.map Prod.fst).toFinset ↔ (u.stage i).hasBegun = true := by
  rw [(hcourse i).hasBegun_iff, List.mem_toFinset, List.mem_map]
  constructor
  · rintro ⟨⟨name, act⟩, hmem, rfl⟩
    exact List.ne_nil_of_mem (mem_actsOf.2 hmem)
  · intro hne
    obtain ⟨act, hact⟩ := List.exists_mem_of_ne_nil _ hne
    exact ⟨(i, act), mem_actsOf.1 hact, rfl⟩

/-- The sends that have done something, and of these the ones that wait for the origin, that hold a
response of it, and that have crashed; and how their counts fit together. -/
theorem exists_sends {u : Traffic ι σ} {request : ι → Request}
    (hcourse : ∀ i, Course (request i) (u.stage i) (u.actsOf i)) :
    ∃ sends waiting holding crashed : Finset ι,
      (∀ i, i ∈ sends ↔ u.stage i ≠ .idle)
      ∧ (∀ i, i ∈ waiting ↔ u.stage i = .passed)
      ∧ (∀ i, i ∈ holding ↔ ∃ p, u.stage i = .fetched p)
      ∧ (∀ i, i ∈ crashed ↔ u.stage i = .crashed)
      ∧ (u.events.map KeyedEvent.event).countP (Event.isOf .hit) + u.fetches.length
          + waiting.card + crashed.card = sends.card
      ∧ u.events.length + (u.events.map KeyedEvent.event).countP (Event.isOf .hit)
          + (u.fetches.countP fun fetch => !fetch.2.isOk) + waiting.card + holding.card
          + 2 * crashed.card = 2 * sends.card := by
  have hmem := mem_names_iff hcourse
  have hnames : ∀ x ∈ u.history, x.1 ∈ (u.history.map Prod.fst).toFinset := by
    intro x hx
    exact List.mem_toFinset.2 (List.mem_map_of_mem hx)
  generalize (u.history.map Prod.fst).toFinset = sends at hmem hnames
  have hcard : sends.card = ∑ i ∈ sends, if (u.stage i).hasBegun then 1 else 0 := by
    rw [← Finset.card_filter, Finset.filter_true_of_mem fun i hi => (hmem i).1 hi]
  refine ⟨sends, sends.filter fun i => (u.stage i).isPassed,
    sends.filter fun i => (u.stage i).isFetched, sends.filter fun i => (u.stage i).isCrashed,
    ?_, ?_, ?_, ?_, ?_, ?_⟩
  · intro i
    rw [hmem, Stage.hasBegun_iff]
  · intro i
    rw [Finset.mem_filter, hmem, Stage.isPassed_iff]
    cases u.stage i <;> simp [Stage.hasBegun]
  · intro i
    rw [Finset.mem_filter, hmem, Stage.isFetched_iff]
    cases u.stage i <;> simp [Stage.hasBegun]
  · intro i
    rw [Finset.mem_filter, hmem, Stage.isCrashed_iff]
    cases u.stage i <;> simp [Stage.hasBegun]
  · rw [countP_events, length_fetches, countP_history u _ hnames, countP_history u _ hnames,
      Finset.card_filter, Finset.card_filter, hcard, ← Finset.sum_add_distrib,
      ← Finset.sum_add_distrib, ← Finset.sum_add_distrib]
    exact Finset.sum_congr rfl fun i _ => (hcourse i).counts.1
  · rw [length_events, countP_events, failures_fetches, countP_history u _ hnames,
      countP_history u _ hnames, countP_history u _ hnames, Finset.card_filter,
      Finset.card_filter, Finset.card_filter, hcard, Finset.mul_sum, Finset.mul_sum]
    rw [← Finset.sum_add_distrib, ← Finset.sum_add_distrib, ← Finset.sum_add_distrib,
      ← Finset.sum_add_distrib, ← Finset.sum_add_distrib]
    exact Finset.sum_congr rfl fun i _ => (hcourse i).counts.2

/-- The storage gives none of the requests an overfull entry. -/
def Fits (b : Instant → Backend σ) (c : Config) (request : ι → Request) : Prop :=
  ∀ i own storage now entry, ((b own).get storage (Key.ofRequest (request i)) now).1 = .ok entry →
    ¬ Cache.Overfull c (request i) now entry

/-- A send crashes at an overfull entry only. -/
theorem stage_ne_crashed {b : Instant → Backend σ} {c : Config} {request : ι → Request}
    (hfits : Fits b c request) (storage : σ) (turns : List (Turn ι)) (i : ι) :
    ((fresh storage).after b c request turns).stage i ≠ .crashed := by
  revert i
  apply after_inv fun u => ∀ i, u.stage i ≠ .crashed
  · intro u t hu i
    refine forall_step (P := fun _ stage _ => stage ≠ .crashed) u t hu (fun taken htake => ?_) i
    cases hstage : u.stage t.name with
    | idle =>
      rw [hstage] at htake
      obtain rfl := Option.some.inj htake
      dsimp only
      cases hfinding :
          (Cache.start (b t.storageNow) c u.storage (request t.name) t.now).finding with
      | serve tag q e => exact Stage.noConfusion
      | pass event => exact Stage.noConfusion
      | crash =>
        obtain ⟨-, entry, hget, hfull⟩ := Cache.start_eq_crash_iff.1 hfinding
        exact absurd hfull (hfits t.name _ _ _ entry hget)
    | passed =>
      rw [hstage] at htake
      obtain rfl := Option.some.inj htake
      dsimp only
      cases t.reply <;> exact Stage.noConfusion
    | fetched p =>
      rw [hstage] at htake
      obtain rfl := Option.some.inj htake
      exact Stage.noConfusion
    | done result =>
      rw [hstage] at htake
      cases htake
    | crashed => exact absurd hstage (hu t.name)
  · intro i
    exact Stage.noConfusion

end Traffic

end ResponseCache
