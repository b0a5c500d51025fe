import Mathlib.Logic.Function.Basic
import ResponseCache.Proofs.Run.Basic
import ResponseCache.Proofs.Stack.Tiers

/-!
# Sends that overlap

Any number of sends may be under way at one cache. A send takes up to three steps: it looks for a
kept response, and if it finds none it asks the origin, and if a response comes back it decides
whether to keep that. Each step is taken at once, and between two steps of one send any steps of
others may come, each at its own readings of the clocks. A send that is given an overfull entry
crashes at its first step, and the others go on.

What a send does is told by its own acts alone, whatever the others do: `Course` lists the ways that
a send can go, one for each stage, and every send is on one of them (`course_after`). A send by
itself is a run of three turns (`send_eq_after`).
-/

namespace ResponseCache

/-- How far a send has come: it has not begun, it waits for the origin, it has got a live response,
it has given its result, or its lookup has crashed. -/
inductive Stage where
  | idle
  | passed
  | fetched (p : Response)
  | done (result : Except (Halt Failure) Response)
  | crashed

namespace Stage

def ofFinding : Cache.Finding → Stage
  | .serve _ q _ => .done (.ok q)
  | .pass _ => .passed
  | .crash => .crashed

def ofReply : Except (Halt Failure) Response → Stage
  | .ok p => .fetched p
  | .error halt => .done (.error halt)

end Stage

/-- What a send does in one step. -/
inductive Traffic.Act where
  | looked (event : KeyedEvent) (answer : Option Response)
  | fetched (r : Request) (reply : Except (Halt Failure) Response)
  | settled (r : Request) (p : Response) (now : Instant) (event : KeyedEvent)
    (records : List LogRecord)
  | crashed

/-- The lookup of a send under a key. -/
def Traffic.Act.ofFinding (key : Key) : Cache.Finding → Traffic.Act
  | .serve tag q e => .looked ⟨key, .hit tag e⟩ (some q)
  | .pass event => .looked ⟨key, event⟩ none
  | .crash => .crashed

/-- Sends under names in `ι`, at one cache, and what they have done so far, newest first. -/
structure Traffic (ι σ : Type) where
  storage : σ
  stage : ι → Stage
  history : List (ι × Traffic.Act)

namespace Traffic

variable {ι σ : Type}

/-- Whose step is next, the readings of the clocks at it, and what the origin replies if it is
asked. -/
structure Turn (ι : Type) where
  name : ι
  now : Instant
  storageNow : Instant
  reply : Except (Halt Failure) Response

/-- What a step leaves, and what was done. -/
structure Taken (σ : Type) where
  storage : σ
  stage : Stage
  act : Act

/-- The next step of a send of `r`, if there is one. -/
def take (b : Instant → Backend σ) (c : Config) (r : Request) (storage : σ) (t : Turn ι) :
    Stage → Option (Taken σ)
  | .idle =>
    let started := Cache.start (b t.storageNow) c storage r t.now
    some ⟨started.storage, .ofFinding started.finding,
      .ofFinding (Key.ofRequest r) started.finding⟩
  | .passed => some ⟨storage, .ofReply t.reply, .fetched r t.reply⟩
  | .fetched p =>
    let settled := Cache.settle (b t.storageNow) c storage r t.now p
    some ⟨settled.storage, .done (.ok p),
      .settled r p t.now ⟨Key.ofRequest r, settled.event⟩ settled.records⟩
  | .done _ | .crashed => none

def fresh (storage : σ) : Traffic ι σ := ⟨storage, fun _ => .idle, []⟩

variable [DecidableEq ι]

/-- One turn of a cache with configuration `c`, over a storage that behaves like `b t` when its
clock shows `t`. A send that has given its result, or has crashed, does nothing more. -/
def step (b : Instant → Backend σ) (c : Config) (request : ι → Request) (u : Traffic ι σ)
    (t : Turn ι) : Traffic ι σ :=
  match take b c (request t.name) u.storage t (u.stage t.name) with
  | some taken =>
    ⟨taken.storage, Function.update u.stage t.name taken.stage, (t.name, taken.act) :: u.history⟩
  | none => u

def after (b : Instant → Backend σ) (c : Config) (request : ι → Request) (u : Traffic ι σ)
    (turns : List (Turn ι)) : Traffic ι σ :=
  turns.foldl (step b c request) u

namespace Act

def event? : Act → Option KeyedEvent
  | .looked event _ | .settled _ _ _ event _ => some event
  | .fetched .. | .crashed => none

/-- The call of the origin, with its reply. -/
def fetch? : Act → Option (Request × Except (Halt Failure) Response)
  | .fetched r reply => some (r, reply)
  | _ => none

end Act

/-- What one send has done, newest first. -/
def actsOf (u : Traffic ι σ) (i : ι) : List Act :=
  u.history.filterMap fun x => if x.1 = i then some x.2 else none

/-- The events of one send, in order. -/
def eventsOf (u : Traffic ι σ) (i : ι) : List KeyedEvent :=
  (u.actsOf i).reverse.filterMap Act.event?

/-- The calls of the origin by one send. -/
def fetchesOf (u : Traffic ι σ) (i : ι) : List (Request × Except (Halt Failure) Response) :=
  (u.actsOf i).reverse.filterMap Act.fetch?

variable {b : Instant → Backend σ} {c : Config} {request : ι → Request} {u : Traffic ι σ}
  {t : Turn ι} {taken : Taken σ} {i : ι} {r : Request}

/-! ## Turns -/

theorem step_of_some (h : take b c (request t.name) u.storage t (u.stage t.name) = some taken) :
    u.step b c request t = ⟨taken.storage, Function.update u.stage t.name taken.stage,
      (t.name, taken.act) :: u.history⟩ := by
  simp only [step, h]

theorem step_of_none (h : take b c (request t.name) u.storage t (u.stage t.name) = none) :
    u.step b c request t = u := by
  simp only [step, h]

/-- What every turn keeps holds after any turns. -/
theorem after_inv (P : Traffic ι σ → Prop) (hstep : ∀ u t, P u → P (u.step b c request t))
    (turns : List (Turn ι)) (hu : P u) : P (u.after b c request turns) := by
  unfold after
  induction turns generalizing u with
  | nil => exact hu
  | cons t turns ih =>
    apply ih
    exact hstep u t hu

theorem actsOf_cons (storage : σ) (stage : ι → Stage) (name : ι) (act : Act)
    (history : List (ι × Act)) :
    actsOf ⟨storage, stage, (name, act) :: history⟩ i
      = if name = i then act :: actsOf ⟨storage, stage, history⟩ i
        else actsOf ⟨storage, stage, history⟩ i := by
  by_cases h : name = i <;> simp [actsOf, h]

theorem mem_actsOf {act : Act} : act ∈ u.actsOf i ↔ (i, act) ∈ u.history := by
  rw [actsOf, List.mem_filterMap]
  constructor
  · rintro ⟨⟨name, act'⟩, hmem, h⟩
    obtain ⟨rfl, rfl⟩ : name = i ∧ act' = act := by simpa using h
    exact hmem
  · intro hmem
    exact ⟨(i, act), hmem, if_pos rfl⟩

/-- What holds of every send by what it has done itself still holds after a turn, if it holds of the
send whose turn it is. -/
theorem forall_step {P : ι → Stage → List Act → Prop} (u : Traffic ι σ) (t : Turn ι)
    (hu : ∀ i, P i (u.stage i) (u.actsOf i))
    (htake : ∀ taken, take b c (request t.name) u.storage t (u.stage t.name) = some taken →
      P t.name taken.stage (taken.act :: u.actsOf t.name)) (i : ι) :
    P i ((u.step b c request t).stage i) ((u.step b c request t).actsOf i) := by
  cases h : take b c (request t.name) u.storage t (u.stage t.name) with
  | none =>
    rw [step_of_none h]
    exact hu i
  | some taken =>
    rw [step_of_some h, actsOf_cons]
    by_cases hi : t.name = i
    · subst hi
      rw [if_pos rfl]
      dsimp only
      rw [Function.update_self]
      exact htake taken h
    · rw [if_neg hi]
      dsimp only
      rw [Function.update_of_ne (Ne.symm hi)]
      exact hu i

/-! ## The course of a send -/

/-- The events with which a send begins that is not answered from the storage. -/
def Opening (event : Event) : Prop :=
  event = .bypass ∨ Cache.IsPass event

/-- The events with which a send ends that has got a live response. -/
def Closing (event : Event) : Prop :=
  (∃ e, event = .stored e) ∨ (∃ failure, event = .storeFailed failure) ∨ Cache.IsSkip event

/-- The ways that a send of `r` can go up to each stage: what it has done, newest first. -/
inductive Course (r : Request) : Stage → List Act → Prop
  | idle : Course r .idle []
  | hit {tag : String} {e : Instant} {q : Response} :
    Course r (.done (.ok q)) [.looked ⟨Key.ofRequest r, .hit tag e⟩ (some q)]
  | crashed : Course r .crashed [.crashed]
  | passed {event : Event} (hopening : Opening event) :
    Course r .passed [.looked ⟨Key.ofRequest r, event⟩ none]
  | failed {event : Event} {halt : Halt Failure} (hopening : Opening event) :
    Course r (.done (.error halt))
      [.fetched r (.error halt), .looked ⟨Key.ofRequest r, event⟩ none]
  | fetched {event : Event} {p : Response} (hopening : Opening event) :
    Course r (.fetched p) [.fetched r (.ok p), .looked ⟨Key.ofRequest r, event⟩ none]
  | settled {event closing : Event} {p : Response} {now : Instant} {records : List LogRecord}
    (hopening : Opening event) (hclosing : Closing closing) :
    Course r (.done (.ok p))
      [.settled r p now ⟨Key.ofRequest r, closing⟩ records, .fetched r (.ok p),
        .looked ⟨Key.ofRequest r, event⟩ none]

theorem opening_of_pass {b : Backend σ} {storage : σ} {now : Instant} {event : Event}
    (h : (Cache.start b c storage r now).finding = .pass event) : Opening event := by
  obtain ⟨-, hbypass⟩ | ⟨-, hpass⟩ := Cache.event_of_start_eq_pass h
  · exact .inl hbypass
  · exact .inr hpass

theorem closing_settle (b : Backend σ) (c : Config) (storage : σ) (r : Request) (now : Instant)
    (p : Response) : Closing (Cache.settle b c storage r now p).event := by
  obtain ⟨w, e, -, -, -, h⟩ | ⟨failure, -, h⟩ | ⟨event, hskip, h⟩ :=
    Cache.settle_cases b c storage r now p
  · rw [h]
    exact .inl ⟨e, rfl⟩
  · rw [h]
    exact .inr (.inl ⟨failure, rfl⟩)
  · rw [h]
    exact .inr (.inr hskip)

omit [DecidableEq ι] in
/-- A step leads from a course to the next one. -/
theorem Course.take {storage : σ} {stage : Stage} {acts : List Act} (h : Course r stage acts)
    (htake : take b c r storage t stage = some taken) :
    Course r taken.stage (taken.act :: acts) := by
  cases h with
  | idle =>
    obtain rfl := Option.some.inj htake
    dsimp only
    cases hfinding : (Cache.start (b t.storageNow) c storage r t.now).finding with
    | serve tag q e => exact .hit
    | pass event => exact .passed (opening_of_pass hfinding)
    | crash => exact .crashed
  | hit => cases htake
  | crashed => cases htake
  | passed hopening =>
    obtain rfl := Option.some.inj htake
    dsimp only
    cases t.reply with
    | ok p => exact .fetched hopening
    | error halt => exact .failed hopening
  | failed => cases htake
  | fetched hopening =>
    obtain rfl := Option.some.inj htake
    exact .settled hopening (closing_settle ..)
  | settled => cases htake

/-- Every send is on its course, whatever the storage and the others do. -/
theorem course_after (b : Instant → Backend σ) (c : Config) (request : ι → Request) (storage : σ)
    (turns : List (Turn ι)) (i : ι) :
    let u := (fresh storage).after b c request turns
    Course (request i) (u.stage i) (u.actsOf i) := by
  revert i
  apply after_inv fun u => ∀ i, Course (request i) (u.stage i) (u.actsOf i)
  · intro u t hu
    exact forall_step u t hu fun taken htake => (hu t.name).take htake
  · intro i
    exact .idle

/-! ## A send by itself -/

section Send

variable {now own : Instant} {p : Response} {result : Except (Halt Failure) Response}

theorem step_of_idle (h : u.stage t.name = .idle) :
    u.step b c request t =
      let started := Cache.start (b t.storageNow) c u.storage (request t.name) t.now
      ⟨started.storage, Function.update u.stage t.name (.ofFinding started.finding),
        (t.name, .ofFinding (Key.ofRequest (request t.name)) started.finding) :: u.history⟩ := by
  simp only [step, h, take]

theorem step_of_passed (h : u.stage t.name = .passed) :
    u.step b c request t = ⟨u.storage, Function.update u.stage t.name (.ofReply t.reply),
      (t.name, .fetched (request t.name) t.reply) :: u.history⟩ := by
  simp only [step, h, take]

theorem step_of_fetched (h : u.stage t.name = .fetched p) :
    u.step b c request t =
      let settled := Cache.settle (b t.storageNow) c u.storage (request t.name) t.now p
      ⟨settled.storage, Function.update u.stage t.name (.done (.ok p)),
        (t.name, .settled (request t.name) p t.now
          ⟨Key.ofRequest (request t.name), settled.event⟩ settled.records) :: u.history⟩ := by
  simp only [step, h, take]

theorem step_of_done (h : u.stage t.name = .done result) : u.step b c request t = u := by
  simp only [step, h, take]

theorem step_of_crashed (h : u.stage t.name = .crashed) : u.step b c request t = u := by
  simp only [step, h, take]

/-- A request that is sent to one cache and answered at one reading of the clocks is a send that
takes all its turns at once. -/
theorem send_eq_after (u : Traffic ι σ) (h : u.stage i = .idle)
    (fetch : Request → Except (Halt Failure) Response) :
    let turn : Turn ι := ⟨i, now, own, fetch (request i)⟩
    let sent := Stack.send (b own) [⟨c, u.storage⟩] (request i) now fetch
    let v := u.after b c request [turn, turn, turn]
    sent.tiers = [⟨c, v.storage⟩]
      ∧ (v.stage i = .done sent.result
        ∨ v.stage i = .crashed ∧ sent.result = .error .crashed)
      ∧ ∃ acts : List Act, v.history = acts.map (fun act => (i, act)) ++ u.history
        ∧ sent.notices.filterMap TierNotice.event?
          = (acts.reverse.filterMap Act.event?).map (fun event => (0, event))
        ∧ sent.fetched.map (fun r => (r, sent.result)) = acts.filterMap Act.fetch? := by
  intro turn sent v
  have hv : v = ((u.step b c request turn).step b c request turn).step b c request turn := rfl
  generalize hu₁ : u.step b c request turn = u₁ at hv
  generalize hu₂ : u₁.step b c request turn = u₂ at hv
  have hfirst : u₁ = _ := hu₁.symm.trans (step_of_idle h)
  have hstage : u₁.stage turn.name
      = .ofFinding (Cache.start (b own) c u.storage (request i) now).finding := by
    rw [hfirst]
    exact Function.update_self ..
  cases hfinding : (Cache.start (b own) c u.storage (request i) now).finding with
  | serve tag q e =>
    have hdone : u₁.stage turn.name = .done (.ok q) := by rw [hstage, hfinding, Stage.ofFinding]
    have hsent : sent = _ := Stack.send_single_of_serve hfinding
    rw [← hu₂, step_of_done hdone, step_of_done hdone] at hv
    rw [hsent, hv]
    refine ⟨by rw [hfirst], .inl hdone, [_], by rw [hfirst]; rfl, ?_, ?_⟩
    · simp only [turn, hfinding]
      rfl
    · simp only [turn, hfinding]
      rfl
  | crash =>
    have hcrashed : u₁.stage turn.name = .crashed := by rw [hstage, hfinding, Stage.ofFinding]
    have hsent : sent = _ := Stack.send_single_of_crash hfinding
    rw [← hu₂, step_of_crashed hcrashed, step_of_crashed hcrashed] at hv
    rw [hsent, hv]
    refine ⟨by rw [hfirst], .inr ⟨hcrashed, rfl⟩, [_], by rw [hfirst]; rfl, ?_, ?_⟩
    · simp only [turn, hfinding]
      rfl
    · simp only [turn, hfinding]
      rfl
  | pass event =>
    have hpassed : u₁.stage turn.name = .passed := by rw [hstage, hfinding, Stage.ofFinding]
    have hsecond : u₂ = _ := hu₂.symm.trans (step_of_passed hpassed)
    cases hfetch : fetch (request i) with
    | ok p =>
      have hfetched : u₂.stage turn.name = .fetched p := by
        simp only [hsecond, turn, hfetch]
        exact Function.update_self ..
      have hsent : sent = _ := Stack.send_single_of_ok hfinding hfetch
      rw [step_of_fetched hfetched, hsecond, hfirst] at hv
      rw [hsent, hv]
      refine ⟨rfl, .inl (Function.update_self ..), [_, _, _], rfl, ?_, ?_⟩
      · simp only [turn, hfinding]
        exact Stack.events_of_settled ..
      · simp only [turn, hfetch, hfinding]
        rfl
    | error halt =>
      have hdone : u₂.stage turn.name = .done (.error halt) := by
        simp only [hsecond, turn, hfetch]
        exact Function.update_self ..
      have hsent : sent = _ := Stack.send_single_of_error hfinding hfetch
      rw [step_of_done hdone] at hv
      rw [hsecond, hfirst] at hdone hv
      rw [hsent, hv]
      refine ⟨rfl, .inl hdone, [_, _], rfl, ?_, ?_⟩
      · simp only [turn, hfinding]
        rfl
      · simp only [turn, hfetch, hfinding]
        rfl

end Send

end Traffic

end ResponseCache
