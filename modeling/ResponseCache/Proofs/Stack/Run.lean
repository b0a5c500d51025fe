import ResponseCache.Proofs.Stack.Tiers

/-!
# Runs of a stack

A stack of caches over memory stores at work, all on one clock. A request comes in and is answered
by a tier, or crashes one, or waits for the origin's result; the result comes back; or a store is
cleared. The clock may show anything at each turn. The history says what became of the responses:
which tier served, and which tiers kept what was served or fetched. With it one can tell for every
tier where the response comes from that it holds under a key (`source?`): from the origin, whatever
tiers it has passed through.

A request sent on its own is a run of two turns (`send_eq_after`).
-/

namespace ResponseCache.Stack

/-- A live response and the time at which it came in. -/
structure Fetch where
  response : Response
  now : Instant
deriving DecidableEq

/-- What may happen to a stack next. -/
inductive Move where
  | ask (r : Request)
  | reply (place : Nat) (result : Except (Halt Failure) Response)
  | clear (depth : Nat)

structure Turn where
  now : Instant
  move : Move

/-- What became of a response, with the depths of the tiers that kept it: the tier at a depth served
it, or it was fetched. -/
inductive Deed where
  | served (r : Request) (depth : Nat) (kept : List Nat)
  | fetched (r : Request) (fetch : Fetch) (kept : List Nat)

/-- A stack at work, with the requests that wait for the origin and what was done so far, newest
first. -/
structure Run where
  tiers : List (Tier Store)
  waiting : List Request
  history : List Deed

/-- What a tier is made of. -/
structure Setup where
  config : Config
  limits : Limits
  origin : String

/-- Where the response comes from that the tier at a depth was the last to keep under a key: it was
fetched, or served by a deeper tier that has it from somewhere. -/
def source? : List Deed → Nat → Key → Option Fetch
  | [], _, _ => none
  | .served r below kept :: earlier, depth, key =>
    if Key.ofRequest r = key ∧ depth ∈ kept then source? earlier below key
    else source? earlier depth key
  | .fetched r fetch kept :: earlier, depth, key =>
    if Key.ofRequest r = key ∧ depth ∈ kept then some fetch
    else source? earlier depth key

/-- A source is a fetch of the history, for a request of the key. -/
theorem mem_of_source? {history : List Deed} {depth : Nat} {key : Key} {f : Fetch}
    (h : source? history depth key = some f) :
    ∃ r kept, Deed.fetched r f kept ∈ history ∧ Key.ofRequest r = key := by
  induction history generalizing depth with
  | nil => cases h
  | cons d earlier ih =>
    have hrest : ∀ {depth : Nat}, source? earlier depth key = some f →
        ∃ r kept, Deed.fetched r f kept ∈ d :: earlier ∧ Key.ofRequest r = key := by
      intro depth h
      obtain ⟨r, kept, hmem, hkey⟩ := ih h
      exact ⟨r, kept, List.mem_cons_of_mem _ hmem, hkey⟩
    cases d with
    | served r below kept =>
      rw [source?] at h
      split at h <;> exact hrest h
    | fetched r fetch kept =>
      rw [source?] at h
      split at h
      · rename_i hkept
        cases h
        exact ⟨r, kept, List.mem_cons_self, hkept.1⟩
      · exact hrest h

namespace Run

def fresh (setups : List Setup) : Run :=
  ⟨setups.map fun s => ⟨s.config, Store.empty s.limits s.origin⟩, [], []⟩

/-- A response that was served by a deeper tier or fetched comes up the first `count` tiers. -/
def keep (u : Run) (r : Request) (now : Instant) (p : Response) (count : Nat)
    (deed : List Nat → Deed) : Run :=
  let up := ascend Store.backend r now p 0 count u.tiers
  { u with tiers := up.1, history := deed (keepers up.2) :: u.history }

/-- One turn of a stack. A result for a place where no request waits changes nothing. -/
def step (u : Run) (t : Turn) : Run :=
  match t.move with
  | .ask r =>
    let d := descend Store.backend r t.now 0 u.tiers
    let looked := { u with tiers := d.tiers }
    match d.standing with
    | .answered q => looked.keep r t.now q d.passed (.served r d.passed)
    | .passed => { looked with waiting := u.waiting ++ [r] }
    | .crashed => looked
  | .reply place result =>
    match u.waiting[place]?, result with
    | none, _ => u
    | some r, .ok p =>
      let answered := { u with waiting := u.waiting.eraseIdx place }
      answered.keep r t.now p u.tiers.length (.fetched r ⟨p, t.now⟩)
    | some _, .error _ => { u with waiting := u.waiting.eraseIdx place }
  | .clear depth =>
    { u with tiers := u.tiers.modify depth fun t => { t with storage := t.storage.clear } }

def after (u : Run) (turns : List Turn) : Run :=
  turns.foldl step u

/-- A stack whose stores were empty, after some turns. -/
def ofTurns (setups : List Setup) (turns : List Turn) : Run :=
  (fresh setups).after turns

/-- What every turn of a run keeps holds at its end. -/
theorem after_inv (P : Run → Prop) (turns : List Turn)
    (hstep : ∀ u, ∀ t ∈ turns, P u → P (u.step t)) {u : Run} (hu : P u) : P (u.after turns) := by
  unfold after
  induction turns generalizing u with
  | nil => exact hu
  | cons t turns ih =>
    apply ih
    · intro u t ht
      exact hstep u t (List.mem_cons_of_mem _ ht)
    · exact hstep u t List.mem_cons_self hu

variable {u : Run} {r : Request} {now : Instant} {p q : Response} {place : Nat}

theorem step_ask_of_answered
    (h : (descend Store.backend r now 0 u.tiers).standing = .answered q) :
    u.step ⟨now, .ask r⟩ =
      let d := descend Store.backend r now 0 u.tiers
      { u with tiers := d.tiers }.keep r now q d.passed (.served r d.passed) := by
  simp only [step, h]

theorem step_ask_of_passed (h : (descend Store.backend r now 0 u.tiers).standing = .passed) :
    u.step ⟨now, .ask r⟩ =
      { u with
        tiers := (descend Store.backend r now 0 u.tiers).tiers
        waiting := u.waiting ++ [r] } := by
  simp only [step, h]

theorem step_ask_of_crashed (h : (descend Store.backend r now 0 u.tiers).standing = .crashed) :
    u.step ⟨now, .ask r⟩
      = { u with tiers := (descend Store.backend r now 0 u.tiers).tiers } := by
  simp only [step, h]

/-- A reply that nobody waits for changes nothing. -/
theorem step_reply_none {result : Except (Halt Failure) Response} (h : u.waiting[place]? = none) :
    u.step ⟨now, .reply place result⟩ = u := by
  simp only [step, h]

theorem step_reply_ok (h : u.waiting[place]? = some r) :
    u.step ⟨now, .reply place (.ok p)⟩ =
      { u with waiting := u.waiting.eraseIdx place }.keep r now p u.tiers.length
        (.fetched r ⟨p, now⟩) := by
  simp only [step, h]

theorem step_reply_error {halt : Halt Failure} (h : u.waiting[place]? = some r) :
    u.step ⟨now, .reply place (.error halt)⟩ =
      { u with waiting := u.waiting.eraseIdx place } := by
  simp only [step, h]

/-- The tiers up to the given depth keep the response, each with its own configuration. -/
theorem getElem?_keep {count i : Nat} {deed : List Nat → Deed} :
    (u.keep r now p count deed).tiers[i]?
      = u.tiers[i]?.map fun t => if i < count then settled Store.backend r now p t else t := by
  rw [keep, tiers_ascend, getElem?_map_take]

theorem length_keep {count : Nat} {deed : List Nat → Deed} :
    (u.keep r now p count deed).tiers.length = u.tiers.length := by
  rw [keep, tiers_ascend, length_map_take]

/-- A request that is sent to a stack and answered at one reading of the clock is a run of two
turns: it comes in, and if no tier has stopped it the result comes back. -/
theorem send_eq_after (hu : u.waiting = [])
    (fetch : Request → Except (Halt Failure) Response) :
    let sent := send Store.backend u.tiers r now fetch
    let v := u.after [⟨now, .ask r⟩, ⟨now, .reply 0 (fetch r)⟩]
    sent.tiers = v.tiers ∧ v.waiting = []
      ∧ sent.result = resultOf r fetch (descend Store.backend r now 0 u.tiers).standing := by
  intro sent v
  have hv : v = (u.step ⟨now, .ask r⟩).step ⟨now, .reply 0 (fetch r)⟩ := rfl
  obtain ⟨hresult, htiers⟩ := Stack.send_eq Store.backend r now fetch u.tiers
  rw [hresult] at htiers
  cases hstanding : (descend Store.backend r now 0 u.tiers).standing with
  | answered q =>
    rw [step_ask_of_answered hstanding, step_reply_none (by simp [keep, hu])] at hv
    rw [hstanding] at htiers hresult
    rw [hv]
    refine ⟨?_, hu, hresult⟩
    rw [keep, tiers_ascend]
    exact htiers
  | crashed =>
    rw [step_ask_of_crashed hstanding, step_reply_none (by simp [hu])] at hv
    rw [hstanding] at htiers hresult
    rw [hv]
    exact ⟨htiers, hu, hresult⟩
  | passed =>
    rw [step_ask_of_passed hstanding, hu] at hv
    rw [hstanding, passed_descend_of_passed hstanding] at htiers
    rw [hstanding] at hresult
    cases hfetch : fetch r with
    | ok p =>
      rw [hfetch, step_reply_ok rfl] at hv
      rw [resultOf, hfetch] at htiers
      rw [hv]
      refine ⟨?_, rfl, hresult⟩
      rw [keep, tiers_ascend]
      dsimp only
      rw [length_descend]
      exact htiers
    | error halt =>
      rw [hfetch, step_reply_error rfl] at hv
      rw [resultOf, hfetch] at htiers
      rw [hv]
      exact ⟨htiers, rfl, hresult⟩

end Run

end ResponseCache.Stack
