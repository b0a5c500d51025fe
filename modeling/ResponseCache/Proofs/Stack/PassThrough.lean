import ResponseCache.Proofs.Cache.HitSafety
import ResponseCache.Proofs.Stack.Chain

/-!
# What the layers see of a request

What a layer has seen of a request is told by the calls to its storage and by its notices, its
`Glimpse`. `pass_through` says for all layers of a chain at once what they have seen. The induction
is on the layers (`course_relay`). What a layer does is written down under its own depth, so the
layers behind it have seen what they would have seen without it (`glimpse_of_pass`).
-/

namespace ResponseCache

theorem World.settle_recorded_eq {ω : Type} (w : World ω) (c : Config) (s : ω) (calls : List Call)
    (r : Request) (later : Instant) (p : Response) :
    let settled := Cache.settle w.storage c s r later p
    Cache.settle w.recorded.storage c (s, calls) r later p
      = ⟨(settled.storage, calls ++ w.writeCalls c s r later p), settled.event,
        settled.records⟩ := by
  intro settled
  have hstorage := World.settle_recorded w c s calls r later p
  have hreport : (Cache.settle w.recorded.storage c (s, calls) r later p).event = settled.event
      ∧ (Cache.settle w.recorded.storage c (s, calls) r later p).records = settled.records := by
    simp only [settled, Cache.settle, World.recorded]
    cases Cache.weigh c r (w.storage.origin s) later p with
    | skip event => exact ⟨rfl, rfl⟩
    | write entry e =>
      dsimp only
      cases (w.storage.set s (Key.ofRequest r) entry c.entryTtl later).result <;> exact ⟨rfl, rfl⟩
  rw [← hstorage, ← hreport.1, ← hreport.2]

namespace Chain

open Stack (eventAt)

variable {ω : Type}

/-! ## Calls by depth -/

section Recorded

/-- The world as a layer reaches it, the other layers aside. -/
def world (k : Chain ω) (depth : Nat) : World ω := ⟨(k.layer depth).storage, k.fetch⟩

/-- The calls made at one depth, beside the state. -/
def callsAt (depth : Nat) : Lens (ω × (Nat → List Call)) (ω × List Call) where
  get t := (t.1, t.2 depth)
  set t x := (x.1, Function.update t.2 depth x.2)
  get_set t x := by simp
  set_get t := by simp

/-- The chain with the lists of the calls made to the storage of each of its `n` layers, and to the
origin at depth `n`. -/
def recorded (k : Chain ω) (n : Nat) : Chain (ω × (Nat → List Call)) where
  layer depth := { k.layer depth with
    storage := (k.world depth).recorded.storage.within (callsAt depth) }
  fetch t r :=
    let fetched := (k.world n).recorded.fetch ((callsAt n).get t) r
    (fetched.1, (callsAt n).set t fetched.2)

/-- What was seen of a request at one depth: the calls made there and the notices given. -/
structure Glimpse where
  calls : List Call
  notices : List TierNotice

/-- What is seen of a request that does not get as far. -/
def Glimpse.unreached : Glimpse := ⟨[], []⟩

def Relayed.glimpse (sent : Relayed (ω × (Nat → List Call))) (depth : Nat) : Glimpse :=
  ⟨sent.state.2 depth, sent.notices.filter fun n => n.depth = depth⟩

def Relayed.unrecorded (sent : Relayed (ω × (Nat → List Call))) : Relayed ω :=
  ⟨sent.state.1, sent.notices, sent.result⟩

def lookupCalls (k : Chain ω) (r : Request) (depth : Nat) (s : ω) : List Call :=
  (k.world depth).lookupCalls (k.layer depth).config s r (k.layer depth).down

def writeCalls (k : Chain ω) (r : Request) (depth : Nat) (s : ω) :
    Except (Halt Failure) Response → List Call
  | .error _ => []
  | .ok p => (k.world depth).writeCalls (k.layer depth).config s r (k.layer depth).up p

/-- What a layer has seen that looked for a kept response when the state was `s`. -/
def looked (k : Chain ω) (r : Request) (depth : Nat) (s : ω) : Glimpse :=
  ⟨k.lookupCalls r depth s, (k.lookUp r depth s).event?.toList.map (eventAt depth r)⟩

/-- What a layer has seen that looked for a kept response when the state was `s`, passed the request
on, and got `result` from behind when the state was `later`. -/
def passed (k : Chain ω) (r : Request) (depth : Nat) (s later : ω)
    (result : Except (Halt Failure) Response) : Glimpse :=
  ⟨(k.looked r depth s).calls ++ k.writeCalls r depth later result,
    (k.looked r depth s).notices ++ (k.comeUp r depth later result).2⟩

/-- The lists of calls with some more at one depth. -/
def noted (log : Nat → List Call) (depth : Nat) (calls : List Call) : Nat → List Call :=
  Function.update log depth (log depth ++ calls)

variable {k : Chain ω} {r : Request} {n depth rest : Nat} {s : ω} {log : Nat → List Call}
  {q : Response} {tag : String} {e : Instant} {event : Event}

theorem noted_self (calls : List Call) : noted log depth calls depth = log depth ++ calls :=
  Function.update_self ..

theorem noted_of_ne {j : Nat} (h : j ≠ depth) (calls : List Call) :
    noted log depth calls j = log j :=
  Function.update_of_ne h ..

theorem noted_nil : noted log depth [] = log := by
  rw [noted, List.append_nil, Function.update_eq_self]

/-- Recording changes nothing about the lookup of a layer. -/
theorem lookUp_recorded (k : Chain ω) (r : Request) (n depth : Nat) (s : ω)
    (log : Nat → List Call) :
    let started := k.lookUp r depth s
    (k.recorded n).lookUp r depth (s, log)
      = ⟨(started.storage, noted log depth (k.lookupCalls r depth s)), started.finding⟩ := by
  have hworld := World.start_recorded (k.world depth) (k.layer depth).config s (log depth) r
    (k.layer depth).down
  simp only [lookUp, recorded, Cache.start_within]
  rw [show (callsAt depth).get (s, log) = (s, log depth) from rfl, hworld]
  rfl

/-- Nor about what a result does to it. -/
theorem comeUp_recorded (k : Chain ω) (r : Request) (n depth : Nat) (s : ω)
    (log : Nat → List Call) (result : Except (Halt Failure) Response) :
    (k.recorded n).comeUp r depth (s, log) result
      = (((k.comeUp r depth s result).1, noted log depth (k.writeCalls r depth s result)),
        (k.comeUp r depth s result).2) := by
  cases result with
  | error halt => simp only [comeUp, writeCalls, noted_nil]
  | ok p =>
    have hworld := World.settle_recorded_eq (k.world depth) (k.layer depth).config s (log depth) r
      (k.layer depth).up p
    simp only [comeUp, recorded, Cache.settle_within]
    rw [show (callsAt depth).get (s, log) = (s, log depth) from rfl, hworld]
    rfl

theorem recorded_zero :
    (k.recorded n).relay r n 0 (s, log) =
      ⟨((k.fetch s r).2, noted log n [.fetched r (k.fetch s r).1]), [], (k.fetch s r).1⟩ := rfl

theorem recorded_of_serve (h : (k.lookUp r depth s).finding = .serve tag q e) :
    (k.recorded n).relay r depth (rest + 1) (s, log) =
      ⟨((k.lookUp r depth s).storage, noted log depth (k.lookupCalls r depth s)),
        [eventAt depth r (.hit tag e)], .ok q⟩ := by
  have hlook := lookUp_recorded k r n depth s log
  rw [relay_of_serve (by rw [hlook, h]), hlook]

theorem recorded_of_crash (h : (k.lookUp r depth s).finding = .crash) :
    (k.recorded n).relay r depth (rest + 1) (s, log) =
      ⟨((k.lookUp r depth s).storage, noted log depth (k.lookupCalls r depth s)), [],
        .error .crashed⟩ := by
  have hlook := lookUp_recorded k r n depth s log
  rw [relay_of_crash (by rw [hlook, h]), hlook]

theorem recorded_of_pass (h : (k.lookUp r depth s).finding = .pass event) :
    let below := (k.recorded n).relay r (depth + 1) rest
      ((k.lookUp r depth s).storage, noted log depth (k.lookupCalls r depth s))
    let up := k.comeUp r depth below.state.1 below.result
    (k.recorded n).relay r depth (rest + 1) (s, log) =
      ⟨(up.1, noted below.state.2 depth (k.writeCalls r depth below.state.1 below.result)),
        eventAt depth r event :: (below.notices ++ up.2), below.result⟩ := by
  intro below up
  have hlook := lookUp_recorded k r n depth s log
  have hup := comeUp_recorded k r n depth below.state.1 below.state.2 below.result
  rw [relay_of_pass (by rw [hlook, h]), hlook]
  dsimp only
  rw [show (k.recorded n).comeUp r depth below.state below.result = _ from hup]

/-- To note the calls changes nothing. -/
theorem unrecorded_relay (k : Chain ω) (r : Request) (n depth rest : Nat) (s : ω)
    (log : Nat → List Call) :
    ((k.recorded n).relay r depth rest (s, log)).unrecorded = k.relay r depth rest s := by
  induction rest generalizing depth s log with
  | zero => rfl
  | succ rest ih =>
    cases hfinding : (k.lookUp r depth s).finding with
    | serve tag q e =>
      rw [recorded_of_serve hfinding, relay_of_serve hfinding]
      rfl
    | pass event =>
      rw [recorded_of_pass hfinding, relay_of_pass hfinding, ← ih]
      rfl
    | crash =>
      rw [recorded_of_crash hfinding, relay_of_crash hfinding]
      rfl

theorem glimpse_mk (notices : List TierNotice) (result : Except (Halt Failure) Response) (j : Nat) :
    Relayed.glimpse ⟨(s, log), notices, result⟩ j
      = ⟨log j, notices.filter fun n => n.depth = j⟩ := rfl

section Glimpses

variable {below : Relayed (ω × (Nat → List Call))} {t later : ω} {calls : List Call}
  {result result' : Except (Halt Failure) Response}

/-- What a layer does is not seen at another depth. -/
theorem glimpse_wrap_of_ne {j : Nat} (hj : j ≠ depth) :
    Relayed.glimpse ⟨(t, noted below.state.2 depth calls),
      eventAt depth r event :: (below.notices ++ (k.comeUp r depth later result).2), result'⟩ j
        = below.glimpse j := by
  have hnone : ((k.comeUp r depth later result).2.filter fun n => n.depth = j) = [] := by
    refine List.filter_eq_nil_iff.2 fun notice hnotice => ?_
    rw [depth_of_mem_comeUp hnotice]
    simpa using hj.symm
  rw [glimpse_mk, noted_of_ne hj, List.filter_cons_of_neg (by simp [eventAt, hj.symm]),
    List.filter_append, hnone, List.append_nil]
  rfl

/-- At its own depth a layer sees its calls, and its notices before and after those from behind. -/
theorem glimpse_wrap_self {before : List Call} (hbelow : below.glimpse depth = ⟨before, []⟩) :
    Relayed.glimpse ⟨(t, noted below.state.2 depth calls),
      eventAt depth r event :: (below.notices ++ (k.comeUp r depth later result).2), result'⟩ depth
        = ⟨before ++ calls, eventAt depth r event :: (k.comeUp r depth later result).2⟩ := by
  have hcalls : below.state.2 depth = before := congrArg Glimpse.calls hbelow
  have hnotices : (below.notices.filter fun n => n.depth = depth) = [] :=
    congrArg Glimpse.notices hbelow
  have hall : ((k.comeUp r depth later result).2.filter fun n => n.depth = depth)
      = (k.comeUp r depth later result).2 :=
    List.filter_eq_self.2 fun notice hnotice => decide_eq_true (depth_of_mem_comeUp hnotice)
  rw [glimpse_mk, noted_self, hcalls, List.filter_cons_of_pos (by simp [eventAt]),
    List.filter_append, hnotices, hall, List.nil_append]

end Glimpses

/-- The layers in front see nothing of what those from some depth on do. -/
theorem glimpse_of_lt {j : Nat} (hj : j < depth) (hn : depth + rest = n) :
    ((k.recorded n).relay r depth rest (s, log)).glimpse j = ⟨log j, []⟩ := by
  induction rest generalizing depth s log with
  | zero =>
    obtain rfl : depth = n := hn
    rw [recorded_zero, glimpse_mk, noted_of_ne (Nat.ne_of_lt hj)]
    rfl
  | succ rest ih =>
    have hne : j ≠ depth := Nat.ne_of_lt hj
    cases hfinding : (k.lookUp r depth s).finding with
    | serve tag q e =>
      rw [recorded_of_serve hfinding, glimpse_mk, noted_of_ne hne,
        List.filter_cons_of_neg (by simp [eventAt, hne.symm])]
      rfl
    | pass event =>
      rw [recorded_of_pass hfinding, glimpse_wrap_of_ne hne, ih (Nat.lt_succ_of_lt hj) (by omega),
        noted_of_ne hne]
    | crash =>
      rw [recorded_of_crash hfinding, glimpse_mk, noted_of_ne hne]
      rfl

/-- A layer that answers is the last one to see the request. -/
theorem glimpse_of_serve (n rest : Nat) (h : (k.lookUp r depth s).finding = .serve tag q e)
    (hlog : log depth = []) :
    let sent := (k.recorded n).relay r depth (rest + 1) (s, log)
    sent.result = .ok q ∧ sent.glimpse depth = k.looked r depth s
      ∧ ∀ j, depth < j → sent.glimpse j = ⟨log j, []⟩ := by
  intro sent
  have hsent : sent = _ := recorded_of_serve h
  rw [hsent]
  refine ⟨rfl, ?_, ?_⟩
  · rw [glimpse_mk, noted_self, hlog, List.filter_cons_of_pos (by simp [eventAt]), looked,
      Cache.Started.event?, h]
    rfl
  · intro j hj
    rw [glimpse_mk, noted_of_ne (Nat.ne_of_gt hj),
      List.filter_cons_of_neg (by simp [eventAt, Nat.ne_of_lt hj])]
    rfl

/-- So is a layer that crashes. -/
theorem glimpse_of_crash (n rest : Nat) (h : (k.lookUp r depth s).finding = .crash)
    (hlog : log depth = []) :
    let sent := (k.recorded n).relay r depth (rest + 1) (s, log)
    sent.result = .error .crashed ∧ sent.glimpse depth = k.looked r depth s
      ∧ ∀ j, depth < j → sent.glimpse j = ⟨log j, []⟩ := by
  intro sent
  have hsent : sent = _ := recorded_of_crash h
  rw [hsent]
  refine ⟨rfl, ?_, ?_⟩
  · rw [glimpse_mk, noted_self, hlog, looked, Cache.Started.event?, h]
    rfl
  · intro j hj
    rw [glimpse_mk, noted_of_ne (Nat.ne_of_gt hj)]
    rfl

/-- A layer that passes the request on gives the result from behind, and what it does of its own is
not seen by the layers behind it. -/
theorem glimpse_of_pass (h : (k.lookUp r depth s).finding = .pass event) (hlog : log depth = [])
    (hn : depth + (rest + 1) = n) :
    let below := (k.recorded n).relay r (depth + 1) rest
      ((k.lookUp r depth s).storage, noted log depth (k.lookupCalls r depth s))
    let sent := (k.recorded n).relay r depth (rest + 1) (s, log)
    sent.result = below.result
      ∧ sent.glimpse depth = k.passed r depth s below.state.1 below.result
      ∧ ∀ j, depth < j → sent.glimpse j = below.glimpse j := by
  intro below sent
  have hbelow : below.glimpse depth = ⟨k.lookupCalls r depth s, []⟩ := by
    rw [glimpse_of_lt (Nat.lt_succ_self depth) (by omega), noted_self, hlog, List.nil_append]
  have hsent : sent = _ := recorded_of_pass h
  rw [hsent]
  refine ⟨rfl, ?_, ?_⟩
  · rw [glimpse_wrap_self hbelow, passed, looked, Cache.Started.event?, h]
    rfl
  · intro j hj
    exact glimpse_wrap_of_ne (Nat.ne_of_gt hj)

/-- The course of a request from some depth on, among `n` layers, that stops at depth `i`: at the
layer there, which answers or crashes, or at the origin behind the last one. -/
structure Course (k : Chain ω) (r : Request) (n depth i : Nat)
    (sent : Relayed (ω × (Nat → List Call))) : Prop where
  le : depth ≤ i
  le_length : i ≤ n
  before : ∀ j, depth ≤ j → j < i → ∃ s later event, (k.lookUp r j s).finding = .pass event
    ∧ sent.glimpse j = k.passed r j s later sent.result
  of_lt : i < n → ∃ s, sent.glimpse i = k.looked r i s
    ∧ ((∃ tag q e, (k.lookUp r i s).finding = .serve tag q e ∧ sent.result = .ok q)
      ∨ (k.lookUp r i s).finding = .crash ∧ sent.result = .error .crashed)
  of_eq : i = n → ∃ s, sent.result = (k.fetch s r).1
    ∧ sent.glimpse n = ⟨[.fetched r sent.result], []⟩
  after : ∀ j, i < j → sent.glimpse j = .unreached

/-- The course of a request that stops at the first layer. -/
theorem Course.of_stop {sent : Relayed (ω × (Nat → List Call))} (hlt : depth < n)
    (hlog : ∀ j, depth ≤ j → log j = []) (hglimpse : sent.glimpse depth = k.looked r depth s)
    (hothers : ∀ j, depth < j → sent.glimpse j = ⟨log j, []⟩)
    (hstop : (∃ tag q e, (k.lookUp r depth s).finding = .serve tag q e ∧ sent.result = .ok q)
      ∨ (k.lookUp r depth s).finding = .crash ∧ sent.result = .error .crashed) :
    Course k r n depth depth sent where
  le := Nat.le_refl _
  le_length := Nat.le_of_lt hlt
  before j hj hlt := absurd hlt (Nat.not_lt.2 hj)
  of_lt _ := ⟨s, hglimpse, hstop⟩
  of_eq heq := absurd heq (Nat.ne_of_lt hlt)
  after j hj := by
    rw [hothers j hj, hlog j (Nat.le_of_lt hj)]
    rfl

/-- Every request has a course: the induction is on the layers that are left. -/
theorem course_relay (k : Chain ω) (r : Request) {n : Nat} (depth rest : Nat) (s : ω)
    (log : Nat → List Call) (hlog : ∀ j, depth ≤ j → log j = []) (hn : depth + rest = n) :
    ∃ i, Course k r n depth i ((k.recorded n).relay r depth rest (s, log)) := by
  induction rest generalizing depth s log with
  | zero =>
    obtain rfl : depth = n := hn
    refine ⟨depth, Nat.le_refl _, Nat.le_refl _, ?_, ?_, ?_, ?_⟩
    · intro j hj hlt
      omega
    · intro hlt
      omega
    · intro _
      refine ⟨s, rfl, ?_⟩
      rw [recorded_zero, glimpse_mk, noted_self, hlog depth (Nat.le_refl _)]
      rfl
    · intro j hj
      rw [recorded_zero, glimpse_mk, noted_of_ne (Nat.ne_of_gt hj), hlog j (Nat.le_of_lt hj)]
      rfl
  | succ rest ih =>
    have hhere := hlog depth (Nat.le_refl _)
    cases hfinding : (k.lookUp r depth s).finding with
    | serve tag q e =>
      obtain ⟨hresult, hglimpse, hothers⟩ := glimpse_of_serve n rest hfinding hhere
      exact ⟨depth, .of_stop (by omega) hlog hglimpse hothers
        (.inl ⟨tag, q, e, hfinding, hresult⟩)⟩
    | crash =>
      obtain ⟨hresult, hglimpse, hothers⟩ := glimpse_of_crash n rest hfinding hhere
      exact ⟨depth, .of_stop (by omega) hlog hglimpse hothers (.inr ⟨hfinding, hresult⟩)⟩
    | pass event =>
      obtain ⟨hresult, hglimpse, hothers⟩ := glimpse_of_pass hfinding hhere hn
      have hbelow : ∀ j, depth + 1 ≤ j → noted log depth (k.lookupCalls r depth s) j = [] :=
        fun j hj => (noted_of_ne (Nat.ne_of_gt hj) _).trans (hlog j (Nat.le_of_lt hj))
      obtain ⟨i, hcourse⟩ := ih (depth + 1) (k.lookUp r depth s).storage _ hbelow (by omega)
      have hle := hcourse.le
      refine ⟨i, by omega, hcourse.le_length, ?_, ?_, ?_, ?_⟩
      · intro j hj hlt
        rcases Nat.eq_or_lt_of_le hj with rfl | hj
        · rw [hresult]
          exact ⟨s, _, event, hfinding, hglimpse⟩
        · rw [hothers j hj, hresult]
          exact hcourse.before j hj hlt
      · intro hlt
        rw [hothers i hle, hresult]
        exact hcourse.of_lt hlt
      · intro heq
        rw [hothers n (by omega), hresult]
        exact hcourse.of_eq heq
      · intro j hj
        rw [hothers j (by omega)]
        exact hcourse.after j hj

theorem mem_glimpse {sent : Relayed (ω × (Nat → List Call))} {j : Nat} {event : Event} :
    eventAt j r event ∈ (sent.glimpse j).notices ↔ eventAt j r event ∈ sent.notices := by
  simp [Relayed.glimpse, eventAt]

/-- A layer that passes a request on reports no hit, neither before nor after. -/
theorem hit_not_mem_passed (h : (k.lookUp r depth s).finding = .pass event) (later : ω)
    (result : Except (Halt Failure) Response) (tag : String) (e : Instant) :
    eventAt depth r (.hit tag e) ∉ (k.passed r depth s later result).notices := by
  intro hmem
  rcases List.mem_append.1 hmem with hdown | hup
  · obtain ⟨event', hevent, heq⟩ := List.mem_map.1 hdown
    obtain ⟨-, rfl⟩ := Stack.eventAt_inj heq
    obtain ⟨q, hserve, -⟩ := Cache.start_eq_hit_iff.1 (Option.mem_toList.1 hevent)
    cases h.symm.trans hserve
  · cases result with
    | error halt => cases hup
    | ok p =>
      rcases List.mem_append.1 hup with hrecord | hsettled
      · obtain ⟨record, -, hrecord⟩ := List.mem_map.1 hrecord
        cases hrecord
      · exact Stack.settle_ne_hit (Stack.eventAt_inj (List.mem_singleton.1 hsettled)).2.symm

/-- A layer that answers has been given an entry by its storage, and reports the answer as a hit. -/
theorem looked_of_serve (h : (k.lookUp r depth s).finding = .serve tag q e) :
    ∃ entry p,
      k.looked r depth s = ⟨[.got (Key.ofRequest r) (.ok entry)], [eventAt depth r (.hit tag e)]⟩
        ∧ entry.response r.method = .ok p ∧ p.marked? entry.storedAt tag = some q := by
  have hserve : (Cache.start (k.world depth).storage (k.layer depth).config s r
      (k.layer depth).down).finding = .serve tag q e := h
  obtain ⟨entry, p, hcalls, hdecodes, hmarked⟩ := World.lookupCalls_of_serve hserve
  refine ⟨entry, p, ?_, hdecodes, hmarked⟩
  rw [looked, lookupCalls, hcalls, Cache.Started.event?, h]
  rfl

/-- The storage of a layer gives an overfull entry to the lookup of `r` at some time of the
request. -/
def Overfull (k : Chain ω) (r : Request) (depth : Nat) (entry : Entry) : Prop :=
  ∃ s, (k.world depth).Overfull (k.layer depth).config s r (k.layer depth).down entry

/-- A layer that crashes has been given an overfull entry, and reports nothing. -/
theorem looked_of_crash (h : (k.lookUp r depth s).finding = .crash) :
    ∃ entry, k.Overfull r depth entry
      ∧ k.looked r depth s = ⟨[.got (Key.ofRequest r) (.ok entry)], []⟩ := by
  have hcrash : (Cache.start (k.world depth).storage (k.layer depth).config s r
      (k.layer depth).down).finding = .crash := h
  obtain ⟨hlooks, entry, hget, hfull⟩ := Cache.start_eq_crash_iff.1 hcrash
  refine ⟨entry, ⟨s, hlooks, hget, hfull⟩, ?_⟩
  rw [looked, lookupCalls, World.lookupCalls_of_get hlooks hget, Cache.Started.event?, h]
  rfl

end Recorded

end Chain

end ResponseCache
