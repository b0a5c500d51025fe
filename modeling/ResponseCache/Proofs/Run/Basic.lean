import ResponseCache.Cache.Stack
import ResponseCache.Proofs.Cache.Answer

/-!
# Runs of a cache

A cache at work takes turns: a request comes in, or the origin's result for a request that was
passed on comes back. Between the two parts of one answer any other turns may come, so requests may
overlap in any way, and each turn has its own readings of the two clocks, that of the cache and that
of the storage, which may stand still or go back. A run keeps the history of what was done, newest
first. The history serves the proofs alone: no turn looks at it.

A request sent on its own is a run of two turns (`send_eq_after`).
-/

namespace ResponseCache

/-- What may happen to a cache next: a request comes in, or the origin's result comes back for the
request at some place among the waiting ones. -/
inductive Move where
  | ask (r : Request)
  | reply (place : Nat) (result : Except (Halt Failure) Response)

/-- A move and the readings of the clocks at it. -/
structure Turn where
  now : Instant
  storageNow : Instant
  move : Move

/-- What a turn has done: a request was answered from the storage, or passed on if there is no
answer, or crashed at its lookup; a live response came in and was kept or not; or the origin gave no
response. -/
inductive Deed where
  | asked (r : Request) (now : Instant) (event : Event) (answer : Option Response)
  | crashed (r : Request)
  | received (r : Request) (response : Response) (now : Instant) (event : Event)
  | failed (r : Request) (halt : Halt Failure)

/-- A cache at work, with the requests that were passed on and have no result yet, and what was done
so far, newest first. -/
structure Run (σ : Type) where
  storage : σ
  waiting : List Request
  history : List Deed

namespace Run

variable {σ : Type}

def fresh (storage : σ) : Run σ := ⟨storage, [], []⟩

/-- One turn of a cache with configuration `c`, over a storage that behaves like `b t` when its
clock shows `t`. A result for a place where no request waits changes nothing. -/
def step (b : Instant → Backend σ) (c : Config) (u : Run σ) (t : Turn) : Run σ :=
  match t.move with
  | .ask r =>
    let started := Cache.start (b t.storageNow) c u.storage r t.now
    match started.finding with
    | .serve tag q e =>
      ⟨started.storage, u.waiting, .asked r t.now (.hit tag e) (some q) :: u.history⟩
    | .pass event =>
      ⟨started.storage, u.waiting ++ [r], .asked r t.now event none :: u.history⟩
    | .crash => ⟨started.storage, u.waiting, .crashed r :: u.history⟩
  | .reply place result =>
    match u.waiting[place]?, result with
    | none, _ => u
    | some r, .ok response =>
      let settled := Cache.settle (b t.storageNow) c u.storage r t.now response
      ⟨settled.storage, u.waiting.eraseIdx place,
        .received r response t.now settled.event :: u.history⟩
    | some r, .error halt =>
      ⟨u.storage, u.waiting.eraseIdx place, .failed r halt :: u.history⟩

def after (b : Instant → Backend σ) (c : Config) (u : Run σ) (turns : List Turn) : Run σ :=
  turns.foldl (step b c) u

end Run

/-- The memory store as a storage that goes by its own clock. -/
def Store.backendAt (t : Instant) : Backend Store where
  origin := Store.backend.origin
  get s key _ := Store.backend.get s key t
  set s key entry ttl _ := Store.backend.set s key entry ttl t

/-- What was written by a turn: the response to a request, received and written at `now`, and
reported to expire at `expiresAt`. -/
structure Write where
  request : Request
  response : Response
  now : Instant
  expiresAt : Instant
deriving DecidableEq

namespace Deed

/-- The events that a deed reports. -/
def event? : Deed → Option (Nat × KeyedEvent)
  | .asked r _ event _ | .received r _ _ event => some (0, ⟨Key.ofRequest r, event⟩)
  | .crashed _ | .failed .. => none

/-- The write under `key`, if the deed is one. -/
def write? (key : Key) : Deed → Option Write
  | .received r p now (.stored e) => if Key.ofRequest r = key then some ⟨r, p, now, e⟩ else none
  | _ => none

end Deed

def Write.deed (x : Write) : Deed :=
  .received x.request x.response x.now (.stored x.expiresAt)

namespace Run

/-- A cache over a memory store that was empty, after some turns. -/
def ofTurns (c : Config) (limits : Limits) (origin : String) (turns : List Turn) : Run Store :=
  (fresh (Store.empty limits origin)).after Store.backendAt c turns

/-- What a request comes to if it comes in now: the first part of its answer. -/
def ask (u : Run Store) (c : Config) (now own : Instant) (r : Request) : Cache.Started Store :=
  Cache.start (Store.backendAt own) c u.storage r now

variable {σ : Type}

/-- What every turn keeps holds after any turns. -/
theorem after_inv {b : Instant → Backend σ} {c : Config} (P : Run σ → Prop)
    (hstep : ∀ u t, P u → P (u.step b c t)) (turns : List Turn) {u : Run σ} (hu : P u) :
    P (u.after b c turns) := by
  unfold after
  induction turns generalizing u with
  | nil => exact hu
  | cons t turns ih =>
    apply ih
    exact hstep u t hu

/-- The last write under `key` that was reported in a run. -/
def lastWrite? (u : Run σ) (key : Key) : Option Write :=
  u.history.findSome? (Deed.write? key)

theorem write?_eq_some {key : Key} {d : Deed} {x : Write} :
    d.write? key = some x ↔ d = x.deed ∧ Key.ofRequest x.request = key := by
  obtain ⟨r, p, now, e⟩ := x
  cases d with
  | asked | crashed | failed => simp [Deed.write?, Write.deed]
  | received r' p' now' event =>
    cases event with
    | stored e' =>
      simp only [Deed.write?, Write.deed, Option.ite_none_right_eq_some, Option.some.injEq,
        Write.mk.injEq, Deed.received.injEq, Event.stored.injEq]
      constructor
      · rintro ⟨hkey, rfl, rfl, rfl, rfl⟩
        exact ⟨⟨rfl, rfl, rfl, rfl⟩, hkey⟩
      · rintro ⟨⟨rfl, rfl, rfl, rfl⟩, hkey⟩
        exact ⟨hkey, rfl, rfl, rfl, rfl⟩
    | _ => simp [Deed.write?, Write.deed]

/-- The last write under a key is one with no other write under that key after it. -/
theorem lastWrite?_eq_some {u : Run σ} {key : Key} {x : Write} :
    u.lastWrite? key = some x ↔
      ∃ later earlier, u.history = later ++ x.deed :: earlier ∧ Key.ofRequest x.request = key
        ∧ ∀ d ∈ later, d.write? key = none := by
  rw [lastWrite?, List.findSome?_eq_some_iff]
  constructor
  · rintro ⟨later, d, earlier, h, hd, hlater⟩
    obtain ⟨rfl, hkey⟩ := write?_eq_some.1 hd
    exact ⟨later, earlier, h, hkey, hlater⟩
  · rintro ⟨later, earlier, h, hkey, hlater⟩
    exact ⟨later, x.deed, earlier, h, write?_eq_some.2 ⟨rfl, hkey⟩, hlater⟩

/-! ## A request sent on its own -/

section Send

variable {b : Instant → Backend σ} {c : Config} {u : Run σ} {r : Request} {now own e : Instant}
  {p q : Response} {halt : Halt Failure} {place : Nat} {tag : String} {event : Event}

theorem step_ask_serve (h : (Cache.start (b own) c u.storage r now).finding = .serve tag q e) :
    u.step b c ⟨now, own, .ask r⟩ =
      ⟨(Cache.start (b own) c u.storage r now).storage, u.waiting,
        .asked r now (.hit tag e) (some q) :: u.history⟩ := by
  simp only [step, h]

theorem step_ask_pass (h : (Cache.start (b own) c u.storage r now).finding = .pass event) :
    u.step b c ⟨now, own, .ask r⟩ =
      ⟨(Cache.start (b own) c u.storage r now).storage, u.waiting ++ [r],
        .asked r now event none :: u.history⟩ := by
  simp only [step, h]

theorem step_ask_crash (h : (Cache.start (b own) c u.storage r now).finding = .crash) :
    u.step b c ⟨now, own, .ask r⟩ =
      ⟨(Cache.start (b own) c u.storage r now).storage, u.waiting, .crashed r :: u.history⟩ := by
  simp only [step, h]

theorem step_reply_none {result : Except (Halt Failure) Response} (h : u.waiting[place]? = none) :
    u.step b c ⟨now, own, .reply place result⟩ = u := by
  simp only [step, h]

theorem step_reply_ok (h : u.waiting[place]? = some r) :
    u.step b c ⟨now, own, .reply place (.ok p)⟩ =
      let settled := Cache.settle (b own) c u.storage r now p
      ⟨settled.storage, u.waiting.eraseIdx place,
        .received r p now settled.event :: u.history⟩ := by
  simp only [step, h]

theorem step_reply_error (h : u.waiting[place]? = some r) :
    u.step b c ⟨now, own, .reply place (.error halt)⟩ =
      ⟨u.storage, u.waiting.eraseIdx place, .failed r halt :: u.history⟩ := by
  simp only [step, h]

/-- A request that is sent to one cache and answered at one reading of the clocks is a run of two
turns: it comes in, and if it was passed on the result comes back. Both leave the same storage and
report the same events. -/
theorem send_eq_after (hu : u.waiting = []) (fetch : Request → Except (Halt Failure) Response) :
    let sent := Stack.send (b own) [⟨c, u.storage⟩] r now fetch
    let v := u.after b c [⟨now, own, .ask r⟩, ⟨now, own, .reply 0 (fetch r)⟩]
    sent.tiers = [⟨c, v.storage⟩] ∧ v.waiting = []
      ∧ sent.result = (match (Cache.start (b own) c u.storage r now).finding with
        | .serve _ q _ => .ok q
        | .pass _ => fetch r
        | .crash => .error .crashed)
      ∧ ∃ deeds, v.history = deeds ++ u.history
        ∧ sent.notices.filterMap TierNotice.event? = deeds.reverse.filterMap Deed.event? := by
  intro sent v
  have hv : v = (u.step b c ⟨now, own, .ask r⟩).step b c ⟨now, own, .reply 0 (fetch r)⟩ := rfl
  cases hfinding : (Cache.start (b own) c u.storage r now).finding with
  | serve tag q e =>
    rw [step_ask_serve hfinding, step_reply_none (by simp [hu])] at hv
    have hsent : sent = ⟨[⟨c, (Cache.start (b own) c u.storage r now).storage⟩],
        [Stack.eventAt 0 r (.hit tag e)], [], .ok q⟩ := by
      simp [sent, Stack.send, Stack.descend, Stack.finish, Stack.ascend, hfinding]
    rw [hsent, hv]
    exact ⟨rfl, hu, rfl, [_], rfl, rfl⟩
  | crash =>
    rw [step_ask_crash hfinding, step_reply_none (by simp [hu])] at hv
    have hsent : sent = ⟨[⟨c, (Cache.start (b own) c u.storage r now).storage⟩], [], [],
        .error .crashed⟩ := by
      simp [sent, Stack.send, Stack.descend, Stack.finish, hfinding]
    rw [hsent, hv]
    exact ⟨rfl, hu, rfl, [_], rfl, rfl⟩
  | pass event =>
    rw [step_ask_pass hfinding, hu] at hv
    cases hfetch : fetch r with
    | ok p =>
      rw [hfetch, step_reply_ok rfl] at hv
      have hsent : sent.tiers = [⟨c, (Cache.settle (b own) c
          (Cache.start (b own) c u.storage r now).storage r now p).storage⟩]
          ∧ sent.result = .ok p
          ∧ sent.notices.filterMap TierNotice.event? =
            [(0, ⟨Key.ofRequest r, event⟩),
              (0, ⟨Key.ofRequest r, (Cache.settle (b own) c
                (Cache.start (b own) c u.storage r now).storage r now p).event⟩)] := by
        simp [sent, Stack.send, Stack.descend, Stack.finish, Stack.ascend, hfinding, hfetch,
          TierNotice.event?, Stack.eventAt, List.filterMap_append, Function.comp_def]
      rw [hsent.1, hsent.2.1, hsent.2.2, hv]
      exact ⟨rfl, rfl, rfl, [_, _], rfl, rfl⟩
    | error halt =>
      rw [hfetch, step_reply_error rfl] at hv
      have hsent : sent = ⟨[⟨c, (Cache.start (b own) c u.storage r now).storage⟩],
          [Stack.eventAt 0 r event], [r], .error halt⟩ := by
        simp [sent, Stack.send, Stack.descend, Stack.finish, hfinding, hfetch]
      rw [hsent, hv]
      exact ⟨rfl, rfl, rfl, [_, _], rfl, rfl⟩

end Send

end Run

end ResponseCache
