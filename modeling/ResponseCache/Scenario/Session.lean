import ResponseCache.Cache.Builder
import ResponseCache.Cache.Stack
import ResponseCache.Cache.Stats
import ResponseCache.Scenario.Clock
import ResponseCache.Scenario.Origin
import ResponseCache.Scenario.Storage

/-!
# Sessions

A session runs steps on a stack of caches before a scripted origin: requests, one at a time or
several at once, clock moves, faults of the storages, and steps on the stores themselves. Of several
requests at once, each in turn goes as far as an answer from a cache or its fetch; then the fetches
end in the same order.
-/

namespace ResponseCache.Scenario

/-- The state of a session. -/
structure Session where
  origin : Origin
  fetches : Nat
  now : Instant
  tiers : List (Tier Shelf)
  /-- All events so far with the depths of their tiers. -/
  history : List (Nat × KeyedEvent)

/-- A step of a session. Storage steps name the depth of their tier. -/
inductive Step where
  | clock (step : ClockStep)
  | send (r : Request)
  | sendAll (rs : List Request)
  | fault (depth : Nat) (get set : Bool)
  | stats (depth : Nat)
  | storage (depth : Nat) (throughAccess : Bool) (step : StorageStep)

/-- The answer to a step. -/
inductive Answer where
  | done
  | clock (now : Instant)
  | sent (result : Except (Halt Failure) Response)
  | sentAll (results : List (Except (Halt Failure) Response))
  | stats (s : Stats)
  | storage (a : StorageAnswer)
  | noTier

/-- What a step has done. -/
structure Outcome where
  session : Session
  answer : Answer
  notices : List TierNotice
  fetched : List Request

namespace Session

/-- The session with more events in its history. -/
def observe (s : Session) (notices : List TierNotice) : Session :=
  { s with history := s.history ++ notices.filterMap TierNotice.event? }

/-- The events at the tier of a depth. -/
def eventsAt (s : Session) (depth : Nat) : List Event :=
  (s.history.filter fun e => e.1 = depth).map fun e => e.2.event

def send (s : Session) (r : Request) : Outcome :=
  let n := s.fetches + 1
  let a := Stack.send Shelf.backend s.tiers r s.now fun _ => s.origin.answer n
  ⟨{ s with tiers := a.tiers, fetches := s.fetches + a.fetched.length }, .sent a.result,
    a.notices, a.fetched⟩

/-- One of several requests after its first part. -/
structure Pending where
  request : Request
  /-- How many tiers passed the request on, and are still to see the result. -/
  passed : Nat
  result : Except (Halt Failure) Response

/-- The first part of a request: down to an answer, which comes up at once, or to a fetch, which
gets its number here and ends later. -/
def launch (s : Session) (r : Request) : Session × List TierNotice × List Request × Pending :=
  let d := Stack.descend Shelf.backend r s.now 0 s.tiers
  match d.standing with
  | .answered response =>
    let (tiers, notices) := Stack.finish Shelf.backend r s.now d.passed (.ok response) d.tiers
    ({ s with tiers := tiers }, d.notices ++ notices, [], ⟨r, 0, .ok response⟩)
  | .passed =>
    let n := s.fetches + 1
    ({ s with tiers := d.tiers, fetches := n }, d.notices, [r], ⟨r, d.passed, s.origin.answer n⟩)
  | .crashed => ({ s with tiers := d.tiers }, d.notices, [], ⟨r, 0, .error .crashed⟩)

/-- The second part of a request: its result comes up the tiers that have not seen it. -/
def land (s : Session) (p : Pending) : Session × List TierNotice :=
  let (tiers, notices) := Stack.finish Shelf.backend p.request s.now p.passed p.result s.tiers
  ({ s with tiers := tiers }, notices)

def launchAll (s : Session) :
    List Request → Session × List TierNotice × List Request × List Pending
  | [] => (s, [], [], [])
  | r :: rs =>
    let (s, notices, fetched, p) := s.launch r
    let (s, notices', fetched', ps) := s.launchAll rs
    (s, notices ++ notices', fetched ++ fetched', p :: ps)

def landAll (s : Session) : List Pending → Session × List TierNotice
  | [] => (s, [])
  | p :: ps =>
    let (s, notices) := s.land p
    let (s, notices') := s.landAll ps
    (s, notices ++ notices')

/-- Several requests at once. -/
def sendAll (s : Session) (rs : List Request) : Outcome :=
  let (s, notices, fetched, ps) := s.launchAll rs
  let (s, notices') := s.landAll ps
  ⟨s, .sentAll (ps.map (·.result)), notices ++ notices', fetched⟩

/-- The session with another tier at a depth. -/
def setTier (s : Session) (depth : Nat) (t : Tier Shelf) : Session :=
  { s with tiers := s.tiers.set depth t }

/-- A step, before its events enter the history. -/
def act (s : Session) : Step → Outcome
  | .clock step =>
    let now := step.run s.now
    ⟨{ s with now := now }, .clock now, [], []⟩
  | .send r => s.send r
  | .sendAll rs => s.sendAll rs
  | .fault depth get set =>
    match s.tiers[depth]? with
    | none => ⟨s, .noTier, [], []⟩
    | some t =>
      let storage := { t.storage with failGet := get, failSet := set }
      ⟨s.setTier depth { t with storage := storage }, .done, [], []⟩
  | .stats depth => ⟨s, .stats (Stats.ofEvents (s.eventsAt depth)), [], []⟩
  | .storage depth throughAccess step =>
    match s.tiers[depth]? with
    | none => ⟨s, .noTier, [], []⟩
    | some t =>
      let reply := t.storage.run s.now throughAccess step
      ⟨s.setTier depth { t with storage := reply.store }, .storage reply.answer,
        reply.records.map fun record => ⟨depth, .record record⟩, []⟩

def step (s : Session) (step : Step) : Outcome :=
  let o := s.act step
  { o with session := o.session.observe o.notices }

def run (s : Session) : List Step → List Outcome
  | [] => []
  | step :: steps =>
    let o := s.step step
    o :: o.session.run steps

def stores (s : Session) : List Store :=
  s.tiers.map fun t => t.storage.store

/-- The tiers of a new session, built from the last to the first; the first failure on this way is
the answer. -/
def buildTiers : List (Config × Shelf) → Except Failure (List (Tier Shelf))
  | [] => .ok []
  | (config, shelf) :: specs => do
    let below ← buildTiers specs
    let config ← Builder.build { config := config }
    return ⟨config, shelf⟩ :: below

/-- A new session. -/
def new (origin : Origin) (start : Instant) (specs : List (Config × Shelf)) :
    Except Failure Session := do
  return ⟨origin, 0, start, ← buildTiers specs, []⟩

end Session

end ResponseCache.Scenario
