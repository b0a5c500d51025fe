import ResponseCache.Cache.Backend
import ResponseCache.Scenario.Clock

/-!
# Steps on a store

Scenarios act on a memory store directly or through the access of a cache, which can be made to
fail.
-/

namespace ResponseCache.Scenario

/-- A step on a store. -/
inductive StorageStep where
  | insert (key : Key) (entry : Entry) (ttl : Duration)
  | lookup (key : Key)
  | remove (key : Key)
  | purge
  | clear
  | inspect
  | origin

/-- The answer to a step on a store. -/
inductive StorageAnswer where
  | done
  | entry (e : Entry)
  | failed (f : Failure)
  | count (n : Nat)
  | text (s : String)

/-- What a step on a store of type `σ` has done. -/
structure StorageReply (σ : Type) where
  answer : StorageAnswer
  store : σ
  records : List LogRecord

/-- A step on a memory store. -/
def StorageStep.run (s : Store) (now : Instant) : StorageStep → StorageReply Store
  | .insert key entry ttl =>
    let w := s.insert key entry ttl now
    match w.result with
    | .ok () => ⟨.done, w.store, w.records⟩
    | .error f => ⟨.failed f, w.store, w.records⟩
  | .lookup key =>
    match s.lookup key now with
    | (.ok entry, s) => ⟨.entry entry, s, []⟩
    | (.error f, s) => ⟨.failed f, s, []⟩
  | .remove key => ⟨.done, s.remove key, []⟩
  | .purge => ⟨.count (s.expired now).length, s.purge now, []⟩
  | .clear => ⟨.done, s.clear, []⟩
  | .inspect => ⟨.text s.inspect, s, []⟩
  | .origin => ⟨.text s.origin, s, []⟩

/-- A step of a scenario for one store. -/
inductive StoreStep where
  | clock (step : ClockStep)
  | storage (step : StorageStep)

/-- What a step of a scenario for one store has done. -/
structure StoreOutcome where
  now : Instant
  store : Store
  answer : Option StorageAnswer
  records : List LogRecord

/-- A step of a scenario for one store. -/
def StoreStep.run (s : Store) (now : Instant) : StoreStep → StoreOutcome
  | .clock step => ⟨step.run now, s, none, []⟩
  | .storage step =>
    let reply := step.run s now
    ⟨now, reply.store, some reply.answer, reply.records⟩

def runStore (s : Store) (now : Instant) : List StoreStep → List StoreOutcome
  | [] => []
  | step :: steps =>
    let o := step.run s now
    o :: runStore o.store o.now steps

/-- A memory store whose access can be made to fail. -/
structure Shelf where
  store : Store
  failGet : Bool
  failSet : Bool
  /-- The time that the store goes by, if it does not go by the clock of the cache. -/
  ownTime : Option Instant

namespace Shelf

def broken (message : String) (key : Key) : Failure :=
  (Failure.storage (.text message)).withKey key

def getFailure (key : Key) : Failure := broken "connection refused" key

def setFailure (key : Key) : Failure := broken "disk full" key

def time (s : Shelf) (now : Instant) : Instant :=
  s.ownTime.getD now

/-- The access of a cache to a shelf. -/
def backend : Backend Shelf where
  origin s := s.store.origin
  get s key now :=
    if s.failGet then (.error (getFailure key), s)
    else
      let (result, store) := s.store.lookup key (s.time now)
      (result, { s with store := store })
  set s key entry ttl now :=
    if s.failSet then ⟨.error (setFailure key), [], s⟩
    else
      let reply := Store.backend.set s.store key entry ttl (s.time now)
      ⟨reply.result, reply.records, { s with store := reply.state }⟩

/-- A step on the store of a shelf: directly, or through the access, which may be broken. -/
def run (s : Shelf) (now : Instant) (throughAccess : Bool) (step : StorageStep) :
    StorageReply Shelf :=
  match throughAccess, s.failGet, s.failSet, step with
  | true, true, _, .lookup key => ⟨.failed (getFailure key), s, []⟩
  | true, _, true, .insert key _ _ => ⟨.failed (setFailure key), s, []⟩
  | _, _, _, step =>
    let reply := step.run s.store (s.time now)
    ⟨reply.answer, { s with store := reply.store }, reply.records⟩

end Shelf

end ResponseCache.Scenario
