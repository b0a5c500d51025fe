import ResponseCache.Cache.Record

/-!
# Building a cache

A builder collects the configuration of a cache over a memory store, and whether it was given an
observer and a clock of its own. Building logs the choices and then checks them.
-/

namespace ResponseCache

/-- Who is told of the events of a cache. -/
inductive Observer where
  | silent
  | recorder
deriving DecidableEq, Repr

/-- The choices made so far for a new cache. -/
structure Builder where
  config : Config := Config.sharedCache
  observer : Option Observer := none
  /-- Whether the cache has a clock of its own. -/
  ownClock : Bool := false

/-- One choice for a new cache. -/
inductive Choice where
  | config (c : Config)
  | shared (b : Bool)
  | lookupPolicy (p : LookupPolicy)
  | entryTtl (d : Duration)
  | observer (o : Observer)
  | clock

namespace Builder

/-- The choices with one more, which replaces an earlier one of its kind. -/
def choose (b : Builder) : Choice → Builder
  | .config c => { b with config := c }
  | .shared shared => { b with config := { b.config with shared := shared } }
  | .lookupPolicy p => { b with config := { b.config with lookupPolicy := p } }
  | .entryTtl d => { b with config := { b.config with entryTtl := d } }
  | .observer o => { b with observer := some o }
  | .clock => { b with ownClock := true }

def inspect (b : Builder) : String :=
  Text.inspectPartly "CacheBuilder" [
    ("config", b.config.inspect),
    ("observer", Text.inspectBool b.observer.isSome),
    ("clock", Text.inspectBool b.ownClock)]

/-- The configuration of the cache, if its values are in range. -/
def build (b : Builder) : Except Failure Config :=
  match b.config.check with
  | .ok () => .ok b.config
  | .error fault => .error (Failure.config fault)

/-- The record of building over a store of tag `origin`, successful or not. -/
def record (b : Builder) (origin : String) : LogRecord :=
  LogRecord.ofBuild origin b.config

end Builder

end ResponseCache
