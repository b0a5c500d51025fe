import ResponseCache.Cache.Event

/-!
# Statistics

Counts of the events of a cache by kind. The counters have 64 bits and start again from zero.
-/

namespace ResponseCache

/-- How often each kind of event has happened. -/
structure Stats where
  hits : UInt64 := 0
  misses : UInt64 := 0
  bypasses : UInt64 := 0
  stores : UInt64 := 0
  skipped : UInt64 := 0
  /-- Failed lookups, malformed headers and failed writes. -/
  failures : UInt64 := 0
deriving DecidableEq, Repr

namespace Stats

/-- The counts after one more event. -/
def count (s : Stats) : Event → Stats
  | .bypass => { s with bypasses := s.bypasses + 1 }
  | .hit .. => { s with hits := s.hits + 1 }
  | .miss _ => { s with misses := s.misses + 1 }
  | .lookupFailed _ => { s with failures := s.failures + 1 }
  | .validationFailed .. => { s with failures := s.failures + 1 }
  | .stored _ => { s with stores := s.stores + 1 }
  | .storeSkipped _ => { s with skipped := s.skipped + 1 }
  | .storeFailed _ => { s with failures := s.failures + 1 }

def ofEvents (events : List Event) : Stats :=
  events.foldl count {}

/-- The counts after each of a sequence of events. -/
def running (s : Stats) : List Event → List Stats
  | [] => []
  | e :: es => s.count e :: running (s.count e) es

/-- The part of hits among hits and misses, whose sum has 64 bits too; zero if that is zero. -/
def hitRatio (s : Stats) : Float :=
  let lookups := s.hits + s.misses
  if lookups = 0 then 0 else s.hits.toFloat / lookups.toFloat

end Stats

end ResponseCache
