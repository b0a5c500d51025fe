import ResponseCache.Cache.Event
import ResponseCache.Config.Basic
import ResponseCache.Store.Basic

/-!
# Log records

How events, evictions and the building of a cache are logged: a level, the part of the library that
speaks, a fixed message and named fields.
-/

namespace ResponseCache

/-- How important a log record is. -/
inductive Level where
  | trace | debug | warn
deriving DecidableEq, Repr

namespace Level

def name : Level → String
  | trace => "TRACE"
  | debug => "DEBUG"
  | warn => "WARN"

end Level

/-- A log record. -/
structure LogRecord where
  level : Level
  target : String
  message : String
  fields : List (String × String)
deriving DecidableEq

namespace LogRecord

/-- A record about a cached key. -/
def aboutKey (level : Level) (message : String) (key : Key) (fields : List (String × String)) :
    LogRecord :=
  ⟨level, "hache::cache", message, ("cache_key", key.text) :: fields⟩

/-- The record of an event. -/
def ofEvent (e : KeyedEvent) : LogRecord :=
  match e.event with
  | .bypass => aboutKey .trace "Request Cache-Control bypasses cache" e.key []
  | .hit origin expiresAt =>
    aboutKey .debug "Serving response from cache" e.key
      [("origin", origin), ("expires_at", expiresAt.display)]
  | .miss cause => aboutKey .debug "Cache miss" e.key [("cause", cause.name)]
  | .lookupFailed failure =>
    aboutKey .warn "Failed to retrieve from cache, trying with a live version" e.key
      [("error", failure.message)]
  | .validationFailed phase fault =>
    aboutKey .warn "Malformed caching headers, treating exchange as uncacheable" e.key
      [("phase", phase.name), ("error", fault.message)]
  | .stored expiresAt =>
    aboutKey .debug "Response stored in cache" e.key [("expires_at", expiresAt.display)]
  | .storeSkipped cause =>
    aboutKey .trace "Response not cacheable" e.key [("cause", cause.inspect)]
  | .storeFailed failure =>
    aboutKey .warn "Can't store the response to the cache backend" e.key
      [("error", failure.message)]

/-- The record of `count` evictions by a store with the given limits. -/
def ofEvictions (count : UInt32) (limits : Limits) : LogRecord where
  level := .debug
  target := "hache::storage::memory"
  message := "Memory storage evicted entries to make room"
  fields := [
    ("evicted_count", toString count.toNat),
    ("max_entries", toString limits.maxEntries.toNat),
    ("max_memory", toString limits.maxBytes.toNat)]

/-- The record of the building of a cache over a store of tag `origin`. -/
def ofBuild (origin : String) (c : Config) : LogRecord where
  level := .debug
  target := "hache::builder"
  message := "building http cache"
  fields := [
    ("origin", origin),
    ("shared", Text.inspectBool c.shared),
    ("cache_use", c.lookupPolicy.inspect),
    ("entry_ttl_secs", toString c.entryTtl.seconds.toNat)]

end LogRecord

end ResponseCache
