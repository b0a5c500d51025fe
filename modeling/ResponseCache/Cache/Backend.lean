import ResponseCache.Cache.Record

/-!
# Storage behind a cache

A cache reaches its storage only through `get` and `set`, either of which may fail in any way. The
storage is a value of some type `σ` and these operations say how it answers and changes.
-/

namespace ResponseCache

/-- What a write to a storage has done. -/
structure WriteReply (σ : Type) where
  result : Except Failure Unit
  records : List LogRecord
  state : σ

/-- The behaviour of a storage with states in `σ`. -/
structure Backend (σ : Type) where
  origin : σ → String
  get : σ → Key → Instant → Except Failure Entry × σ
  set : σ → Key → Entry → Duration → Instant → WriteReply σ

namespace Store

/-- What a write logs: the evictions for it, if there were any. -/
def Written.records (w : Written) : List LogRecord :=
  if w.evicted = 0 then [] else [LogRecord.ofEvictions w.evicted w.store.limits]

/-- A memory store as the storage of a cache. -/
def backend : Backend Store where
  origin s := s.origin
  get s key now := s.lookup key now
  set s key entry ttl now :=
    let w := s.insert key entry ttl now
    ⟨w.result, w.records, w.store⟩

end Store

end ResponseCache
