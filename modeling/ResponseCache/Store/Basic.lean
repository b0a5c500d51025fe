import ResponseCache.Entry
import ResponseCache.Time.Duration

/-!
# The memory store

A store keeps entries by key, within a limit on their number and a limit on their total size. An
entry may have a deadline, from which on it is as good as absent. When a new entry needs room,
entries past their deadlines go first and then those that have not been used for longest.

Use is measured by ticks: each write and each successful lookup takes the next tick. The counters
and ticks are words of 64 bits.
-/

namespace ResponseCache

/-- The limits of a store. -/
structure Limits where
  maxEntries : UInt64
  maxBytes : UInt64
deriving DecidableEq

namespace Limits

/-- A thousand entries in a hundred mebibytes. -/
def standard : Limits := ⟨1000, 104857600⟩

end Limits

/-- One kept entry. -/
structure Slot where
  key : Key
  entry : Entry
  /-- From when on the entry is as good as absent, if ever. -/
  deadline : Option Instant
  /-- The tick of the last use. -/
  lastUse : UInt64
deriving DecidableEq

namespace Slot

/-- Whether the deadline has passed. -/
def isExpired (s : Slot) (now : Instant) : Bool :=
  s.deadline.any fun d => d ≤ now

def size (s : Slot) : UInt64 :=
  UInt64.ofNat s.entry.size

end Slot

/-- A store of entries. -/
structure Store where
  limits : Limits
  /-- The tag that responses from this store bear. -/
  origin : String
  /-- The kept entries, in the order in which they were written. -/
  slots : List Slot
  entryCount : UInt64
  memoryUsage : UInt64
  /-- How many entries have been dropped to make room, those past their deadlines aside. -/
  evictions : UInt64
  /-- The next tick. -/
  tick : UInt64
deriving DecidableEq

namespace Store

/-- The tag of a store that is given none. -/
def defaultOrigin : String := "memory"

/-- An empty store. -/
def empty (limits : Limits) (origin : String) : Store :=
  ⟨limits, origin, [], 0, 0, 0, 0⟩

def size (s : Store) : Nat :=
  s.slots.length

def find? (s : Store) (key : Key) : Option Slot :=
  s.slots.find? fun slot => slot.key = key

def unlink (s : Store) (slot : Slot) : Store :=
  { s with
    slots := s.slots.filter fun other => other.key ≠ slot.key
    entryCount := s.entryCount - 1
    memoryUsage := s.memoryUsage - slot.size }

def unlinkAll (s : Store) (slots : List Slot) : Store :=
  slots.foldl unlink s

def remove (s : Store) (key : Key) : Store :=
  match s.find? key with
  | some slot => s.unlink slot
  | none => s

/-- The slots past their deadlines. -/
def expired (s : Store) (now : Instant) : List Slot :=
  s.slots.filter fun slot => slot.isExpired now

def purge (s : Store) (now : Instant) : Store :=
  s.unlinkAll (s.expired now)

def clear (s : Store) : Store :=
  s.unlinkAll s.slots

/-- The store with the slot of `key` used now. -/
def touch (s : Store) (key : Key) : Store :=
  { s with
    slots := s.slots.map fun slot =>
      if slot.key = key then { slot with lastUse := s.tick } else slot
    tick := s.tick + 1 }

/-- The entry under `key`, and the store after the lookup: a success is a use, and an entry past its
deadline is dropped. -/
def lookup (s : Store) (key : Key) (now : Instant) : Except Failure Entry × Store :=
  match s.find? key with
  | none => (.error (.notFound key), s)
  | some slot =>
    if slot.isExpired now then (.error (.expired key), s.unlink slot)
    else (.ok slot.entry, s.touch key)

/-- The sum of two words, or the largest word if the sum is larger. -/
def saturatingSum (a b : UInt64) : UInt64 :=
  if a.toNat + b.toNat < 18446744073709551616 then a + b else 18446744073709551615

/-- Whether an entry of `incoming` octets has no room. -/
def isFull (s : Store) (incoming : UInt64) : Bool :=
  s.limits.maxEntries ≤ s.entryCount
    || s.limits.maxBytes < saturatingSum s.memoryUsage incoming

/-- The store without as many of the given slots, from the first on, as an entry of `incoming`
octets needs for its room, and the number of slots dropped, in 32 bits. -/
def evict (incoming : UInt64) : List Slot → Store → Store × UInt32
  | [], s => (s, 0)
  | slot :: slots, s =>
    if s.isFull incoming then
      let dropped := s.unlink slot
      let (rest, n) := evict incoming slots { dropped with evictions := dropped.evictions + 1 }
      (rest, n + 1)
    else (s, 0)

/-- The slots from the least to the most recently used. -/
def byLastUse (s : Store) : List Slot :=
  s.slots.mergeSort fun a b => a.lastUse ≤ b.lastUse

/-- The store with room for an entry of `incoming` octets, and the number of entries evicted for
it. -/
def makeRoom (s : Store) (incoming : UInt64) (now : Instant) : Store × UInt32 :=
  if s.isFull incoming then
    let purged := s.purge now
    evict incoming purged.byLastUse purged
  else (s, 0)

/-- The store with a new entry, used now. -/
def link (s : Store) (key : Key) (entry : Entry) (deadline : Option Instant) : Store :=
  { s with
    slots := s.slots ++ [⟨key, entry, deadline, s.tick⟩]
    entryCount := s.entryCount + 1
    memoryUsage := s.memoryUsage + UInt64.ofNat entry.size
    tick := s.tick + 1 }

/-- The deadline of an entry that is to live for `ttl`: none if that is zero or beyond the
calendar. -/
def deadline (ttl : Duration) (now : Instant) : Except StoreFault (Option Instant) :=
  if ttl = .zero then .ok none
  else
    match ttl.toSpan? with
    | some span => .ok (now.shift? span)
    | none => .error .lifeTooLong

/-- The deadline of an entry to be written, if it may be written. -/
def accept (s : Store) (entry : Entry) (ttl : Duration) (now : Instant) :
    Except StoreFault (Option Instant) :=
  let size := UInt64.ofNat entry.size
  if s.limits.maxEntries = 0 then .error .noCapacity
  else if s.limits.maxBytes < size then .error (.tooLarge size s.limits.maxBytes)
  else deadline ttl now

/-- What a write has done. -/
structure Written where
  result : Except Failure Unit
  store : Store
  /-- The number of entries evicted for it, in 32 bits. -/
  evicted : UInt32

/-- Writes an entry under `key` in place of the one that is there, for `ttl` from now on, or without
limit if that is zero. -/
def insert (s : Store) (key : Key) (entry : Entry) (ttl : Duration) (now : Instant) : Written :=
  match s.accept entry ttl now with
  | .error fault => ⟨.error ((Failure.storage (.store fault)).withKey key), s, 0⟩
  | .ok deadline =>
    let (room, evicted) := (s.remove key).makeRoom (UInt64.ofNat entry.size) now
    ⟨.ok (), room.link key entry deadline, evicted⟩

def inspectLimits (l : Limits) : String :=
  Text.inspectRecord "MemoryLimits" [
    ("max_entries", toString l.maxEntries.toNat),
    ("max_memory_bytes", toString l.maxBytes.toNat)]

def inspect (s : Store) : String :=
  Text.inspectPartly "MemoryStorage" [
    ("entries", toString s.size),
    ("limits", inspectLimits s.limits),
    ("origin", Text.quote s.origin)]

end Store

end ResponseCache
