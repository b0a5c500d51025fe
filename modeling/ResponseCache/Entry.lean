import ResponseCache.Time.Instant
import ResponseCache.Wire.Decode

/-!
# Entries

What a store keeps of a response: its wire form, the request that it answered, the time of writing,
and the tag of the store that wrote it.
-/

namespace ResponseCache

/-- A kept response. -/
structure Entry where
  method : Method
  uri : String
  storedAt : Instant
  /-- The wire form of the response. -/
  wire : Bytes
  origin : String
deriving DecidableEq

namespace Entry

def ofResponse (method : Method) (uri : String) (storedAt : Instant) (r : Response)
    (origin : String) : Entry :=
  ⟨method, uri, storedAt, Wire.encode r, origin⟩

/-- The kept response as the answer to a request with the given method. -/
def response (e : Entry) (method : Method) : Except (Halt WireFault) Response :=
  Wire.decode e.wire method

/-- The memory that the entry takes, in octets. -/
def size (e : Entry) : Nat :=
  e.wire.length + e.uri.utf8ByteSize + e.origin.utf8ByteSize

end Entry

end ResponseCache
