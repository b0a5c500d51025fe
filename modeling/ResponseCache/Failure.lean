import ResponseCache.Decimal.Notation
import ResponseCache.Key
import ResponseCache.Text.Inspect

/-!
# What can go wrong

The faults that reading headers, decoding entries, checking a configuration and writing to a store
can find, and `Failure`, which is what an operation of the cache fails with: its kind, its cause and
the key at stake. Each has a message for people and a diagnostic form that shows its parts.
-/

namespace ResponseCache

open Text (quote inspectRecord inspectTuple)

/-- Why something gives no result: it has failed for a reason that it reports, or the program has
crashed on the way. -/
inductive Halt (ε : Type) where
  | failed (e : ε)
  | crashed
deriving DecidableEq

/-- A caching header that cannot be understood. -/
inductive HeaderFault where
  /-- A directive that takes a number of seconds has another value. -/
  | badSeconds (directive value : String)
  /-- A date header holds no date. -/
  | badDate (header value : String)
  | notVisible (header : String)
deriving DecidableEq

namespace HeaderFault

def message : HeaderFault → String
  | badSeconds directive value =>
    "invalid value " ++ quote value ++ " for directive " ++ directive
  | badDate header value => "unparsable " ++ header ++ " header: " ++ quote value
  | notVisible header => header ++ " header is not visible ASCII"

def inspect : HeaderFault → String
  | badSeconds directive value =>
    inspectRecord "InvalidDelta" [("directive", quote directive), ("value", quote value)]
  | badDate header value =>
    inspectRecord "InvalidDate" [("header", quote header), ("value", quote value)]
  | notVisible header => inspectRecord "InvalidHeaderValue" [("header", quote header)]

end HeaderFault

/-- Octets that are not the wire form of a response. -/
inductive WireFault where
  | noStatusLine
  | badStatusLine (line : String)
  | badHeader (line : String)
  /-- The blank line after the header fields is missing. -/
  | endlessHeaders
  /-- The body is shorter than its declared length. -/
  | shortBody (expected actual : Nat)
deriving DecidableEq

namespace WireFault

def message : WireFault → String
  | noStatusLine => "missing status line"
  | badStatusLine line => "malformed status line: " ++ quote line
  | badHeader line => "malformed header line: " ++ quote line
  | endlessHeaders => "header section is not terminated"
  | shortBody expected actual =>
    "body shorter than content-length: expected " ++ toString expected ++ ", got "
      ++ toString actual

def inspect : WireFault → String
  | noStatusLine => "MissingStatusLine"
  | badStatusLine line => inspectTuple "InvalidStatusLine" [quote line]
  | badHeader line => inspectTuple "InvalidHeader" [quote line]
  | endlessHeaders => "UnterminatedHeaders"
  | shortBody expected actual =>
    inspectRecord "TruncatedBody"
      [("expected", toString expected), ("actual", toString actual)]

end WireFault

/-- A configuration value out of range. -/
inductive ConfigFault where
  | badFraction (value : Float)

namespace ConfigFault

def message : ConfigFault → String
  | badFraction value =>
    "heuristic fraction must be within [0, 1], got " ++ Decimal.plainStyle.render value

def inspect : ConfigFault → String
  | badFraction value => inspectTuple "HeuristicFraction" [Decimal.inspectStyle.render value]

end ConfigFault

/-- Why a store refuses an entry. -/
inductive StoreFault where
  /-- The store holds no entries at all. -/
  | noCapacity
  /-- The entry is larger than all the memory of the store. -/
  | tooLarge (size limit : UInt64)
  /-- The time to live is longer than the longest span. -/
  | lifeTooLong
deriving DecidableEq

namespace StoreFault

def message : StoreFault → String
  | noCapacity => "memory storage has zero capacity"
  | tooLarge size limit =>
    "entry of " ++ toString size.toNat ++ " bytes exceeds the " ++ toString limit.toNat
      ++ " byte memory limit"
  | lifeTooLong => "Source duration value is out of range for the target type"

def inspect : StoreFault → String
  | lifeTooLong => "OutOfRangeError(())"
  | fault => quote fault.message

end StoreFault

/-- What lies behind a failure. -/
inductive Cause where
  | text (message : String)
  | header (fault : HeaderFault)
  | wire (fault : WireFault)
  | config (fault : ConfigFault)
  | store (fault : StoreFault)

namespace Cause

def message : Cause → String
  | text m => m
  | header f => f.message
  | wire f => f.message
  | config f => f.message
  | store f => f.message

def inspect : Cause → String
  | text m => quote m
  | header f => f.inspect
  | wire f => f.inspect
  | config f => f.inspect
  | store f => f.inspect

end Cause

/-- The kinds of failure. -/
inductive FailureKind where
  | malformedHeader
  | notFound
  | storage
  | expired
  | transport
  | codec
  | config
deriving DecidableEq

namespace FailureKind

def name : FailureKind → String
  | malformedHeader => "Parse"
  | notFound => "NotFound"
  | storage => "Backend"
  | expired => "ExpiredEntry"
  | transport => "Transport"
  | codec => "Codec"
  | config => "Config"

/-- What a failure of the kind says, its cause aside. -/
def message : FailureKind → String
  | malformedHeader => "malformed caching header"
  | notFound => "cache entry not found"
  | storage => "cache storage backend error"
  | expired => "cached entry already expired"
  | transport => "error sending request"
  | codec => "cached response codec error"
  | config => "invalid cache configuration"

end FailureKind

/-- What an operation of the cache fails with. -/
structure Failure where
  kind : FailureKind
  cause : Option Cause
  key : Option Key

namespace Failure

def notFound (key : Key) : Failure := ⟨.notFound, none, some key⟩

def expired (key : Key) : Failure := ⟨.expired, none, some key⟩

def storage (cause : Cause) : Failure := ⟨.storage, some cause, none⟩

def transport (message : String) : Failure := ⟨.transport, some (.text message), none⟩

def malformedHeader (fault : HeaderFault) : Failure :=
  ⟨.malformedHeader, some (.header fault), none⟩

def codec (fault : WireFault) : Failure := ⟨.codec, some (.wire fault), none⟩

def config (fault : ConfigFault) : Failure := ⟨.config, some (.config fault), none⟩

def withCause (f : Failure) (cause : Cause) : Failure := { f with cause := some cause }

def withKey (f : Failure) (key : Key) : Failure := { f with key := some key }

/-- Whether the failure only says that there is nothing to use: no entry, or one past its time. -/
def isMiss (f : Failure) : Bool :=
  f.kind = .notFound ∨ f.kind = .expired

def message (f : Failure) : String :=
  match f.cause with
  | some cause => f.kind.message ++ ": " ++ cause.message
  | none => f.kind.message

def inspect (f : Failure) : String :=
  inspectRecord "hache_client::Error"
    ([("kind", f.kind.name)] ++ (f.cause.map fun c => ("source", c.inspect)).toList
      ++ (f.key.map fun k => ("key", quote k.text)).toList)

end Failure

end ResponseCache
