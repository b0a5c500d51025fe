import ResponseCache.Evaluation.Reason
import ResponseCache.Failure
import ResponseCache.Time.HttpDate.Format

/-!
# Events

What a cache reports while it answers a request: how the lookup went, and after a live answer how
the write went.
-/

namespace ResponseCache

/-- Why a lookup gave nothing to serve. -/
inductive MissCause where
  | notFound
  | expired
  | ineligible
deriving DecidableEq, Repr

namespace MissCause

def name : MissCause → String
  | notFound => "NotFound"
  | expired => "Expired"
  | ineligible => "Ineligible"

end MissCause

/-- The side of the exchange on which a malformed header was found. -/
inductive Phase where
  | lookup
  | store
deriving DecidableEq, Repr

namespace Phase

def name : Phase → String
  | lookup => "Lookup"
  | store => "Store"

end Phase

/-- Why a live response was not written. -/
inductive SkipCause where
  /-- Responses of its status are never kept. -/
  | status (status : Status)
  | ineligible (reasons : List Reason)
deriving DecidableEq

namespace SkipCause

def inspect : SkipCause → String
  | status s => Text.inspectTuple "Status" [s.codeText]
  | ineligible reasons =>
    Text.inspectTuple "Ineligible" [Text.inspectList (reasons.map Reason.inspect)]

end SkipCause

/-- An event, but for the key that it is about. -/
inductive Event where
  /-- The request's own `Cache-Control` ruled out a lookup. -/
  | bypass
  | hit (origin : String) (expiresAt : Instant)
  | miss (cause : MissCause)
  /-- The storage failed or the entry did not decode. -/
  | lookupFailed (failure : Failure)
  | validationFailed (phase : Phase) (fault : HeaderFault)
  | stored (expiresAt : Instant)
  | storeSkipped (cause : SkipCause)
  | storeFailed (failure : Failure)

/-- An event and the key that it is about. -/
structure KeyedEvent where
  key : Key
  event : Event

end ResponseCache
