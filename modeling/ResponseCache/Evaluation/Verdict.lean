import ResponseCache.Evaluation.Lifetime
import ResponseCache.Evaluation.Reason

/-!
# The verdict on an exchange

An exchange is judged twice: when its response arrives, to see whether it may be kept, and when a
kept response is found for a later request, to see whether it may be served. The verdict says why
the response may not be kept, if so, and when it expires. A kept response may be served while it is
fresh.
-/

namespace ResponseCache

/-- What is found of an exchange whose headers are well formed. -/
structure Verdict where
  reasons : List Reason
  expiresAt : Instant
  heuristic : Bool

namespace Verdict

/-- Whether the response may be kept. -/
def isStorable (v : Verdict) : Bool :=
  v.reasons.isEmpty

end Verdict

/-- Whether a kept response may be served. -/
inductive Freshness where
  | fresh
  | stale
deriving DecidableEq, Repr

namespace Assessment

/-- When the response expires; a time beyond the calendar is taken to be its last instant. -/
def expiresAt (a : Assessment) (c : Config) : Instant :=
  (a.receivedAt.shift? (a.lifetime c).span).getD Instant.latest

/-- The verdict of a cache of this configuration. -/
def verdict (a : Assessment) (c : Config) : Verdict where
  reasons := a.reasons c
  expiresAt := a.expiresAt c
  heuristic := (a.lifetime c).heuristic

/-- The nanoseconds since the receipt of the response, zero for a receipt in the future. -/
def age (a : Assessment) : Int :=
  max (a.now.since a.receivedAt) 0

/-- Whether the request's `max-age` admits the age of the response. -/
def admitsAge (a : Assessment) : Bool :=
  a.request.maxAge.all fun n => a.age ≤ n * nanosPerSecond

/-- Whether a response that expires at `expiresAt` may be served now. The request's `max-age` and
`min-fresh` narrow this; its `max-stale` is not followed. -/
def freshness (a : Assessment) (expiresAt : Instant) : Freshness :=
  let reserve : Int := a.request.minFresh.getD 0 * nanosPerSecond
  if a.admitsAge ∧ 0 < expiresAt.since a.now - reserve then .fresh else .stale

end Assessment

namespace Exchange

def judge (x : Exchange) (now receivedAt : Instant) (c : Config) : Except HeaderFault Verdict :=
  (x.assess now receivedAt).map fun a => a.verdict c

/-- When an exchange with the given verdict is said to expire. A malformed exchange has no time of
its own and counts as expired when it is judged. -/
def expiry (now : Instant) : Except HeaderFault Verdict → Instant
  | .ok v => v.expiresAt
  | .error _ => now

end Exchange

end ResponseCache
