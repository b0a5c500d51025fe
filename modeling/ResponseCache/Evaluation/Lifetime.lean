import ResponseCache.Config.Basic
import ResponseCache.Evaluation.Exchange

/-!
# Lifetimes

How long a response stays fresh after its receipt. The first source that the response has decides:
`s-maxage` (for a shared cache), `max-age`, `Expires`, and else an estimate from `Last-Modified`.
Without any source the response is never fresh.
-/

namespace ResponseCache

def nanosPerSecond : Int := 1000000000

/-- How long a response stays fresh. -/
structure Lifetime where
  span : Int
  /-- Whether the length is an estimate. -/
  heuristic : Bool
deriving DecidableEq

namespace Lifetime

/-- A lifetime that the response states; one that lies in the past is no lifetime. -/
def explicit (span : Int) : Lifetime := ⟨max span 0, false⟩

def ofSeconds (n : Nat) : Lifetime := explicit (n * nanosPerSecond)

/-- The given fraction of an age, both in nanoseconds: the age in whole milliseconds is scaled as a
float, and the product loses its fraction and is kept within 64 bits. A product that is no number
counts as zero. -/
def scaled (age : Int) (fraction : Float) : Int :=
  let product := Float.ofInt (age.tdiv 1000000) * fraction
  product.toModel.toInt64.toInt * 1000000

/-- The longest estimate in nanoseconds. -/
def cap (c : Config) : Int :=
  (c.heuristicCap.toSpan?).getD Duration.longestSpan

/-- The estimate from the age that the response had when the origin made it. -/
def estimate (age : Int) (c : Config) : Lifetime :=
  if age ≤ 0 then explicit 0 else ⟨min (scaled age c.heuristicFraction) (cap c), true⟩

end Lifetime

namespace Assessment

/-- The lifetime that `Expires` or else `Last-Modified` gives. -/
def dateLifetime (a : Assessment) (c : Config) : Lifetime :=
  match a.expires, a.lastModified with
  | some .alreadyExpired, _ => .explicit 0
  | some (.instant t), _ => .explicit (t.since a.originDate)
  | none, some t => .estimate (a.originDate.since t) c
  | none, none => .explicit 0

/-- The lifetime of the response in a cache of this configuration. -/
def lifetime (a : Assessment) (c : Config) : Lifetime :=
  match if c.shared then a.response.sharedMaxAge else none, a.response.maxAge with
  | some n, _ => .ofSeconds n
  | none, some n => .ofSeconds n
  | none, none => a.dateLifetime c

end Assessment

end ResponseCache
