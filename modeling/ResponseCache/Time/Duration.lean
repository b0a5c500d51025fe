import ResponseCache.Decimal.Natural

/-!
# Durations

Lengths of time that configuration gives: whole seconds in 64 bits and nanoseconds on top. A length
counts as a span of the time line only up to the longest span, 2^63 - 1 milliseconds.
-/

namespace ResponseCache

structure Duration where
  seconds : UInt64
  nanos : Nat
  nanos_lt : nanos < 1000000000
deriving DecidableEq

namespace Duration

def zero : Duration := ⟨0, 0, by decide⟩

def ofSeconds (seconds : UInt64) : Duration := ⟨seconds, 0, by decide⟩

/-- The length given by seconds and nanoseconds, if 64 bits hold its whole seconds. -/
def of? (seconds : UInt64) (nanos : Nat) : Option Duration :=
  let whole := seconds.toNat + nanos / 1000000000
  if whole < 18446744073709551616 then
    some ⟨UInt64.ofNat whole, nanos % 1000000000, Nat.mod_lt _ (by decide)⟩
  else none

def toNanos (d : Duration) : Nat :=
  d.seconds.toNat * 1000000000 + d.nanos

/-- The longest span in nanoseconds. -/
def longestSpan : Nat :=
  9223372036854775807 * 1000000

/-- The length as a span of nanoseconds, if it is not longer than the longest span. -/
def toSpan? (d : Duration) : Option Int :=
  if d.toNanos ≤ longestSpan then some d.toNanos else none

/-- A whole number, a fraction of `width` digits without the zeros at its end, and a unit. -/
def inspectIn (whole fraction width : Nat) (unit : String) : String :=
  let ds := ((Decimal.padded width fraction).reverse.dropWhile (· == '0')).reverse
  let point := if fraction = 0 then [] else '.' :: ds
  String.ofList (Decimal.digits whole ++ point) ++ unit

/-- Diagnostic form: seconds for a second or more, else the largest unit of which there is one. -/
def inspect (d : Duration) : String :=
  if 0 < d.seconds then inspectIn d.seconds.toNat d.nanos 9 "s"
  else if 1000000 ≤ d.nanos then inspectIn (d.nanos / 1000000) (d.nanos % 1000000) 6 "ms"
  else if 1000 ≤ d.nanos then inspectIn (d.nanos / 1000) (d.nanos % 1000) 3 "µs"
  else inspectIn d.nanos 0 0 "ns"

end Duration

end ResponseCache
