/-!
# The shortest decimal of a binary fraction

A binary64 value stands for all reals that round to it: the interval from halfway to its lower
neighbour to halfway to its upper one, ends included if the significand is even. Its shortest
decimal is the number in that interval with the fewest digits, and of several such numbers the
closest to the value.

`Binary.shortest` searches for it on the grids of 1, 2, … 17 digits. On each grid only the two
neighbours of the value can be closest, so these two are tried, in exact arithmetic on natural
numbers; the first grid with a hit wins.
-/

namespace ResponseCache.Decimal

/-- A finite non-negative binary64 value, `significand * 2 ^ exponent`. -/
structure Binary where
  significand : Nat
  exponent : Int
  /-- The gap to the lower neighbour is half the gap to the upper one. -/
  narrowBelow : Bool

/-- A decimal, `coefficient * 10 ^ exponent`. -/
structure Numeral where
  coefficient : Nat
  exponent : Int
deriving DecidableEq, Repr

/-- Which of two equally close decimals is taken. -/
inductive Tie where
  | toEven
  | awayFromZero
deriving DecidableEq, Repr

namespace Binary

/-- The absolute value behind the bits of a finite float. -/
def ofBits (bits : UInt64) : Binary :=
  let e : Nat := bits.toNat / 4503599627370496 % 2048
  let f : Nat := bits.toNat % 4503599627370496
  if e = 0 then ⟨f, -1074, false⟩ else ⟨4503599627370496 + f, (e : Int) - 1075, f == 0 && e != 1⟩

/-- The value as a quotient of two natural numbers in units of a quarter of the last place, together
with a grid of width `10 ^ place` in the same units: the grid's `c`-th point is the value exactly
when `c * (onGrid place).1 = 4 * significand * (onGrid place).2`. -/
def onGrid (x : Binary) (place : Int) : Nat × Nat :=
  let q := x.exponent - 2
  (Nat.pow 10 place.toNat * Nat.pow 2 (-q).toNat,
    Nat.pow 10 (-place).toNat * Nat.pow 2 q.toNat)

/-- Whether the `c`-th point of the grid of width `10 ^ place` lies in the interval of `x`. -/
def readsBack (x : Binary) (place : Int) (c : Nat) : Bool :=
  let g := x.onGrid place
  let low := (4 * x.significand - if x.narrowBelow then 1 else 2) * g.2
  let high := (4 * x.significand + 2) * g.2
  let point := c * g.1
  if x.significand % 2 = 0 then low ≤ point && point ≤ high else low < point && point < high

/-- The closest point of the grid of width `10 ^ place` that lies in the interval of `x`. -/
def onGrid? (x : Binary) (tie : Tie) (place : Int) : Option Numeral :=
  let g := x.onGrid place
  let exact := 4 * x.significand * g.2
  let below := exact / g.1
  let above := below + 1
  let best :=
    match compare (2 * exact) ((below + above) * g.1), tie with
    | .lt, _ => below
    | .gt, _ => above
    | .eq, .awayFromZero => above
    | .eq, .toEven => if below % 2 = 0 then below else above
  let other := if best = below then above else below
  if x.readsBack place best then some ⟨best, place⟩
  else if x.readsBack place other then some ⟨other, place⟩
  else none

/-- The exponent of the value's leading digit: the `e` with `10 ^ e ≤ x < 10 ^ (e + 1)`. The value
times `10 ^ 330` exceeds one even for the least float, so its whole part has as many digits as the
exponent needs. -/
def leadingExponent (x : Binary) : Int :=
  let whole := x.significand * Nat.pow 10 330 * Nat.pow 2 x.exponent.toNat
    / Nat.pow 2 (-x.exponent).toNat
  ((Nat.toDigits 10 whole).length : Int) - 331

/-- The exact decimal of the value. -/
def exact (x : Binary) : Numeral :=
  ⟨x.significand * Nat.pow 2 x.exponent.toNat * Nat.pow 5 (-x.exponent).toNat, min x.exponent 0⟩

/-- The decimal with the zeros at its end moved into the exponent. -/
def withoutZeros (d : Numeral) : Numeral :=
  let zeros := ((Nat.toDigits 10 d.coefficient).reverse.takeWhile (· == '0')).length
  ⟨d.coefficient / Nat.pow 10 zeros, d.exponent + zeros⟩

/-- The shortest decimal of a positive value. -/
def shortest (x : Binary) (tie : Tie) : Numeral :=
  let e := x.leadingExponent
  let found := (List.range 17).findSome? fun (n : Nat) => x.onGrid? tie (e - n)
  withoutZeros (found.getD x.exact)

end Binary

end ResponseCache.Decimal
