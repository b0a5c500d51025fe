import ResponseCache.Decimal.Natural

/-!
# Number literals

A number literal of JSON as its parts, and its value as an unsigned 64-bit word, an integer or the
nearest float.
-/

namespace ResponseCache.Json

/-- A number literal. -/
structure Number where
  negative : Bool
  /-- The digits before the point. -/
  whole : List Char
  /-- The digits after the point; none if there is no point. -/
  fraction : List Char
  exponent : Option Int
deriving DecidableEq

namespace Number

/-- The exponent after its mark: an optional sign and digits. -/
def exponent? : List Char → Option Int
  | '-' :: ds => (Decimal.value? ds).map fun n => -(n : Int)
  | '+' :: ds => (Decimal.value? ds).map fun n => (n : Int)
  | ds => (Decimal.value? ds).map fun n => (n : Int)

/-- What follows the digits before the point. -/
def tail? (negative : Bool) (whole : List Char) : List Char → Option Number
  | [] => some ⟨negative, whole, [], none⟩
  | '.' :: s =>
    let fraction := s.takeWhile Decimal.isDigit
    if fraction.isEmpty then none
    else
      match s.dropWhile Decimal.isDigit with
      | [] => some ⟨negative, whole, fraction, none⟩
      | mark :: e =>
        if mark.toLower = 'e' then
          (exponent? e).map fun e => ⟨negative, whole, fraction, some e⟩
        else none
  | mark :: e =>
    if mark.toLower = 'e' then (exponent? e).map fun e => ⟨negative, whole, [], some e⟩ else none

/-- A literal without its sign. A zero in front stands alone. -/
def unsigned? (negative : Bool) (s : List Char) : Option Number :=
  let whole := s.takeWhile Decimal.isDigit
  if whole.isEmpty || (whole.head? == some '0' && whole.length != 1) then none
  else tail? negative whole (s.dropWhile Decimal.isDigit)

def ofChars? : List Char → Option Number
  | '-' :: s => unsigned? true s
  | s => unsigned? false s

/-- The integer that a literal without point and exponent writes. -/
def toInt? (n : Number) : Option Int :=
  if n.fraction.isEmpty && n.exponent.isNone then
    let m := Decimal.value n.whole
    some (if n.negative then -m else m)
  else none

/-- The word that a literal without sign, point and exponent writes, if 64 bits hold it. -/
def toUInt64? (n : Number) : Option UInt64 :=
  if n.negative || !n.fraction.isEmpty || n.exponent.isSome then none
  else
    let m := Decimal.value n.whole
    if m < 18446744073709551616 then some (UInt64.ofNat m) else none

/-- The float nearest to `m * 10 ^ e`, if that is finite. Exponents far outside the range of floats
are settled by the number of digits alone. -/
def nearest? (m : Nat) (e : Int) : Option Float :=
  let top := ((Decimal.digits m).length : Int) + e
  if m = 0 ∨ top < -400 then some 0
  else if 400 < top then none
  else
    let x := Float.ofScientific m (e < 0) e.natAbs
    if x.isInf then none else some x

/-- The float that the literal writes, if it is finite. A zero keeps its sign. -/
def toFloat? (n : Number) : Option Float :=
  let m := Decimal.value (n.whole ++ n.fraction)
  let magnitude := nearest? m (n.exponent.getD 0 - n.fraction.length)
  magnitude.map fun x => if n.negative then -x else x

end Number

end ResponseCache.Json
