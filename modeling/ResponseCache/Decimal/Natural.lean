/-!
# Natural numbers in decimal

Writing a natural number in base 10, with or without zeros in front, and reading one back. Only the
characters `0` to `9` are digits.
-/

namespace ResponseCache.Decimal

/-- The decimal digits of `n`, with no zeros in front. -/
def digits (n : Nat) : List Char :=
  Nat.toDigits 10 n

/-- The decimal digits of `n`, with as many zeros in front as make `width` characters. -/
def padded (width n : Nat) : List Char :=
  (digits n).leftpad width '0'

def isDigit (c : Char) : Bool :=
  '0' ≤ c && c ≤ '9'

def value (ds : List Char) : Nat :=
  Nat.ofDigitChars 10 ds 0

/-- The number that a text of one or more digits writes. -/
def value? (s : List Char) : Option Nat :=
  if s.isEmpty || !s.all isDigit then none else some (value s)

/-- The number that a text of digits writes, with one plus sign allowed in front, if it is at most
`limit`. -/
def valueUpTo? (limit : Nat) (s : List Char) : Option Nat := do
  let n ← match s with
    | '+' :: ds => value? ds
    | ds => value? ds
  guard (n ≤ limit)
  return n

end ResponseCache.Decimal
