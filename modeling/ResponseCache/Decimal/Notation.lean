import ResponseCache.Decimal.Natural
import ResponseCache.Decimal.Shortest

/-!
# Floats in decimal notation

A float is written as its shortest decimal. What a format still decides (when to write an exponent,
whether a whole number shows a fraction, which way ties go) is a `Style`, and each output has one.
-/

namespace ResponseCache.Decimal

/-- The choices of a format for floats. -/
structure Style where
  /-- Whether a decimal whose leading digit has this exponent is written without an exponent. -/
  positional : Int → Bool
  /-- Whether a whole number written without an exponent ends in `.0`. -/
  pointZero : Bool
  /-- Whether an exponent that is not negative shows a plus sign. -/
  plus : Bool
  /-- Which of two equally close shortest decimals is written. -/
  tie : Tie

/-- An integer with its sign. -/
def integer (n : Int) : List Char :=
  if n < 0 then '-' :: digits n.natAbs else digits n.natAbs

/-- A positive decimal without an exponent. -/
def Style.fixed (style : Style) (d : Numeral) : List Char :=
  let ds := digits d.coefficient
  if 0 ≤ d.exponent then
    ds ++ List.replicate d.exponent.toNat '0' ++ (if style.pointZero then ['.', '0'] else [])
  else
    let places := (-d.exponent).toNat
    let ds := ds.leftpad (places + 1) '0'
    ds.take (ds.length - places) ++ ['.'] ++ ds.drop (ds.length - places)

/-- A positive decimal with an exponent and one digit before the point. -/
def Style.scientific (style : Style) (d : Numeral) : List Char :=
  let ds := digits d.coefficient
  let fraction := if ds.tail.isEmpty then [] else '.' :: ds.tail
  let exponent := d.exponent + ((ds.length : Int) - 1)
  let sign := if style.plus && 0 ≤ exponent then ['+'] else []
  ds.take 1 ++ fraction ++ ['e'] ++ sign ++ integer exponent

/-- The sign of a float, which a zero has too. -/
def signText (x : Float) : List Char :=
  if 9223372036854775808 ≤ x.toBits.toNat then ['-'] else []

def Style.render (style : Style) (x : Float) : String :=
  if x.isNaN then "NaN"
  else
    let magnitude :=
      if x.isInf then ['i', 'n', 'f']
      else if x == 0 then (if style.pointZero then ['0', '.', '0'] else ['0'])
      else
        let d := (Binary.ofBits x.toBits).shortest style.tie
        let leading := d.exponent + ((digits d.coefficient).length : Int) - 1
        if style.positional leading then style.fixed d else style.scientific d
    String.ofList (signText x ++ magnitude)

/-- Diagnostic style: whole numbers show `.0`, and an exponent stands for values from `1e16` up and
below `1e-4`. -/
def inspectStyle : Style where
  positional e := -4 ≤ e && e < 16
  pointZero := true
  plus := false
  tie := .awayFromZero

/-- Message style: never an exponent, and whole numbers show no fraction. -/
def plainStyle : Style where
  positional _ := true
  pointZero := false
  plus := false
  tie := .awayFromZero

/-- JSON style: whole numbers show `.0`, and an exponent, with its sign, stands for values from
`1e16` up and below `1e-5`. -/
def jsonStyle : Style where
  positional e := -5 ≤ e && e < 16
  pointZero := true
  plus := true
  tie := .toEven

end ResponseCache.Decimal
