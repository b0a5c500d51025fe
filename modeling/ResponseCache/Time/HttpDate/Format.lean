import ResponseCache.Time.Instant
import ResponseCache.Decimal.Natural

/-!
# Dates as text

The date of a header field, such as `Sun, 06 Nov 1994 08:49:37 GMT`, and the date of diagnostics,
such as `1994-11-06 08:49:37 UTC`. Both count a leap second as second 60.
-/

namespace ResponseCache

/-- A year in at least four digits; a year outside 0 to 9999 shows its sign. -/
def yearText (y : Int) : List Char :=
  if 0 ≤ y ∧ y ≤ 9999 then Decimal.padded 4 y.natAbs
  else (if y < 0 then '-' else '+') :: Decimal.padded 4 y.natAbs

namespace Instant

/-- Hour, minute and second in two digits each, with colons between them. -/
def timeText (t : Instant) : List Char :=
  Decimal.padded 2 t.hour ++ [':'] ++ Decimal.padded 2 t.minute ++ [':']
    ++ Decimal.padded 2 t.second

def httpDate (t : Instant) : List Char :=
  t.weekday.short ++ [',', ' '] ++ Decimal.padded 2 t.date.day ++ [' '] ++ monthName t.date.month
    ++ [' '] ++ yearText t.date.year ++ [' '] ++ t.timeText ++ [' ', 'G', 'M', 'T']

/-- The part of a second in diagnostics: nothing, or three, six or nine digits, the fewest that are
exact. -/
def subsecondText (t : Instant) : List Char :=
  let n := t.subsecond
  if n = 0 then []
  else if n % 1000000 = 0 then '.' :: Decimal.padded 3 (n / 1000000)
  else if n % 1000 = 0 then '.' :: Decimal.padded 6 (n / 1000)
  else '.' :: Decimal.padded 9 n

/-- The diagnostic form of an instant. -/
def display (t : Instant) : String :=
  String.ofList (yearText t.date.year ++ ['-'] ++ Decimal.padded 2 t.date.month ++ ['-']
    ++ Decimal.padded 2 t.date.day ++ [' '] ++ t.timeText ++ t.subsecondText) ++ " UTC"

end Instant

end ResponseCache
