import ResponseCache.Text.Reader
import ResponseCache.Time.Instant

/-!
# Reading dates

A date in a header field is read in the first of four forms that fits: the preferred form of HTTP
(`Sun, 06 Nov 1994 08:49:37 GMT`), the form with a full weekday and a two-digit year
(`Sunday, 06-Nov-94 08:49:37 GMT`), the form without a zone (`Sun Nov  6 08:49:37 1994`), and the
date of mail headers, which has a zone and comments of its own.

A form reads fields (`Stamp`); the fields make an instant only if the calendar has their date, the
weekday agrees with it, and both the local time and the instant are in range.
-/

namespace ResponseCache

open Text (Reader)

/-- The fields of a written date. The zone is the local time's lead over universal time, in
seconds. -/
structure Stamp where
  weekday : Option Weekday
  year : Int
  month : Nat
  day : Nat
  hour : Nat
  minute : Nat
  second : Nat
  zone : Int

namespace Stamp

/-- The instant that the fields name, if they are in range and agree. Second 60 is a leap second. -/
def instant? (s : Stamp) : Option Instant := do
  let date : CivilDate := ⟨s.year, s.month, s.day⟩
  guard date.Exists
  guard (s.weekday.all fun w => decide (w = date.weekday))
  guard (s.hour ≤ 23 ∧ s.minute ≤ 59 ∧ s.second ≤ 60)
  let seconds : Int := date.toDays * 86400 + s.hour * 3600 + s.minute * 60 + min s.second 59
  let nanos := if s.second = 60 then 1000000000 else 0
  let _ ← Instant.of? seconds nanos
  Instant.of? (seconds - s.zone) nanos

end Stamp

namespace HttpDate

open Text.Reader

/-- The short weekday names with their weekdays. -/
def weekdayWords : List (List Char × Weekday) :=
  Weekday.all.map fun w => (w.short, w)

/-- The short month names with their numbers. -/
def monthWords : List (List Char × Nat) :=
  monthNames.zipIdx.map fun m => (m.1.toList, m.2 + 1)

def shortWeekday : Reader Weekday :=
  oneOf weekdayWords

/-- A weekday by its first three letters, or by its full name if that comes next. -/
def weekday : Reader Weekday := do
  let w ← shortWeekday
  letters w.shortRest <|> pure ()
  return w

def month : Reader Nat :=
  oneOf monthWords

/-- A number of one or two digits, after blanks. -/
def field : Reader Nat := do
  blanks
  number 2

/-- A year of up to four digits after blanks, or of any length after a sign. -/
def year : Reader Int := do
  blanks
  (do char '-'; let n ← allDigits 1; return -(Decimal.value n : Int))
    <|> (do char '+'; let n ← allDigits 1; return (Decimal.value n : Int))
    <|> (do let n ← number 4; return (n : Int))

/-- A year of up to two digits after blanks, in the century around 2000: below 70 it is 20yy, else
19yy. -/
def yearOfCentury : Reader Int := do
  let n ← field
  return if n < 70 then 2000 + n else 1900 + n

def time : Reader (Nat × Nat × Nat) := do
  let h ← field
  char ':'
  let m ← field
  char ':'
  let s ← field
  return (h, m, s)

/-- The letters `GMT` after blanks. -/
def greenwich : Reader Unit := do
  blanks
  chars ['G', 'M', 'T']

/-- `Sun, 06 Nov 1994 08:49:37 GMT`. -/
def preferred : Reader Stamp := do
  let w ← shortWeekday
  char ','
  blanks
  let d ← field
  blanks
  let m ← month
  blanks
  let y ← year
  blanks
  let (hh, mm, ss) ← time
  greenwich
  return ⟨w, y, m, d, hh, mm, ss, 0⟩

/-- `Sunday, 06-Nov-94 08:49:37 GMT`. -/
def fullWeekday : Reader Stamp := do
  let w ← weekday
  char ','
  blanks
  let d ← field
  char '-'
  let m ← month
  char '-'
  let y ← yearOfCentury
  blanks
  let (hh, mm, ss) ← time
  greenwich
  return ⟨w, y, m, d, hh, mm, ss, 0⟩

/-- `Sun Nov  6 08:49:37 1994`. -/
def zoneless : Reader Stamp := do
  let w ← shortWeekday
  blanks
  let m ← month
  blanks
  let d ← field
  blanks
  let (hh, mm, ss) ← time
  blanks
  let y ← year
  return ⟨w, y, m, d, hh, mm, ss, 0⟩

/-- The year of a mail date: two digits stand for 1950 to 2049, three digits count from 1900. -/
def mailYear : Reader Int := do
  let ds ← allDigits 2
  let n := Decimal.value ds
  return if ds.length = 2 then (if n < 50 then n + 2000 else n + 1900)
    else if ds.length = 3 then n + 1900
    else n

/-- The named zones that mail dates use, with their hours. -/
def zoneHours : List (String × Int) :=
  [("gmt", 0), ("ut", 0), ("z", 0), ("est", -5), ("edt", -4), ("cst", -6), ("cdt", -5),
    ("mst", -7), ("mdt", -6), ("pst", -8), ("pdt", -7)]

/-- The lead of a zone given by name, in seconds. A single letter other than `j` is a military zone,
which mail dates take as universal time. -/
def namedZone? (name : List Char) : Option Int :=
  let name := Text.lower name
  match zoneHours.lookup (String.ofList name) with
  | some hours => some (hours * 3600)
  | none => if name.length = 1 ∧ name ≠ ['j'] then some 0 else none

/-- The lead of a zone, in seconds: a name, or a sign with hours and minutes. -/
def zone : Reader Int := do
  let s ← get
  let name := s.takeWhile Char.isAlpha
  if name.isEmpty then
    let sign : Int ← (do char '+'; pure 1) <|> (do char '-'; pure (-1))
    let h ← fixedNumber 2
    let m ← fixedNumber 2
    guard (m < 60 ∧ h < 24)
    return sign * (h * 3600 + m * 60)
  else
    set (s.drop name.length)
    namedZone? name

/-- Whether a text is a sequence of comments with blanks around them. Comments are parenthesised and
nest; `depth?` is the number of open parentheses beyond the first, if one is open, and a backslash
in a comment takes the next character with it. -/
def onlyComments : (depth? : Option Nat) → List Char → Bool
  | none, [] => true
  | some _, [] => false
  | none, '(' :: s => onlyComments (some 0) s
  | none, c :: s => Text.isBlank c && onlyComments none s
  | some depth, '\\' :: _ :: s => onlyComments (some depth) s
  | some depth, '(' :: s => onlyComments (some (depth + 1)) s
  | some 0, ')' :: s => onlyComments none s
  | some (depth + 1), ')' :: s => onlyComments (some depth) s
  | some depth, _ :: s => onlyComments (some depth) s

/-- The date of a mail header: `Sun, 06 Nov 1994 08:49:37 -0800 (comment)`. The weekday and the
seconds may be absent. -/
def mail : Reader Stamp := do
  blanks
  let w ← (some <$> shortWeekday) <|> pure none
  if w.isSome then char ','
  blanks
  let d ← number 2
  someBlanks
  let m ← month
  someBlanks
  let y ← mailYear
  someBlanks
  let hh ← fixedNumber 2
  blanks
  char ':'
  blanks
  let mm ← fixedNumber 2
  let more ← (do blanks; char ':'; pure true) <|> pure false
  let ss ← if more then fixedNumber 2 else pure 0
  someBlanks
  let z ← zone
  let rest ← get
  guard (onlyComments none rest)
  set ([] : List Char)
  return ⟨w, y, m, d, hh, mm, ss, z⟩

/-- The four forms in the order in which they are tried. -/
def forms : List (Reader Stamp) :=
  [preferred, fullWeekday, zoneless, mail]

/-- The instant that a date text names, blanks around it aside. -/
def parse? (s : List Char) : Option Instant :=
  forms.findSome? fun form => (form.all (Text.trim s)).bind Stamp.instant?

end HttpDate

end ResponseCache
