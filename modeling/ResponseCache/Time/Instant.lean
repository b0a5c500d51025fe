import ResponseCache.Time.Calendar

/-!
# Instants

Points on the time line in coordinated universal time, to the nanosecond, from the year -262143 to
the year 262142. A minute may have a leap second: it counts as part of the second before it, with
nanoseconds from 1 000 000 000 up.

Leap seconds make the two operations on spans (`since` and `shift?`) uneven: a leap second is one
second long for a span that ends or starts inside it, and has no length for a span that passes over
it.
-/

namespace ResponseCache

/-- A point in time: whole seconds since 1970-01-01T00:00:00Z and nanoseconds on top. -/
@[ext] structure Instant where
  seconds : Int
  nanos : Nat
  seconds_ge : -8334601228800 ≤ seconds
  seconds_le : seconds ≤ 8210266876799
  nanos_lt : nanos < 2000000000
  /-- Only the last second of a minute can hold a leap second. -/
  leap_last : 1000000000 ≤ nanos → seconds % 60 = 59
deriving DecidableEq

namespace Instant

def of? (seconds : Int) (nanos : Nat) : Option Instant :=
  if h : -8334601228800 ≤ seconds ∧ seconds ≤ 8210266876799 ∧ nanos < 2000000000 ∧
      (1000000000 ≤ nanos → seconds % 60 = 59) then
    some ⟨seconds, nanos, h.1, h.2.1, h.2.2.1, h.2.2.2⟩
  else none

/-- 1970-01-01T00:00:00Z. -/
def epoch : Instant where
  seconds := 0
  nanos := 0
  seconds_ge := by decide
  seconds_le := by decide
  nanos_lt := by decide
  leap_last := by decide

/-- The last instant of the year 262142. Times that would lie beyond it are taken to be it. -/
def latest : Instant where
  seconds := 8210266876799
  nanos := 999999999
  seconds_ge := by decide
  seconds_le := by decide
  nanos_lt := by decide
  leap_last := by decide

def lt (a b : Instant) : Prop :=
  a.seconds < b.seconds ∨ a.seconds = b.seconds ∧ a.nanos < b.nanos

instance : LT Instant := ⟨lt⟩

instance (a b : Instant) : Decidable (a < b) :=
  inferInstanceAs (Decidable (_ ∨ _))

instance : LE Instant := ⟨fun a b => ¬ b < a⟩

instance (a b : Instant) : Decidable (a ≤ b) :=
  inferInstanceAs (Decidable (¬ _))

/-- Whether the instant lies in a leap second. -/
def isLeap (t : Instant) : Bool :=
  1000000000 ≤ t.nanos

/-- The second of the day, from 0. -/
def secondOfDay (t : Instant) : Int :=
  t.seconds % 86400

/-- The days from 1970-01-01 to the day of the instant. -/
def day (t : Instant) : Int :=
  t.seconds / 86400

def date (t : Instant) : CivilDate :=
  CivilDate.ofDays t.day

def weekday (t : Instant) : Weekday :=
  Weekday.ofDays t.day

def hour (t : Instant) : Nat :=
  (t.secondOfDay / 3600).toNat

def minute (t : Instant) : Nat :=
  (t.secondOfDay / 60 % 60).toNat

/-- The second of the minute, which is 60 in a leap second. -/
def second (t : Instant) : Nat :=
  (t.secondOfDay % 60).toNat + if t.isLeap then 1 else 0

def subsecond (t : Instant) : Nat :=
  t.nanos % 1000000000

/-- The nanoseconds from `b` to `a`. Of the two times of day, the earlier one's leap second counts
when it lies between them: it lengthens a span that starts in it and runs to a later time of day,
and shortens one that ends in it from a later time of day. -/
def since (a b : Instant) : Int :=
  let leap : Int :=
    if b.secondOfDay < a.secondOfDay ∧ b.isLeap then 1
    else if a.secondOfDay < b.secondOfDay ∧ a.isLeap then -1
    else 0
  (a.seconds - b.seconds + leap) * 1000000000 + ((a.nanos : Int) - b.nanos)

/-- The instant `span` nanoseconds after `t`, or before it for a negative span, if there is one. A
span that leaves the leap second of `t` forward treats it as the second before it, and one that
leaves it backward as the second after it. -/
def shift? (t : Instant) (span : Int) : Option Instant :=
  let whole := span.tdiv 1000000000
  let rest := span.tmod 1000000000
  let total (seconds nanos : Int) : Option Instant :=
    let n := nanos + rest
    of? (seconds + whole + n / 1000000000) (n % 1000000000).toNat
  let nanos : Int := t.nanos
  if nanos < 1000000000 then total t.seconds nanos
  else if 0 < whole ∨ (0 < rest ∧ 2000000000 ≤ nanos + rest) then
    total t.seconds (nanos - 1000000000)
  else if whole < 0 then total (t.seconds + 1) (nanos - 1000000000)
  else of? t.seconds (nanos + rest).toNat

end Instant

end ResponseCache
