import ResponseCache.Proofs.Time.Calendar
import ResponseCache.Time.Instant

/-!
# What the calendar and the clock show

The date, the hour, the minute and the second of an instant give back its whole seconds
(`seconds_eq`), where second 60, which only a leap second shows, counts as the second before it
(`second_eq_sixty_iff`). So what is shown loses the part of a second and nothing else
(`wholeSecond`).
-/

namespace ResponseCache

/-- What a calendar and a clock show. -/
structure WallTime where
  date : CivilDate
  hour : Nat
  minute : Nat
  second : Nat

namespace WallTime

/-- What is shown a number of seconds after midnight began 1970-01-01, without leap seconds. -/
def ofSeconds (n : Int) : WallTime where
  date := CivilDate.ofDays (n / 86400)
  hour := (n % 86400 / 3600).toNat
  minute := (n % 86400 / 60 % 60).toNat
  second := (n % 86400 % 60).toNat

/-- The month has a name and the other numbers have at most two digits. -/
structure Legible (x : WallTime) : Prop where
  month : 1 ≤ x.date.month ∧ x.date.month ≤ 12
  day : x.date.day < 100
  hour : x.hour < 100
  minute : x.minute < 100
  second : x.second < 100

end WallTime

namespace Instant

/-- What is shown at an instant in universal time. -/
def wallTime (t : Instant) : WallTime :=
  ⟨t.date, t.hour, t.minute, t.second⟩

theorem of?_self (t : Instant) : of? t.seconds t.nanos = some t := by
  rw [of?, dif_pos ⟨t.seconds_ge, t.seconds_le, t.nanos_lt, t.leap_last⟩]

/-- The instant without its part of a second; in a leap second that is the start of it. -/
def wholeSecond (t : Instant) : Instant where
  seconds := t.seconds
  nanos := if t.isLeap then 1000000000 else 0
  seconds_ge := t.seconds_ge
  seconds_le := t.seconds_le
  nanos_lt := by split <;> decide
  leap_last := by
    intro h
    split at h
    · rename_i hleap
      exact t.leap_last (of_decide_eq_true hleap)
    · exact absurd h (by decide)

variable (t : Instant)

theorem isLeap_wholeSecond : t.wholeSecond.isLeap = t.isLeap := by
  unfold wholeSecond
  rw [isLeap]
  dsimp only
  split
  · rename_i h
    rw [h]
    rfl
  · rename_i h
    rw [Bool.eq_false_iff.2 h]
    rfl

theorem wholeSecond_of_subsecond {t : Instant} (h : t.subsecond = 0) : t.wholeSecond = t := by
  have hlt := t.nanos_lt
  unfold subsecond at h
  refine Instant.ext rfl ?_
  unfold wholeSecond
  dsimp only
  split
  · rename_i hleap
    have hge : 1000000000 ≤ t.nanos := of_decide_eq_true hleap
    omega
  · rename_i hleap
    have hnot : ¬ 1000000000 ≤ t.nanos := fun hge => hleap (decide_eq_true hge)
    omega

/-- The second of the minute is past the last one of the minute in a leap second. -/
theorem second_eq :
    (t.second : Int) = t.secondOfDay % 60 + (if t.isLeap then 1 else 0)
      ∧ (t.isLeap = true → t.secondOfDay % 60 = 59) := by
  have hmod : t.secondOfDay % 60 = t.seconds % 60 := by
    unfold secondOfDay
    omega
  refine ⟨?_, fun hleap => hmod.trans (t.leap_last (of_decide_eq_true hleap))⟩
  unfold second
  split <;> omega

theorem second_eq_sixty_iff : t.second = 60 ↔ t.isLeap = true := by
  obtain ⟨hsecond, hlast⟩ := t.second_eq
  split at hsecond
  · rename_i hleap
    have := hlast hleap
    exact iff_of_true (by omega) hleap
  · rename_i hleap
    exact iff_of_false (by omega) hleap

theorem clock_range : t.hour ≤ 23 ∧ t.minute ≤ 59 ∧ t.second ≤ 60 := by
  obtain ⟨hsecond, -⟩ := t.second_eq
  refine ⟨?_, ?_, ?_⟩
  · unfold hour secondOfDay
    omega
  · unfold minute
    omega
  · split at hsecond <;> omega

/-- Date and clock give back the seconds, if second 60 counts as the one before it. -/
theorem seconds_eq :
    t.day * 86400 + t.hour * 3600 + t.minute * 60 + (min t.second 59 : Nat) = t.seconds := by
  obtain ⟨hsecond, hlast⟩ := t.second_eq
  have hmin : ((min t.second 59 : Nat) : Int) = t.secondOfDay % 60 := by
    split at hsecond
    · rename_i hleap
      have := hlast hleap
      omega
    · omega
  rw [hmin]
  unfold day hour minute secondOfDay
  omega

theorem legible_wallTime : t.wallTime.Legible := by
  obtain ⟨hmonth, hmonth', -, hday⟩ := CivilDate.exists_ofDays t.day
  obtain ⟨hhour, hminute, hsecond⟩ := t.clock_range
  have hlength : ∀ y m, daysInMonth y m ≤ 31 := by
    intro y m
    unfold daysInMonth
    split
    · split <;> decide
    · split <;> decide
  refine ⟨⟨hmonth, hmonth'⟩, ?_, ?_, ?_, ?_⟩
  · exact Nat.lt_of_le_of_lt (hday.trans (hlength _ _)) (by decide)
  · exact Nat.lt_of_le_of_lt hhour (by decide)
  · exact Nat.lt_of_le_of_lt hminute (by decide)
  · exact Nat.lt_of_le_of_lt hsecond (by decide)

/-- Outside leap seconds the whole seconds say all that is shown. -/
theorem wallTime_eq_ofSeconds {t : Instant} (h : t.isLeap = false) :
    t.wallTime = WallTime.ofSeconds t.seconds := by
  have hsecond : t.second = (t.secondOfDay % 60).toNat := by
    rw [second, h, if_neg Bool.false_ne_true, Nat.add_zero]
  rw [wallTime, hsecond]
  rfl

end Instant

end ResponseCache
