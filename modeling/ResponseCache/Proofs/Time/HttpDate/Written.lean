import Mathlib.Tactic.IntervalCases
import ResponseCache.Proofs.Text.Reader
import ResponseCache.Proofs.Text.Trim
import ResponseCache.Proofs.Time.Clock
import ResponseCache.Time.HttpDate.Format
import ResponseCache.Time.HttpDate.Parse

/-!
# Dates in writing

What a calendar and a clock show, written in each form in which a date may come, and the reading of
its fields. Each field is taken from the start of a text as it was written, whatever comes behind
it; only a year must not go on in digits.
-/

namespace ResponseCache

open Text Text.Reader

/-- How far a local time is from universal time: whole minutes, less than a day. -/
structure Offset where
  behind : Bool
  minutes : Nat
  minutes_lt : minutes < 1440

namespace Offset

/-- The lead of the local time in seconds. -/
def seconds (o : Offset) : Int :=
  if o.behind then -(o.minutes * 60) else o.minutes * 60

/-- A sign, then hours and minutes in two digits each. -/
def text (o : Offset) : List Char :=
  (if o.behind then '-' else '+')
    :: (Decimal.padded 2 (o.minutes / 60) ++ Decimal.padded 2 (o.minutes % 60))

end Offset

/-- What a mail date leaves open: whether the weekday is named, and whether the day of the month has
two digits or as few as possible. -/
structure MailStyle where
  named : Bool
  padded : Bool

namespace WallTime

variable (x : WallTime)

/-- The fields of a date that shows `x`. -/
def stamp (weekday : Option Weekday) (zone : Int) : Stamp :=
  ⟨weekday, x.date.year, x.date.month, x.date.day, x.hour, x.minute, x.second, zone⟩

def timeText : List Char :=
  Decimal.padded 2 x.hour ++ [':'] ++ Decimal.padded 2 x.minute ++ [':']
    ++ Decimal.padded 2 x.second

def dayText (style : MailStyle) : List Char :=
  if style.padded then Decimal.padded 2 x.date.day else Decimal.digits x.date.day

/-- `Sun, 06 Nov 1994 08:49:37`. -/
def dayTimeText (style : MailStyle) (w : Weekday) : List Char :=
  (if style.named then w.short ++ [',', ' '] else []) ++ x.dayText style ++ [' ']
    ++ monthName x.date.month ++ [' '] ++ yearText x.date.year ++ [' '] ++ x.timeText

/-- `Sun, 06 Nov 1994 08:49:37 GMT`. -/
def preferredText (w : Weekday) : List Char :=
  x.dayTimeText ⟨true, true⟩ w ++ [' ', 'G', 'M', 'T']

/-- `Sunday, 06-Nov-94 08:49:37 GMT`. -/
def fullWeekdayText (w : Weekday) : List Char :=
  w.name.toList ++ [',', ' '] ++ Decimal.padded 2 x.date.day ++ ['-'] ++ monthName x.date.month
    ++ ['-'] ++ Decimal.padded 2 (x.date.year % 100).toNat ++ [' '] ++ x.timeText
    ++ [' ', 'G', 'M', 'T']

/-- `Sun Nov  6 08:49:37 1994`. -/
def zonelessText (w : Weekday) : List Char :=
  w.short ++ [' '] ++ monthName x.date.month ++ [' '] ++ (Decimal.digits x.date.day).leftpad 2 ' '
    ++ [' '] ++ x.timeText ++ [' '] ++ yearText x.date.year

/-- `Sun, 06 Nov 1994 08:49:37 -0800`. -/
def mailText (style : MailStyle) (w : Weekday) (o : Offset) : List Char :=
  x.dayTimeText style w ++ ' ' :: o.text

end WallTime

/-- The date of a header is the preferred form of what is shown. -/
theorem Instant.httpDate_eq (t : Instant) : t.httpDate = t.wallTime.preferredText t.weekday :=
  rfl

namespace HttpDate

variable {s : List Char} {n : Nat} {y : Int} {x : WallTime} {style : MailStyle}

/-! ## Names -/

theorem ends_short (w : Weekday) (s : List Char) : Ends isBlank (w.short ++ s) := by
  cases w <;> exact .cons rfl _

theorem run_shortWeekday (w : Weekday) (s : List Char) :
    shortWeekday.run (w.short ++ s) = some (w, s) := by
  cases w <;> rfl

theorem run_weekday (w : Weekday) (s : List Char) :
    weekday.run (w.name.toList ++ s) = some (w, s) := by
  cases w <;> rfl

theorem ends_monthName (hm : 1 ≤ n ∧ n ≤ 12) (s : List Char) : Ends isBlank (monthName n ++ s) := by
  obtain ⟨hge, hle⟩ := hm
  interval_cases n <;> exact .cons rfl _

theorem run_month (hm : 1 ≤ n ∧ n ≤ 12) (s : List Char) :
    month.run (monthName n ++ s) = some (n, s) := by
  obtain ⟨hge, hle⟩ := hm
  interval_cases n <;> rfl

/-! ## The time of day -/

theorem ends_timeText (x : WallTime) (s : List Char) : Ends isBlank (x.timeText ++ s) := by
  simp only [WallTime.timeText, List.append_assoc]
  exact ends_padded _ _ _

theorem run_field (h : n < 100) (s : List Char) :
    field.run (Decimal.padded 2 n ++ s) = some (n, s) := by
  rw [field, run_bind (run_blanks_of_ends (ends_padded _ _ _))]
  exact run_number_padded (by decide) h s

theorem run_time (hx : x.Legible) (s : List Char) :
    time.run (x.timeText ++ s) = some ((x.hour, x.minute, x.second), s) := by
  simp only [WallTime.timeText, List.append_assoc, List.cons_append, List.nil_append]
  rw [time, run_bind (run_field hx.hour _), run_bind (run_char _ _),
    run_bind (run_field hx.minute _), run_bind (run_char _ _), run_bind (run_field hx.second _)]
  rfl

/-! ## The day of the month -/

theorem isDigit_of_mem_dayText {c : Char} (h : c ∈ x.dayText style) :
    Decimal.isDigit c = true := by
  unfold WallTime.dayText at h
  split at h
  · exact Decimal.isDigit_of_mem_padded h
  · exact Decimal.isDigit_of_mem_digits h

theorem dayText_ne_nil (x : WallTime) (style : MailStyle) : x.dayText style ≠ [] := by
  unfold WallTime.dayText
  split
  · exact padded_ne_nil _ _
  · exact Nat.toDigits_ne_nil

theorem ends_dayText (x : WallTime) (style : MailStyle) (s : List Char) :
    Ends isBlank (x.dayText style ++ s) :=
  ends_digits (fun _ => isDigit_of_mem_dayText) (dayText_ne_nil x style) s

theorem run_dayText (hx : x.Legible) (style : MailStyle) (s : List Char) :
    (number 2).run (x.dayText style ++ ' ' :: s) = some (x.date.day, ' ' :: s) := by
  unfold WallTime.dayText
  split
  · exact run_number_padded (by decide) hx.day _
  · exact run_number_digits (by decide) hx.day (.cons rfl s)

theorem run_field_dayText (hx : x.Legible) (style : MailStyle) (s : List Char) :
    field.run (x.dayText style ++ ' ' :: s) = some (x.date.day, ' ' :: s) := by
  rw [field, run_bind (run_blanks_of_ends (ends_dayText x style _))]
  exact run_dayText hx style s

/-- A day of the month is no weekday. -/
theorem run_shortWeekday_dayText (x : WallTime) (style : MailStyle) (s : List Char) :
    shortWeekday.run (x.dayText style ++ s) = none := by
  have hne := dayText_ne_nil x style
  have hdigits : ∀ c ∈ x.dayText style, Decimal.isDigit c = true := fun _ => isDigit_of_mem_dayText
  generalize x.dayText style = ds at hne hdigits
  cases ds with
  | nil => exact absurd rfl hne
  | cons c ds =>
    obtain ⟨hlt, hc⟩ := Decimal.digitChar_of_isDigit (hdigits c List.mem_cons_self)
    rw [← hc]
    generalize c.toNat - '0'.toNat = k at hlt
    interval_cases k <;> rfl

/-- Blanks before the day of the month are passed over. -/
theorem run_blanks_leftpad (n : Nat) (s : List Char) :
    blanks.run (' ' :: ((Decimal.digits n).leftpad 2 ' ' ++ s))
      = some ((), Decimal.digits n ++ s) := by
  have hpad : ∀ k, ∀ c ∈ List.replicate (k + 1) ' ', isBlank c = true := by
    intro k c hc
    rw [List.eq_of_mem_replicate hc]
    decide
  have hdigits : Ends isBlank (Decimal.digits n ++ s) :=
    ends_digits (fun _ => Decimal.isDigit_of_mem_digits) Nat.toDigits_ne_nil s
  rw [List.leftpad, List.append_assoc, ← List.cons_append, ← List.replicate_succ, run_blanks,
    trimStart_append (hpad _), trimStart_of_ends hdigits]

/-! ## The year -/

theorem ends_yearText (y : Int) (s : List Char) : Ends isBlank (yearText y ++ s) := by
  unfold yearText
  split
  · exact ends_padded _ _ _
  · split <;> exact .cons rfl _

theorem run_year (hend : Ends Decimal.isDigit s) : year.run (yearText y ++ s) = some (y, s) := by
  have hall : (allDigits 1).run (Decimal.padded 4 y.natAbs ++ s)
      = some (Decimal.padded 4 y.natAbs, s) := run_allDigits_padded (by decide) hend
  rw [year, run_bind (run_blanks_of_ends (ends_yearText y s))]
  unfold yearText
  split
  · rename_i hy
    have hlt : y.natAbs < 10000 := by omega
    have hnumber := run_number_padded (Nat.zero_lt_succ 3) hlt s
    have hsign : ∀ c, Decimal.isDigit c = false →
        (char c).run (Decimal.padded 4 y.natAbs ++ s) = none := fun c hc =>
      run_char_digits (fun _ => Decimal.isDigit_of_mem_padded) hc (padded_ne_nil _ _) s
    rw [run_second (run_bind_none (hsign '-' rfl) _), run_second (run_bind_none (hsign '+' rfl) _),
      run_bind hnumber, Int.natAbs_of_nonneg hy.1]
    rfl
  · split
    · have hsign : -(y.natAbs : Int) = y := by omega
      refine run_first ?_ _
      rw [List.cons_append, run_bind (run_char _ _), run_bind hall, Decimal.value_padded, hsign]
      rfl
    · have hsign : (y.natAbs : Int) = y := by omega
      rw [List.cons_append, run_second (run_bind_none (run_char_of_ne (by decide) _) _)]
      refine run_first ?_ _
      rw [run_bind (run_char _ _), run_bind hall, Decimal.value_padded, hsign]
      rfl

theorem run_yearOfCentury (hy : 1970 ≤ y ∧ y ≤ 2069) (s : List Char) :
    yearOfCentury.run (Decimal.padded 2 (y % 100).toNat ++ s) = some (y, s) := by
  have hcentury : (if (y % 100).toNat < 70 then 2000 + ((y % 100).toNat : Int)
      else 1900 + ((y % 100).toNat : Int)) = y := by
    split <;> omega
  rw [yearOfCentury, run_bind (run_field (by omega) s), hcentury]
  rfl

/-- A year of four digits reads the same in a mail date. -/
theorem run_mailYear (hy : 0 ≤ y ∧ y ≤ 9999) (hend : Ends Decimal.isDigit s) :
    mailYear.run (yearText y ++ s) = some (y, s) := by
  have hlt : y.natAbs < 10000 := by omega
  have hlength : (Decimal.padded 4 y.natAbs).length = 4 :=
    Decimal.length_padded (Nat.zero_lt_succ 3) hlt
  rw [yearText, if_pos hy, mailYear, run_bind (run_allDigits_padded (by decide) hend),
    hlength, Decimal.value_padded]
  exact congrArg (fun n => some (n, s)) (Int.natAbs_of_nonneg hy.1)

/-- Any other year has a sign, which a mail date has not. -/
theorem run_mailYear_none (hy : ¬ (0 ≤ y ∧ y ≤ 9999)) (s : List Char) :
    mailYear.run (yearText y ++ s) = none := by
  rw [yearText, if_neg hy]
  split <;> rfl

/-! ## The zone -/

theorem ends_text (o : Offset) : Ends isBlank o.text := by
  unfold Offset.text
  split <;> exact .cons rfl _

theorem run_zone (o : Offset) : zone.run o.text = some (o.seconds, []) := by
  have hlt := o.minutes_lt
  have htwo : 0 < 2 := Nat.two_pos
  have hhourslt : o.minutes / 60 < 100 := by omega
  have hminuteslt : o.minutes % 60 < 100 := by omega
  have hhours := run_fixedNumber_padded htwo hhourslt (Decimal.padded 2 (o.minutes % 60))
  have hminutes := run_fixedNumber_padded htwo hminuteslt []
  rw [List.append_nil] at hminutes
  have hrange : o.minutes % 60 < 60 ∧ o.minutes / 60 < 24 := by omega
  have hsum : ((o.minutes / 60 : Nat) : Int) * 3600 + ((o.minutes % 60 : Nat) : Int) * 60
      = o.minutes * 60 := by omega
  rw [zone, run_bind (StateT.run_get _), Offset.text, Offset.seconds]
  cases o.behind with
  | false =>
    rw [if_neg Bool.false_ne_true, if_neg Bool.false_ne_true,
      List.takeWhile_cons_of_neg (by decide)]
    dsimp only
    rw [if_pos List.isEmpty_nil, run_bind (run_first (run_bind (run_char _ _) _) _),
      run_bind hhours, run_bind hminutes, run_bind (run_guard hrange _), hsum, Int.one_mul]
    rfl
  | true =>
    rw [if_pos rfl, if_pos rfl, List.takeWhile_cons_of_neg (by decide)]
    dsimp only
    rw [if_pos List.isEmpty_nil,
      run_bind ((run_second (run_bind_none (run_char_of_ne (by decide) _) _) _).trans
        (run_bind (run_char _ _) _)),
      run_bind hhours, run_bind hminutes, run_bind (run_guard hrange _), hsum, Int.neg_one_mul]
    rfl

end HttpDate

end ResponseCache
