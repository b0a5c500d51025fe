import ResponseCache.Proofs.Text.Trim
import ResponseCache.Proofs.Time.HttpDate.Forms

/-!
# Dates written and read

The fields of a date name the instant that shows them, if the weekday is right (`instant?_stamp`),
and none if it is wrong (`instant?_eq_none`). So a date is read as its fields say, whatever form it
is written in and whatever other forms are tried before (`parse?_preferredText` and the three lemmas
after it). The header date of an instant is read as its whole second, and the four forms of a date
agree.
-/

namespace ResponseCache

open Text

namespace Stamp

/-- A weekday that is not that of the date makes the fields contradict each other. -/
theorem instant?_eq_none {s : Stamp} {w : Weekday} (hs : s.weekday = some w)
    (hw : w ≠ (CivilDate.mk s.year s.month s.day).weekday) : s.instant? = none := by
  have hdiffers : ¬ (s.weekday.all fun w =>
      decide (w = (CivilDate.mk s.year s.month s.day).weekday)) = true := by
    rw [hs]
    simpa using hw
  simp only [instant?, guard, if_neg hdiffers]
  split <;> rfl

end Stamp

namespace Instant

/-- What an instant shows names its whole second, and in a zone that many seconds earlier. -/
theorem instant?_stamp (t : Instant) {v : Option Weekday} (hv : ∀ w ∈ v, w = t.weekday)
    (lead : Int) :
    (t.wallTime.stamp v lead).instant? = of? (t.seconds - lead) t.wholeSecond.nanos := by
  have hexists : (CivilDate.ofDays t.day).Exists := CivilDate.exists_ofDays t.day
  have hdate : CivilDate.mk t.date.year t.date.month t.date.day = CivilDate.ofDays t.day := rfl
  have hweekday : (v.all fun w => decide (w = (CivilDate.ofDays t.day).weekday)) = true := by
    rw [CivilDate.weekday_ofDays]
    cases v with
    | none => rfl
    | some w => exact decide_eq_true (hv w rfl)
  have hnanos : (if t.second = 60 then 1000000000 else 0) = t.wholeSecond.nanos := by
    simp only [t.second_eq_sixty_iff]
    rfl
  have hlocal : of? t.seconds t.wholeSecond.nanos = some t.wholeSecond := t.wholeSecond.of?_self
  have hstamp : t.wallTime.stamp v lead
      = ⟨v, t.date.year, t.date.month, t.date.day, t.hour, t.minute, t.second, lead⟩ := rfl
  rw [hstamp]
  simp only [Stamp.instant?, hdate, CivilDate.toDays_ofDays, guard, hexists, hweekday,
    t.clock_range, and_self, if_true, t.seconds_eq, hnanos, hlocal]
  rfl

/-- What is shown of an instant is shown of its whole second. -/
theorem httpDate_wholeSecond (t : Instant) : t.wholeSecond.httpDate = t.httpDate := by
  have hsecond : t.wholeSecond.second = t.second := by
    rw [second, second, isLeap_wholeSecond]
    rfl
  have htime : t.wholeSecond.timeText = t.timeText := by
    rw [timeText, timeText, hsecond]
    rfl
  rw [httpDate, httpDate, htime]
  rfl

end Instant

namespace HttpDate

variable {before after : List Char} {x : WallTime}

/-! ## Trimmed dates -/

theorem ends_reverse_padded (width n : Nat) (s : List Char) :
    Ends isBlank (s ++ Decimal.padded width n).reverse := by
  rw [List.reverse_append]
  refine Reader.ends_digits (fun c hc => ?_) ?_ _
  · exact Decimal.isDigit_of_mem_padded (List.mem_reverse.1 hc)
  · exact List.reverse_ne_nil_iff.2 (Reader.padded_ne_nil width n)

theorem ends_reverse_yearText (y : Int) (s : List Char) :
    Ends isBlank (s ++ yearText y).reverse := by
  unfold yearText
  split
  · exact ends_reverse_padded 4 _ s
  · rw [← List.singleton_append, ← List.append_assoc]
    exact ends_reverse_padded 4 _ _

theorem ends_reverse_gmt (s : List Char) :
    Ends isBlank (s ++ [' ', 'G', 'M', 'T']).reverse := by
  rw [List.reverse_append]
  exact .cons rfl _

theorem ends_dayTimeText (x : WallTime) (style : MailStyle) (w : Weekday) (s : List Char) :
    Ends isBlank (x.dayTimeText style w ++ s) := by
  simp only [WallTime.dayTimeText, List.append_assoc]
  cases style.named with
  | true =>
    simp only [if_true, List.append_assoc]
    exact ends_short w _
  | false =>
    simp only [Bool.false_eq_true, if_false, List.nil_append]
    exact ends_dayText x style _

theorem trim_preferredText (x : WallTime) (w : Weekday) :
    trim (x.preferredText w) = x.preferredText w :=
  trim_of_ends (ends_dayTimeText x _ w _) (ends_reverse_gmt _)

theorem trim_fullWeekdayText (x : WallTime) (w : Weekday) :
    trim (x.fullWeekdayText w) = x.fullWeekdayText w := by
  obtain ⟨s, heq, -⟩ := exists_fullWeekdayText_eq w x
  exact trim_of_ends (heq ▸ ends_short w s) (ends_reverse_gmt _)

theorem trim_zonelessText (x : WallTime) (w : Weekday) :
    trim (x.zonelessText w) = x.zonelessText w := by
  obtain ⟨s, heq⟩ := exists_zonelessText_eq w x
  exact trim_of_ends (heq ▸ ends_short w _) (ends_reverse_yearText _ _)

theorem trim_mailText (x : WallTime) (style : MailStyle) (w : Weekday) (o : Offset) :
    trim (x.mailText style w o) = x.mailText style w o := by
  refine trim_of_ends (ends_dayTimeText x style w _) ?_
  rw [WallTime.mailText, Offset.text, ← List.cons_append, ← List.cons_append,
    ← List.append_assoc]
  exact ends_reverse_padded 2 _ _

/-! ## Dates read as their fields -/

section Read

variable (hblank : ∀ c ∈ before ++ after, isBlank c = true)

include hblank

/-- Blanks around a trimmed text do not count. -/
theorem parse?_surround {s : List Char} (hs : trim s = s) :
    parse? (before ++ s ++ after)
      = forms.findSome? fun form => (form.all s).bind Stamp.instant? := by
  rw [parse?, trim_surround (fun c hc => hblank c (List.mem_append_left _ hc))
    (fun c hc => hblank c (List.mem_append_right _ hc)), hs]

theorem parse?_preferredText (hx : x.Legible) (w : Weekday) :
    parse? (before ++ x.preferredText w ++ after) = (x.stamp (some w) 0).instant? := by
  rw [parse?_surround hblank (trim_preferredText x w)]
  simp only [forms, List.findSome?_cons, all_preferred hx, all_fullWeekday_preferredText w hx,
    all_zoneless_preferredText, all_mail_preferredText w hx, Option.bind_some, Option.bind_none]
  cases hinstant : (x.stamp (some w) 0).instant? with
  | some t => rfl
  | none =>
    -- what the mail form reads has the same fields
    dsimp only
    split
    · rename_i t hmail
      split at hmail
      · rw [Option.bind_some, hinstant] at hmail
        cases hmail
      · cases hmail
    · rfl

theorem parse?_fullWeekdayText (hx : x.Legible) (hy : 1970 ≤ x.date.year ∧ x.date.year ≤ 2069)
    (w : Weekday) :
    parse? (before ++ x.fullWeekdayText w ++ after) = (x.stamp (some w) 0).instant? := by
  obtain ⟨hpreferred, hzoneless, hmail⟩ := all_fullWeekdayText w x
  rw [parse?_surround hblank (trim_fullWeekdayText x w)]
  simp only [forms, List.findSome?_cons, all_fullWeekday hx w hy, hpreferred, hzoneless, hmail,
    Option.bind_some, Option.bind_none, List.findSome?_nil]
  cases (x.stamp (some w) 0).instant? <;> rfl

theorem parse?_zonelessText (hx : x.Legible) (w : Weekday) :
    parse? (before ++ x.zonelessText w ++ after) = (x.stamp (some w) 0).instant? := by
  obtain ⟨hpreferred, hfullWeekday, hmail⟩ := all_zonelessText w x
  rw [parse?_surround hblank (trim_zonelessText x w)]
  simp only [forms, List.findSome?_cons, all_zoneless hx w, hpreferred, hfullWeekday, hmail,
    Option.bind_some, Option.bind_none, List.findSome?_nil]
  cases (x.stamp (some w) 0).instant? <;> rfl

theorem parse?_mailText (hx : x.Legible) (hy : 0 ≤ x.date.year ∧ x.date.year ≤ 9999)
    (style : MailStyle) (w : Weekday) (o : Offset) :
    parse? (before ++ x.mailText style w o ++ after)
      = (x.stamp (if style.named then some w else none) o.seconds).instant? := by
  obtain ⟨hpreferred, hfullWeekday, hzoneless⟩ := all_mailText w hx style o
  rw [parse?_surround hblank (trim_mailText x style w o)]
  simp only [forms, List.findSome?_cons, all_mail hx w hy, hpreferred, hfullWeekday, hzoneless,
    Option.bind_some, Option.bind_none, List.findSome?_nil]
  cases (x.stamp (if style.named then some w else none) o.seconds).instant? <;> rfl

end Read

/-! ## Instants -/

/-- The preferred form of an instant is read as its whole second, and so it is the same for two
instants exactly if they lie in the same second, a leap second being one of its own. -/
theorem httpDate_round_trip (t u : Instant) :
    parse? t.httpDate = some t.wholeSecond ∧ t.wholeSecond.isLeap = t.isLeap
      ∧ t.wholeSecond.httpDate = t.httpDate
      ∧ (t.httpDate = u.httpDate ↔ t.wholeSecond = u.wholeSecond)
      ∧ (t.wholeSecond = t ↔ t.subsecond = 0) := by
  have hparse : ∀ t : Instant, parse? t.httpDate = some t.wholeSecond := by
    intro t
    have hblank : ∀ c ∈ [] ++ [], isBlank c = true := List.forall_mem_nil _
    have hread := parse?_preferredText hblank t.legible_wallTime t.weekday
    rw [List.nil_append, List.append_nil, t.instant?_stamp (fun w hw => (Option.some.inj hw).symm),
      Int.sub_zero] at hread
    rw [Instant.httpDate_eq, hread]
    exact t.wholeSecond.of?_self
  refine ⟨hparse t, t.isLeap_wholeSecond, t.httpDate_wholeSecond, ⟨fun h => ?_, fun h => ?_⟩,
    ⟨fun h => ?_, Instant.wholeSecond_of_subsecond⟩⟩
  · have hu := hparse u
    rw [← h, hparse t] at hu
    exact Option.some.inj hu
  · rw [← t.httpDate_wholeSecond, h, u.httpDate_wholeSecond]
  · rw [← h, Instant.subsecond, Instant.wholeSecond]
    dsimp only
    split <;> rfl

end HttpDate

theorem Offset.seconds_range (o : Offset) : -86400 < o.seconds ∧ o.seconds < 86400 := by
  have hlt := o.minutes_lt
  unfold Offset.seconds
  split <;> omega

namespace Instant

variable {t u : Instant}

theorem isLeap_of_whole (h : t.nanos = 0) : t.isLeap = false := by
  rw [isLeap, h]
  rfl

theorem weekday_wallTime (t : Instant) : t.wallTime.date.weekday = t.weekday :=
  CivilDate.weekday_ofDays _

/-- The local time of an instant in the years in which a year of two digits is read, as an instant
in universal time: it can be shown and has a year of four digits. -/
theorem exists_local (hyear : 1970 ≤ t.date.year ∧ t.date.year ≤ 2069) (o : Offset) :
    ∃ u : Instant, u.seconds = t.seconds + o.seconds ∧ u.nanos = 0
      ∧ 0 ≤ u.date.year ∧ u.date.year ≤ 9999 := by
  obtain ⟨hge, hlt⟩ := CivilDate.year_ofDays_spec t.day
  have hoffset := o.seconds_range
  have hday : -1000 ≤ t.day ∧ t.day ≤ 40000 := by
    unfold date at hyear
    unfold CivilDate.daysToYear at hge hlt
    omega
  unfold day at hday
  refine ⟨⟨t.seconds + o.seconds, 0, by omega, by omega, by decide, fun h => nomatch h⟩,
    rfl, rfl, ?_⟩
  obtain ⟨hge', hlt'⟩ := CivilDate.year_ofDays_spec ((t.seconds + o.seconds) / 86400)
  unfold CivilDate.daysToYear at hge' hlt'
  unfold date day
  dsimp only
  omega

/-- What is shown in local time names the instant, if the zone is given too. -/
theorem instant?_local (ht : t.nanos = 0) (hu : u.nanos = 0) {lead : Int}
    (h : u.seconds = t.seconds + lead) {v : Option Weekday} (hv : ∀ w ∈ v, w = u.weekday) :
    (u.wallTime.stamp v lead).instant? = some t := by
  have hseconds : u.seconds - lead = t.seconds := by omega
  have hnanos : u.wholeSecond.nanos = t.nanos := by
    rw [wholeSecond_of_subsecond (by rw [subsecond, hu]), hu, ht]
  rw [u.instant?_stamp hv, hseconds, hnanos, t.of?_self]

end Instant

namespace HttpDate

/-- The four forms of a date agree. An instant of whole seconds in the years for which two digits of
a year are enough is read from its preferred form, its form with a full weekday, its form without a
zone and its mail form in any numeric zone, in all of them with any blanks around. No form reads a
date that is written in a form tried after it. And in the three forms of HTTP a date is refused
whose weekday is wrong. -/
theorem forms_agree :
    (∀ (t : Instant) (before after : List Char), t.nanos = 0 →
        1970 ≤ t.date.year ∧ t.date.year ≤ 2069 → (∀ c ∈ before ++ after, isBlank c = true) →
      let x := WallTime.ofSeconds t.seconds
      parse? (before ++ t.httpDate ++ after) = some t
        ∧ parse? (before ++ x.fullWeekdayText x.date.weekday ++ after) = some t
        ∧ parse? (before ++ x.zonelessText x.date.weekday ++ after) = some t
        ∧ ∀ (o : Offset) (style : MailStyle),
          let y := WallTime.ofSeconds (t.seconds + o.seconds)
          parse? (before ++ y.mailText style y.date.weekday o ++ after) = some t)
      ∧ (∀ (x : WallTime) (w : Weekday), x.Legible →
        (∀ form ∈ forms.take 1, form.all (x.fullWeekdayText w) = none)
          ∧ (∀ form ∈ forms.take 2, form.all (x.zonelessText w) = none)
          ∧ ∀ (o : Offset) (style : MailStyle), ∀ form ∈ forms.take 3,
            form.all (x.mailText style w o) = none)
      ∧ ∀ (x : WallTime) (w : Weekday) (before after : List Char), x.Legible →
        w ≠ x.date.weekday → (∀ c ∈ before ++ after, isBlank c = true) →
        parse? (before ++ x.preferredText w ++ after) = none
          ∧ (1970 ≤ x.date.year ∧ x.date.year ≤ 2069 →
            parse? (before ++ x.fullWeekdayText w ++ after) = none)
          ∧ parse? (before ++ x.zonelessText w ++ after) = none := by
  refine ⟨?_, ?_, ?_⟩
  · intro t before after hwhole hyear hblank
    have hx : WallTime.ofSeconds t.seconds = t.wallTime :=
      (Instant.wallTime_eq_ofSeconds (Instant.isLeap_of_whole hwhole)).symm
    have hinstant : (t.wallTime.stamp (some t.weekday) 0).instant? = some t :=
      Instant.instant?_local hwhole hwhole (Int.add_zero _).symm
        fun w hw => (Option.some.inj hw).symm
    dsimp only
    rw [hx, t.weekday_wallTime]
    refine ⟨?_, ?_, ?_, ?_⟩
    · rw [t.httpDate_eq, parse?_preferredText hblank t.legible_wallTime, hinstant]
    · rw [parse?_fullWeekdayText hblank t.legible_wallTime hyear, hinstant]
    · rw [parse?_zonelessText hblank t.legible_wallTime, hinstant]
    · intro o style
      obtain ⟨u, hseconds, hu, hfour⟩ := Instant.exists_local hyear o
      have hy : WallTime.ofSeconds (t.seconds + o.seconds) = u.wallTime := by
        rw [← hseconds, Instant.wallTime_eq_ofSeconds (Instant.isLeap_of_whole hu)]
      rw [hy, u.weekday_wallTime, parse?_mailText hblank u.legible_wallTime hfour]
      refine Instant.instant?_local hwhole hu hseconds fun w hw => ?_
      split at hw
      · exact (Option.some.inj hw).symm
      · cases hw
  · intro x w hx
    obtain ⟨hpreferred, -, -⟩ := all_fullWeekdayText w x
    obtain ⟨hpreferred', hfullWeekday, -⟩ := all_zonelessText w x
    refine ⟨?_, ?_, fun o style => ?_⟩
    · simpa [forms] using hpreferred
    · simpa [forms] using ⟨hpreferred', hfullWeekday⟩
    · simpa [forms] using all_mailText w hx style o
  · intro x w before after hx hwrong hblank
    have hnone : (x.stamp (some w) 0).instant? = none := Stamp.instant?_eq_none rfl hwrong
    refine ⟨?_, fun hyear => ?_, ?_⟩
    · rw [parse?_preferredText hblank hx, hnone]
    · rw [parse?_fullWeekdayText hblank hx hyear, hnone]
    · rw [parse?_zonelessText hblank hx, hnone]

end HttpDate

namespace Sample

/-- 1994-11-06T08:49:37Z, a Sunday. -/
def november : Instant :=
  ⟨784111777, 0, by decide, by decide, Instant.epoch.nanos_lt, fun h => nomatch h⟩

/-- Eight hours behind universal time. -/
def pacific : Offset := ⟨true, 480, by decide⟩

end Sample

namespace HttpDate

open Sample

/-- One Sunday in all four forms, and in one of them as a Monday. -/
theorem forms_agree_november :
    parse? " Sun, 06 Nov 1994 08:49:37 GMT".toList = some november
      ∧ parse? " Sunday, 06-Nov-94 08:49:37 GMT".toList = some november
      ∧ parse? " Sun Nov  6 08:49:37 1994".toList = some november
      ∧ parse? " Sun, 6 Nov 1994 00:49:37 -0800".toList = some november
      ∧ preferred.all "Sunday, 06-Nov-94 08:49:37 GMT".toList = none
      ∧ parse? " Mon Nov  6 08:49:37 1994".toList = none := by
  let x := WallTime.ofSeconds november.seconds
  let y := WallTime.ofSeconds (november.seconds + pacific.seconds)
  have hblank : ∀ c ∈ [' '] ++ [], isBlank c = true := List.forall_mem_singleton.2 rfl
  have hlegible : x.Legible := by
    refine ⟨?_, ?_, ?_, ?_, ?_⟩ <;> decide +kernel
  have hpreferred : " Sun, 06 Nov 1994 08:49:37 GMT".toList
      = [' '] ++ november.httpDate ++ [] := by decide +kernel
  have hfull : "Sunday, 06-Nov-94 08:49:37 GMT".toList = x.fullWeekdayText .sunday := by
    decide +kernel
  have hspaced : " Sunday, 06-Nov-94 08:49:37 GMT".toList
      = [' '] ++ x.fullWeekdayText x.date.weekday ++ [] := by decide +kernel
  have hzoneless : " Sun Nov  6 08:49:37 1994".toList
      = [' '] ++ x.zonelessText x.date.weekday ++ [] := by decide +kernel
  have hmail : " Sun, 6 Nov 1994 00:49:37 -0800".toList
      = [' '] ++ y.mailText ⟨true, false⟩ y.date.weekday pacific ++ [] := by decide +kernel
  have hmonday : " Mon Nov  6 08:49:37 1994".toList
      = [' '] ++ x.zonelessText .monday ++ [] := by decide +kernel
  obtain ⟨hread, hread', hread'', hlocal⟩ :=
    forms_agree.1 november [' '] [] rfl (by decide +kernel) hblank
  have hnone := (forms_agree.2.1 x .sunday hlegible).1 preferred List.mem_cons_self
  have hwrong := forms_agree.2.2 x .monday [' '] [] hlegible (by decide +kernel) hblank
  rw [hpreferred, hfull, hspaced, hzoneless, hmail, hmonday]
  exact ⟨hread, hread', hread'', hlocal pacific ⟨true, false⟩, hnone, hwrong.2.2⟩

end HttpDate

end ResponseCache
