import ResponseCache.Proofs.Time.HttpDate.Written

/-!
# The forms of a date

Each form reads a date that is written in it, and reads what the date shows (`all_preferred`,
`all_fullWeekday`, `all_zoneless`, `all_mail`). No form reads a date that is written in a form tried
after it, and of the later ones only the mail form reads a date of an earlier form: the preferred
one, whose zone is a name that mail dates know, and there it reads the same fields
(`all_mail_preferredText`).

The preferred form and the mail form have day and time in common, so for both the reading of a date
comes down to the reading of what is behind the time (`preferred_dayTime`, `mail_dayTime`).
-/

namespace ResponseCache.HttpDate

open Text Text.Reader

variable {s : List Char} {x : WallTime} {style : MailStyle}

/-! ## Day and time of a mail date -/

/-- The preferred form needs the weekday, and then `GMT`. -/
theorem preferred_dayTime (hx : x.Legible) (style : MailStyle) (w : Weekday) (s : List Char) :
    preferred.run (x.dayTimeText style w ++ s)
      = if style.named then (do greenwich; return x.stamp (some w) 0 : Reader Stamp).run s
        else none := by
  simp only [WallTime.dayTimeText, List.append_assoc, List.cons_append, List.nil_append]
  rw [preferred]
  cases style.named with
  | true =>
    simp only [if_true, List.append_assoc, List.cons_append, List.nil_append]
    rw [run_bind (run_shortWeekday w _), run_bind (run_char _ _),
      run_bind (run_blanks_blank (ends_dayText x style _)),
      run_bind (run_field_dayText hx style _),
      run_bind (run_blanks_blank (ends_monthName hx.month _)), run_bind (run_month hx.month _),
      run_bind (run_blanks_blank (ends_yearText _ _)),
      run_bind (run_year (.cons rfl _)),
      run_bind (run_blanks_blank (ends_timeText _ _)), run_bind (run_time hx _)]
    rfl
  | false =>
    simp only [Bool.false_eq_true, if_false, List.nil_append]
    rw [run_bind_none (run_shortWeekday_dayText x style _)]

/-- The mail form needs a year of four digits, and then a zone. -/
theorem mail_dayTime (hx : x.Legible) (style : MailStyle) (w : Weekday) (hs : Ends isBlank s) :
    mail.run (x.dayTimeText style w ++ ' ' :: s)
      = if 0 ≤ x.date.year ∧ x.date.year ≤ 9999 then
          (do
            let z ← zone
            let rest ← get
            guard (onlyComments none rest)
            set ([] : List Char)
            return x.stamp (if style.named then some w else none) z : Reader Stamp).run s
        else none := by
  have hcolon : ∀ s, (do blanks; char ':'; pure true : Reader Bool).run (':' :: s)
      = some (true, s) := by
    intro s
    rw [run_bind (run_blanks_of_ends (.cons rfl _)), run_bind (run_char _ _)]
    rfl
  simp only [WallTime.dayTimeText, WallTime.timeText, List.append_assoc, List.cons_append,
    List.nil_append]
  rw [mail]
  cases style.named
  case' true =>
    simp only [if_true, List.append_assoc, List.cons_append, List.nil_append]
    rw [run_bind (run_blanks_of_ends (ends_short w _)),
      run_bind (run_first (run_map (run_shortWeekday w _) _) _), if_pos Option.isSome_some,
      run_bind (run_char _ _), run_bind (run_blanks_blank (ends_dayText x style _))]
  case' false =>
    simp only [Bool.false_eq_true, if_false, List.nil_append]
    rw [run_bind (run_blanks_of_ends (ends_dayText x style _)),
      run_bind ((run_second (run_map_none (run_shortWeekday_dayText x style _) _) _).trans
        (StateT.run_pure _ _)),
      if_neg (by decide), run_bind (run_blanks_of_ends (ends_dayText x style _))]
  -- from the day of the month on the two go the same way
  all_goals
    rw [run_bind (run_dayText hx style _),
      run_bind (run_someBlanks_blank (ends_monthName hx.month _)),
      run_bind (run_month hx.month _), run_bind (run_someBlanks_blank (ends_yearText _ _))]
    split
    · rename_i hy
      rw [run_bind (run_mailYear hy (.cons rfl _)),
        run_bind (run_someBlanks_blank (ends_padded _ _ _)),
        run_bind (run_fixedNumber_padded (by decide) hx.hour _),
        run_bind (run_blanks_of_ends (.cons rfl _)), run_bind (run_char _ _),
        run_bind (run_blanks_of_ends (ends_padded _ _ _)),
        run_bind (run_fixedNumber_padded (by decide) hx.minute _),
        run_bind (run_first (hcolon _) _), if_pos rfl,
        run_bind (run_fixedNumber_padded (by decide) hx.second _),
        run_bind (run_someBlanks_blank hs)]
      rfl
    · rename_i hy
      rw [run_bind_none (run_mailYear_none hy _)]

theorem fullWeekday_dayTime (hx : x.Legible) (style : MailStyle) (w : Weekday) (s : List Char) :
    fullWeekday.run (x.dayTimeText style w ++ s) = none := by
  have hweekday : ∀ s, weekday.run (w.short ++ ',' :: s) = some (w, ',' :: s) := by
    intro s
    cases w <;> rfl
  simp only [WallTime.dayTimeText, List.append_assoc, List.cons_append, List.nil_append]
  rw [fullWeekday]
  cases style.named with
  | true =>
    simp only [if_true, List.append_assoc, List.cons_append, List.nil_append]
    rw [run_bind (hweekday _), run_bind (run_char _ _),
      run_bind (run_blanks_blank (ends_dayText x style _)),
      run_bind (run_field_dayText hx style _), run_bind_none (run_char_of_ne (by decide) _)]
  | false =>
    simp only [Bool.false_eq_true, if_false, List.nil_append]
    rw [weekday, run_bind_none (run_bind_none (run_shortWeekday_dayText x style _) _)]

/-! ## A short weekday before something else -/

section Short

variable (w : Weekday)

theorem preferred_short (h : (char ',').run s = none) : preferred.run (w.short ++ s) = none := by
  rw [preferred, run_bind (run_shortWeekday w _), run_bind_none h]

theorem mail_short (h : (char ',').run s = none) : mail.run (w.short ++ s) = none := by
  rw [mail, run_bind (run_blanks_of_ends (ends_short w _)),
    run_bind (run_first (run_map (run_shortWeekday w _) _) _), if_pos Option.isSome_some,
    run_bind_none h]

theorem zoneless_short (hs : Ends isBlank s) (h : month.run s = none) :
    zoneless.run (w.short ++ s) = none := by
  rw [zoneless, run_bind (run_shortWeekday w _), run_bind (run_blanks_of_ends hs),
    run_bind_none h]

/-- The rest of a full weekday is neither a comma nor a month. -/
theorem exists_fullWeekdayText_eq (x : WallTime) :
    ∃ s, x.fullWeekdayText w = w.short ++ s ∧ (char ',').run s = none ∧ Ends isBlank s
      ∧ month.run s = none := by
  have hname : w.name.toList = w.short ++ w.shortRest := (List.take_append_drop 3 _).symm
  simp only [WallTime.fullWeekdayText, hname, List.append_assoc]
  refine ⟨_, rfl, ?_⟩
  cases w <;> exact ⟨rfl, .cons rfl _, rfl⟩

theorem exists_zonelessText_eq (x : WallTime) : ∃ s, x.zonelessText w = w.short ++ ' ' :: s := by
  simp only [WallTime.zonelessText, List.append_assoc, List.cons_append, List.nil_append]
  exact ⟨_, rfl⟩

end Short

theorem zoneless_dayTime (x : WallTime) (style : MailStyle) (w : Weekday) (s : List Char) :
    zoneless.run (x.dayTimeText style w ++ s) = none := by
  simp only [WallTime.dayTimeText, List.append_assoc, List.cons_append, List.nil_append]
  cases style.named with
  | true =>
    simp only [if_true, List.append_assoc, List.cons_append, List.nil_append]
    exact zoneless_short w (.cons rfl _) rfl
  | false =>
    simp only [Bool.false_eq_true, if_false, List.nil_append]
    rw [zoneless, run_bind_none (run_shortWeekday_dayText x style _)]

/-! ## Dates in their own form -/

section Own

variable (hx : x.Legible) (w : Weekday)

include hx

theorem all_preferred : preferred.all (x.preferredText w) = some (x.stamp (some w) 0) :=
  all_of_run ((preferred_dayTime hx ⟨true, true⟩ w _).trans rfl)

theorem all_fullWeekday (hy : 1970 ≤ x.date.year ∧ x.date.year ≤ 2069) :
    fullWeekday.all (x.fullWeekdayText w) = some (x.stamp (some w) 0) := by
  refine all_of_run ?_
  simp only [WallTime.fullWeekdayText, List.append_assoc, List.cons_append, List.nil_append]
  rw [fullWeekday, run_bind (run_weekday w _), run_bind (run_char _ _),
    run_bind (run_blanks_blank (ends_padded _ _ _)), run_bind (run_field hx.day _),
    run_bind (run_char _ _), run_bind (run_month hx.month _), run_bind (run_char _ _),
    run_bind (run_yearOfCentury hy _), run_bind (run_blanks_blank (ends_timeText _ _)),
    run_bind (run_time hx _)]
  rfl

theorem all_zoneless : zoneless.all (x.zonelessText w) = some (x.stamp (some w) 0) := by
  have hfield : ∀ s, field.run (Decimal.digits x.date.day ++ ' ' :: s)
      = some (x.date.day, ' ' :: s) := run_field_dayText hx ⟨true, false⟩
  have hyear := run_year (y := x.date.year) (s := []) .nil
  have hend := ends_yearText x.date.year []
  rw [List.append_nil] at hyear hend
  refine all_of_run ?_
  simp only [WallTime.zonelessText, List.append_assoc, List.cons_append, List.nil_append]
  rw [zoneless, run_bind (run_shortWeekday w _),
    run_bind (run_blanks_blank (ends_monthName hx.month _)), run_bind (run_month hx.month _),
    run_bind (run_blanks_leftpad _ _), run_bind (hfield _),
    run_bind (run_blanks_blank (ends_timeText _ _)), run_bind (run_time hx _),
    run_bind (run_blanks_blank hend), run_bind hyear]
  rfl

theorem all_mail (hy : 0 ≤ x.date.year ∧ x.date.year ≤ 9999) (style : MailStyle) (o : Offset) :
    mail.all (x.mailText style w o)
      = some (x.stamp (if style.named then some w else none) o.seconds) := by
  refine all_of_run ((mail_dayTime hx style w (ends_text o)).trans ?_)
  rw [if_pos hy, run_bind (run_zone o)]
  rfl

end Own

/-! ## Dates in another form -/

section Other

variable (w : Weekday)

/-- In the mail form a preferred date reads the same, if its year has four digits. -/
theorem all_mail_preferredText (hx : x.Legible) :
    mail.all (x.preferredText w)
      = if 0 ≤ x.date.year ∧ x.date.year ≤ 9999 then some (x.stamp (some w) 0) else none := by
  have hrun := mail_dayTime hx ⟨true, true⟩ w (s := ['G', 'M', 'T']) (.cons rfl _)
  split
  · rename_i hy
    rw [if_pos hy] at hrun
    exact all_of_run (hrun.trans rfl)
  · rename_i hy
    rw [if_neg hy] at hrun
    exact all_of_run_none hrun

theorem all_fullWeekday_preferredText (hx : x.Legible) :
    fullWeekday.all (x.preferredText w) = none :=
  all_of_run_none (fullWeekday_dayTime hx _ w _)

theorem all_zoneless_preferredText (x : WallTime) : zoneless.all (x.preferredText w) = none :=
  all_of_run_none (zoneless_dayTime x _ w _)

/-- No other form reads a date with a full weekday. -/
theorem all_fullWeekdayText (x : WallTime) :
    preferred.all (x.fullWeekdayText w) = none ∧ zoneless.all (x.fullWeekdayText w) = none
      ∧ mail.all (x.fullWeekdayText w) = none := by
  obtain ⟨s, heq, hcomma, hs, hmonth⟩ := exists_fullWeekdayText_eq w x
  rw [heq]
  exact ⟨all_of_run_none (preferred_short w hcomma),
    all_of_run_none (zoneless_short w hs hmonth), all_of_run_none (mail_short w hcomma)⟩

/-- No other form reads a date without a zone. -/
theorem all_zonelessText (x : WallTime) :
    preferred.all (x.zonelessText w) = none ∧ fullWeekday.all (x.zonelessText w) = none
      ∧ mail.all (x.zonelessText w) = none := by
  obtain ⟨s, heq⟩ := exists_zonelessText_eq w x
  have hweekday : weekday.run (w.short ++ ' ' :: s) = some (w, ' ' :: s) := by
    cases w <;> rfl
  have hcomma : (char ',').run (' ' :: s) = none := run_char_of_ne (by decide) s
  rw [heq]
  refine ⟨all_of_run_none (preferred_short w hcomma), all_of_run_none ?_,
    all_of_run_none (mail_short w hcomma)⟩
  rw [fullWeekday, run_bind hweekday, run_bind_none hcomma]

/-- No other form reads a mail date with a numeric zone. -/
theorem all_mailText (hx : x.Legible) (style : MailStyle) (o : Offset) :
    preferred.all (x.mailText style w o) = none ∧ fullWeekday.all (x.mailText style w o) = none
      ∧ zoneless.all (x.mailText style w o) = none := by
  have hgreenwich : greenwich.run (' ' :: o.text) = none := by
    unfold Offset.text
    split <;> rfl
  refine ⟨all_of_run_none ?_, all_of_run_none (fullWeekday_dayTime hx style w _),
    all_of_run_none (zoneless_dayTime x style w _)⟩
  rw [WallTime.mailText, preferred_dayTime hx, run_bind_none hgreenwich, ite_self]

end Other

end ResponseCache.HttpDate
