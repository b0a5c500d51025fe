import ResponseCache.Proofs.Decimal.Natural
import ResponseCache.Text.Reader

/-!
# What readers take

A reader that finds what it is meant for at the start of a text takes exactly that and leaves the
rest. Blanks and digits are taken as long as they last, so for them the rest must not go on with
more of the kind (`Ends`).
-/

namespace ResponseCache.Text

/-- The text does not go on with a character of the kind `p`. -/
def Ends (p : Char → Bool) (s : List Char) : Prop :=
  ∀ c ∈ s.head?, p c = false

variable {p : Char → Bool} {c d : Char} {s ds : List Char}

theorem Ends.nil : Ends p [] :=
  fun _ h => nomatch h

theorem Ends.cons (h : p c = false) (s : List Char) : Ends p (c :: s) := by
  intro d hd
  obtain rfl : c = d := Option.some.inj hd
  exact h

/-- A run of characters is taken up to where the text behind it starts. -/
theorem Ends.takeWhile_append (h : Ends p s) (hds : ∀ c ∈ ds, p c = true) :
    (ds ++ s).takeWhile p = ds := by
  have hnone : s.takeWhile p = [] := by
    cases s with
    | nil => rfl
    | cons c s => exact List.takeWhile_cons_of_neg (Bool.not_eq_true _ ▸ h c rfl)
  rw [List.takeWhile_append_of_pos hds, hnone, List.append_nil]

theorem Ends.dropWhile_append (h : Ends p s) (hds : ∀ c ∈ ds, p c = true) :
    (ds ++ s).dropWhile p = s := by
  rw [List.dropWhile_append_of_pos hds]
  cases s with
  | nil => rfl
  | cons c s => exact List.dropWhile_cons_of_neg (Bool.not_eq_true _ ▸ h c rfl)

theorem trimStart_of_ends (h : Ends isBlank s) : trimStart s = s := by
  have hnone : ∀ c ∈ [], isBlank c = true := List.forall_mem_nil _
  exact h.dropWhile_append hnone

theorem isBlank_of_isDigit (h : Decimal.isDigit c = true) : isBlank c = false := by
  have hbounds : 48 ≤ c.toNat ∧ c.toNat ≤ 57 := by
    simpa [Decimal.isDigit, Char.le_def, UInt32.le_iff_toNat_le] using h
  simp only [isBlank, Bool.or_eq_false_iff, Bool.and_eq_false_iff, decide_eq_false_iff_not,
    beq_eq_false_iff_ne]
  omega

/-- A text that neither begins nor ends with a blank is trimmed. -/
theorem trim_of_ends (hs : Ends isBlank s) (hreverse : Ends isBlank s.reverse) : trim s = s := by
  have hend : s.reverse.dropWhile isBlank = s.reverse := trimStart_of_ends hreverse
  rw [trim, trimStart_of_ends hs, trimEnd, hend, List.reverse_reverse]

namespace Reader

variable {α β : Type} {r : Reader α} {a : α} {t : List Char} {n least most width : Nat}

/-! ## One reader after another -/

/-- A reader goes on from where the first one stopped. -/
theorem run_bind (h : r.run s = some (a, t)) (f : α → Reader β) :
    (r >>= f).run s = (f a).run t := by
  rw [StateT.run_bind, h]
  rfl

theorem run_bind_none (h : r.run s = none) (f : α → Reader β) : (r >>= f).run s = none := by
  rw [StateT.run_bind, h]
  rfl

/-- Of two readers the first one counts if it succeeds. -/
theorem run_first (h : r.run s = some (a, t)) (q : Reader α) : (r <|> q).run s = some (a, t) := by
  rw [StateT.run_orElse, h]
  rfl

/-- Where the first reader fails, the second one starts from the same text. -/
theorem run_second (h : r.run s = none) (q : Reader α) : (r <|> q).run s = q.run s := by
  rw [StateT.run_orElse, h]
  rfl

/-- A text is read as a whole if nothing is left of it. -/
theorem all_of_run (h : r.run s = some (a, [])) : r.all s = some a := by
  rw [all, h]
  rfl

theorem all_of_run_none (h : r.run s = none) : r.all s = none := by
  rw [all, h]
  rfl

theorem run_map (h : r.run s = some (a, t)) (f : α → β) : (f <$> r).run s = some (f a, t) := by
  rw [StateT.run_map, h]
  rfl

theorem run_map_none (h : r.run s = none) (f : α → β) : (f <$> r).run s = none := by
  rw [StateT.run_map, h]
  rfl

theorem run_guard {q : Prop} [Decidable q] (h : q) (s : List Char) :
    (guard q : Reader Unit).run s = some ((), s) := by
  rw [guard, if_pos h]
  rfl

/-! ## Blanks and characters -/

theorem run_blanks (s : List Char) : blanks.run s = some ((), trimStart s) :=
  rfl

theorem run_blanks_of_ends (h : Ends isBlank s) : blanks.run s = some ((), s) := by
  rw [run_blanks, trimStart_of_ends h]

/-- One blank, as in a written date. -/
theorem run_blanks_blank (h : Ends isBlank s) : blanks.run (' ' :: s) = some ((), s) := by
  have htrim : trimStart (' ' :: s) = trimStart s := List.dropWhile_cons_of_pos (by decide)
  rw [run_blanks, htrim, trimStart_of_ends h]

theorem run_someBlanks_blank (h : Ends isBlank s) : someBlanks.run (' ' :: s) = some ((), s) := by
  have hblank : (' ' :: s).head?.any isBlank = true := rfl
  have htrim : trimStart (' ' :: s) = trimStart s := List.dropWhile_cons_of_pos (by decide)
  rw [someBlanks, run_bind (StateT.run_get _), run_bind (run_guard hblank _), htrim,
    trimStart_of_ends h]
  rfl

theorem run_char (c : Char) (s : List Char) : (char c).run (c :: s) = some ((), s) := by
  rw [char, run_bind (StateT.run_get _)]
  dsimp only
  rw [if_pos rfl]
  rfl

theorem run_char_of_ne (h : d ≠ c) (s : List Char) : (char c).run (d :: s) = none := by
  rw [char, run_bind (StateT.run_get _)]
  dsimp only
  rw [if_neg h]
  rfl

/-! ## Numbers -/

section Numbers

variable (hds : ∀ c ∈ ds, Decimal.isDigit c = true)

include hds

/-- Digits are neither blanks nor other characters. -/
theorem ends_digits (hne : ds ≠ []) (s : List Char) : Ends isBlank (ds ++ s) := by
  cases ds with
  | nil => exact absurd rfl hne
  | cons c ds => exact .cons (isBlank_of_isDigit (hds c List.mem_cons_self)) _

theorem run_char_digits (hc : Decimal.isDigit c = false) (hne : ds ≠ []) (s : List Char) :
    (char c).run (ds ++ s) = none := by
  cases ds with
  | nil => exact absurd rfl hne
  | cons d ds =>
    refine run_char_of_ne ?_ _
    rintro rfl
    rw [hds d List.mem_cons_self] at hc
    cases hc

/-- Digits are read up to the greatest number of them or to the first character that is none. -/
theorem run_digitsUpTo (hleast : least ≤ ds.length) (hmost : ds.length ≤ most)
    (hend : ds.length = most ∨ Ends Decimal.isDigit s) :
    (digitsUpTo least most).run (ds ++ s) = some (ds, s) := by
  have htake : ((ds ++ s).takeWhile Decimal.isDigit).take most = ds := by
    rcases hend with rfl | hend
    · rw [List.takeWhile_append_of_pos hds, List.take_left]
    · rw [hend.takeWhile_append hds, List.take_of_length_le hmost]
  rw [digitsUpTo, run_bind (StateT.run_get _), htake, run_bind (run_guard hleast _), List.drop_left]
  rfl

theorem run_allDigits (hleast : least ≤ ds.length) (hend : Ends Decimal.isDigit s) :
    (allDigits least).run (ds ++ s) = some (ds, s) := by
  rw [allDigits, run_bind (StateT.run_get _), hend.takeWhile_append hds,
    hend.dropWhile_append hds, run_bind (run_guard hleast _)]
  rfl

end Numbers

theorem padded_ne_nil (width n : Nat) : Decimal.padded width n ≠ [] :=
  List.append_ne_nil_of_right_ne_nil _ Nat.toDigits_ne_nil

theorem ends_padded (width n : Nat) (s : List Char) :
    Ends isBlank (Decimal.padded width n ++ s) :=
  ends_digits (fun _ => Decimal.isDigit_of_mem_padded) (padded_ne_nil width n) s

/-- A padded number is read as the digits that it is written with. -/
theorem run_allDigits_padded (hleast : least ≤ width) (hend : Ends Decimal.isDigit s) :
    (allDigits least).run (Decimal.padded width n ++ s) = some (Decimal.padded width n, s) := by
  refine run_allDigits (fun _ => Decimal.isDigit_of_mem_padded) ?_ hend
  rw [Decimal.padded, List.length_leftpad]
  exact Nat.le_trans hleast (Nat.le_max_left _ _)

/-- A number that fills its width is taken whatever comes behind it. -/
theorem run_digitsUpTo_padded (hwidth : 0 < width) (h : n < Nat.pow 10 width)
    (hleast : least ≤ width) (s : List Char) :
    (digitsUpTo least width).run (Decimal.padded width n ++ s)
      = some (Decimal.padded width n, s) := by
  have hlength := Decimal.length_padded hwidth h
  refine run_digitsUpTo (fun _ => Decimal.isDigit_of_mem_padded) ?_ ?_ (.inl hlength)
  · exact Nat.le_trans hleast (Nat.le_of_eq hlength.symm)
  · exact Nat.le_of_eq hlength

/-- A number reads back from its padded form, if this has a digit at all. -/
theorem run_number_padded (hwidth : 0 < width) (h : n < Nat.pow 10 width) (s : List Char) :
    (number width).run (Decimal.padded width n ++ s) = some (n, s) := by
  rw [number, run_map (run_digitsUpTo_padded hwidth h hwidth s), Decimal.value_padded]

theorem run_fixedNumber_padded (hwidth : 0 < width) (h : n < Nat.pow 10 width) (s : List Char) :
    (fixedNumber width).run (Decimal.padded width n ++ s) = some (n, s) := by
  rw [fixedNumber, run_map (run_digitsUpTo_padded hwidth h (Nat.le_refl width) s),
    Decimal.value_padded]

/-- A number reads back from its shortest form, if it is no longer than the reader takes. -/
theorem run_number_digits (hwidth : 0 < width) (h : n < Nat.pow 10 width)
    (hend : Ends Decimal.isDigit s) :
    (number width).run (Decimal.digits n ++ s) = some (n, s) := by
  have hdigits : (digitsUpTo 1 width).run (Decimal.digits n ++ s) = some (Decimal.digits n, s) :=
    run_digitsUpTo (fun _ => Decimal.isDigit_of_mem_digits) Nat.length_toDigits_pos
      (Decimal.length_digits_le hwidth h) (.inr hend)
  rw [number, run_map hdigits, Decimal.value_digits]

end Reader

end ResponseCache.Text
