import Mathlib.Data.List.Induction
import ResponseCache.Decimal.Natural

/-!
# Decimal numbers read

The digits of a number are read back as that number (`value?_digits`), with zeros in front of them
too, and nothing else is read as a number (`value?_eq_some_iff_writes`). What the two readers accept
is said of the characters: one or more digits (`value?_eq_some_iff`), and for a bounded number
perhaps a plus sign in front of them (`valueUpTo?_eq_some_iff`).
-/

namespace ResponseCache.Decimal

variable {s : List Char} {n limit : Nat}

theorem isDigit_of_mem_digits {n : Nat} {c : Char} (h : c ∈ digits n) : isDigit c = true := by
  have hc := Nat.isDigit_of_mem_toDigits (by decide) (by decide) h
  simp only [Char.isDigit, ge_iff_le, Bool.and_eq_true, decide_eq_true_eq] at hc
  simp only [isDigit, Bool.and_eq_true, decide_eq_true_eq]
  exact hc

theorem value?_digits (n : Nat) : value? (digits n) = some n := by
  have hne : (digits n).isEmpty = false := by
    rw [List.isEmpty_eq_false_iff]
    exact Nat.toDigits_ne_nil
  have hall : (digits n).all isDigit = true :=
    List.all_eq_true.2 fun _ hc => isDigit_of_mem_digits hc
  rw [value?, hne, hall]
  exact congrArg some Nat.ofDigitChars_ten_toDigits

theorem length_digits_eq_three {n : Nat} (hge : 100 ≤ n) (hlt : n < 1000) :
    (digits n).length = 3 := by
  have h3 := (Nat.length_toDigits_le_iff (b := 10) (n := n) (k := 3) (by decide) (by decide)).2 hlt
  have h2 : ¬ (digits n).length ≤ 2 := fun h => by
    have := (Nat.length_toDigits_le_iff (b := 10) (n := n) (k := 2) (by decide) (by decide)).1 h
    omega
  unfold digits at h2 ⊢
  omega

theorem value?_eq_some_iff :
    value? s = some n ↔ s ≠ [] ∧ (∀ c ∈ s, isDigit c = true) ∧ value s = n := by
  rw [value?, Option.ite_none_left_eq_some, Option.some.injEq, Bool.or_eq_true, not_or,
    List.isEmpty_iff, Bool.not_eq_true', Bool.not_eq_false, List.all_eq_true, and_assoc]

/-! ## Zeros in front -/

/-- The text writes the number: it is the digits of the number, with or without zeros in front. -/
def Writes (s : List Char) (n : Nat) : Prop :=
  ∃ zeros, s = List.replicate zeros '0' ++ digits n

theorem digitChar_of_isDigit {c : Char} (h : isDigit c = true) :
    c.toNat - '0'.toNat < 10 ∧ Nat.digitChar (c.toNat - '0'.toNat) = c := by
  have hbounds : 48 ≤ c.toNat ∧ c.toNat ≤ 57 := by
    simpa [isDigit, Char.le_def, UInt32.le_iff_toNat_le] using h
  have hzero : '0'.toNat = 48 := rfl
  rw [hzero]
  have hlt : c.toNat - 48 < 10 := by omega
  refine ⟨hlt, Char.toNat_inj.1 ?_⟩
  rw [Nat.toNat_digitChar_of_lt_ten hlt]
  omega

theorem digits_concat (m : Nat) {k : Nat} (hk : k < 10) :
    digits (10 * m + k) = if m = 0 then [Nat.digitChar k] else digits m ++ [Nat.digitChar k] := by
  rw [digits, Nat.toDigits_eq_if (by decide)]
  by_cases hm : m = 0
  · have hlt : 10 * m + k < 10 := by omega
    have hk' : 10 * m + k = k := by omega
    rw [if_pos hlt, if_pos hm, hk']
  · have hge : ¬ 10 * m + k < 10 := by omega
    have hdiv : (10 * m + k) / 10 = m := by omega
    have hmod : (10 * m + k) % 10 = k := by omega
    rw [if_neg hge, if_neg hm, hdiv, hmod, digits]

theorem digits_ne_nil (n : Nat) : digits n ≠ [] :=
  Nat.toDigits_ne_nil

/-- The digits of a number other than zero do not begin with a zero. -/
theorem head?_digits {n : Nat} (h : n ≠ 0) : (digits n).head? ≠ some '0' := by
  -- by the last digit, which is the first one only if nothing is left without it
  induction n using Nat.strongRecOn with
  | ind n ih =>
    have hn : n = 10 * (n / 10) + n % 10 := by omega
    have hk : n % 10 < 10 := by omega
    rw [hn, digits_concat _ hk]
    by_cases hm : n / 10 = 0
    · rw [if_pos hm, List.head?_cons]
      intro hzero
      have hvalue := Nat.toNat_digitChar_of_lt_ten hk
      rw [Option.some.inj hzero] at hvalue
      have h0 : '0'.toNat = 48 := rfl
      omega
    · rw [if_neg hm, List.head?_append]
      obtain ⟨d, hd⟩ := Option.isSome_iff_exists.1 (List.isSome_head?.2 (digits_ne_nil (n / 10)))
      rw [hd, Option.some_or, ← hd]
      exact ih (n / 10) (by omega) hm

theorem head?_digits_append {n : Nat} (h : n ≠ 0) (ds : List Char) :
    (digits n ++ ds).head? ≠ some '0' := by
  obtain ⟨c, cs, hcs⟩ := List.exists_cons_of_ne_nil (digits_ne_nil n)
  have hhead := head?_digits h
  rw [hcs] at hhead ⊢
  exact hhead

theorem value_replicate_append (zeros : Nat) (ds : List Char) :
    value (List.replicate zeros '0' ++ ds) = value ds := by
  induction zeros with
  | zero => rfl
  | succ zeros ih =>
    rw [List.replicate_succ, List.cons_append, value, Nat.ofDigitChars_cons]
    exact ih

theorem value_concat (ds : List Char) (c : Char) :
    value (ds ++ [c]) = 10 * value ds + (c.toNat - '0'.toNat) := by
  rw [value, Nat.ofDigitChars_append, Nat.ofDigitChars_cons, Nat.ofDigitChars_nil, value]

/-- A text of digits writes the number that is read from it. -/
theorem writes_value (hne : s ≠ []) (h : ∀ c ∈ s, isDigit c = true) : Writes s (value s) := by
  -- by the last digit, which the zeros of a text that writes 0 are in front of too
  induction s using List.reverseRecOn with
  | nil => exact absurd rfl hne
  | append_singleton ds c ih =>
    obtain ⟨hlt, hc⟩ := digitChar_of_isDigit (h c (by simp))
    rw [value_concat, Writes, digits_concat _ hlt, hc]
    by_cases hds : ds = []
    · subst hds
      exact ⟨0, rfl⟩
    · obtain ⟨zeros, hzeros⟩ := ih hds fun c hc => h c (List.mem_append_left _ hc)
      by_cases hvalue : value ds = 0
      · rw [hvalue] at hzeros
        rw [if_pos hvalue]
        refine ⟨zeros + 1, ?_⟩
        rw [hzeros, List.replicate_succ']
        rfl
      · rw [if_neg hvalue]
        refine ⟨zeros, ?_⟩
        rw [← List.append_assoc, ← hzeros]

theorem value?_eq_some_iff_writes : value? s = some n ↔ Writes s n := by
  rw [value?_eq_some_iff]
  constructor
  · rintro ⟨hne, hall, rfl⟩
    exact writes_value hne hall
  · rintro ⟨zeros, rfl⟩
    obtain ⟨hne, hall, hvalue⟩ := value?_eq_some_iff.1 (value?_digits n)
    refine ⟨List.append_ne_nil_of_right_ne_nil _ hne, fun c hc => ?_, ?_⟩
    · rcases List.mem_append.1 hc with hc | hc
      · rw [List.eq_of_mem_replicate hc]
        rfl
      · exact hall c hc
    · rw [value_replicate_append, hvalue]

/-! ## Numbers of a fixed width -/

theorem isDigit_of_mem_padded {width : Nat} {c : Char} (h : c ∈ padded width n) :
    isDigit c = true := by
  rw [padded, List.leftpad, List.mem_append] at h
  rcases h with h | h
  · rw [List.eq_of_mem_replicate h]
    rfl
  · exact isDigit_of_mem_digits h

theorem value_digits (n : Nat) : value (digits n) = n :=
  Nat.ofDigitChars_ten_toDigits

theorem value_padded (width n : Nat) : value (padded width n) = n := by
  rw [padded, List.leftpad, value_replicate_append, value_digits]

theorem length_digits_le {width : Nat} (hwidth : 0 < width) (h : n < Nat.pow 10 width) :
    (digits n).length ≤ width :=
  (Nat.length_toDigits_le_iff (by decide) hwidth).2 h

theorem length_padded {width : Nat} (hwidth : 0 < width) (h : n < Nat.pow 10 width) :
    (padded width n).length = width := by
  rw [padded, List.length_leftpad, Nat.max_eq_left (length_digits_le hwidth h)]

/-- A zero in front of a number other than zero has been put there to fill the width. -/
theorem length_padded_of_zero {width : Nat} (hn : n ≠ 0)
    (h : (padded width n).head? = some '0') : (padded width n).length = width := by
  have hlength : (padded width n).length = max width (digits n).length := List.length_leftpad
  rw [hlength]
  by_contra hne
  have hnone : width - (digits n).length = 0 := by omega
  refine absurd h ?_
  rw [padded, List.leftpad, hnone]
  exact head?_digits hn

/-! ## Bounded numbers -/

theorem atMost_eq_some_iff {read : Option Nat} :
    (do let m ← read; guard (m ≤ limit); return m) = some n ↔ read = some n ∧ n ≤ limit := by
  cases read with
  | none => exact iff_of_false (fun h => nomatch h) fun h => nomatch h.1
  | some m =>
    have hbind : (do let k ← some m; guard (k ≤ limit); return k)
        = if m ≤ limit then some m else none := by
      show (if m ≤ limit then pure () else failure : Option Unit).bind (fun _ => some m) = _
      split <;> rfl
    rw [hbind, Option.ite_none_right_eq_some, Option.some.injEq]
    constructor
    · rintro ⟨hle, rfl⟩
      exact ⟨rfl, hle⟩
    · rintro ⟨rfl, hle⟩
      exact ⟨hle, rfl⟩

/-- One plus sign may stand in front of the digits. -/
theorem valueUpTo?_eq_some_iff :
    valueUpTo? limit s = some n ↔
      ∃ ds, (s = ds ∨ s = '+' :: ds) ∧ value? ds = some n ∧ n ≤ limit := by
  unfold valueUpTo?
  dsimp only
  split
  · rename_i ds
    rw [atMost_eq_some_iff]
    constructor
    · rintro ⟨hvalue, hle⟩
      exact ⟨ds, .inr rfl, hvalue, hle⟩
    · rintro ⟨ds', rfl | h, hvalue, hle⟩
      · -- the sign is no digit, so it is not read as part of the number
        have hplus := (value?_eq_some_iff.1 hvalue).2.1 '+' List.mem_cons_self
        exact absurd hplus (by decide)
      · cases h
        exact ⟨hvalue, hle⟩
  · rename_i hnoplus
    rw [atMost_eq_some_iff]
    constructor
    · rintro ⟨hvalue, hle⟩
      exact ⟨s, .inl rfl, hvalue, hle⟩
    · rintro ⟨ds, rfl | rfl, hvalue, hle⟩
      · exact ⟨hvalue, hle⟩
      · exact absurd rfl (hnoplus ds)

end ResponseCache.Decimal
