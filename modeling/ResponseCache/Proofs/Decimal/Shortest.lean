import ResponseCache.Proofs.Decimal.Natural
import ResponseCache.Proofs.Decimal.Scientific

/-!
# The shortest decimal rounds back

The search for the shortest decimal compares natural numbers. In quarters of the last place they are
the ends of the interval that rounds to the float (`le_point_iff`, `point_le_iff`), so a decimal
that passes the test rounds to it (`nearest_of_readsBack`). If no decimal is found the exact value
is taken, and moving the zeros at the end into the exponent changes no value (`value_withoutZeros`).
So the shortest decimal rounds to the float from which it was made (`nearest_shortest`). Where its
leading digit stands follows from the size of the float (`leading_lt_of_nearest`).
-/

namespace ResponseCache.Decimal

/-- The number that a decimal is. -/
def Numeral.value (d : Numeral) : ℚ :=
  d.coefficient * 10 ^ d.exponent

theorem value_append_zeros (ds : List Char) (zeros : Nat) :
    value (ds ++ List.replicate zeros '0') = value ds * 10 ^ zeros := by
  induction zeros with
  | zero => simp
  | succ zeros ih =>
    have hzero : '0'.toNat - '0'.toNat = 0 := rfl
    rw [List.replicate_succ', ← List.append_assoc, value_concat, ih, hzero, pow_succ]
    ring

/-! ## The size of a decimal -/

section Size

variable {m c : Nat} {e k : ℤ}

theorem lt_pow_length_digits (k : Nat) : k < 10 ^ (digits k).length :=
  (Nat.length_toDigits_le_iff (by decide) (List.length_pos_iff.2 (digits_ne_nil k))).1 le_rfl

theorem pow_length_digits_le {k : Nat} (hk : k ≠ 0) : 10 ^ ((digits k).length - 1) ≤ k := by
  by_cases hone : (digits k).length ≤ 1
  · rw [Nat.sub_eq_zero_of_le hone]
    exact Nat.one_le_iff_ne_zero.2 hk
  · by_contra hlt
    have hless := (Nat.length_toDigits_le_iff (b := 10) (by decide) (by omega)).2 (not_le.1 hlt)
    unfold digits at hone hless
    omega

/-- A decimal is less than the power of ten that has one digit more. -/
theorem decimal_lt (c : Nat) (k : ℤ) : (c * 10 ^ k : ℚ) < 10 ^ ((digits c).length + k) := by
  have hc : (c : ℚ) < 10 ^ (digits c).length := by exact_mod_cast lt_pow_length_digits c
  rw [zpow_add₀ (by norm_num), zpow_natCast]
  exact mul_lt_mul_of_pos_right hc (by positivity)

/-- A decimal is at least the power of ten that has as many digits. -/
theorem le_decimal (hc : c ≠ 0) (k : ℤ) :
    (10 : ℚ) ^ ((digits c).length - 1 + k) ≤ c * 10 ^ k := by
  have hlength : ((digits c).length : ℤ) - 1 = ((digits c).length - 1 : ℕ) := by
    have hpos := List.length_pos_iff.2 (digits_ne_nil c)
    omega
  have hc' : (10 ^ ((digits c).length - 1) : ℚ) ≤ c := by exact_mod_cast pow_length_digits_le hc
  rw [zpow_add₀ (by norm_num), hlength, zpow_natCast]
  exact mul_le_mul_of_nonneg_right hc' (by positivity)

theorem ten_zpow_lt : (10 : ℚ) ^ (-400 : ℤ) < 2 ^ (-1075 : ℤ) := by
  rw [zpow_neg, zpow_neg, inv_lt_inv₀ (by positivity) (by positivity)]
  calc (2 : ℚ) ^ (1075 : ℤ) ≤ 2 ^ (3 * 400 : ℤ) := zpow_le_zpow_right₀ one_le_two (by norm_num)
    _ = (2 ^ (3 : ℤ)) ^ (400 : ℤ) := zpow_mul 2 3 400
    _ < 10 ^ (400 : ℤ) := zpow_lt_zpow_left₀ (by norm_num) (by norm_num) (by norm_num)

/-- A decimal that rounds to a float has a digit other than zero. -/
theorem ne_zero_of_nearest (hm : IsCanonical m e) (hv : Nearest (c * 10 ^ k) m e) : c ≠ 0 := by
  rintro rfl
  have hleast := hv.least_le hm
  rw [Nat.cast_zero, zero_mul] at hleast
  exact absurd hleast (not_le.2 (by positivity))

/-- Its leading digit stands less than 400 places after the point. -/
theorem leading_ge_of_nearest (hm : IsCanonical m e) (hv : Nearest (c * 10 ^ k) m e) :
    -400 ≤ ((digits c).length : ℤ) + k := by
  by_contra hsmall
  have hlt : (c * 10 ^ k : ℚ) < 2 ^ (-1075 : ℤ) :=
    calc (c * 10 ^ k : ℚ) < 10 ^ ((digits c).length + k) := decimal_lt c k
      _ ≤ 10 ^ (-400 : ℤ) := zpow_le_zpow_right₀ (by norm_num) (not_le.1 hsmall).le
      _ < 2 ^ (-1075 : ℤ) := ten_zpow_lt
  exact absurd (hv.least_le hm) (not_le.2 hlt)

/-- Its leading digit stands at most at the units if the float is at most one. -/
theorem leading_lt_of_nearest (hm : IsCanonical m e) (hv : Nearest (c * 10 ^ k) m e)
    (hle : (m * 2 ^ e : ℚ) ≤ 1) :
    ((digits c).length : ℤ) - 1 + k < 1 := by
  have hdouble := hv.le_two_mul hm.pos
  refine (zpow_lt_zpow_iff_right₀ (by norm_num : (1 : ℚ) < 10)).1 ?_
  calc (10 : ℚ) ^ ((digits c).length - 1 + k)
    _ ≤ c * 10 ^ k := le_decimal (ne_zero_of_nearest hm hv) k
    _ < 10 ^ (1 : ℤ) := by
        rw [zpow_one]
        linarith

end Size

/-! ## The search -/

namespace Binary

variable {m : Nat} {e place : ℤ} {x : Binary} {c : Nat} {tie : Tie} {d : Numeral}

/-- The binary fraction of a finite number that is not zero. -/
structure IsFinite (x : Binary) : Prop where
  canonical : IsCanonical x.significand x.exponent
  narrow_iff : x.narrowBelow = true ↔ x.significand = 2 ^ 52 ∧ x.exponent ≠ -1074

/-- In the units of a grid, which are quarters of the last place, the value of a point. -/
theorem onGrid_eq (x : Binary) (place : ℤ) :
    0 < ((x.onGrid place).2 : ℚ) ∧ ∀ c : Nat, (c * (x.onGrid place).1 : ℚ)
      = 4 * (c * 10 ^ place / 2 ^ x.exponent) * (x.onGrid place).2 := by
  have hten := zpow_mul_pow_toNat (by norm_num : (10 : ℚ) ≠ 0) place
  have htwo := zpow_mul_pow_toNat (two_ne_zero : (2 : ℚ) ≠ 0) (-(x.exponent - 2))
  have hquarter : (2 : ℚ) ^ (-(x.exponent - 2)) = 4 / 2 ^ x.exponent := by
    rw [zpow_neg, zpow_sub₀ two_ne_zero, inv_div]
    norm_num
  have hfst : ((x.onGrid place).1 : ℚ) = 10 ^ place.toNat * 2 ^ (-(x.exponent - 2)).toNat := by
    simp only [onGrid, Nat.pow_eq]
    push_cast
    rfl
  have hsnd : ((x.onGrid place).2 : ℚ) = 10 ^ (-place).toNat * 2 ^ (x.exponent - 2).toNat := by
    simp only [onGrid, Nat.pow_eq]
    push_cast
    rfl
  refine ⟨by rw [hsnd]; positivity, fun c => ?_⟩
  rw [hfst, hsnd, ← hten, ← htwo, neg_neg, hquarter]
  ring

theorem le_point_iff (x : Binary) (place : ℤ) (c k : Nat) :
    k * (x.onGrid place).2 ≤ c * (x.onGrid place).1
      ↔ (k : ℚ) ≤ 4 * (c * 10 ^ place / 2 ^ x.exponent) := by
  obtain ⟨hpos, hpoint⟩ := x.onGrid_eq place
  rw [← @Nat.cast_le ℚ]
  push_cast
  rw [hpoint c, mul_le_mul_iff_left₀ hpos]

theorem point_le_iff (x : Binary) (place : ℤ) (c k : Nat) :
    c * (x.onGrid place).1 ≤ k * (x.onGrid place).2
      ↔ 4 * (c * 10 ^ place / 2 ^ x.exponent) ≤ (k : ℚ) := by
  obtain ⟨hpos, hpoint⟩ := x.onGrid_eq place
  rw [← @Nat.cast_le ℚ]
  push_cast
  rw [hpoint c, mul_le_mul_iff_left₀ hpos]

/-- The lower end of the interval in quarters of the last place. -/
def low (x : Binary) : Nat :=
  4 * x.significand - if x.narrowBelow then 1 else 2

theorem low_eq (hx : x.IsFinite) :
    (x.low : ℚ) = 4 * x.significand - if x.narrowBelow then 1 else 2 := by
  have hm : 0 < x.significand := hx.canonical.pos
  unfold low
  split <;> rw [Nat.cast_sub (by omega)] <;> push_cast <;> rfl

/-- The interval in which decimals are tried is that of the numbers which round to the value. -/
theorem nearest_of_readsBack (hx : x.IsFinite) (h : x.readsBack place c = true) :
    Nearest (c * 10 ^ place) x.significand x.exponent := by
  have hlow := x.le_point_iff place c x.low
  have hhigh := x.point_le_iff place c (4 * x.significand + 2)
  have hlow' := x.point_le_iff place c x.low
  have hhigh' := x.le_point_iff place c (4 * x.significand + 2)
  have hends : (x.low : ℚ) ≤ 4 * (c * 10 ^ place / 2 ^ x.exponent)
      ∧ 4 * (c * 10 ^ place / 2 ^ x.exponent) ≤ ((4 * x.significand + 2 : ℕ) : ℚ)
      ∧ (x.significand % 2 = 1 → (x.low : ℚ) < 4 * (c * 10 ^ place / 2 ^ x.exponent)
        ∧ 4 * (c * 10 ^ place / 2 ^ x.exponent) < ((4 * x.significand + 2 : ℕ) : ℚ)) := by
    unfold readsBack at h
    dsimp only at h
    split at h
    · rename_i heven
      rw [Bool.and_eq_true, decide_eq_true_eq, decide_eq_true_eq] at h
      exact ⟨hlow.1 h.1, hhigh.1 h.2, fun hodd => by omega⟩
    · rw [Bool.and_eq_true, decide_eq_true_eq, decide_eq_true_eq, ← Nat.not_le, ← Nat.not_le] at h
      have hstrict := And.intro (not_le.1 (hlow'.not.1 h.1)) (not_le.1 (hhigh'.not.1 h.2))
      exact ⟨hstrict.1.le, hstrict.2.le, fun _ => hstrict⟩
  unfold Nearest RoundsTo
  generalize (c * 10 ^ place / 2 ^ x.exponent : ℚ) = u at hends ⊢
  rw [low_eq hx] at hends
  push_cast at hends
  obtain ⟨hge, hle, hodd⟩ := hends
  have hgap : (if x.narrowBelow then 1 else 2 : ℚ) ≤ 2 := by split <;> norm_num
  refine ⟨⟨by linarith, by linarith, fun h => ?_⟩, fun hleast he => ?_⟩
  · obtain ⟨hgt, hlt⟩ := hodd h
    exact ⟨by linarith, by linarith⟩
  · rw [if_pos (hx.narrow_iff.2 ⟨hleast, he⟩)] at hge
    linarith

theorem nearest_of_onGrid? (hx : x.IsFinite) (h : x.onGrid? tie place = some d) :
    Nearest d.value x.significand x.exponent := by
  unfold onGrid? at h
  extract_lets g exact below above best other at h
  split at h
  · rename_i hreads
    obtain rfl := Option.some.inj h
    exact nearest_of_readsBack hx hreads
  · rw [Option.ite_none_right_eq_some] at h
    obtain ⟨hreads, hd⟩ := h
    obtain rfl := Option.some.inj hd
    exact nearest_of_readsBack hx hreads

theorem nearest_self (m : Nat) (e : ℤ) : Nearest (m * 2 ^ e) m e := by
  have hself : (m * 2 ^ e / 2 ^ e : ℚ) = m := mul_div_cancel_right₀ _ (by positivity)
  unfold Nearest RoundsTo
  rw [hself]
  exact ⟨⟨by linarith, by linarith, fun _ => ⟨by linarith, by linarith⟩⟩, fun _ _ => by linarith⟩

theorem value_exact (x : Binary) : x.exact.value = x.significand * 2 ^ x.exponent := by
  have htwo := zpow_mul_pow_toNat (two_ne_zero : (2 : ℚ) ≠ 0) x.exponent
  unfold exact Numeral.value
  simp only [Nat.pow_eq]
  push_cast
  have hten : (10 : ℚ) ^ min x.exponent 0 * 10 ^ (-x.exponent).toNat = 1 := by
    rw [← zpow_natCast, ← zpow_add₀ (by norm_num), ← zpow_zero (10 : ℚ)]
    congr 1
    omega
  rw [← htwo]
  calc (x.significand : ℚ) * (2 ^ x.exponent * 2 ^ (-x.exponent).toNat) * 5 ^ (-x.exponent).toNat
        * 10 ^ min x.exponent 0
      = x.significand * 2 ^ x.exponent
          * (10 ^ min x.exponent 0 * (2 ^ (-x.exponent).toNat * 5 ^ (-x.exponent).toNat)) := by ring
    _ = x.significand * 2 ^ x.exponent := by
        rw [← mul_pow, (by norm_num : (2 : ℚ) * 5 = 10), hten, mul_one]

theorem value_withoutZeros (d : Numeral) : (withoutZeros d).value = d.value := by
  let zeros := ((Nat.toDigits 10 d.coefficient).reverse.takeWhile (· == '0')).length
  have hsplit : digits d.coefficient
      = ((digits d.coefficient).reverse.dropWhile (· == '0')).reverse
        ++ List.replicate zeros '0' := by
    have hzeros : (digits d.coefficient).reverse.takeWhile (· == '0') = List.replicate zeros '0' :=
      List.eq_replicate_iff.2 ⟨rfl, fun c hc => by simpa using List.mem_takeWhile_imp hc⟩
    rw [← List.reverse_replicate, ← hzeros, ← List.reverse_append, List.takeWhile_append_dropWhile,
      List.reverse_reverse]
  have hcoefficient : d.coefficient = d.coefficient / 10 ^ zeros * 10 ^ zeros := by
    have hvalue := value_digits d.coefficient
    rw [hsplit, value_append_zeros] at hvalue
    rw [← hvalue, Nat.mul_div_cancel _ (by positivity)]
  have hcast : (d.coefficient : ℚ) = (d.coefficient / 10 ^ zeros : ℕ) * 10 ^ zeros := by
    exact_mod_cast hcoefficient
  show ((d.coefficient / 10 ^ zeros : ℕ) : ℚ) * 10 ^ (d.exponent + zeros) = _
  rw [Numeral.value, hcast, zpow_add₀ (by norm_num), zpow_natCast]
  ring

/-- The shortest decimal of a number rounds to the number. -/
theorem nearest_shortest (hx : x.IsFinite) (tie : Tie) :
    Nearest (x.shortest tie).value x.significand x.exponent := by
  unfold shortest
  dsimp only
  rw [value_withoutZeros]
  cases hfound : (List.range 17).findSome? fun (n : Nat) =>
    x.onGrid? tie (x.leadingExponent - n) with
  | none =>
    rw [Option.getD_none, value_exact]
    exact nearest_self x.significand x.exponent
  | some d =>
    obtain ⟨n, -, hn⟩ := List.exists_of_findSome?_eq_some hfound
    exact nearest_of_onGrid? hx hn

end Binary
end ResponseCache.Decimal
