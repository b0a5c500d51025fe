import Mathlib

/-!
# Rounding to floats

What rounding to binary64 does, in rational numbers. A mantissa and its two further bits stand for a
rational (`Approximates`), and rounding them off gives the natural number to which it rounds
(`Approximates.roundedMantissa`). A value that rounds to the float `m * 2 ^ e` is `Nearest` to it.
It is rounded to as many bits as a float has and, if that runs over to the next power of two,
shifted once more: either way the result is the float (`roundWithAccuracy_eq`). The quotient of two
floats is rounded from its whole part and the remainder, so it is the float nearest to the quotient
of the values (`div_eq`).
-/

namespace ResponseCache.Decimal

open Float.Model Float.Model.UnpackedFloat

/-- The mantissa is the whole part of `t`, and its two further bits say where in the unit the rest
lies: whether it is at least one half, and whether it is neither zero nor one half. -/
def Approximates (em : ExtendedMantissa) (t : ℚ) : Prop :=
  ∃ rest : ℚ, t = em.mantissa + rest ∧ 0 ≤ rest ∧ rest < 1
    ∧ (em.roundBit = true ↔ 1 / 2 ≤ rest) ∧ (em.stickyBit = true ↔ rest ≠ 0 ∧ rest ≠ 1 / 2)

/-- `m` is the number to which `t` rounds: it is at most one half away, and less than that if it is
odd. -/
def RoundsTo (t : ℚ) (m : Nat) : Prop :=
  m - 1 / 2 ≤ t ∧ t ≤ m + 1 / 2 ∧ (m % 2 = 1 → m - 1 / 2 < t ∧ t < m + 1 / 2)

variable {em : ExtendedMantissa} {t : ℚ} {m : Nat}

theorem Approximates.shiftRightOne (h : Approximates em t) :
    Approximates em.shiftRightOne (t / 2) := by
  obtain ⟨rest, ht, hge, hlt, hround, hsticky⟩ := h
  have hsum : (em.mantissa : ℚ) = 2 * (em.mantissa / 2 : ℕ) + (em.mantissa % 2 : ℕ) := by
    exact_mod_cast (Nat.div_add_mod em.mantissa 2).symm
  have hinexact : em.shiftRightOne.stickyBit = true ↔ rest ≠ 0 := by
    show (em.roundBit || em.stickyBit) = true ↔ rest ≠ 0
    rw [Bool.or_eq_true, hround, hsticky]
    constructor
    · rintro (hhalf | ⟨hne, -⟩)
      · linarith
      · exact hne
    · intro hne
      by_cases hhalf : rest = 1 / 2
      · exact .inl hhalf.ge
      · exact .inr ⟨hne, hhalf⟩
  have hbit : em.shiftRightOne.roundBit = (em.mantissa % 2 != 0) := rfl
  have hwhole : em.shiftRightOne.mantissa = em.mantissa / 2 := rfl
  rcases Nat.mod_two_eq_zero_or_one em.mantissa with hparity | hparity <;>
    rw [hparity] at hsum hbit
  · refine ⟨rest / 2, ?_, by linarith, by linarith, ?_, hinexact.trans ?_⟩
    · rw [ht, hsum, hwhole]
      ring
    · rw [hbit]
      exact iff_of_false nofun (by linarith)
    · exact ⟨fun hne => ⟨by simpa using hne, by linarith⟩, fun hne h0 => hne.1 (by simp [h0])⟩
  · refine ⟨(1 + rest) / 2, ?_, by linarith, by linarith, ?_, hinexact.trans ?_⟩
    · rw [ht, hsum, hwhole]
      ring
    · rw [hbit]
      exact iff_of_true rfl (by linarith)
    · exact ⟨fun hne => ⟨by linarith, fun h0 => hne (by linarith)⟩,
        fun hne h0 => hne.2 (by simp [h0])⟩

theorem Approximates.shift (h : Approximates em t) (k : Nat) :
    Approximates (em >>> k) (t / 2 ^ k) := by
  induction k with
  | zero =>
    rw [pow_zero, div_one]
    exact h
  | succ k ih =>
    have hstep := ih.shiftRightOne
    rw [div_div, ← pow_succ] at hstep
    exact hstep

theorem Approximates.roundedMantissa (h : Approximates em t) (hm : RoundsTo t m) :
    em.roundedMantissa = m := by
  obtain ⟨rest, ht, hge, hlt, hround, hsticky⟩ := h
  obtain ⟨hlow, hhigh, hodd⟩ := hm
  obtain ⟨mantissa, roundBit, stickyBit⟩ := em
  dsimp only at ht hround hsticky
  rw [ht] at hlow hhigh hodd
  have hbelow : rest < 1 / 2 → mantissa = m := by
    intro hsmall
    have hle : (m : ℚ) < mantissa + 1 := by linarith
    have hge : (mantissa : ℚ) < m + 1 := by linarith
    norm_cast at hle hge
    omega
  cases roundBit with
  | false =>
    have hsmall : rest < 1 / 2 := not_le.1 (hround.not.1 Bool.false_ne_true)
    cases stickyBit <;> exact hbelow hsmall
  | true =>
    have hhalf : 1 / 2 ≤ rest := hround.1 rfl
    have hge : (mantissa : ℚ) ≤ m := by linarith
    cases stickyBit with
    | false =>
      -- a tie, which goes to the even one of the two neighbours
      have htie : rest = 1 / 2 := by
        by_contra hne
        exact absurd (hsticky.2 ⟨by linarith, hne⟩) Bool.false_ne_true
      have hle : (m : ℚ) ≤ mantissa + 1 := by linarith
      have heven : m % 2 = 0 := by
        by_contra hne
        obtain ⟨hlow', hhigh'⟩ := hodd (by omega)
        have hlt : (mantissa : ℚ) < m := by linarith
        have hlt' : (m : ℚ) < mantissa + 1 := by linarith
        norm_cast at hlt hlt'
        omega
      norm_cast at hge hle
      show mantissa + mantissa % 2 = m
      omega
    | true =>
      have hlarge : rest ≠ 1 / 2 := (hsticky.1 rfl).2
      have hgt : (mantissa : ℚ) < m := by
        have := lt_of_le_of_ne hhalf hlarge.symm
        linarith
      have hle : (m : ℚ) < mantissa + 2 := by linarith
      norm_cast at hgt hle
      show mantissa + 1 = m
      omega

/-! ## Where the value lies -/

/-- The exponent of the last bit that is kept of a value: 53 bits from the first one on, and none
below the least exponent. -/
structure IsPlace (v : ℚ) (place : ℤ) : Prop where
  ge : -1074 ≤ place
  lt : v < 2 ^ (place + 53)
  le : place = -1074 ∨ 2 ^ (place + 52) ≤ v

/-- A finite number has 53 bits, or fewer at the least exponent. -/
structure IsCanonical (m : Nat) (e : ℤ) : Prop where
  pos : 0 < m
  lt : m < 2 ^ 53
  ge : -1074 ≤ e
  normal : e = -1074 ∨ 2 ^ 52 ≤ m

/-- The value rounds to `m * 2 ^ e`. Below the least number of 53 bits the numbers lie twice as
dense. -/
def Nearest (v : ℚ) (m : Nat) (e : ℤ) : Prop :=
  RoundsTo (v / 2 ^ e) m ∧ (m = 2 ^ 52 → e ≠ -1074 → m - 1 / 4 ≤ v / 2 ^ e)

variable {mantissa : Nat} {accuracy : Accuracy} {e exponent place : ℤ} {v : ℚ}

/-- What rounds to a number is at least half the least number. -/
theorem Nearest.least_le (hm : IsCanonical m e) (hv : Nearest v m e) : 2 ^ (-1075 : ℤ) ≤ v := by
  have hpos : (0 : ℚ) < 2 ^ e := by positivity
  have hm' : (1 : ℚ) ≤ m := by exact_mod_cast hm.pos
  have hhalf : 1 / 2 ≤ v / 2 ^ e := by
    have hlow := hv.1.1
    linarith
  rw [le_div_iff₀ hpos] at hhalf
  calc (2 : ℚ) ^ (-1075 : ℤ) = 2 ^ (-1 + -1074 : ℤ) := by norm_num
    _ = 1 / 2 * 2 ^ (-1074 : ℤ) := by rw [zpow_add₀ two_ne_zero, zpow_neg_one, one_div]
    _ ≤ 1 / 2 * 2 ^ e :=
        mul_le_mul_of_nonneg_left (zpow_le_zpow_right₀ one_le_two hm.ge) (by norm_num)
    _ ≤ v := hhalf

/-- What rounds to a number is at most twice the number. -/
theorem Nearest.le_two_mul (hm : 0 < m) (hv : Nearest v m e) : v ≤ 2 * (m * 2 ^ e) := by
  have hpos : (0 : ℚ) < 2 ^ e := by positivity
  have hm' : (1 : ℚ) ≤ m := by exact_mod_cast hm
  have hhalf : v / 2 ^ e ≤ 2 * m := by
    have hhigh := hv.1.2.1
    linarith
  rw [div_le_iff₀ hpos] at hhalf
  linarith

theorem targetExponent_eq (mantissa : Nat) (exponent : ℤ) :
    Format.binary64.targetExponent (totalExponent mantissa exponent)
      = max (mantissa.log2 + 1 + exponent - 53) (-1074) :=
  rfl

theorem mantissa_ofMantissaAndAccuracy (mantissa : Nat) (accuracy : Accuracy) :
    (ExtendedMantissa.ofMantissaAndAccuracy mantissa accuracy).mantissa = mantissa := by
  unfold ExtendedMantissa.ofMantissaAndAccuracy
  split <;> rfl

theorem isPlace_target (h : Approximates (.ofMantissaAndAccuracy mantissa accuracy) t)
    (hle : exponent ≤ Format.binary64.targetExponent (totalExponent mantissa exponent)) :
    IsPlace (t * 2 ^ exponent)
      (Format.binary64.targetExponent (totalExponent mantissa exponent)) := by
  obtain ⟨rest, ht, hge, hlt, -, -⟩ := h
  rw [mantissa_ofMantissaAndAccuracy] at ht
  rw [targetExponent_eq] at hle ⊢
  have hpos : (0 : ℚ) < 2 ^ exponent := by positivity
  refine ⟨le_max_right _ _, ?_, ?_⟩
  · have htop : t < 2 ^ (mantissa.log2 + 1) := by
      have hlog : mantissa + 1 ≤ 2 ^ (mantissa.log2 + 1) := Nat.lt_log2_self
      have hlog' : (mantissa : ℚ) + 1 ≤ 2 ^ (mantissa.log2 + 1) := by exact_mod_cast hlog
      linarith
    calc t * 2 ^ exponent < 2 ^ (mantissa.log2 + 1) * 2 ^ exponent :=
          mul_lt_mul_of_pos_right htop hpos
      _ = 2 ^ ((mantissa.log2 + 1 : ℕ) + exponent : ℤ) := by
          rw [zpow_add₀ two_ne_zero, zpow_natCast]
      _ ≤ _ := zpow_le_zpow_right₀ one_le_two (by push_cast; omega)
  · by_cases hleast : (mantissa.log2 + 1 + exponent - 53 : ℤ) ≤ -1074
    · exact .inl (max_eq_right hleast)
    · right
      have hbits : mantissa ≠ 0 := by
        rintro rfl
        simp at hle hleast
        omega
      have hlow : (2 : ℚ) ^ mantissa.log2 ≤ t := by
        have hlog : 2 ^ mantissa.log2 ≤ mantissa := Nat.log2_self_le hbits
        have hlog' : (2 : ℚ) ^ mantissa.log2 ≤ mantissa := by exact_mod_cast hlog
        linarith
      calc (2 : ℚ) ^ (max (mantissa.log2 + 1 + exponent - 53) (-1074) + 52 : ℤ)
          = 2 ^ (mantissa.log2 : ℤ) * 2 ^ exponent := by
            rw [← zpow_add₀ two_ne_zero, max_eq_left (by omega)]
            congr 1
            omega
        _ = 2 ^ mantissa.log2 * 2 ^ exponent := by rw [zpow_natCast]
        _ ≤ t * 2 ^ exponent := mul_le_mul_of_nonneg_right hlow hpos.le

theorem IsPlace.div_lt (h : IsPlace v place) {k : Nat} (hk : place + 53 ≤ e + k) :
    v / 2 ^ e < 2 ^ k := by
  rw [div_lt_iff₀ (by positivity), mul_comm, ← zpow_natCast, ← zpow_add₀ two_ne_zero]
  exact h.lt.trans_le (zpow_le_zpow_right₀ one_le_two hk)

theorem IsPlace.le_div (h : IsPlace v place) (hne : place ≠ -1074) {k : Nat}
    (hk : e + k ≤ place + 52) : 2 ^ k ≤ v / 2 ^ e := by
  rw [le_div_iff₀ (by positivity), mul_comm, ← zpow_natCast, ← zpow_add₀ two_ne_zero]
  exact (zpow_le_zpow_right₀ one_le_two hk).trans (h.le.resolve_left hne)

/-- The place of a value is that of the number to which it rounds, or the next lower one if the
value lies just below a power of two. -/
theorem place_cases (hm : IsCanonical m e) (hv : Nearest v m e) (hplace : IsPlace v place) :
    place = e ∨ m = 2 ^ 52 ∧ place + 1 = e ∧ v / 2 ^ e < 2 ^ 52 := by
  obtain ⟨⟨hlow, hhigh, -⟩, hdense⟩ := hv
  have hge := hm.ge
  rcases lt_trichotomy place e with hlt | heq | hgt
  · -- the value has fewer bits, so it lies below the least number of 53 bits
    have hge' := hplace.ge
    have htop : v / 2 ^ e < 2 ^ 52 := hplace.div_lt (by push_cast; omega)
    have hleast : m = 2 ^ 52 := by
      have hbits : 2 ^ 52 ≤ m := hm.normal.resolve_left (by omega)
      have hm' : (m : ℚ) < 2 ^ 52 + 1 := by linarith
      norm_cast at hm'
      omega
    have hnext : place + 1 = e := by
      by_contra hne
      have hlower : v / 2 ^ e < 2 ^ 51 := hplace.div_lt (by push_cast; omega)
      rw [hleast] at hlow
      norm_num at hlow hlower
      linarith
    exact .inr ⟨hleast, hnext, htop⟩
  · exact .inl heq
  · -- the value would have more bits than the number and its neighbour
    have hm' : (m : ℚ) + 1 ≤ 2 ^ 53 := by exact_mod_cast hm.lt
    have hmore : 2 ^ 53 ≤ v / 2 ^ e := hplace.le_div (by omega) (by push_cast; omega)
    linarith

theorem shiftToTargetExponent_snd (accuracy : Accuracy)
    (hle : exponent ≤ Format.binary64.targetExponent (totalExponent mantissa exponent)) :
    (shiftToTargetExponent .binary64 mantissa exponent accuracy).2
      = Format.binary64.targetExponent (totalExponent mantissa exponent) := by
  unfold shiftToTargetExponent shiftToExponent
  dsimp only
  omega

theorem approximates_shifted (h : Approximates (.ofMantissaAndAccuracy mantissa accuracy) t)
    (hle : exponent ≤ Format.binary64.targetExponent (totalExponent mantissa exponent)) :
    Approximates (shiftToTargetExponent .binary64 mantissa exponent accuracy).1
      (t * 2 ^ exponent
        / 2 ^ Format.binary64.targetExponent (totalExponent mantissa exponent)) := by
  generalize hplace : Format.binary64.targetExponent (totalExponent mantissa exponent) = place at *
  have hshift := h.shift (place - exponent).toNat
  have hvalue : t * 2 ^ exponent / 2 ^ place = t / 2 ^ (place - exponent).toNat := by
    have hk : ((place - exponent).toNat : ℤ) = place - exponent := Int.toNat_of_nonneg (by omega)
    rw [← zpow_natCast, hk, zpow_sub₀ two_ne_zero]
    field_simp
  rw [hvalue]
  unfold shiftToTargetExponent shiftToExponent
  rw [hplace]
  exact hshift

theorem targetExponent_of_canonical (hm : IsCanonical m e) :
    Format.binary64.targetExponent (totalExponent m e) = e := by
  have hlt : m.log2 < 53 := (Nat.log2_lt hm.pos.ne').2 hm.lt
  have hge := hm.ge
  rw [targetExponent_eq]
  rcases hm.normal with hleast | hnormal
  · omega
  · have hbits : 52 ≤ m.log2 := (Nat.le_log2 hm.pos.ne').2 hnormal
    omega

theorem shiftToTargetExponent_of_canonical (hm : IsCanonical m e) :
    shiftToTargetExponent .binary64 m e .exact = (⟨m, false, false⟩, e) := by
  unfold shiftToTargetExponent shiftToExponent
  dsimp only
  rw [targetExponent_of_canonical hm, Int.sub_self]
  exact Prod.ext rfl (Int.add_zero e)

/-- A rounding that has run over to the next power of two is put right. -/
theorem shiftToTargetExponent_overrun (hplace : -1074 ≤ place) :
    shiftToTargetExponent .binary64 (2 ^ 53) place .exact
      = (⟨2 ^ 52, false, false⟩, place + 1) := by
  have htarget : Format.binary64.targetExponent (totalExponent (2 ^ 53) place) = place + 1 := by
    rw [targetExponent_eq, Nat.log2_two_pow]
    omega
  have hshift : (place + 1 - place).toNat = 1 := by omega
  unfold shiftToTargetExponent shiftToExponent
  dsimp only
  rw [htarget, hshift]
  rfl

/-- Rounding gives the number to which the value rounds. -/
theorem roundWithAccuracy_eq (h : Approximates (.ofMantissaAndAccuracy mantissa accuracy) t)
    (hle : exponent ≤ Format.binary64.targetExponent (totalExponent mantissa exponent))
    (hm : IsCanonical m e) (hv : Nearest (t * 2 ^ exponent) m e) (s : Sign) :
    roundWithAccuracy .binary64 s mantissa exponent accuracy = .finite s m e hm.pos := by
  have hplace := isPlace_target h hle
  have hshifted := approximates_shifted h hle
  have hsnd := shiftToTargetExponent_snd accuracy hle
  generalize Format.binary64.targetExponent (totalExponent mantissa exponent) = place at *
  have hagain : shiftToTargetExponent .binary64
      (shiftToTargetExponent .binary64 mantissa exponent accuracy).1.roundedMantissa
      (shiftToTargetExponent .binary64 mantissa exponent accuracy).2 .exact
        = (⟨m, false, false⟩, e) := by
    rw [hsnd]
    rcases place_cases hm hv hplace with rfl | ⟨rfl, rfl, hbelow⟩
    · rw [hshifted.roundedMantissa hv.1, shiftToTargetExponent_of_canonical hm]
    · have hdouble : RoundsTo (t * 2 ^ exponent / 2 ^ place) (2 ^ 53) := by
        have hge := hplace.ge
        have hdense := hv.2 rfl (by omega)
        have htwice : t * 2 ^ exponent / 2 ^ place = 2 * (t * 2 ^ exponent / 2 ^ (place + 1)) := by
          rw [zpow_add₀ two_ne_zero, zpow_one]
          field_simp
        rw [htwice]
        push_cast at hdense ⊢
        refine ⟨by linarith, by linarith, fun hodd => absurd hodd (by decide)⟩
      rw [hshifted.roundedMantissa hdouble, shiftToTargetExponent_overrun hplace.ge]
  unfold roundWithAccuracy
  simp only [hagain]
  rw [dif_neg hm.pos.ne']

/-! ## Quotients -/

section Division

variable {m₁ m₂ : Nat} {e₁ e₂ : ℤ} {s₁ s₂ : Sign}

/-- The two further bits of the mantissa say how twice the remainder compares with the divisor. -/
theorem bits_accuracyOfFraction (mantissa num den : Nat) (hden : 0 < den) :
    ((ExtendedMantissa.ofMantissaAndAccuracy mantissa (accuracyOfFraction num den)).roundBit = true
        ↔ den ≤ 2 * num)
      ∧ ((ExtendedMantissa.ofMantissaAndAccuracy mantissa (accuracyOfFraction num den)).stickyBit
        = true ↔ num ≠ 0 ∧ 2 * num ≠ den) := by
  unfold accuracyOfFraction
  split
  · rename_i hzero
    exact ⟨iff_of_false nofun (by omega), iff_of_false nofun (by omega)⟩
  · rename_i hne
    cases hcompare : compare (2 * num) den with
    | lt =>
      rw [Nat.compare_eq_lt] at hcompare
      exact ⟨iff_of_false nofun (by omega), iff_of_true rfl (by omega)⟩
    | eq =>
      rw [Nat.compare_eq_eq] at hcompare
      exact ⟨iff_of_true rfl (by omega), iff_of_false nofun (by omega)⟩
    | gt =>
      rw [Nat.compare_eq_gt] at hcompare
      exact ⟨iff_of_true rfl (by omega), iff_of_true rfl (by omega)⟩

theorem approximates_quotient (n : Nat) {d : Nat} (hd : 0 < d) :
    Approximates (.ofMantissaAndAccuracy (n / d) (accuracyOfFraction (n % d) d))
      ((n : ℚ) / d) := by
  have hd' : (0 : ℚ) < d := by exact_mod_cast hd
  have hsum : (n : ℚ) = d * (n / d : ℕ) + (n % d : ℕ) := by
    exact_mod_cast (Nat.div_add_mod n d).symm
  have hlt : ((n % d : ℕ) : ℚ) < d := by exact_mod_cast Nat.mod_lt n hd
  refine ⟨(n % d : ℕ) / d, ?_, by positivity, (div_lt_one hd').2 hlt, ?_, ?_⟩
  · rw [mantissa_ofMantissaAndAccuracy]
    field_simp
    linarith
  · rw [(bits_accuracyOfFraction _ _ d hd).1, le_div_iff₀ hd']
    constructor
    · intro hhalf
      have hhalf' : (d : ℚ) ≤ 2 * (n % d : ℕ) := by exact_mod_cast hhalf
      linarith
    · intro hhalf
      have hhalf' : (d : ℚ) ≤ 2 * (n % d : ℕ) := by linarith
      exact_mod_cast hhalf'
  · have hhalf : ((n % d : ℕ) : ℚ) = 1 / 2 * d ↔ 2 * (n % d) = d := by
      rw [← @Nat.cast_inj ℚ]
      push_cast
      constructor <;> intro h <;> linarith
    rw [(bits_accuracyOfFraction _ _ d hd).2, Ne, Ne, Ne, Ne, div_eq_zero_iff,
      div_eq_iff hd'.ne', Nat.cast_eq_zero, hhalf, or_iff_left hd'.ne']

theorem div_eq (hm : IsCanonical m e) (h₁ : 0 < m₁) (h₂ : 0 < m₂)
    (hv : Nearest (m₁ * 2 ^ e₁ / (m₂ * 2 ^ e₂)) m e) :
    UnpackedFloat.div .binary64 (.finite s₁ m₁ e₁ h₁) (.finite s₂ m₂ e₂ h₂)
      = .finite (s₁ / s₂) m e hm.pos := by
  let exponent := min (e₁ - e₂)
    (Format.binary64.targetExponent (totalExponent m₁ e₁ - totalExponent m₂ e₂))
  let shift := (e₁ - e₂ - exponent).toNat
  have hshift : (shift : ℤ) = e₁ - e₂ - exponent := Int.toNat_of_nonneg (by omega)
  have hvalue : ((m₁ <<< shift : ℕ) : ℚ) / m₂ * 2 ^ exponent = m₁ * 2 ^ e₁ / (m₂ * 2 ^ e₂) := by
    have he : (2 : ℚ) ^ e₁ = 2 ^ shift * 2 ^ exponent * 2 ^ e₂ := by
      rw [← zpow_natCast, ← zpow_add₀ two_ne_zero, ← zpow_add₀ two_ne_zero, hshift]
      congr 1
      omega
    have h₂' : (m₂ : ℚ) ≠ 0 := by exact_mod_cast h₂.ne'
    rw [Nat.shiftLeft_eq, he]
    push_cast
    field_simp
  have hle : exponent ≤ Format.binary64.targetExponent
      (totalExponent (m₁ <<< shift / m₂) exponent) := by
    by_cases hleast : exponent ≤ -1074
    · exact hleast.trans (le_max_right _ _)
    · -- otherwise the dividend has been shifted until the quotient has 53 bits
      have hbits : m₂.log2 + 53 ≤ m₁.log2 + shift := by
        have htarget : exponent
            ≤ max (m₁.log2 + 1 + e₁ - (m₂.log2 + 1 + e₂) - 53) (-1074) := min_le_right _ _
        omega
      have hquotient : 2 ^ 52 ≤ m₁ <<< shift / m₂ := by
        have hlow : 2 ^ m₁.log2 ≤ m₁ := Nat.log2_self_le h₁.ne'
        have hhigh : m₂ < 2 ^ (m₂.log2 + 1) := Nat.lt_log2_self
        rw [Nat.le_div_iff_mul_le h₂, Nat.shiftLeft_eq]
        calc 2 ^ 52 * m₂ ≤ 2 ^ 52 * 2 ^ (m₂.log2 + 1) := Nat.mul_le_mul_left _ hhigh.le
          _ = 2 ^ (m₂.log2 + 53) := by rw [← pow_add]; congr 1; omega
          _ ≤ 2 ^ (m₁.log2 + shift) := Nat.pow_le_pow_right two_pos hbits
          _ = 2 ^ m₁.log2 * 2 ^ shift := pow_add _ _ _
          _ ≤ m₁ * 2 ^ shift := Nat.mul_le_mul_right _ hlow
      have hlog : 52 ≤ (m₁ <<< shift / m₂).log2 :=
        (Nat.le_log2 (Nat.ne_of_gt (lt_of_lt_of_le (by norm_num) hquotient))).2 hquotient
      rw [targetExponent_eq]
      omega
  exact roundWithAccuracy_eq (approximates_quotient _ h₂) hle hm (hvalue ▸ hv) (s₁ / s₂)

end Division

end ResponseCache.Decimal
