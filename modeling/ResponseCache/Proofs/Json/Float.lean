import ResponseCache.Config.Json
import ResponseCache.Proofs.Decimal.Shortest
import ResponseCache.Proofs.Evaluation.Estimate
import ResponseCache.Proofs.Json.Number

/-!
# Fractions come back from JSON

A float is written as the text of a literal that stands for its shortest decimal (`Stands`), be it a
whole number, a fraction or with an exponent. The decimal rounds to the float, so the literal is
read as the very float (`Stands.toFloat?_eq`). This is shown of the floats from zero to one, which
are the fractions that pass the check of a configuration (`exists_literal`); the literal of such a
float has a point or a negative exponent, and the decimal lies well within the range of floats.
-/

namespace ResponseCache.Json.Number

open Decimal

variable {d : Numeral} {n : Number} {s : List Char} {x : Float} {m : Nat} {e : ℤ} {hm : 0 < m}

/-! ## The literal of a decimal -/

/-- The digits of a literal as a number, the point left out. -/
def coefficient (n : Number) : Nat :=
  value (n.whole ++ n.fraction)

/-- The exponent that goes with the digits. -/
def place (n : Number) : ℤ :=
  n.exponent.getD 0 - n.fraction.length

/-- The text is that of a literal whose value is the decimal. The literal has more digits after the
point than its exponent moves it. -/
structure Stands (n : Number) (s : List Char) (d : Numeral) : Prop where
  isLiteral : n.IsLiteral
  written_eq : n.written = s
  negative_eq : n.negative = false
  value_eq : n.coefficient * (10 : ℚ) ^ n.place = d.value
  place_neg : n.place < 0

theorem exponentText_eq (k : ℤ) :
    exponentText (some k) = 'e' :: ((if 0 ≤ k then ['+'] else []) ++ integer k) := by
  show 'e' :: (if k < 0 then _ else _) = _
  rw [integer]
  by_cases hneg : k < 0
  · rw [if_pos hneg, if_pos hneg, if_neg (not_le.2 hneg)]
    rfl
  · rw [if_neg hneg, if_neg hneg, if_pos (not_lt.1 hneg)]
    rfl

theorem stands_whole (hd : d.coefficient ≠ 0) (he : 0 ≤ d.exponent) :
    Stands ⟨false, digits d.coefficient ++ List.replicate d.exponent.toNat '0', ['0'], none⟩
      (jsonStyle.fixed d) d where
  isLiteral := {
    whole_ne_nil := List.append_ne_nil_of_left_ne_nil (digits_ne_nil _) _
    isDigit_whole c hc := by
      rcases List.mem_append.1 hc with hc | hc
      · exact isDigit_of_mem_digits hc
      · rw [List.eq_of_mem_replicate hc]
        rfl
    length_of_zero hzero := absurd hzero (head?_digits_append hd _)
    isDigit_fraction c hc := by
      rw [List.mem_singleton.1 hc]
      rfl }
  written_eq := by
    unfold Style.fixed
    dsimp only
    rw [if_pos he]
    rfl
  negative_eq := rfl
  value_eq := by
    have hexponent : (d.exponent.toNat : ℤ) = d.exponent := Int.toNat_of_nonneg he
    have hcoefficient : value (digits d.coefficient ++ List.replicate d.exponent.toNat '0' ++ ['0'])
        = d.coefficient * 10 ^ d.exponent.toNat * 10 := by
      rw [value_concat, value_append_zeros, value_digits, mul_comm]
      rfl
    show ((value _ : ℕ) : ℚ) * 10 ^ (-1 : ℤ) = _
    have hvalue : d.value = d.coefficient * 10 ^ d.exponent.toNat := by
      rw [Numeral.value, ← zpow_natCast, hexponent]
    rw [hcoefficient, hvalue]
    push_cast
    ring
  place_neg := Int.negSucc_lt_zero 0

theorem stands_fraction (hd : d.coefficient ≠ 0) (he : d.exponent < 0) :
    ∃ n, Stands n (jsonStyle.fixed d) d := by
  let places := (-d.exponent).toNat
  let ds := padded (places + 1) d.coefficient
  let point := ds.length - places
  have hlength : places + 1 ≤ ds.length := by
    have hmax : ds.length = max (places + 1) (digits d.coefficient).length := List.length_leftpad
    omega
  have hfraction : (ds.drop point).length = places := by
    rw [List.length_drop]
    omega
  have hwhole : (ds.take point).length = point := by
    rw [List.length_take]
    omega
  have hdigits : ∀ c ∈ ds, isDigit c = true := fun c hc => isDigit_of_mem_padded hc
  refine ⟨⟨false, ds.take point, ds.drop point, none⟩,
    ⟨?_, fun c hc => hdigits c (List.mem_of_mem_take hc), fun hzero => ?_,
      fun c hc => hdigits c (List.mem_of_mem_drop hc)⟩, ?_, rfl, ?_, ?_⟩
  · rw [← List.length_pos_iff, hwhole]
    omega
  · -- a zero in front has been put there to have one digit before the point
    rw [hwhole]
    rw [List.head?_take, if_neg (by omega)] at hzero
    have hwidth : ds.length = places + 1 := length_padded_of_zero hd hzero
    omega
  · have hpoint : (ds.drop point).isEmpty = false := by
      rw [List.isEmpty_eq_false_iff, ← List.length_pos_iff, hfraction]
      omega
    have htext : jsonStyle.fixed d = ds.take point ++ ['.'] ++ ds.drop point := if_neg (by omega)
    show ds.take point ++ (fractionText (ds.drop point) ++ []) = _
    rw [htext, fractionText, hpoint, List.append_nil, List.append_assoc]
    rfl
  · show ((value (ds.take point ++ ds.drop point) : ℕ) : ℚ)
      * 10 ^ (0 - ((ds.drop point).length : ℤ)) = _
    rw [List.take_append_drop, value_padded, hfraction, Numeral.value]
    congr 2
    omega
  · show (0 - ((ds.drop point).length : ℤ)) < 0
    omega

theorem stands_scientific (he : d.exponent < 0) :
    ∃ n, Stands n (jsonStyle.scientific d) d := by
  obtain ⟨c, cs, hcs⟩ := List.exists_cons_of_ne_nil (digits_ne_nil d.coefficient)
  let exponent : ℤ := d.exponent + ((c :: cs).length - 1)
  have hdigits : ∀ b ∈ c :: cs, isDigit b = true := fun b hb => isDigit_of_mem_digits (hcs ▸ hb)
  have hplace : exponent - cs.length = d.exponent := by
    simp only [exponent, List.length_cons]
    push_cast
    ring
  refine ⟨⟨false, [c], cs, some exponent⟩, ⟨List.cons_ne_nil c [],
    fun b hb => hdigits b (List.mem_singleton.1 hb ▸ List.mem_cons_self), fun _ => rfl,
    fun b hb => hdigits b (List.mem_cons_of_mem c hb)⟩, ?_, rfl, ?_, ?_⟩
  · have htext : jsonStyle.scientific d = [c] ++ fractionText cs ++ ['e']
        ++ (if 0 ≤ exponent then ['+'] else []) ++ integer exponent := by
      unfold Style.scientific
      dsimp only
      rw [hcs]
      simp [fractionText, jsonStyle, exponent]
    show [c] ++ (fractionText cs ++ exponentText (some exponent)) = _
    rw [htext, exponentText_eq]
    simp
  · show ((value ([c] ++ cs) : ℕ) : ℚ) * 10 ^ (exponent - cs.length) = _
    rw [List.singleton_append, ← hcs, value_digits, hplace, Numeral.value]
  · exact hplace.trans_lt he

/-! ## The literal read -/

/-- The decimal is read as the float to which it rounds, if that is at most one. -/
theorem nearest?_eq {c : Nat} {k : ℤ} (h : x.toModel.unpack = .finite .positive m e hm)
    (hk : k < 0) (hv : Nearest (c * 10 ^ k) m e) (hle : (m * 2 ^ e : ℚ) ≤ 1) :
    nearest? c k = some x := by
  have hm' := isCanonical_of_unpack h
  have hc := ne_zero_of_nearest hm' hv
  have hlower := leading_ge_of_nearest hm' hv
  have hupper := leading_lt_of_nearest hm' hv hle
  have hread : Float.ofScientific c true k.natAbs = x := by
    have hplace : (c * 10 ^ k : ℚ) = c / 10 ^ k.natAbs := by
      have hk' : k = -(k.natAbs : ℤ) := by omega
      rw [hk', zpow_neg, zpow_natCast, Int.natAbs_neg, Int.natAbs_natCast, div_eq_mul_inv]
    exact ofScientific_eq h (Nat.pos_of_ne_zero hc) (Int.natAbs_pos.2 hk.ne) (hplace ▸ hv)
  unfold nearest?
  dsimp only
  rw [if_neg (not_or.2 ⟨hc, not_lt.2 hlower⟩), if_neg (by omega), decide_eq_true hk, hread,
    isInf_eq_false h]
  rfl

theorem Stands.toFloat?_eq (hs : Stands n s d) (h : x.toModel.unpack = .finite .positive m e hm)
    (hv : Nearest d.value m e) (hle : (m * 2 ^ e : ℚ) ≤ 1) : n.toFloat? = some x := by
  show (nearest? n.coefficient n.place).map _ = some x
  rw [nearest?_eq h hs.place_neg (hs.value_eq ▸ hv) hle, hs.negative_eq]
  rfl

/-! ## The float written -/

theorem render_eq (h : x.toModel.unpack = .finite .positive m e hm) (style : Style) :
    (style.render x).toList
      = let d := (Binary.ofBits x.toBits).shortest style.tie
        if style.positional (d.exponent + ((digits d.coefficient).length : ℤ) - 1)
        then style.fixed d
        else style.scientific d := by
  have hzero : (x == 0) = false := by
    show x.toModel.unpack.beq (0 : Float).toModel.unpack = false
    rw [h]
    rfl
  have hsign : signText x = [] := if_neg (not_le.2 (bits_of_unpack h).1)
  unfold Style.render
  rw [isNaN_eq_false h, isInf_eq_false h, hzero, hsign]
  exact String.toList_ofList

theorem floatJson_eq (h : x.toModel.unpack = .finite .positive m e hm) :
    Config.floatJson x = jsonStyle.render x := by
  rw [Config.floatJson, isNaN_eq_false h, isInf_eq_false h]
  rfl

/-- A float of at most one is written as a literal of a decimal that rounds to it. -/
theorem exists_stands (h : x.toModel.unpack = .finite .positive m e hm)
    (hle : (m * 2 ^ e : ℚ) ≤ 1) :
    ∃ n d, Stands n (Config.floatJson x).toList d ∧ Nearest d.value m e := by
  have hm' := isCanonical_of_unpack h
  have hv : Nearest ((Binary.ofBits x.toBits).shortest jsonStyle.tie).value m e := by
    rw [ofBits_of_unpack h]
    exact Binary.nearest_shortest ⟨hm', decide_eq_true_iff⟩ jsonStyle.tie
  rw [floatJson_eq h, render_eq h jsonStyle]
  generalize (Binary.ofBits x.toBits).shortest jsonStyle.tie = d at hv ⊢
  have hd : d.coefficient ≠ 0 := ne_zero_of_nearest hm' hv
  dsimp only
  split
  · rcases Int.lt_or_le d.exponent 0 with hneg | hge
    · obtain ⟨n, hn⟩ := stands_fraction hd hneg
      exact ⟨n, d, hn, hv⟩
    · exact ⟨_, d, stands_whole hd hge, hv⟩
  · rename_i hleading
    -- too small to be written without an exponent, as it is not too large
    have hneg : d.exponent < 0 := by
      have hlt := leading_lt_of_nearest hm' hv hle
      have hpos := List.length_pos_iff.2 (digits_ne_nil d.coefficient)
      simp only [jsonStyle, Bool.and_eq_true, decide_eq_true_eq] at hleading
      omega
    obtain ⟨n, hn⟩ := stands_scientific hneg
    exact ⟨n, d, hn, hv⟩

/-! ## Fractions -/

/-- The order of positive floats is that of their values. -/
theorem le_one_of_unpack (h : x.toModel.unpack = .finite .positive m e hm) (hle : x ≤ 1) :
    (m * 2 ^ e : ℚ) ≤ 1 := by
  have hone : (1 : Float).toModel.unpack = .finite .positive (2 ^ 52) (-52) (by decide) := by
    rfl
  have hcompare : x.toModel.unpack.le (1 : Float).toModel.unpack = true := of_decide_eq_true hle
  rw [h, hone] at hcompare
  have horder : e < -52 ∨ e = -52 ∧ m ≤ 2 ^ 52 := by
    have hthen : ((compare e (-52)).then (compare m (2 ^ 52))).isLE = true := hcompare
    rcases lt_trichotomy e (-52) with hlt | heq | hgt
    · exact .inl hlt
    · rw [heq, Std.compare_self] at hthen
      exact .inr ⟨heq, Nat.isLE_compare.1 hthen⟩
    · rw [Int.compare_eq_gt.2 hgt] at hthen
      cases hthen
  rcases horder with hlt | ⟨rfl, hle⟩
  · have hm' : (m : ℚ) ≤ 2 ^ (53 : ℤ) := by exact_mod_cast (isCanonical_of_unpack h).lt.le
    calc (m * 2 ^ e : ℚ) ≤ 2 ^ (53 : ℤ) * 2 ^ (-53 : ℤ) :=
          mul_le_mul hm' (zpow_le_zpow_right₀ one_le_two (by omega)) (by positivity) (by positivity)
      _ = 1 := by norm_num
  · have hm' : (m : ℚ) ≤ 2 ^ (52 : ℤ) := by exact_mod_cast hle
    calc (m * 2 ^ (-52 : ℤ) : ℚ) ≤ 2 ^ (52 : ℤ) * 2 ^ (-52 : ℤ) :=
          mul_le_mul_of_nonneg_right hm' (by positivity)
      _ = 1 := by norm_num

/-- A float from zero to one is written as a literal that is read as the same float. -/
theorem exists_literal (hge : 0 ≤ x) (hle : x ≤ 1) :
    ∃ n : Number, n.IsLiteral ∧ (Config.floatJson x).toList = n.written ∧ n.toFloat? = some x := by
  have hnotNegative := NotNegative.of_le hge
  have hcompare : x.toModel.unpack.le (1 : Float).toModel.unpack = true := of_decide_eq_true hle
  generalize hunpack : x.toModel.unpack = u at hnotNegative hcompare
  cases hnotNegative with
  | notANumber => cases hcompare
  | zero sign =>
    have hdigit : ∀ c ∈ ['0'], isDigit c = true := List.forall_mem_singleton.2 rfl
    have hliteral (negative : Bool) : IsLiteral ⟨negative, ['0'], ['0'], none⟩ :=
      ⟨List.cons_ne_nil _ _, hdigit, fun _ => rfl, hdigit⟩
    rcases eq_zero_of_unpack hunpack with rfl | rfl
    · exact ⟨⟨false, ['0'], ['0'], none⟩, hliteral false, rfl, rfl⟩
    · exact ⟨⟨true, ['0'], ['0'], none⟩, hliteral true, rfl, rfl⟩
  | infinity => cases hcompare
  | finite m e hm =>
    have hone := le_one_of_unpack hunpack hle
    obtain ⟨n, d, hn, hv⟩ := exists_stands hunpack hone
    exact ⟨n, hn.isLiteral, hn.written_eq.symm, hn.toFloat?_eq hunpack hv hone⟩

end ResponseCache.Json.Number
