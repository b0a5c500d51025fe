import Mathlib
import ResponseCache.Evaluation.Lifetime

/-!
# Estimated lifetimes are not negative

The estimate of a lifetime is a product of floats: the age that the response had when the origin
made it, and a fraction of the configuration. What its value is depends on rounding, but not its
sign. A float that is no negative number (`NotNegative`) stays so through each step of the
computation: the conversion of a natural number, the product, packing into 64 bits and the
conversion back. So with a fraction that passes the check of a configuration the estimate does not
lie in the past (`Lifetime.scaled_nonneg`), and it is at most the configured cap.
-/

namespace ResponseCache

open Float.Model Float.Model.UnpackedFloat

/-! ## Floats that are not negative -/

/-- The float is no negative number: a positive one, a zero of either sign or no number at all. -/
inductive NotNegative : UnpackedFloat → Prop
  | notANumber : NotNegative .notANumber
  | zero (s : Sign) : NotNegative (.zero s)
  | infinity : NotNegative (.infinity .positive)
  | finite (m : Nat) (e : Int) (h : 0 < m) : NotNegative (.finite .positive m e h)

namespace NotNegative

variable {u v : UnpackedFloat}

/-- Rounding keeps the sign, also where it ends at zero. -/
theorem roundWithAccuracy (S : Format) (m : Nat) (e : Int) (accuracy : Accuracy) :
    NotNegative (UnpackedFloat.roundWithAccuracy S .positive m e accuracy) := by
  unfold UnpackedFloat.roundWithAccuracy
  dsimp only
  split
  · exact .zero _
  · exact .finite _ _ _

/-- The conversion of a natural number has the positive sign. -/
theorem ofInt (S : Format) {n : Int} (h : 0 ≤ n) : NotNegative (UnpackedFloat.ofInt S n) := by
  unfold UnpackedFloat.ofInt UnpackedFloat.normalize
  split
  · rename_i hlt
    rw [Int.compare_eq_lt] at hlt
    omega
  · exact .zero _
  · exact .roundWithAccuracy S _ _ _

/-- By the kinds of the factors. Zero times infinity is no number, and that is no negative one. -/
theorem mul (S : Format) (hu : NotNegative u) (hv : NotNegative v) :
    NotNegative (UnpackedFloat.mul S u v) := by
  cases hu <;> cases hv
  case finite.finite => exact .roundWithAccuracy S _ _ _
  all_goals constructor

/-- What is no number converts to zero, and infinity to the greatest value. -/
theorem toInt {least greatest : Int} (hu : NotNegative u) (h : 0 ≤ greatest) :
    0 ≤ u.toInt least greatest := by
  cases hu with
  | notANumber => exact Int.le_refl 0
  | zero s => exact Int.le_refl 0
  | infinity => exact h
  | finite m e hm => exact Int.natCast_nonneg _

/-- What is packed with the positive sign is unpacked with it, whatever the other bits say. -/
theorem unpack_packComponents (S : Format) (e : BitVec S.exponentBits)
    (m : BitVec S.mantissaBitsWithoutImplicit) :
    NotNegative (UnpackedFloat.unpack S (packComponents S .positive e m)) := by
  unfold UnpackedFloat.unpack
  simp only [unpackMantissa_packComponents, unpackExponent_packComponents,
    unpackSign_packComponents, Sign.ofBitVec_toBitVec]
  split
  · split
    · exact .infinity
    · exact .notANumber
  · split
    · split
      · exact .zero _
      · exact .finite _ _ _
    · exact .finite _ _ _

/-- A float is packed with its own sign, but for one that is no number, which is packed with the
positive one. -/
theorem unpack_pack (hu : NotNegative u) :
    NotNegative (UnpackedFloat.unpack .binary64 (UnpackedFloat.pack .binary64 u)) := by
  cases hu with
  | notANumber => exact .unpack_packComponents _ _ _
  | zero s => cases s <;> exact .zero _
  | infinity => exact .unpack_packComponents _ _ _
  | finite m e hm =>
    unfold UnpackedFloat.pack
    dsimp only
    split
    · exact .unpack_packComponents _ _ _
    · split <;> exact .unpack_packComponents _ _ _

/-! ## Operations on floats -/

variable {x y : Float}

/-- A float that compares as at least zero is not negative. One that is no number compares with
nothing. -/
theorem of_le (h : 0 ≤ x) : NotNegative x.toModel.unpack := by
  have hle : (Float.Model.unpack (0 : Float).toModel).le x.toModel.unpack = true :=
    of_decide_eq_true h
  have hzero : Float.Model.unpack (0 : Float).toModel = .zero .positive := rfl
  rw [hzero, UnpackedFloat.le] at hle
  cases hx : x.toModel.unpack with
  | notANumber => exact .notANumber
  | zero s => exact .zero s
  | infinity s =>
    rw [hx] at hle
    cases s with
    | positive => exact .infinity
    | negative => cases hle
  | finite s m e hm =>
    rw [hx] at hle
    cases s with
    | positive => exact .finite m e hm
    | negative => cases hle

/-- The product of two floats is the product of what they stand for, packed. -/
theorem float_mul (hx : NotNegative x.toModel.unpack) (hy : NotNegative y.toModel.unpack) :
    NotNegative (x * y).toModel.unpack := by
  have hmul : (x * y).toModel = Float.Model.pack (UnpackedFloat.mul .binary64 x.toModel.unpack
    y.toModel.unpack) := rfl
  rw [hmul]
  exact (hx.mul .binary64 hy).unpack_pack

theorem ofScientific (S : Format) (m : Nat) : NotNegative (UnpackedFloat.ofScientific S m 0) := by
  unfold UnpackedFloat.ofScientific
  split
  · exact .zero _
  · split
    · exact .infinity
    · split
      · exact .zero _
      · rw [if_pos (Int.le_refl 0)]
        exact .mul S (.finite _ _ _) (.finite _ _ _)

/-- A natural number becomes a float by way of a word if it fits one, and as a decimal number
otherwise. -/
theorem float_ofNat (n : Nat) : NotNegative (Float.ofNat n).toModel.unpack := by
  show NotNegative (Float.ofScientific n false 0).toModel.unpack
  unfold Float.ofScientific
  split
  · have hone : NotNegative (Float.ofBits 0x3FF0000000000000).toModel.unpack := .of_le rfl
    have hword : NotNegative n.toUInt64.toFloat.toModel.unpack :=
      (ofInt .binary64 (Int.natCast_nonneg _)).unpack_pack
    exact hword.float_mul hone
  · exact (ofScientific .binary64 n).unpack_pack

/-- The conversion to 64 bits keeps what is not negative so, since it is cut off at the greatest
value. -/
theorem float_toInt64 (hx : NotNegative x.toModel.unpack) : 0 ≤ x.toModel.toInt64.toInt := by
  have hround : 0 ≤ x.toModel.unpack.toInt Int64.minValue.toInt Int64.maxValue.toInt :=
    hx.toInt (by decide)
  show 0 ≤ (Int64.ofIntClamp (x.toModel.unpack.toInt _ _)).toInt
  unfold Int64.ofIntClamp
  split
  · split
    · rw [Int64.toInt_ofIntLE]
      exact hround
    · decide
  · rename_i hlow
    exact absurd (Int.le_trans (by decide) hround) hlow

end NotNegative

/-- A configuration passes its check if its fraction is a number from zero to one. -/
theorem Config.check_eq_ok_iff {c : Config} :
    c.check = .ok () ↔ 0 ≤ c.heuristicFraction ∧ c.heuristicFraction ≤ 1 := by
  unfold check
  split
  · rename_i hbounds
    exact iff_of_true rfl hbounds
  · rename_i hbounds
    exact iff_of_false (fun h => nomatch h) hbounds

namespace Lifetime

variable {age : Int} {fraction : Float}

/-- An estimate from an age and a fraction that are not negative is not negative. -/
theorem scaled_nonneg (hage : 0 ≤ age) (hfraction : 0 ≤ fraction) : 0 ≤ scaled age fraction := by
  have hmillis : 0 ≤ age.tdiv 1000000 := Int.tdiv_nonneg hage (by decide)
  obtain ⟨millis, hmillis⟩ := Int.eq_ofNat_of_zero_le hmillis
  have hproduct : NotNegative (Float.ofNat millis * fraction).toModel.unpack :=
    (NotNegative.float_ofNat millis).float_mul (.of_le hfraction)
  rw [scaled, hmillis]
  exact Int.mul_nonneg hproduct.float_toInt64 (by decide)

/-- An estimate is a span, since its milliseconds fit 64 bits. -/
theorem scaled_le_longestSpan (age : Int) (fraction : Float) :
    scaled age fraction ≤ Duration.longestSpan := by
  have hle := (Float.ofInt (age.tdiv 1000000) * fraction).toModel.toInt64.toInt_le
  have hmax : Int64.maxValue.toInt = 9223372036854775807 := rfl
  rw [hmax] at hle
  show _ * _ ≤ ((9223372036854775807 * 1000000 : Nat) : Int)
  omega

/-- A cap that is longer than the longest span does not cut an estimate, as if it were one. -/
theorem min_scaled_cap (age : Int) (c : Config) :
    min (scaled age c.heuristicFraction) (cap c)
      = min (scaled age c.heuristicFraction) c.heuristicCap.toNanos := by
  have hle := scaled_le_longestSpan age c.heuristicFraction
  unfold cap Duration.toSpan?
  split
  · rfl
  · rw [Option.getD_none]
    omega

end Lifetime

end ResponseCache
