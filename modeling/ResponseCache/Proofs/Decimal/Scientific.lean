import ResponseCache.Decimal.Shortest
import ResponseCache.Proofs.Decimal.Rounding

/-!
# Decimals read as floats

A float is its bits: a finite positive one is told from them (`bits_of_unpack`), and packing it
again gives them back (`ofModel_pack`). A decimal `d / 10 ^ k` is read in one of two ways, as the
quotient of two floats if both numbers are floats, and else as the quotient of the numbers
themselves. Either way it is the float nearest to the decimal that comes out (`ofScientific_eq`).
-/

namespace ResponseCache.Decimal

open Float.Model Float.Model.UnpackedFloat

variable {m : Nat} {e : ℤ}

/-! ## Bits -/

section Bits

variable {x : Float} {hm : 0 < m}

theorem toNat_unpackExponent (b : BitVec 64) :
    (@unpackExponent .binary64 b).toNat = b.toNat / 2 ^ 52 % 2 ^ 11 := by
  simp [unpackExponent, BitVec.extractLsb_toNat, Nat.shiftRight_eq_div_pow]

theorem toNat_unpackMantissa (b : BitVec 64) :
    (@unpackMantissa .binary64 b).toNat = b.toNat % 2 ^ 52 := by
  simp [unpackMantissa, BitVec.extractLsb_toNat]

theorem toNat_unpackSign (b : BitVec 64) :
    (@unpackSign .binary64 b).toNat = b.toNat / 2 ^ 63 % 2 := by
  simp [unpackSign, BitVec.extractLsb_toNat, Nat.shiftRight_eq_div_pow]

theorem toNat_toBitVec {b : BitVec 1} {s : Sign} (h : Sign.ofBitVec b = s) :
    s.toBitVec.toNat = b.toNat := by
  rw [← h]
  rcases BitVec.eq_zero_or_eq_one b with rfl | rfl <;> rfl

theorem toNat_one_append (b : BitVec 52) : (1#1 ++ b).toNat = 2 ^ 52 + b.toNat := by
  rw [BitVec.toNat_append, ← Nat.shiftLeft_add_eq_or_of_lt b.isLt]
  rfl

/-- What a word is unpacked to, by its exponent and its mantissa. -/
theorem unpack_cases (b : BitVec 64) :
    (∃ s, UnpackedFloat.unpack .binary64 b = .infinity s)
      ∨ UnpackedFloat.unpack .binary64 b = .notANumber
      ∨ b.toNat / 2 ^ 52 % 2 ^ 11 = 0 ∧ b.toNat % 2 ^ 52 = 0
        ∧ UnpackedFloat.unpack .binary64 b = .zero (.ofBitVec (@unpackSign .binary64 b))
      ∨ b.toNat / 2 ^ 52 % 2 ^ 11 = 0
        ∧ (∃ h, UnpackedFloat.unpack .binary64 b
          = .finite (.ofBitVec (@unpackSign .binary64 b)) (b.toNat % 2 ^ 52) (-1074) h)
      ∨ b.toNat / 2 ^ 52 % 2 ^ 11 ≠ 0 ∧ b.toNat / 2 ^ 52 % 2 ^ 11 ≠ 2047
        ∧ ∃ h, UnpackedFloat.unpack .binary64 b
          = .finite (.ofBitVec (@unpackSign .binary64 b)) (2 ^ 52 + b.toNat % 2 ^ 52)
            ((b.toNat / 2 ^ 52 % 2 ^ 11 : ℕ) - 1075) h := by
  have hbias : Format.binary64.exponentBias = 1023 := rfl
  have hexponent := toNat_unpackExponent b
  have hmantissa := toNat_unpackMantissa b
  unfold UnpackedFloat.unpack
  dsimp only
  rw [← hexponent, ← hmantissa]
  split
  · split
    · exact .inl ⟨_, rfl⟩
    · exact .inr (.inl rfl)
  · rename_i hfinite
    split
    · rename_i hzero
      split
      · rename_i hfraction
        rw [hzero, hfraction]
        exact .inr (.inr (.inl ⟨rfl, rfl, rfl⟩))
      · rename_i hfraction
        have hpos : 0 < (@unpackMantissa .binary64 b).toNat :=
          Nat.pos_of_ne_zero fun h => hfraction (BitVec.eq_of_toNat_eq h)
        rw [hzero]
        exact .inr (.inr (.inr (.inl ⟨rfl, hpos, rfl⟩)))
    · rename_i hnormal
      refine .inr (.inr (.inr (.inr ⟨fun h => hnormal ?_, fun h => hfinite ?_, by omega, ?_⟩)))
      · exact BitVec.eq_of_toNat_eq h
      · exact BitVec.eq_of_toNat_eq h
      · simp only [toNat_one_append, hbias]
        rfl

/-- What the bits of a positive number are. -/
theorem bits_of_unpack (h : x.toModel.unpack = .finite .positive m e hm) :
    x.toBits.toNat < 2 ^ 63
      ∧ (x.toBits.toNat < 2 ^ 52 ∧ m = x.toBits.toNat ∧ e = -1074
        ∨ 2 ^ 52 ≤ x.toBits.toNat ∧ x.toBits.toNat / 2 ^ 52 < 2047
          ∧ m = 2 ^ 52 + x.toBits.toNat % 2 ^ 52 ∧ e = x.toBits.toNat / 2 ^ 52 - 1075) := by
  have hbits : x.toBits.toNat = x.toModel.toBits.toBitVec.toNat := rfl
  have hpositive : Sign.positive.toBitVec.toNat = 0 := rfl
  rw [hbits]
  unfold Float.Model.unpack at h
  generalize x.toModel.toBits.toBitVec = b at h
  have hlt : b.toNat < 2 ^ 64 := b.isLt
  have hsign := toNat_unpackSign b
  rcases unpack_cases b with ⟨s, hu⟩ | hu | ⟨-, -, hu⟩ | ⟨hzero, _, hu⟩ | ⟨hzero, htop, _, hu⟩ <;>
    rw [hu] at h
  · cases h
  · cases h
  · cases h
  · injection h with hs hm he
    rw [← toNat_toBitVec hs, hpositive] at hsign
    norm_num at *
    omega
  · injection h with hs hm he
    rw [← toNat_toBitVec hs, hpositive] at hsign
    norm_num at *
    omega

theorem isCanonical_of_unpack (h : x.toModel.unpack = .finite .positive m e hm) :
    IsCanonical m e := by
  obtain ⟨-, ⟨hlt, rfl, rfl⟩ | ⟨hge, hlt, rfl, rfl⟩⟩ := bits_of_unpack h
  · exact ⟨hm, by omega, le_refl _, .inl rfl⟩
  · exact ⟨hm, by omega, by omega, .inr (by omega)⟩

theorem toNat_packComponents (exponent : BitVec 11) (mantissa : BitVec 52) :
    (packComponents .binary64 .positive exponent mantissa).toNat
      = exponent.toNat * 2 ^ 52 + mantissa.toNat := by
  have hsign : (Sign.positive.toBitVec ++ exponent).toNat = exponent.toNat := by
    rw [BitVec.toNat_append]
    exact Nat.zero_or _
  show (Sign.positive.toBitVec ++ exponent ++ mantissa).toNat = _
  rw [BitVec.toNat_append, hsign, ← Nat.shiftLeft_add_eq_or_of_lt mantissa.isLt, Nat.shiftLeft_eq]

theorem toNat_pack (h : x.toModel.unpack = .finite .positive m e hm) :
    (UnpackedFloat.pack .binary64 (.finite .positive m e hm)).toNat = x.toBits.toNat := by
  have hbias : (Format.binary64.exponentBias : ℤ) = 1023 := rfl
  have hbits : Format.binary64.mantissaBits = 53 := rfl
  obtain ⟨hsign, ⟨hlt, rfl, rfl⟩ | ⟨hge, hlt, rfl, rfl⟩⟩ := bits_of_unpack h
  · have hlog : x.toBits.toNat.log2 < 52 := (Nat.log2_lt hm.ne').2 hlt
    unfold UnpackedFloat.pack
    dsimp only
    rw [hbias, hbits, if_neg (by decide), if_neg (by omega)]
    exact (toNat_packComponents _ _).trans (by simpa using hlt)
  · have hlog : (2 ^ 52 + x.toBits.toNat % 2 ^ 52).log2 = 52 := by
      rw [Nat.log2_eq_iff hm.ne']
      omega
    have hexponent : ((x.toBits.toNat / 2 ^ 52 : ℕ) - 1075 + 1023 + 52 : ℤ).toNat
        = x.toBits.toNat / 2 ^ 52 := by
      omega
    unfold UnpackedFloat.pack
    dsimp only
    rw [hbias, hbits, hlog, if_neg (by push_cast; omega), if_pos rfl]
    refine (toNat_packComponents _ _).trans ?_
    rw [BitVec.toNat_ofNat, BitVec.toNat_ofNat]
    push_cast
    omega

theorem ofModel_pack_eq {u : UnpackedFloat}
    (h : (UnpackedFloat.pack .binary64 u).toNat = x.toBits.toNat) :
    Float.ofModel (Float.Model.pack u) = x := by
  have hbits : UInt64.ofBitVec (UnpackedFloat.pack .binary64 u) = x.toModel.toBits :=
    UInt64.toNat_inj.1 h
  have hmodel : Float.Model.pack u = x.toModel := by
    unfold Float.Model.pack
    simp only [hbits]
  rw [hmodel]

/-- Packing a positive number again gives its bits. -/
theorem ofModel_pack (h : x.toModel.unpack = .finite .positive m e hm) :
    Float.ofModel (Float.Model.pack (.finite .positive m e hm)) = x :=
  ofModel_pack_eq (toNat_pack h)

/-- There are two zeros, one for each sign. -/
theorem eq_zero_of_unpack {s : Sign} (h : x.toModel.unpack = .zero s) : x = 0 ∨ x = -0 := by
  have hbits : x.toBits.toNat = x.toModel.toBits.toBitVec.toNat := rfl
  have hpack : (UnpackedFloat.pack .binary64 (.zero s)).toNat = x.toBits.toNat := by
    rw [hbits]
    unfold Float.Model.unpack at h
    generalize x.toModel.toBits.toBitVec = b at h
    have hlt : b.toNat < 2 ^ 64 := b.isLt
    have hsign := toNat_unpackSign b
    rcases unpack_cases b with
      ⟨s, hu⟩ | hu | ⟨hzero, hfraction, hu⟩ | ⟨-, _, hu⟩ | ⟨-, -, _, hu⟩ <;>
      rw [hu] at h
    · cases h
    · cases h
    · injection h with hs
      rw [← toNat_toBitVec hs] at hsign
      norm_num at hzero hfraction
      cases s with
      | positive =>
        show 0 = b.toNat
        have hpositive : Sign.positive.toBitVec.toNat = 0 := rfl
        omega
      | negative =>
        show 2 ^ 63 = b.toNat
        have hnegative : Sign.negative.toBitVec.toNat = 1 := rfl
        omega
    · cases h
    · cases h
  have hzero := ofModel_pack_eq hpack
  cases s with
  | positive => exact .inl hzero.symm
  | negative => exact .inr hzero.symm

theorem isInf_eq_false (h : x.toModel.unpack = .finite .positive m e hm) : x.isInf = false := by
  show x.toModel.unpack.isInf = false
  rw [h]
  rfl

theorem isNaN_eq_false (h : x.toModel.unpack = .finite .positive m e hm) : x.isNaN = false := by
  show x.toModel.unpack.isNaN = false
  rw [h]
  rfl

theorem ofBits_of_unpack (h : x.toModel.unpack = .finite .positive m e hm) :
    Binary.ofBits x.toBits = ⟨m, e, decide (m = 2 ^ 52 ∧ e ≠ -1074)⟩ := by
  obtain ⟨hsign, hbits⟩ := bits_of_unpack h
  unfold Binary.ofBits
  dsimp only
  rcases hbits with ⟨hlt, rfl, rfl⟩ | ⟨hge, hlt, rfl, rfl⟩
  · have hlow : x.toBits.toNat / 4503599627370496 % 2048 = 0 := by omega
    have hmod : x.toBits.toNat % 4503599627370496 = x.toBits.toNat := by omega
    rw [if_pos hlow, hmod]
    simp
  · have hexponent : x.toBits.toNat / 4503599627370496 % 2048 = x.toBits.toNat / 2 ^ 52 := by omega
    rw [hexponent, if_neg (by omega)]
    have hnarrow : (x.toBits.toNat % 4503599627370496 == 0 && x.toBits.toNat / 2 ^ 52 != 1)
        = decide (2 ^ 52 + x.toBits.toNat % 2 ^ 52 = 2 ^ 52
          ∧ ((x.toBits.toNat / 2 ^ 52 : ℕ) - 1075 : ℤ) ≠ -1074) := by
      rw [Bool.eq_iff_iff]
      simp only [Bool.and_eq_true, beq_iff_eq, bne_iff_ne, decide_eq_true_eq]
      omega
    rw [hnarrow]
    push_cast
    rfl
end Bits

/-! ## Decimals -/

section Scientific

variable {x : Float} {hm : 0 < m} {d k : Nat}

theorem unpack_normal {exponent : BitVec 11} (htop : exponent ≠ -1#11) (hzero : exponent ≠ 0#11)
    (hm : 0 < m) (hlt : m < 2 ^ 53) (hnormal : 2 ^ 52 ≤ m) :
    UnpackedFloat.unpack .binary64 (packComponents .binary64 .positive exponent (BitVec.ofNat 52 m))
      = .finite .positive m (exponent.toNat - 1075) hm := by
  have hmantissa : (1#1 ++ BitVec.ofNat 52 m).toNat = m := by
    rw [toNat_one_append, BitVec.toNat_ofNat]
    omega
  unfold UnpackedFloat.unpack
  simp only [unpackMantissa_packComponents, unpackExponent_packComponents,
    unpackSign_packComponents, Sign.ofBitVec_toBitVec]
  rw [if_neg htop, if_neg hzero, UnpackedFloat.finite.injEq]
  exact ⟨rfl, hmantissa, rfl⟩

theorem unpack_subnormal (hm : 0 < m) (hlt : m < 2 ^ 52) :
    UnpackedFloat.unpack .binary64 (packComponents .binary64 .positive 0#11 (BitVec.ofNat 52 m))
      = .finite .positive m (-1074) hm := by
  have hmantissa : (BitVec.ofNat 52 m).toNat = m := by
    rw [BitVec.toNat_ofNat]
    omega
  have hne : BitVec.ofNat 52 m ≠ 0#52 := by
    intro hzero
    rw [hzero] at hmantissa
    exact hm.ne hmantissa
  unfold UnpackedFloat.unpack
  simp only [unpackMantissa_packComponents, unpackExponent_packComponents,
    unpackSign_packComponents, Sign.ofBitVec_toBitVec]
  rw [if_neg (by decide), if_pos trivial, dif_neg hne, UnpackedFloat.finite.injEq]
  exact ⟨rfl, hmantissa, rfl⟩

/-- A number that has its 53 bits, or lies at the least exponent, is unpacked as it was packed. -/
theorem unpack_pack (hm : IsCanonical m e) (htop : e ≤ 971) :
    (Float.Model.pack (.finite .positive m e hm.pos)).unpack = .finite .positive m e hm.pos := by
  have hbias : Format.binary64.exponentBias = 1023 := rfl
  have hbits : Format.binary64.mantissaBits = 53 := rfl
  have hge := hm.ge
  show UnpackedFloat.unpack .binary64
    (UnpackedFloat.pack .binary64 (.finite .positive m e hm.pos)) = _
  unfold UnpackedFloat.pack
  simp only [hbias, hbits]
  rw [if_neg (by push_cast; omega)]
  by_cases hnormal : 2 ^ 52 ≤ m
  · have hlog : m.log2 = 52 := (Nat.log2_eq_iff hm.pos.ne').2 ⟨hnormal, hm.lt⟩
    have hexponent : (BitVec.ofNat 11 (e + 1023 + 52).toNat).toNat = (e + 1075).toNat := by
      rw [BitVec.toNat_ofNat]
      omega
    have hne : ∀ b : BitVec 11, b.toNat = 0 ∨ b.toNat = 2047 →
        BitVec.ofNat 11 (e + 1023 + 52).toNat ≠ b := by
      rintro b hb rfl
      omega
    rw [hlog, if_pos rfl]
    refine (unpack_normal (hne _ (.inr rfl)) (hne _ (.inl rfl)) hm.pos hm.lt hnormal).trans ?_
    rw [UnpackedFloat.finite.injEq]
    exact ⟨rfl, rfl, by omega⟩
  · have hlog : m.log2 ≠ 52 := by
      rw [Ne, Nat.log2_eq_iff hm.pos.ne']
      omega
    obtain rfl : e = -1074 := hm.normal.resolve_right hnormal
    rw [if_neg (by omega)]
    exact unpack_subnormal hm.pos (Nat.not_le.1 hnormal)

theorem roundWithAccuracy_of_canonical (hm : IsCanonical m e) (s : Sign) :
    roundWithAccuracy .binary64 s m e .exact = .finite s m e hm.pos := by
  have hrounded : (ExtendedMantissa.mk m false false).roundedMantissa = m := rfl
  unfold roundWithAccuracy
  simp only [shiftToTargetExponent_of_canonical hm, hrounded]
  rw [dif_neg hm.pos.ne']

/-- A natural number of at most 53 bits is a float. -/
theorem unpack_toFloat (hd : 0 < d) (hlt : d < 2 ^ 53) :
    ∃ m e h, d.toUInt64.toFloat.toModel.unpack = .finite .positive m e h
      ∧ (m : ℚ) * 2 ^ e = d := by
  have hlog : d.log2 < 53 := (Nat.log2_lt hd.ne').2 hlt
  have hword : d.toUInt64.toNat = d := by
    rw [Nat.toUInt64_eq, UInt64.toNat_ofNat']
    omega
  let shift := 52 - d.log2
  have htarget : (0 - Format.binary64.targetExponent (totalExponent d 0)).toNat = shift := by
    rw [targetExponent_eq]
    omega
  have hm : IsCanonical (d <<< shift) (0 - shift) := by
    have hlow : 2 ^ d.log2 ≤ d := Nat.log2_self_le hd.ne'
    have hhigh : d < 2 ^ (d.log2 + 1) := Nat.lt_log2_self
    have hsum : d.log2 + shift = 52 := by omega
    have hmore : d * 2 ^ shift < 2 ^ (d.log2 + 1) * 2 ^ shift :=
      Nat.mul_lt_mul_of_pos_right hhigh (Nat.two_pow_pos shift)
    have hless : 2 ^ d.log2 * 2 ^ shift ≤ d * 2 ^ shift := Nat.mul_le_mul_right _ hlow
    rw [← pow_add, Nat.add_right_comm, hsum] at hmore
    rw [← pow_add, hsum] at hless
    rw [Nat.shiftLeft_eq]
    exact ⟨by omega, hmore, by omega, .inr hless⟩
  have hmodel : d.toUInt64.toFloat.toModel
      = .pack (.finite .positive (d <<< shift) (0 - shift) hm.pos) := by
    have hround : UnpackedFloat.round .binary64 .positive d 0
        = .finite .positive (d <<< shift) (0 - shift) hm.pos := by
      unfold UnpackedFloat.round decreaseExponent
      simp only [htarget]
      exact roundWithAccuracy_of_canonical hm .positive
    have hnormalize : UnpackedFloat.normalize .binary64 (d.toUInt64.toNat : ℤ) 0 .positive
        = UnpackedFloat.round .binary64 .positive d 0 := by
      have hcompare : compare (d : ℤ) 0 = .gt := by
        rw [Int.compare_eq_gt]
        omega
      unfold UnpackedFloat.normalize
      rw [hword, hcompare]
      rfl
    show Float.Model.pack (UnpackedFloat.normalize .binary64 (d.toUInt64.toNat : ℤ) 0 .positive) = _
    rw [hnormalize, hround]
  refine ⟨d <<< shift, 0 - shift, hm.pos, ?_, ?_⟩
  · rw [hmodel]
    exact unpack_pack hm (by omega)
  · rw [Nat.shiftLeft_eq, zero_sub, zpow_neg, zpow_natCast]
    push_cast
    field_simp

theorem zpow_mul_pow_toNat {b : ℚ} (hb : b ≠ 0) (k : ℤ) :
    b ^ k * b ^ (-k).toNat = b ^ k.toNat := by
  rw [← zpow_natCast, ← zpow_natCast, ← zpow_add₀ hb]
  congr 1
  omega

/-- The number is ten to the power of `k`. -/
def IsPowerOfTen (k : Nat) : UnpackedFloat → Bool
  | .finite .positive m e _ => m * 2 ^ e.toNat == 10 ^ k * 2 ^ (-e).toNat
  | _ => false

theorem exists_of_isPowerOfTen {u : UnpackedFloat} (h : IsPowerOfTen k u = true) :
    ∃ m e h, u = .finite .positive m e h ∧ (m : ℚ) * 2 ^ e = 10 ^ k := by
  unfold IsPowerOfTen at h
  split at h
  · rename_i m e hm
    refine ⟨m, e, hm, rfl, ?_⟩
    have hvalue : (m : ℚ) * 2 ^ e.toNat = 10 ^ k * 2 ^ (-e).toNat := by exact_mod_cast eq_of_beq h
    rw [← zpow_mul_pow_toNat two_ne_zero, ← mul_assoc] at hvalue
    exact mul_right_cancel₀ (by positivity) hvalue
  · cases h

theorem isPowerOfTen_table : ∀ k (h : k < Float.exactlyRepresentablePowersOfTen.size),
    IsPowerOfTen k (Float.exactlyRepresentablePowersOfTen[k]).toModel.unpack = true := by
  decide

/-- The decimal `d / 10 ^ k` is read as the float to which it rounds. -/
theorem ofScientific_eq (h : x.toModel.unpack = .finite .positive m e hm) (hd : 0 < d)
    (hk : 0 < k) (hv : Nearest (d / 10 ^ k) m e) : Float.ofScientific d true k = x := by
  have hm' := isCanonical_of_unpack h
  suffices hmodel : (Float.ofScientific d true k).toModel = .pack (.finite .positive m e hm) by
    rw [← ofModel_pack h, ← hmodel]
  unfold Float.ofScientific
  split
  · rename_i hsmall
    -- both numbers are floats, and so it is their quotient that is rounded
    obtain ⟨m₁, e₁, h₁, hunpack₁, hvalue₁⟩ := unpack_toFloat hd hsmall.1
    have hk' : k < Float.exactlyRepresentablePowersOfTen.size := Nat.lt_succ_of_le hsmall.2
    obtain ⟨m₂, e₂, h₂, hunpack₂, hvalue₂⟩ := exists_of_isPowerOfTen (isPowerOfTen_table k hk')
    show Float.Model.pack (UnpackedFloat.div .binary64 _ _) = _
    rw [hunpack₁, hunpack₂, div_eq hm' h₁ h₂ (by rwa [hvalue₁, hvalue₂])]
    rfl
  · have hscientific : UnpackedFloat.ofScientific .binary64 d (Int.negOfNat k)
        = .finite .positive m e hm := by
      have hlarge : k < d.log2 + 1076 := by
        have hlow := hv.least_le hm'
        have hhigh : (d : ℚ) < 2 ^ (d.log2 + 1) := by exact_mod_cast Nat.lt_log2_self
        rw [le_div_iff₀ (by positivity)] at hlow
        have hpower : (2 : ℚ) ^ k ≤ 10 ^ k := pow_le_pow_left₀ (by norm_num) (by norm_num) k
        have hlt : (2 : ℚ) ^ (-1075 + k : ℤ) < 2 ^ (d.log2 + 1 : ℤ) := by
          rw [zpow_add₀ two_ne_zero, zpow_natCast]
          calc (2 : ℚ) ^ (-1075 : ℤ) * 2 ^ k ≤ 2 ^ (-1075 : ℤ) * 10 ^ k :=
                mul_le_mul_of_nonneg_left hpower (by positivity)
            _ ≤ d := hlow
            _ < 2 ^ (d.log2 + 1 : ℤ) := by exact_mod_cast hhigh
        have hexponent := (zpow_lt_zpow_iff_right₀ one_lt_two).1 hlt
        omega
      have hexponent : Int.negOfNat k = -(k : ℤ) := Int.negOfNat_eq
      have htoNat : (-(-(k : ℤ))).toNat = k := by omega
      rw [hexponent]
      unfold UnpackedFloat.ofScientific
      rw [dif_neg hd.ne', if_neg (by push_cast; omega), if_neg (by push_cast; omega),
        if_neg (by omega)]
      refine div_eq hm' hd _ ?_
      rw [htoNat]
      simpa using hv
    show Float.Model.pack (UnpackedFloat.ofScientific .binary64 d (Int.negOfNat k)) = _
    rw [hscientific]

end Scientific

end ResponseCache.Decimal
