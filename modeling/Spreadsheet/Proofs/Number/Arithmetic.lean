import Spreadsheet.Proofs.Number.Double
import Spreadsheet.Proofs.Number.Nearest

/-!
# Products and quotients of doubles

A product or a quotient of finite doubles is the double nearest to the product or quotient of the numbers that they stand for
(`mul_ofMagnitude`, `div_ofMagnitude`). The machine's rounding shifts a mantissa to the right and keeps two residual bits of what is
shifted out. These say where the remainder of a quotient lies (`Represents`), which is all that rounding asks for, so the shifted
mantissa is rounded as the quotient is; the place that it is shifted to is the place of the quotient's last bit. What is rounded and
put together as a pattern is then the nearest magnitude, the carry into the exponent included (`toNat_pack_roundWithAccuracy`).
-/

namespace Spreadsheet.Number

open Float.Model
open Float.Model.UnpackedFloat hiding pack unpack isFinite

/-! ## Residual bits -/

/-- A mantissa with its residual bits stands for a quotient: the bits say where the remainder lies, below a half, at it or above it. -/
structure Represents (em : ExtendedMantissa) (num den : Nat) : Prop where
  mantissa : em.mantissa = num / den
  roundBit : em.roundBit = true ↔ den ≤ 2 * (num % den)
  stickyBit : em.stickyBit = true ↔ num % den ≠ 0 ∧ 2 * (num % den) ≠ den

theorem represents_quotient (num : Nat) {den : Nat} (hd : 0 < den) :
    Represents (.ofMantissaAndAccuracy (num / den) (accuracyOfFraction (num % den) den)) num den := by
  unfold accuracyOfFraction
  split
  · next hzero => constructor <;> simp [ExtendedMantissa.ofMantissaAndAccuracy, hzero, Nat.ne_of_gt hd]
  · next hpos =>
    rcases Nat.lt_trichotomy (2 * (num % den)) den with hlt | heq | hgt
    · rw [Nat.compare_eq_lt.mpr hlt]
      constructor <;> simp [ExtendedMantissa.ofMantissaAndAccuracy] <;> omega
    · rw [Nat.compare_eq_eq.mpr heq]
      constructor <;> simp [ExtendedMantissa.ofMantissaAndAccuracy] <;> omega
    · rw [Nat.compare_eq_gt.mpr hgt]
      constructor <;> simp [ExtendedMantissa.ofMantissaAndAccuracy] <;> omega

namespace Represents

variable {em : ExtendedMantissa} {num den : Nat}

theorem shiftRightOne (hd : 0 < den) (h : Represents em num den) : Represents em.shiftRightOne num (den * 2) := by
  have hquotient : num / den / 2 = num / (den * 2) := Nat.div_div_eq_div_mul num den 2
  have hremainder : num % (den * 2) = num % den + den * (num / den % 2) := Nat.mod_mul
  have hlt : num % den < den := Nat.mod_lt num hd
  have hround : em.shiftRightOne.roundBit = true ↔ num / den % 2 ≠ 0 := by
    rw [ExtendedMantissa.shiftRightOne, h.mantissa, bne_iff_ne]
  have hsticky : em.shiftRightOne.stickyBit = true ↔ num % den ≠ 0 := by
    rw [ExtendedMantissa.shiftRightOne, Bool.or_eq_true, h.roundBit, h.stickyBit]
    omega
  refine ⟨?_, ?_, ?_⟩
  · rw [← hquotient, ← h.mantissa]
    rfl
  · rw [hround, hremainder]
    rcases Nat.mod_two_eq_zero_or_one (num / den) with hbit | hbit <;> rw [hbit] <;> omega
  · rw [hsticky, hremainder]
    rcases Nat.mod_two_eq_zero_or_one (num / den) with hbit | hbit <;> rw [hbit] <;> omega

theorem shiftRight (hd : 0 < den) (h : Represents em num den) (n : Nat) : Represents (em >>> n) num (den * 2 ^ n) := by
  change Represents (n.repeat ExtendedMantissa.shiftRightOne em) num (den * 2 ^ n)
  induction n with
  | zero => rwa [pow_zero, Nat.mul_one]
  | succ n ih =>
    rw [pow_succ, ← Nat.mul_assoc]
    exact ih.shiftRightOne (Nat.mul_pos hd (Nat.two_pow_pos n))

/-- What a mantissa is rounded to is the quotient rounded. -/
theorem roundedMantissa (hd : 0 < den) (h : Represents em num den) : em.roundedMantissa = roundQuotient num den := by
  have hlt : num % den < den := Nat.mod_lt num hd
  obtain ⟨m, r, s⟩ := em
  obtain ⟨hm, hr, hs⟩ := h
  dsimp only at hm hr hs
  unfold roundQuotient ExtendedMantissa.roundedMantissa ExtendedMantissa.accuracy Accuracy.roundToNearestEven
  cases r <;> cases s <;> simp only [Bool.false_eq_true, false_iff, true_iff] at hr hs <;> dsimp only <;> split <;> omega

end Represents

/-! ## Rounding -/

theorem targetExponent_binary64 (e : ℤ) : Format.binary64.targetExponent e = max (e - 53) (-1074) := by
  have hmin : Format.binary64.minExponent = -1074 := by decide
  rw [Format.targetExponent, hmin]
  rfl

/-- The place of the last bit, from the mantissa below a quotient. -/
theorem targetExponent_eq_lastBit {num den num' den' : Nat} {e : ℤ} (hd : 0 < den) (hn' : 0 < num') (hd' : 0 < den')
    (hq : (num' : ℚ) / den' = (num : ℚ) / den * 2 ^ e) (he : e ≤ lastBit num' den') :
    Format.binary64.targetExponent (totalExponent (num / den) e) = lastBit num' den' := by
  rw [targetExponent_binary64, totalExponent]
  have hden : (0 : ℚ) < den := Nat.cast_pos.mpr hd
  have hpow : (0 : ℚ) < 2 ^ e := by positivity
  have hlt : num < (num / den + 1) * den := by
    rw [Nat.mul_comm]
    exact Nat.lt_mul_div_succ num hd
  have hbelow : (num : ℚ) / den < (num / den : ℕ) + 1 := by
    rw [div_lt_iff₀ hden]
    exact_mod_cast hlt
  have habove : ((num / den : ℕ) : ℚ) ≤ (num : ℚ) / den := by
    rw [le_div_iff₀ hden]
    exact_mod_cast Nat.div_mul_le_self num den
  by_cases hm : num / den = 0
  · -- The whole quotient lies below the mantissa's own last place, which is so only below all normal doubles.
    have hlead : leadingBit num' den' ≤ e - 1 := by
      refine lt_succ_of_zpow_le (zpow_leadingBit_le hn' hd') ?_
      rw [hq, sub_add_cancel]
      rw [hm, Nat.cast_zero, zero_add] at hbelow
      exact mul_lt_of_lt_one_left hpow hbelow
    rw [lastBit] at he ⊢
    rw [hm, Nat.log2_zero]
    omega
  · have hlow : (2 : ℚ) ^ (num / den).log2 ≤ (num / den : ℕ) := by exact_mod_cast Nat.log2_self_le hm
    have hhigh : ((num / den : ℕ) : ℚ) + 1 ≤ 2 ^ ((num / den).log2 + 1) := by exact_mod_cast Nat.lt_log2_self
    have hlead : leadingBit num' den' = ((num / den).log2 : ℤ) + e := by
      refine leadingBit_eq hn' hd' ?_ ?_
      · rw [hq, zpow_add₀ two_ne_zero, zpow_natCast]
        exact mul_le_mul_of_nonneg_right (hlow.trans habove) (le_of_lt hpow)
      · rw [hq, add_right_comm, zpow_add₀ two_ne_zero]
        refine mul_lt_mul_of_pos_right (lt_of_lt_of_le hbelow ?_) hpow
        exact_mod_cast hhigh
    rw [lastBit, hlead]
    omega

/-- The exponent of a rounded mantissa is the place of the last bit, and the mantissa is the quotient rounded there. -/
theorem shiftToTargetExponent_quotient {num den num' den' : Nat} {e : ℤ} (hd : 0 < den) (hn' : 0 < num') (hd' : 0 < den')
    (hq : (num' : ℚ) / den' = (num : ℚ) / den * 2 ^ e) (he : e ≤ lastBit num' den') :
    let shifted := shiftToTargetExponent .binary64 (num / den) e (accuracyOfFraction (num % den) den)
    shifted.2 = lastBit num' den' ∧
      shifted.1.roundedMantissa = roundedSignificand num' den' := by
  obtain ⟨n, hn⟩ := Int.eq_ofNat_of_zero_le (Int.sub_nonneg.mpr he)
  have hshift : (lastBit num' den' - e).toNat = n := by omega
  have htwo : 0 < den * 2 ^ n := Nat.mul_pos hd (Nat.two_pow_pos n)
  simp only [shiftToTargetExponent, targetExponent_eq_lastBit hd hn' hd' hq he, shiftToExponent, hshift]
  refine ⟨by omega, ?_⟩
  rw [((represents_quotient num hd).shiftRight hd n).roundedMantissa htwo]
  refine roundQuotient_congr htwo (shiftLeft_pos hd' _) ?_
  have hplace : lastBit num' den' = e + n := by omega
  rw [shifted_quotient, hq, hplace, zpow_add₀ two_ne_zero, zpow_natCast]
  push_cast
  field_simp

/-- A carry out of the 53 bits is taken up by the exponent. -/
theorem shiftToTargetExponent_exact {m : Nat} {e : ℤ} (hm : m ≤ 2 ^ 53) (he : -1074 ≤ e) :
    (shiftToTargetExponent .binary64 m e .exact).1.mantissa = (if m = 2 ^ 53 then 2 ^ 52 else m) ∧
      (shiftToTargetExponent .binary64 m e .exact).2 = if m = 2 ^ 53 then e + 1 else e := by
  simp only [shiftToTargetExponent, targetExponent_binary64, totalExponent, shiftToExponent]
  split
  · next hcarry =>
    have hlog : m.log2 = 53 := by rw [hcarry, Nat.log2_two_pow]
    have hshift : (max ((m.log2 : ℤ) + 1 + e - 53) (-1074) - e).toNat = 1 := by omega
    rw [hshift, hcarry]
    exact ⟨rfl, rfl⟩
  · next hsmall =>
    have hlog : m.log2 ≤ 52 := by
      rcases Nat.eq_zero_or_pos m with rfl | hpos
      · exact Nat.zero_le 52
      · exact Nat.le_of_lt_succ ((Nat.log2_lt (Nat.ne_of_gt hpos)).mpr (by omega))
    have hshift : (max ((m.log2 : ℤ) + 1 + e - 53) (-1074) - e).toNat = 0 := by omega
    rw [hshift]
    exact ⟨rfl, add_zero e⟩

/-! ## Patterns -/

/-- The sign of what is negative or not. -/
def signOf (negative : Bool) : Sign := if negative then .negative else .positive

theorem toNat_packComponents (negative : Bool) (exponent : BitVec 11) (mantissa : BitVec 52) :
    (packComponents .binary64 (signOf negative) exponent mantissa).toNat =
      exponent.toNat * exponentBit + mantissa.toNat + if negative then signBit else 0 := by
  have he : exponent.toNat < 2 ^ 11 := exponent.isLt
  have hm : mantissa.toNat < 2 ^ 52 := mantissa.isLt
  change ((signOf negative).toBitVec ++ exponent ++ mantissa).toNat = _
  rw [BitVec.toNat_append, BitVec.toNat_append, ← Nat.shiftLeft_add_eq_or_of_lt hm, ← Nat.shiftLeft_add_eq_or_of_lt he,
    Nat.shiftLeft_eq, Nat.shiftLeft_eq]
  cases negative
  · simp [signOf, Sign.toBitVec, exponentBit]
  · simp [signOf, Sign.toBitVec, exponentBit, signBit]
    omega

/-- A number in canonical form is packed as its magnitude under its sign; what is past every double is packed as an infinity. -/
theorem toNat_pack (negative : Bool) {m : Nat} {e : ℤ} (hpos : 0 < m) (hm : m < 2 ^ 53) (he : -1074 ≤ e)
    (hc : 2 ^ 52 ≤ m ∨ e = -1074) : (UnpackedFloat.pack .binary64 (.finite (signOf negative) m e hpos)).toNat =
      min ((e + 1074).toNat * exponentBit + m) infinityBits + if negative then signBit else 0 := by
  have hbias : (e + (Format.binary64.exponentBias : ℤ) + (Format.binary64.mantissaBitsWithoutImplicit : ℤ)).toNat =
      (e + 1074).toNat + 1 := by
    change (e + ((2 ^ 10 - 1 : ℕ) : ℤ) + ((52 : ℕ) : ℤ)).toNat = _
    omega
  have hbits : Format.binary64.mantissaBits = 53 := rfl
  have hlog : m.log2 + 1 = 53 ↔ 2 ^ 52 ≤ m := by
    rw [← Nat.le_log2 (Nat.ne_of_gt hpos)]
    have hlt := (Nat.log2_lt (Nat.ne_of_gt hpos)).mpr hm
    omega
  rw [UnpackedFloat.pack]
  simp only [hbias, hbits, hlog]
  split
  · next hover =>
    change 2 ^ 11 ≤ _ at hover
    have hmin : min ((e + 1074).toNat * exponentBit + m) infinityBits = infinityBits := by
      rw [infinityBits, exponentBit]
      omega
    rw [packedInfinity, toNat_packComponents, hmin]
    rfl
  · next hfits =>
    change ¬2 ^ 11 ≤ _ at hfits
    have hmin : min ((e + 1074).toNat * exponentBit + m) infinityBits = (e + 1074).toNat * exponentBit + m := by
      rw [infinityBits, exponentBit]
      omega
    rw [hmin]
    split
    · next hnormal =>
      rw [toNat_packComponents, BitVec.toNat_ofNat, BitVec.toNat_ofNat, exponentBit]
      change ((e + 1074).toNat + 1) % 2 ^ 11 * _ + m % 2 ^ 52 + _ = _
      omega
    · next hsubnormal =>
      have hleast : (e + 1074).toNat = 0 := by omega
      rw [toNat_packComponents, BitVec.toNat_ofNat, hleast]
      change 0 * _ + m % 2 ^ 52 + _ = _
      omega

theorem toNat_pack_zero (negative : Bool) :
    (UnpackedFloat.pack .binary64 (.zero (signOf negative))).toNat = if negative then signBit else 0 := by
  rw [UnpackedFloat.pack, packedZero, toNat_packComponents]
  change 0 * _ + 0 + _ = _
  omega

/-! ## Rounding a quotient once -/

/-- Rounding with the accuracy of a quotient gives its nearest double. -/
theorem toNat_pack_roundWithAccuracy (negative : Bool) {num den num' den' : Nat} {e : ℤ} (hd : 0 < den) (hn' : 0 < num') (hd' : 0 < den')
    (hq : (num' : ℚ) / den' = (num : ℚ) / den * 2 ^ e) (he : e ≤ lastBit num' den') :
    (UnpackedFloat.pack .binary64
        (roundWithAccuracy .binary64 (signOf negative) (num / den) e (accuracyOfFraction (num % den) den))).toNat =
      nearestBits num' den' + if negative then signBit else 0 := by
  obtain ⟨hplace, hround⟩ := shiftToTargetExponent_quotient hd hn' hd' hq he
  have hsub : -1074 ≤ lastBit num' den' := le_max_right _ _
  have hle : roundedSignificand num' den' ≤ 2 ^ 53 := roundedSignificand_le hn' hd'
  have hcanonical : 2 ^ 52 ≤ roundedSignificand num' den' ∨ lastBit num' den' = -1074 := le_roundedSignificand hn' hd'
  rw [nearestBits_eq hn']
  generalize roundedSignificand num' den' = r at hround hle hcanonical ⊢
  generalize lastBit num' den' = place at hplace hsub hcanonical ⊢
  obtain ⟨hm, hexp⟩ := shiftToTargetExponent_exact hle hsub
  rw [roundWithAccuracy]
  simp only [hround, hplace]
  split
  · next hzero =>
    rw [hm] at hzero
    have hr : r = 0 := by
      split at hzero
      · cases hzero
      · exact hzero
    have hleast : (place + 1074).toNat = 0 := by omega
    rw [toNat_pack_zero, hr, hleast]
    simp
  · next hpos =>
    simp only [hm, hexp]
    rw [toNat_pack negative _ (by split <;> omega) (by split <;> omega) (by split <;> omega)]
    have hcarry : ((if r = 2 ^ 53 then place + 1 else place) + 1074).toNat * exponentBit + (if r = 2 ^ 53 then 2 ^ 52 else r) =
        (place + 1074).toNat * exponentBit + r := by
      split
      · next hr =>
        have hnext : (place + 1 + 1074).toNat = (place + 1074).toNat + 1 := by omega
        rw [hnext, hr, Nat.add_mul, exponentBit]
        omega
      · rfl
    rw [hcarry]

/-! ## Products and quotients -/

/-- A double is known from its pattern. -/
theorem eq_ofMagnitude {x : Float} {negative : Bool} {bits : Nat} (h : x.toBits.toNat = bits + if negative then signBit else 0) :
    x = ofMagnitude negative bits := by
  rw [ofMagnitude, ← h, UInt64.ofNat_toNat, Float.ofBits_toBits]

/-- The significand of a finite magnitude that is not zero is not zero. -/
theorem Binary.significand_pos {bits : Nat} (h : 0 < bits) : 0 < (Binary.ofBits bits).significand := by
  unfold ofBits
  split
  · exact h
  · exact Nat.lt_of_lt_of_le (by decide) (Nat.le_add_right exponentBit _)

/-- A significand has its 53 bits, or the exponent is the least. -/
theorem Binary.canonical (bits : Nat) :
    2 ^ 52 ≤ (Binary.ofBits bits).significand ∨ (Binary.ofBits bits).exponent = -1074 := by
  unfold ofBits
  split
  · exact Or.inr rfl
  · exact Or.inl (Nat.le_add_right exponentBit _)

section
variable {b : BitVec 64} {negative : Bool} {bits : Nat}

theorem toNat_unpackMantissa (hb : b.toNat = bits + if negative then signBit else 0) :
    (@unpackMantissa .binary64 b).toNat = bits % exponentBit := by
  rw [unpackMantissa_def, BitVec.extractLsb'_toNat, Nat.shiftRight_zero, hb]
  change _ % 2 ^ 52 = _
  rw [signBit, exponentBit]
  split <;> omega

theorem toNat_unpackExponent (h : bits < infinityBits) (hb : b.toNat = bits + if negative then signBit else 0) :
    (@unpackExponent .binary64 b).toNat = bits / exponentBit := by
  rw [unpackExponent_def, BitVec.extractLsb'_toNat, Nat.shiftRight_eq_div_pow, hb]
  change _ / 2 ^ 52 % 2 ^ 11 = _
  rw [infinityBits] at h
  rw [signBit, exponentBit]
  split <;> omega

theorem ofBitVec_unpackSign (h : bits < infinityBits) (hb : b.toNat = bits + if negative then signBit else 0) :
    Sign.ofBitVec (@unpackSign .binary64 b) = signOf negative := by
  have hbit : (@unpackSign .binary64 b).toNat = if negative then 1 else 0 := by
    rw [unpackSign_def, BitVec.extractLsb'_toNat, Nat.shiftRight_eq_div_pow, hb]
    change _ / 2 ^ 63 % 2 ^ 1 = _
    rw [infinityBits] at h
    rw [signBit]
    split <;> omega
  cases negative
  · rw [show @unpackSign .binary64 b = 0#1 from BitVec.eq_of_toNat_eq hbit]
    rfl
  · rw [show @unpackSign .binary64 b = 1#1 from BitVec.eq_of_toNat_eq hbit]
    rfl

/-- The exponent of a finite double is not the one kept for infinities. -/
theorem unpackExponent_ne_ones (h : bits < infinityBits) (hb : b.toNat = bits + if negative then signBit else 0) :
    ¬@unpackExponent .binary64 b = -1#_ := by
  intro hones
  have hfield := congrArg BitVec.toNat hones
  rw [toNat_unpackExponent h hb] at hfield
  change _ = 2 ^ 11 - 1 at hfield
  rw [infinityBits] at h
  rw [exponentBit] at hfield
  omega

end

/-- A double is taken apart into its sign, its significand and its exponent. -/
theorem unpack_ofMagnitude (negative : Bool) {bits : Nat} (hpos : 0 < bits) (h : bits < infinityBits) :
    UnpackedFloat.unpack .binary64 (ofMagnitude negative bits).toBits.toBitVec =
      .finite (signOf negative) (Binary.ofBits bits).significand (Binary.ofBits bits).exponent (Binary.significand_pos hpos) := by
  have hbits := toBits_ofMagnitude negative h
  rw [← UInt64.toNat_toBitVec] at hbits
  generalize (ofMagnitude negative bits).toBits.toBitVec = b at hbits
  have hmantissa := toNat_unpackMantissa hbits
  have hexponent := toNat_unpackExponent h hbits
  have hbias : ((Format.binary64.exponentBias : ℤ) + (Format.binary64.mantissaBitsWithoutImplicit : ℤ)) = 1075 := rfl
  rw [UnpackedFloat.unpack]
  simp only [ofBitVec_unpackSign h hbits, hexponent, hbias, if_neg (unpackExponent_ne_ones h hbits)]
  split
  · next hsubnormal =>
    have hfield : bits / exponentBit = 0 := by
      rw [← hexponent, hsubnormal]
      rfl
    split
    · next hzero =>
      have hrest : bits % exponentBit = 0 := by
        rw [← hmantissa, hzero]
        rfl
      rw [exponentBit] at hfield hrest
      omega
    · have hsmall : bits % exponentBit = bits := Nat.mod_eq_of_lt (Nat.div_eq_zero_iff.mp hfield |>.resolve_left (by decide))
      simp only [Binary.ofBits, hfield, hmantissa, hsmall, if_true, UnpackedFloat.finite.injEq, true_and]
      decide
  · next hnormal =>
    have hfield : bits / exponentBit ≠ 0 := by
      intro hzero
      exact hnormal (BitVec.eq_of_toNat_eq (hexponent.trans hzero))
    have hleading : (1#1 ++ @unpackMantissa .binary64 b).toNat = exponentBit + bits % exponentBit := by
      rw [BitVec.toNat_append, ← Nat.shiftLeft_add_eq_or_of_lt (BitVec.isLt _), hmantissa]
      rfl
    simp only [Binary.ofBits, hfield, hleading, if_false, UnpackedFloat.finite.injEq, true_and]
    rfl

/-- The parts of a double are in canonical form and stand for its number. -/
theorem exists_unpack (negative : Bool) {bits : Nat} (hpos : 0 < bits) (h : bits < infinityBits) :
    ∃ (m : ℕ) (e : ℤ) (hm : 0 < m), (Binary.ofBits bits).value = m * 2 ^ e ∧ (2 ^ 52 ≤ m ∨ e = -1074) ∧
      UnpackedFloat.unpack .binary64 (ofMagnitude negative bits).toBits.toBitVec = .finite (signOf negative) m e hm :=
  ⟨_, _, Binary.significand_pos hpos, rfl, Binary.canonical bits, unpack_ofMagnitude negative hpos h⟩

theorem unpack_ofMagnitude_zero (negative : Bool) :
    UnpackedFloat.unpack .binary64 (ofMagnitude negative 0).toBits.toBitVec = .zero (signOf negative) := by
  cases negative <;> rfl

theorem isInf_ofMagnitude (negative : Bool) {bits : Nat} (h : bits < infinityBits) : (ofMagnitude negative bits).isInf = false := by
  change (UnpackedFloat.unpack .binary64 (ofMagnitude negative bits).toBits.toBitVec).isInf = false
  rcases Nat.eq_zero_or_pos bits with rfl | hpos
  · rw [unpack_ofMagnitude_zero]
    rfl
  · rw [unpack_ofMagnitude negative hpos h]
    rfl

/-- The negative of a double has the other sign. -/
theorem neg_ofMagnitude (negative : Bool) {bits : Nat} (h : bits < infinityBits) :
    -ofMagnitude negative bits = ofMagnitude (!negative) bits := by
  have hsign : -signOf negative = signOf (!negative) := by cases negative <;> rfl
  have hneg : (UnpackedFloat.unpack .binary64 (ofMagnitude negative bits).toBits.toBitVec).neg =
      UnpackedFloat.unpack .binary64 (ofMagnitude (!negative) bits).toBits.toBitVec := by
    rcases Nat.eq_zero_or_pos bits with rfl | hpos
    · rw [unpack_ofMagnitude_zero, unpack_ofMagnitude_zero, UnpackedFloat.neg, hsign]
    · rw [unpack_ofMagnitude negative hpos h, unpack_ofMagnitude (!negative) hpos h, UnpackedFloat.neg, hsign]
  have hbits := toBits_ofMagnitude (!negative) h
  refine eq_ofMagnitude ?_
  change (UnpackedFloat.pack .binary64 (UnpackedFloat.unpack .binary64 (ofMagnitude negative bits).toBits.toBitVec).neg).toNat = _
  rw [hneg, DoubleAux.pack_unpack_of_isFinite, UInt64.toNat_toBitVec, hbits]
  rw [UInt64.toNat_toBitVec, hbits]
  rw [infinityBits] at h
  rw [signBit]
  split <;> omega

theorem signOf_mul (negative negative' : Bool) : signOf negative * signOf negative' = signOf (negative ^^ negative') := by
  cases negative <;> cases negative' <;> rfl

theorem signOf_div (negative negative' : Bool) : signOf negative / signOf negative' = signOf (negative ^^ negative') := by
  cases negative <;> cases negative' <;> rfl

theorem Binary.value_pos {bits : Nat} (h : 0 < bits) : 0 < (Binary.ofBits bits).value := by
  have hs : (0 : ℚ) < (Binary.ofBits bits).significand := Nat.cast_pos.mpr (Binary.significand_pos h)
  rw [value]
  positivity

/-- Doubles are multiplied by their parts. -/
theorem toNat_toBits_mul (x y : Float) :
    (x * y).toBits.toNat = (UnpackedFloat.pack .binary64 (UnpackedFloat.mul .binary64
      (UnpackedFloat.unpack .binary64 x.toBits.toBitVec) (UnpackedFloat.unpack .binary64 y.toBits.toBitVec))).toNat := rfl

/-- Doubles are divided by their parts. -/
theorem toNat_toBits_div (x y : Float) :
    (x / y).toBits.toNat = (UnpackedFloat.pack .binary64 (UnpackedFloat.div .binary64
      (UnpackedFloat.unpack .binary64 x.toBits.toBitVec) (UnpackedFloat.unpack .binary64 y.toBits.toBitVec))).toNat := rfl

theorem zero_mul_ofMagnitude (negative negative' : Bool) {bits : Nat} (hpos : 0 < bits) (h : bits < infinityBits) :
    ofMagnitude negative 0 * ofMagnitude negative' bits = ofMagnitude (negative ^^ negative') 0 := by
  refine eq_ofMagnitude ?_
  rw [toNat_toBits_mul, unpack_ofMagnitude_zero, unpack_ofMagnitude negative' hpos h, UnpackedFloat.mul, signOf_mul, toNat_pack_zero,
    Nat.zero_add]

theorem zero_div_ofMagnitude (negative negative' : Bool) {bits : Nat} (hpos : 0 < bits) (h : bits < infinityBits) :
    ofMagnitude negative 0 / ofMagnitude negative' bits = ofMagnitude (negative ^^ negative') 0 := by
  refine eq_ofMagnitude ?_
  rw [toNat_toBits_div, unpack_ofMagnitude_zero, unpack_ofMagnitude negative' hpos h, UnpackedFloat.div, signOf_div, toNat_pack_zero,
    Nat.zero_add]

/-- A product of doubles is the double nearest to the product of the numbers. -/
theorem mul_ofMagnitude (negative negative' : Bool) {a b num den : Nat} (ha' : a < infinityBits) (hb : 0 < b) (hb' : b < infinityBits)
    (hd : 0 < den) (h : (num : ℚ) / den = (Binary.ofBits a).value * (Binary.ofBits b).value) :
    ofMagnitude negative a * ofMagnitude negative' b = ofMagnitude (negative ^^ negative') (nearestBits num den) := by
  rcases Nat.eq_zero_or_pos a with rfl | ha
  · rw [Binary.value_eq_zero_iff.mpr rfl, zero_mul] at h
    rw [zero_mul_ofMagnitude negative negative' hb hb', nearestBits_of_eq_zero hd h]
  have hn : 0 < num := num_pos h (mul_pos (Binary.value_pos ha) (Binary.value_pos hb))
  obtain ⟨ma, ea, hpa, hva, hca, hua⟩ := exists_unpack negative ha ha'
  obtain ⟨mb, eb, hpb, hvb, hcb, hub⟩ := exists_unpack negative' hb hb'
  rw [hva, hvb] at h
  have hvalue : (num : ℚ) / den = ((ma * mb : ℕ) : ℚ) / (1 : ℕ) * 2 ^ (ea + eb) := by
    rw [h, zpow_add₀ two_ne_zero]
    push_cast
    ring
  have hplace : ea + eb ≤ lastBit num den := by
    rw [lastBit]
    by_cases hlong : 2 ^ 52 ≤ ma * mb
    · have hlead : 52 + (ea + eb) ≤ leadingBit num den := by
        refine lt_succ_of_zpow_le ?_ (lt_zpow_leadingBit hn hd)
        rw [hvalue, zpow_add₀ two_ne_zero, Nat.cast_one, div_one]
        refine mul_le_mul_of_nonneg_right ?_ (by positivity)
        exact_mod_cast hlong
      omega
    · -- Neither of the factors is normal.
      have hma : ma ≤ ma * mb := Nat.le_mul_of_pos_right ma hpb
      have hmb : mb ≤ ma * mb := Nat.le_mul_of_pos_left mb hpa
      omega
  refine eq_ofMagnitude ?_
  rw [toNat_toBits_mul, hua, hub, UnpackedFloat.mul, signOf_mul]
  have hround := toNat_pack_roundWithAccuracy (negative ^^ negative') Nat.one_pos hn hd hvalue hplace
  rw [Nat.div_one, Nat.mod_one] at hround
  exact hround

/-- A quotient of doubles is the double nearest to the quotient of the numbers. -/
theorem div_ofMagnitude (negative negative' : Bool) {a b num den : Nat} (ha' : a < infinityBits) (hb : 0 < b) (hb' : b < infinityBits)
    (hd : 0 < den) (h : (num : ℚ) / den = (Binary.ofBits a).value / (Binary.ofBits b).value) :
    ofMagnitude negative a / ofMagnitude negative' b = ofMagnitude (negative ^^ negative') (nearestBits num den) := by
  rcases Nat.eq_zero_or_pos a with rfl | ha
  · rw [Binary.value_eq_zero_iff.mpr rfl, zero_div] at h
    rw [zero_div_ofMagnitude negative negative' hb hb', nearestBits_of_eq_zero hd h]
  have hn : 0 < num := num_pos h (div_pos (Binary.value_pos ha) (Binary.value_pos hb))
  obtain ⟨ma, ea, hpa, hva, -, hua⟩ := exists_unpack negative ha ha'
  obtain ⟨mb, eb, hpb, hvb, -, hub⟩ := exists_unpack negative' hb hb'
  rw [hva, hvb] at h
  -- The quotient is taken of a significand shifted so far that all the bits are there that a double can hold.
  obtain ⟨place, hplace⟩ : ∃ place, place = min (ea - eb) (Format.binary64.targetExponent (totalExponent ma ea - totalExponent mb eb)) :=
    ⟨_, rfl⟩
  obtain ⟨n, hshifted⟩ := Int.eq_ofNat_of_zero_le (show 0 ≤ ea - eb - place by omega)
  have hvalue : (num : ℚ) / den = ((ma <<< n : ℕ) : ℚ) / mb * 2 ^ place := by
    rw [h, Nat.shiftLeft_eq, show ea = n + place + eb by omega, zpow_add₀ two_ne_zero, zpow_add₀ two_ne_zero, zpow_natCast]
    push_cast
    field_simp
  have hle : place ≤ lastBit num den := by
    rw [targetExponent_binary64, totalExponent, totalExponent] at hplace
    have hlead : (ma.log2 : ℤ) - mb.log2 - 1 + (ea - eb) ≤ leadingBit num den := by
      refine lt_succ_of_zpow_le ?_ (lt_zpow_leadingBit hn hd)
      have hratio : (num : ℚ) / den = (ma : ℚ) / mb * 2 ^ (ea - eb) := by
        rw [h, zpow_sub₀ two_ne_zero]
        field_simp
      rw [hratio, zpow_add₀ two_ne_zero]
      exact mul_le_mul_of_nonneg_right (zpow_log2_bounds hpa hpb).1 (by positivity)
    rw [lastBit]
    omega
  refine eq_ofMagnitude ?_
  have hshift : (ea - eb - place).toNat = n := by omega
  rw [toNat_toBits_div, hua, hub, UnpackedFloat.div, signOf_div]
  simp only [divCore, ← hplace, hshift]
  exact toNat_pack_roundWithAccuracy (negative ^^ negative') hpb hn hd hvalue hle

end Spreadsheet.Number
