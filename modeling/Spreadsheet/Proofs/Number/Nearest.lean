import Mathlib
import Spreadsheet.Number.Decimal

/-!
# The nearest double depends on the number alone

Rounding is done on a numerator and a denominator, but what comes out depends only on the rational they stand for: the place of
the leading bit is its binary logarithm (`zpow_leadingBit_le`, `lt_zpow_leadingBit`), and a quotient is rounded the same after
both sides are multiplied. So decimals of the same value have the same nearest double (`Decimal.toBits_congr`), the two cases
that are settled from the exponent alone included. A rational that is a double is its own nearest double (`nearestBits_value`).
-/

namespace Spreadsheet.Number

/-- A whole power is a quotient of two natural ones. -/
theorem zpow_eq_div (b : ℚ) (e : ℤ) : b ^ e = b ^ e.toNat / b ^ (-e).toNat := by
  rcases Int.le_total 0 e with he | he
  · obtain ⟨n, rfl⟩ := Int.eq_ofNat_of_zero_le he
    have hneg : (-(n : ℤ)).toNat = 0 := by omega
    rw [hneg, Int.toNat_natCast, pow_zero, div_one, zpow_natCast]
  · obtain ⟨n, hn⟩ := Int.eq_ofNat_of_zero_le (Int.neg_nonneg_of_nonpos he)
    have hpos : e.toNat = 0 := by omega
    obtain rfl : e = -(n : ℤ) := by omega
    rw [hpos, neg_neg, Int.toNat_natCast, pow_zero, zpow_neg, zpow_natCast, one_div]

/-- Powers of two that enclose one another have their exponents in order. -/
theorem lt_succ_of_zpow_le {a b : ℤ} {q : ℚ} (h : (2 : ℚ) ^ a ≤ q) (h' : q < (2 : ℚ) ^ (b + 1)) : a ≤ b := by
  have hlt := (zpow_lt_zpow_iff_right₀ (by norm_num : (1 : ℚ) < 2)).mp (lt_of_le_of_lt h h')
  omega

/-! ## Rounding a quotient -/

theorem roundQuotient_mul_right (num den : Nat) {k : Nat} (hk : 0 < k) :
    roundQuotient (num * k) (den * k) = roundQuotient num den := by
  have hlt : den * k < 2 * (num % den * k) ↔ den < 2 * (num % den) := by
    rw [← Nat.mul_assoc, Nat.mul_lt_mul_right hk]
  have heq : 2 * (num % den * k) = den * k ↔ 2 * (num % den) = den := by
    rw [← Nat.mul_assoc, Nat.mul_left_inj (Nat.ne_of_gt hk)]
  simp only [roundQuotient, Nat.mul_div_mul_right num den hk, Nat.mul_mod_mul_right, hlt, heq]

/-- A quotient is rounded to what equal quotients are rounded to. -/
theorem roundQuotient_congr {num den num' den' : Nat} (hd : 0 < den) (hd' : 0 < den') (h : (num : ℚ) / den = num' / den') :
    roundQuotient num den = roundQuotient num' den' := by
  have hcross : num * den' = num' * den := by
    have hq := (div_eq_div_iff (Nat.cast_ne_zero.mpr (Nat.ne_of_gt hd)) (Nat.cast_ne_zero.mpr (Nat.ne_of_gt hd'))).mp h
    exact_mod_cast hq
  rw [← roundQuotient_mul_right num den hd', hcross, Nat.mul_comm den den', roundQuotient_mul_right num' den' hd]

/-- A quotient is never rounded below a natural that it reaches. -/
theorem le_roundQuotient {n num den : Nat} (hd : 0 < den) (h : n * den ≤ num) : n ≤ roundQuotient num den := by
  have hle : n ≤ num / den := (Nat.le_div_iff_mul_le hd).mpr h
  unfold roundQuotient
  split <;> omega

/-- A quotient below a natural is never rounded above it. -/
theorem roundQuotient_le {n num den : Nat} (h : num < n * den) : roundQuotient num den ≤ n := by
  have hlt : num / den < n := Nat.div_lt_of_lt_mul (by rwa [Nat.mul_comm])
  unfold roundQuotient
  split <;> omega

/-- Less than a half is rounded to nothing. -/
theorem roundQuotient_eq_zero {num den : Nat} (h : 2 * num < den) : roundQuotient num den = 0 := by
  have hlt : num < den := by omega
  have hdiv : num / den = 0 := Nat.div_eq_of_lt hlt
  have hmod : num % den = num := Nat.mod_eq_of_lt hlt
  rw [roundQuotient, hmod, hdiv, if_neg]
  rintro (h' | h')
  · omega
  · omega

/-! ## The leading bit -/

/-- Shifts compare a quotient with a power of two. -/
theorem shift_le_shift_iff {num den : Nat} (hd : 0 < den) (e : ℤ) :
    den <<< e.toNat ≤ num <<< (-e).toNat ↔ (2 : ℚ) ^ e ≤ (num : ℚ) / den := by
  have hden : (0 : ℚ) < den := Nat.cast_pos.mpr hd
  rw [Nat.shiftLeft_eq, Nat.shiftLeft_eq, zpow_eq_div 2, div_le_div_iff₀ (by positivity) hden, mul_comm den]
  exact_mod_cast Iff.rfl

/-- A quotient lies between the powers of two that the lengths of its sides give. -/
theorem zpow_log2_bounds {num den : Nat} (hn : 0 < num) (hd : 0 < den) :
    (2 : ℚ) ^ ((num.log2 : ℤ) - den.log2 - 1) ≤ (num : ℚ) / den ∧ (num : ℚ) / den < (2 : ℚ) ^ ((num.log2 : ℤ) - den.log2 + 1) := by
  have hden : (0 : ℚ) < den := Nat.cast_pos.mpr hd
  have hnumLow : (2 : ℚ) ^ num.log2 ≤ num := by exact_mod_cast Nat.log2_self_le (Nat.ne_of_gt hn)
  have hnumHigh : (num : ℚ) < 2 ^ (num.log2 + 1) := by exact_mod_cast Nat.lt_log2_self
  have hdenLow : (2 : ℚ) ^ den.log2 ≤ den := by exact_mod_cast Nat.log2_self_le (Nat.ne_of_gt hd)
  have hdenHigh : (den : ℚ) < 2 ^ (den.log2 + 1) := by exact_mod_cast Nat.lt_log2_self
  constructor
  · have hexp : (2 : ℚ) ^ ((num.log2 : ℤ) - den.log2 - 1) = 2 ^ num.log2 / 2 ^ (den.log2 + 1) := by
      rw [show (num.log2 : ℤ) - den.log2 - 1 = (num.log2 : ℤ) - ((den.log2 + 1 : ℕ) : ℤ) by push_cast; ring,
        zpow_sub₀ two_ne_zero, zpow_natCast, zpow_natCast]
    rw [hexp]
    exact div_le_div₀ (by positivity) hnumLow hden (le_of_lt hdenHigh)
  · have hexp : (2 : ℚ) ^ ((num.log2 : ℤ) - den.log2 + 1) = 2 ^ (num.log2 + 1) / 2 ^ den.log2 := by
      rw [show (num.log2 : ℤ) - den.log2 + 1 = ((num.log2 + 1 : ℕ) : ℤ) - (den.log2 : ℤ) by push_cast; ring,
        zpow_sub₀ two_ne_zero, zpow_natCast, zpow_natCast]
    rw [hexp]
    exact div_lt_div₀ hnumHigh hdenLow (by positivity) (by positivity)

theorem zpow_leadingBit_le {num den : Nat} (hn : 0 < num) (hd : 0 < den) : (2 : ℚ) ^ leadingBit num den ≤ (num : ℚ) / den := by
  rw [leadingBit]
  split
  · next h => exact (shift_le_shift_iff hd _).mp h
  · exact (zpow_log2_bounds hn hd).1

theorem lt_zpow_leadingBit {num den : Nat} (hn : 0 < num) (hd : 0 < den) :
    (num : ℚ) / den < (2 : ℚ) ^ (leadingBit num den + 1) := by
  rw [leadingBit]
  split
  · exact (zpow_log2_bounds hn hd).2
  · next h =>
    rw [shift_le_shift_iff hd, not_le] at h
    rw [sub_add_cancel]
    exact h

/-- The place of the leading bit is the one power of two that goes into the quotient less than twice. -/
theorem leadingBit_eq {num den : Nat} (hn : 0 < num) (hd : 0 < den) {e : ℤ} (h : (2 : ℚ) ^ e ≤ (num : ℚ) / den)
    (h' : (num : ℚ) / den < (2 : ℚ) ^ (e + 1)) : leadingBit num den = e := by
  have hle := lt_succ_of_zpow_le h (lt_zpow_leadingBit hn hd)
  have hge := lt_succ_of_zpow_le (zpow_leadingBit_le hn hd) h'
  omega

/-! ## The significand -/

/-- The quotient that is rounded to a significand is the number in units of the last place. -/
theorem shifted_quotient (num den : Nat) (place : ℤ) :
    ((num <<< (-place).toNat : ℕ) : ℚ) / (den <<< place.toNat : ℕ) = (num : ℚ) / den / 2 ^ place := by
  rw [Nat.shiftLeft_eq, Nat.shiftLeft_eq, zpow_eq_div 2]
  push_cast
  field_simp

theorem shiftLeft_pos {den : Nat} (hd : 0 < den) (n : Nat) : 0 < den <<< n := by
  rw [Nat.shiftLeft_eq]
  positivity

/-- A quotient rounded to the place of its last bit. -/
def roundedSignificand (num den : Nat) : Nat := roundQuotient (num <<< (-lastBit num den).toNat) (den <<< (lastBit num den).toNat)

theorem nearestBits_eq {num den : Nat} (hn : 0 < num) :
    nearestBits num den = min ((lastBit num den + 1074).toNat * exponentBit + roundedSignificand num den) infinityBits := by
  rw [nearestBits, if_neg (Nat.ne_of_gt hn)]
  rfl

theorem lt_zpow_lastBit {num den : Nat} (hn : 0 < num) (hd : 0 < den) : (num : ℚ) / den / 2 ^ lastBit num den < 2 ^ 53 := by
  rw [div_lt_iff₀ (by positivity), ← zpow_natCast, ← zpow_add₀ two_ne_zero]
  refine lt_of_lt_of_le (lt_zpow_leadingBit hn hd) (zpow_le_zpow_right₀ (by norm_num) ?_)
  rw [lastBit]
  omega

/-- But for the least place, a quotient has 53 bits down to the last. -/
theorem le_zpow_lastBit {num den : Nat} (hn : 0 < num) (hd : 0 < den) :
    2 ^ 52 ≤ (num : ℚ) / den / 2 ^ lastBit num den ∨ lastBit num den = -1074 := by
  by_cases hleast : lastBit num den = -1074
  · exact Or.inr hleast
  · have hlast : lastBit num den = leadingBit num den - 52 := by
      rw [lastBit] at hleast ⊢
      omega
    refine Or.inl ?_
    rw [le_div_iff₀ (by positivity), hlast, ← zpow_natCast, ← zpow_add₀ two_ne_zero,
      show ((52 : ℕ) : ℤ) + (leadingBit num den - 52) = leadingBit num den by push_cast; ring]
    exact zpow_leadingBit_le hn hd

/-- A quotient is rounded to 53 bits, or is carried to the next one. -/
theorem roundedSignificand_le {num den : Nat} (hn : 0 < num) (hd : 0 < den) : roundedSignificand num den ≤ 2 ^ 53 := by
  have hlt := lt_zpow_lastBit hn hd
  rw [← shifted_quotient, div_lt_iff₀ (Nat.cast_pos.mpr (shiftLeft_pos hd _))] at hlt
  exact roundQuotient_le (by exact_mod_cast hlt)

theorem le_roundedSignificand {num den : Nat} (hn : 0 < num) (hd : 0 < den) :
    2 ^ 52 ≤ roundedSignificand num den ∨ lastBit num den = -1074 := by
  refine (le_zpow_lastBit hn hd).imp_left fun hle => ?_
  rw [← shifted_quotient, le_div_iff₀ (Nat.cast_pos.mpr (shiftLeft_pos hd _))] at hle
  exact le_roundQuotient (shiftLeft_pos hd _) (by exact_mod_cast hle)

/-! ## The nearest double -/

/-- Equal quotients have the same nearest double. -/
theorem nearestBits_congr {num den num' den' : Nat} (hd : 0 < den) (hd' : 0 < den') (h : (num : ℚ) / den = num' / den') :
    nearestBits num den = nearestBits num' den' := by
  have hdenne : (den : ℚ) ≠ 0 := Nat.cast_ne_zero.mpr (Nat.ne_of_gt hd)
  have hdenne' : (den' : ℚ) ≠ 0 := Nat.cast_ne_zero.mpr (Nat.ne_of_gt hd')
  have hzero : num = 0 ↔ num' = 0 := by
    rw [div_eq_div_iff hdenne hdenne'] at h
    have hcross : num * den' = num' * den := by exact_mod_cast h
    constructor
    · rintro rfl
      exact (Nat.mul_eq_zero.mp (by omega)).resolve_right (Nat.ne_of_gt hd)
    · rintro rfl
      exact (Nat.mul_eq_zero.mp (by omega)).resolve_right (Nat.ne_of_gt hd')
  unfold nearestBits
  by_cases hn : num = 0
  · rw [if_pos hn, if_pos (hzero.mp hn)]
  · have hn' : num' ≠ 0 := fun h0 => hn (hzero.mpr h0)
    have hlead : leadingBit num den = leadingBit num' den' := by
      refine leadingBit_eq (Nat.pos_of_ne_zero hn) hd ?_ ?_
      · rw [h]
        exact zpow_leadingBit_le (Nat.pos_of_ne_zero hn') hd'
      · rw [h]
        exact lt_zpow_leadingBit (Nat.pos_of_ne_zero hn') hd'
    have hplace : lastBit num den = lastBit num' den' := by rw [lastBit, lastBit, hlead]
    have hround : roundQuotient (num <<< (-lastBit num den).toNat) (den <<< (lastBit num den).toNat) =
        roundQuotient (num' <<< (-lastBit num den).toNat) (den' <<< (lastBit num den).toNat) := by
      refine roundQuotient_congr (shiftLeft_pos hd _) (shiftLeft_pos hd' _) ?_
      rw [shifted_quotient, shifted_quotient, h]
    rw [if_neg hn, if_neg hn']
    simp only [hround, ← hplace]

/-- The number that a finite magnitude stands for. -/
def Binary.value (b : Binary) : ℚ := b.significand * (2 : ℚ) ^ b.exponent

/-- The number that a decimal writes. -/
def Decimal.value (d : Decimal) : ℚ := d.digits * (10 : ℚ) ^ d.exponent

/-- A number whose significand has its last bit where a double near it has its last bit is its own nearest double. -/
theorem nearestBits_of_lastBit {num den s : Nat} {e : ℤ} (hn : 0 < num) (hd : 0 < den) (hlast : lastBit num den = e)
    (h : (num : ℚ) / den = s * (2 : ℚ) ^ e) (hs : (e + 1074).toNat * exponentBit + s ≤ infinityBits) :
    nearestBits num den = (e + 1074).toNat * exponentBit + s := by
  have hround : roundQuotient (num <<< (-e).toNat) (den <<< e.toNat) = s := by
    have hone : roundQuotient (num <<< (-e).toNat) (den <<< e.toNat) = roundQuotient (s * 1) 1 := by
      refine roundQuotient_congr (shiftLeft_pos hd _) Nat.one_pos ?_
      rw [shifted_quotient, h, mul_div_assoc, div_self (zpow_ne_zero e two_ne_zero)]
      push_cast
      ring
    rw [hone, roundQuotient_mul_self s 1 Nat.one_pos]
  rw [nearestBits, if_neg (Nat.ne_of_gt hn)]
  dsimp only
  rw [hlast, hround]
  exact Nat.min_eq_left hs

/-- A magnitude stands for zero only if it is zero. -/
theorem Binary.value_eq_zero_iff {bits : Nat} : (Binary.ofBits bits).value = 0 ↔ bits = 0 := by
  constructor
  · intro h
    rw [Binary.value, mul_eq_zero] at h
    have hs : ((Binary.ofBits bits).significand : ℚ) = 0 := h.resolve_right (zpow_ne_zero _ two_ne_zero)
    have hs' : (Binary.ofBits bits).significand = 0 := by exact_mod_cast hs
    unfold Binary.ofBits at hs'
    split at hs'
    · exact hs'
    · simp [exponentBit] at hs'
  · rintro rfl
    simp [Binary.value, Binary.ofBits]

/-- Below the normal doubles the last bit is the least there is. -/
theorem nearestBits_subnormal {bits num den : Nat} (hbits : bits < infinityBits) (hn : 0 < num) (hd : 0 < den)
    (hfield : bits / exponentBit = 0) (h : (num : ℚ) / den = (Binary.ofBits bits).value) : nearestBits num den = bits := by
  have hvalue : (num : ℚ) / den = (bits : ℚ) * (2 : ℚ) ^ (-1074 : ℤ) := by
    rw [h, Binary.ofBits, if_pos hfield, Binary.value]
  have hsmall : bits < exponentBit := by
    rw [exponentBit] at hfield ⊢
    omega
  have hlast : lastBit num den = -1074 := by
    have hlead : leadingBit num den ≤ -1023 := by
      refine lt_succ_of_zpow_le (zpow_leadingBit_le hn hd) ?_
      rw [hvalue, show (-1023 + 1 : ℤ) = 52 + -1074 by norm_num, zpow_add₀ two_ne_zero]
      refine mul_lt_mul_of_pos_right ?_ (by positivity)
      exact_mod_cast hsmall
    rw [lastBit]
    omega
  rw [nearestBits_of_lastBit hn hd hlast hvalue (by simp; omega)]
  simp

/-- The leading one of a normal double stands at its 53rd bit. -/
theorem nearestBits_normal {bits num den : Nat} (hbits : bits < infinityBits) (hn : 0 < num) (hd : 0 < den)
    (hfield : bits / exponentBit ≠ 0) (h : (num : ℚ) / den = (Binary.ofBits bits).value) : nearestBits num den = bits := by
  have hvalue : (num : ℚ) / den =
      ((exponentBit + bits % exponentBit : ℕ) : ℚ) * (2 : ℚ) ^ (((bits / exponentBit : ℕ) : ℤ) - 1075) := by
    rw [h, Binary.ofBits, if_neg hfield, Binary.value, Int.natCast_ediv]
  have hlast : lastBit num den = ((bits / exponentBit : ℕ) : ℤ) - 1075 := by
    have hlead : leadingBit num den = 52 + (((bits / exponentBit : ℕ) : ℤ) - 1075) := by
      refine leadingBit_eq hn hd ?_ ?_
      · rw [hvalue, zpow_add₀ two_ne_zero]
        refine mul_le_mul_of_nonneg_right ?_ (by positivity)
        exact_mod_cast Nat.le_add_right exponentBit (bits % exponentBit)
      · rw [hvalue, show (52 + (((bits / exponentBit : ℕ) : ℤ) - 1075) + 1) = 53 + (((bits / exponentBit : ℕ) : ℤ) - 1075) by ring,
          zpow_add₀ two_ne_zero]
        refine mul_lt_mul_of_pos_right ?_ (by positivity)
        have hlt : exponentBit + bits % exponentBit < 2 ^ 53 := by
          rw [exponentBit]
          omega
        exact_mod_cast hlt
    have hpos : 1 ≤ bits / exponentBit := Nat.pos_of_ne_zero hfield
    rw [lastBit, hlead]
    omega
  have hsum : (((bits / exponentBit : ℕ) : ℤ) - 1075 + 1074).toNat * exponentBit + (exponentBit + bits % exponentBit) = bits := by
    rw [exponentBit] at hfield ⊢
    omega
  rw [nearestBits_of_lastBit hn hd hlast hvalue (by rw [hsum]; exact Nat.le_of_lt hbits), hsum]

/-- A finite magnitude is the one nearest to the number it stands for. -/
theorem nearestBits_value {bits num den : Nat} (hbits : bits < infinityBits) (hd : 0 < den)
    (h : (num : ℚ) / den = (Binary.ofBits bits).value) : nearestBits num den = bits := by
  have hden : (den : ℚ) ≠ 0 := Nat.cast_ne_zero.mpr (Nat.ne_of_gt hd)
  have hzero : num = 0 ↔ bits = 0 := by
    have hvalue : (num : ℚ) / den = 0 ↔ bits = 0 := by rw [h, Binary.value_eq_zero_iff]
    rw [← hvalue, div_eq_zero_iff]
    simp [hden]
  by_cases hnum : num = 0
  · rw [nearestBits, if_pos hnum, hzero.mp hnum]
  · have hn : 0 < num := Nat.pos_of_ne_zero hnum
    by_cases hfield : bits / exponentBit = 0
    · exact nearestBits_subnormal hbits hn hd hfield h
    · exact nearestBits_normal hbits hn hd hfield h

/-- Nothing is nearest to nothing. -/
theorem nearestBits_of_eq_zero {num den : Nat} (hd : 0 < den) (h : (num : ℚ) / den = 0) : nearestBits num den = 0 := by
  have hden : (den : ℚ) ≠ 0 := Nat.cast_ne_zero.mpr (Nat.ne_of_gt hd)
  have hn : num = 0 := by exact_mod_cast (div_eq_zero_iff.mp h).resolve_right hden
  rw [nearestBits, if_pos hn]

/-- A quotient that is positive has a positive numerator. -/
theorem num_pos {num den : Nat} {q : ℚ} (h : (num : ℚ) / den = q) (hq : 0 < q) : 0 < num := by
  refine Nat.pos_of_ne_zero ?_
  rintro rfl
  rw [Nat.cast_zero, zero_div] at h
  exact absurd h (ne_of_lt hq)

/-- What is past every double goes to infinity. -/
theorem nearestBits_of_overflow {num den : Nat} (hd : 0 < den) (h : (2 : ℚ) ^ (1024 : ℤ) ≤ (num : ℚ) / den) :
    nearestBits num den = infinityBits := by
  have hn : 0 < num := num_pos rfl (lt_of_lt_of_le (by positivity) h)
  have hlead : 1024 ≤ leadingBit num den := lt_succ_of_zpow_le h (lt_zpow_leadingBit hn hd)
  have hlast : 972 ≤ lastBit num den := by
    rw [lastBit]
    omega
  have hsignificand := (le_roundedSignificand hn hd).resolve_right (by omega)
  rw [nearestBits_eq hn]
  refine Nat.min_eq_right ?_
  have hplace : 2046 ≤ (lastBit num den + 1074).toNat := by omega
  have hmul := Nat.mul_le_mul_right exponentBit hplace
  rw [infinityBits]
  rw [exponentBit] at hmul ⊢
  omega

/-- What is well within the range of the doubles does not go to infinity. -/
theorem nearestBits_lt_infinityBits {num den : Nat} (hd : 0 < den) (h : (num : ℚ) / den < (2 : ℚ) ^ (1023 : ℤ)) :
    nearestBits num den < infinityBits := by
  rcases Nat.eq_zero_or_pos num with rfl | hn
  · rw [nearestBits, if_pos rfl]
    decide
  · have hlead : leadingBit num den ≤ 1022 := lt_succ_of_zpow_le (zpow_leadingBit_le hn hd) h
    have hlast : lastBit num den ≤ 970 := by
      rw [lastBit]
      omega
    have hsignificand := roundedSignificand_le hn hd
    have hmul := Nat.mul_le_mul_right exponentBit (show (lastBit num den + 1074).toNat ≤ 2044 by omega)
    rw [nearestBits_eq hn]
    rw [infinityBits]
    rw [exponentBit] at hmul ⊢
    omega

/-- What is below half of the least double goes to zero. -/
theorem nearestBits_of_underflow {num den : Nat} (hd : 0 < den) (h : (num : ℚ) / den < (2 : ℚ) ^ (-1075 : ℤ)) :
    nearestBits num den = 0 := by
  have hden : (0 : ℚ) < den := Nat.cast_pos.mpr hd
  rw [nearestBits]
  split
  · rfl
  · next hne =>
    have hlead : leadingBit num den ≤ -1076 := lt_succ_of_zpow_le (zpow_leadingBit_le (Nat.pos_of_ne_zero hne) hd) h
    have hlast : lastBit num den = -1074 := by
      rw [lastBit]
      omega
    have hround : roundQuotient (num <<< (-lastBit num den).toNat) (den <<< (lastBit num den).toNat) = 0 := by
      refine roundQuotient_eq_zero ?_
      have hq : 2 * (((num <<< (-lastBit num den).toNat : ℕ) : ℚ) / (den <<< (lastBit num den).toNat : ℕ)) < 1 := by
        rw [shifted_quotient, hlast, ← mul_div_assoc, div_lt_one (by positivity)]
        calc 2 * ((num : ℚ) / den) < 2 * 2 ^ (-1075 : ℤ) := by linarith
          _ = 2 ^ (-1074 : ℤ) := by rw [show (-1074 : ℤ) = 1 + -1075 by norm_num, zpow_add₀ two_ne_zero, zpow_one]
      rw [← mul_div_assoc, div_lt_one (Nat.cast_pos.mpr (shiftLeft_pos hd _))] at hq
      exact_mod_cast hq
    dsimp only
    rw [hround, hlast]
    rfl

/-! ## Numbers that are doubles -/

/-- A significand added to the exponent's field stands for its multiple of the last place. -/
theorem Binary.value_ofBits_add {s : Nat} {e : ℤ} (hs : s < 2 ^ 53) (he : -1074 ≤ e) (hc : 2 ^ 52 ≤ s ∨ e = -1074) :
    (Binary.ofBits ((e + 1074).toNat * exponentBit + s)).value = s * (2 : ℚ) ^ e := by
  obtain ⟨k, hk⟩ := Int.eq_ofNat_of_zero_le (show 0 ≤ e + 1074 by omega)
  obtain rfl : e = k - 1074 := by omega
  rw [hk, Int.toNat_natCast]
  by_cases hsubnormal : s < 2 ^ 52
  · obtain rfl : k = 0 := by omega
    have hfield : (0 * exponentBit + s) / exponentBit = 0 := by
      rw [exponentBit]
      omega
    rw [ofBits, if_pos hfield, value, Nat.zero_mul, Nat.zero_add]
    rfl
  · have hfield : (k * exponentBit + s) / exponentBit = k + 1 := by
      rw [exponentBit]
      omega
    have hrest : exponentBit + (k * exponentBit + s) % exponentBit = s := by
      rw [exponentBit]
      omega
    have hexponent : (((k * exponentBit + s : ℕ) : ℤ) / (exponentBit : ℤ)) - 1075 = k - 1074 := by
      rw [← Int.natCast_ediv, hfield]
      omega
    rw [ofBits, if_neg (by omega), hrest, hexponent, value]

/-- A number of no more than 53 bits is a double, and is nearest to itself. -/
theorem nearestBits_of_fits {num den m : Nat} {t : ℤ} (hd : 0 < den) (hm : m < 2 ^ 53) (ht : -1074 ≤ t) (ht' : t ≤ 970)
    (h : (num : ℚ) / den = m * (2 : ℚ) ^ t) :
    nearestBits num den < infinityBits ∧ (Binary.ofBits (nearestBits num den)).value = (num : ℚ) / den := by
  rcases Nat.eq_zero_or_pos m with rfl | hpos
  · rw [Nat.cast_zero, zero_mul] at h
    rw [nearestBits_of_eq_zero hd h, h]
    exact ⟨by decide, Binary.value_eq_zero_iff.mpr rfl⟩
  · have hmpos : (0 : ℚ) < m := Nat.cast_pos.mpr hpos
    have hn : 0 < num := num_pos h (by positivity)
    have hlast : lastBit num den ≤ t := by
      have hlead : leadingBit num den ≤ 52 + t := by
        refine lt_succ_of_zpow_le (zpow_leadingBit_le hn hd) ?_
        rw [h, show (52 + t + 1) = 53 + t by ring, zpow_add₀ two_ne_zero]
        refine mul_lt_mul_of_pos_right ?_ (by positivity)
        exact_mod_cast hm
      rw [lastBit]
      omega
    obtain ⟨k, hk⟩ := Int.eq_ofNat_of_zero_le (Int.sub_nonneg.mpr hlast)
    have hvalue : (num : ℚ) / den = (m * 2 ^ k : ℕ) * (2 : ℚ) ^ lastBit num den := by
      rw [h, show t = k + lastBit num den by omega, zpow_add₀ two_ne_zero, zpow_natCast]
      push_cast
      ring
    have hlow : -1074 ≤ lastBit num den := le_max_right _ _
    have hunits : (num : ℚ) / den / 2 ^ lastBit num den = (m * 2 ^ k : ℕ) := by
      rw [hvalue, mul_div_assoc, div_self (zpow_ne_zero _ two_ne_zero), mul_one]
    have hlt : m * 2 ^ k < 2 ^ 53 := by
      have hlt := lt_zpow_lastBit hn hd
      rw [hunits] at hlt
      exact_mod_cast hlt
    have hc : 2 ^ 52 ≤ m * 2 ^ k ∨ lastBit num den = -1074 := by
      refine (le_zpow_lastBit hn hd).imp_left fun hle => ?_
      rw [hunits] at hle
      exact_mod_cast hle
    have hfits : (lastBit num den + 1074).toNat * exponentBit + m * 2 ^ k < infinityBits := by
      have hplace : (lastBit num den + 1074).toNat ≤ 2044 := by omega
      have hmul := Nat.mul_le_mul_right exponentBit hplace
      rw [infinityBits]
      rw [exponentBit] at hmul ⊢
      omega
    rw [nearestBits_of_lastBit hn hd rfl hvalue (Nat.le_of_lt hfits), hvalue]
    exact ⟨hfits, Binary.value_ofBits_add hlt hlow hc⟩

end Spreadsheet.Number
