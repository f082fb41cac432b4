import Spreadsheet.Json.Number
import Spreadsheet.Proofs.Number.Arithmetic
import Spreadsheet.Proofs.Number.ReadBack

/-!
# Numerals that are read quickly and exactly

A numeral is read by scaling its digits, taken as one whole number, by a power of ten. Digits that fit 64 bits are all taken
(`Numeral.value?_of_fits`). If they are a double, and the power is at most the twenty-second and so a double too (`Numeral.Exact`),
the one product or quotient is the only thing that is rounded: such a numeral is read as the double nearest to its decimal
(`Numeral.Exact.value?_eq`). Otherwise up to three numbers are rounded one after the other.
-/

namespace Spreadsheet.Json

open Number

namespace Numeral

/-- The decimal that a numeral writes. -/
def decimal (n : Numeral) : Decimal := .ofParts n.whole n.fraction n.exponent

/-! ## Quick reading -/

theorem le_ofDigitChars (s : List Char) (n : Nat) : n ≤ Nat.ofDigitChars 10 s n := by
  induction s generalizing n with
  | nil => exact Nat.le_refl n
  | cons c s ih =>
    have hle := ih (10 * n + (c.toNat - '0'.toNat))
    rw [Nat.ofDigitChars_cons]
    omega

/-- Digits that fit are all taken. -/
theorem Significand.take_of_fits {m : Significand} {s : List Char} (h : Nat.ofDigitChars 10 s m.value < UInt64.size) :
    m.take s = ⟨Nat.ofDigitChars 10 s m.value, m.taken + s.length⟩ := by
  induction s generalizing m with
  | nil => rfl
  | cons c s ih =>
    rw [Nat.ofDigitChars_cons, Nat.mul_comm 10] at h ⊢
    have hle := le_ofDigitChars s (m.value * 10 + (c.toNat - '0'.toNat))
    rw [take, if_pos (Nat.lt_of_le_of_lt hle h), ih h, List.length_cons, Nat.add_right_comm, Nat.add_assoc]

/-- Digits that fit are scaled as one whole number. -/
theorem value?_of_fits {n : Numeral} (h : n.decimal.digits < UInt64.size) :
    n.value? = (scale (ofMagnitude false (Decimal.toBits ⟨n.decimal.digits, 0⟩)) n.decimal.exponent).map
      fun x => if n.negative then -x else x := by
  have hdigits : n.decimal.digits = Nat.ofDigitChars 10 n.fraction (Nat.ofDigitChars 10 n.whole 0) := Nat.ofDigitChars_append 0
  rw [hdigits] at h ⊢
  have hwhole : Nat.ofDigitChars 10 n.whole 0 < UInt64.size := Nat.lt_of_le_of_lt (le_ofDigitChars n.fraction _) h
  have hexponent :
      ((n.whole.length - (0 + n.whole.length) : ℕ) : ℤ) - ((0 + n.fraction.length : ℕ) : ℤ) + n.exponent = n.decimal.exponent := by
    change _ = n.exponent - n.fraction.length
    omega
  simp only [value?, Significand.take_of_fits (m := ⟨0, 0⟩) hwhole, Significand.take_of_fits (m := ⟨Nat.ofDigitChars 10 n.whole 0, 0⟩) h,
    hexponent]

/-! ## Scaling without error -/

/-- A numeral that is read without error: its digits fit 64 bits and are a double, no more than 53 bits lying between the first and the
last that is set, and the power of ten that scales them is a double too. -/
structure Exact (n : Numeral) : Prop where
  fits : n.decimal.digits < UInt64.size
  significand : 2 ^ (n.decimal.digits.log2 - 52) ∣ n.decimal.digits
  power : n.decimal.exponent.natAbs ≤ 22

instance : DecidablePred Exact := fun n =>
  decidable_of_iff
    (n.decimal.digits < UInt64.size ∧ 2 ^ (n.decimal.digits.log2 - 52) ∣ n.decimal.digits ∧ n.decimal.exponent.natAbs ≤ 22)
    ⟨fun ⟨hf, hs, hp⟩ => ⟨hf, hs, hp⟩, fun ⟨hf, hs, hp⟩ => ⟨hf, hs, hp⟩⟩

/-- A power of ten up to the twenty-second is a double. -/
theorem toBits_powerOfTen {k : Nat} (hk : k ≤ 22) :
    Decimal.toBits ⟨1, k⟩ < infinityBits ∧ (Binary.ofBits (Decimal.toBits ⟨1, k⟩)).value = 10 ^ k := by
  have hfive : 5 ^ k < 2 ^ 53 := Nat.lt_of_le_of_lt (Nat.pow_le_pow_right (by decide) hk) (by decide)
  have hvalue : (Decimal.mk 1 k).value = 10 ^ k := by
    rw [Decimal.value, Nat.cast_one, one_mul, zpow_natCast]
  have hsplit : (10 : ℚ) ^ k = (5 ^ k : ℕ) * 2 ^ (k : ℤ) := by
    rw [zpow_natCast, Nat.cast_pow, ← mul_pow]
    norm_num
  rw [← hvalue]
  exact Decimal.toBits_of_fits hfive (by omega) (by omega) (hvalue.trans hsplit)

/-- A whole number of no more than 53 significant bits is a double. -/
theorem toBits_whole {m : Nat} (hfits : m < UInt64.size) (hm : 2 ^ (m.log2 - 52) ∣ m) :
    Decimal.toBits ⟨m, 0⟩ < infinityBits ∧ (Binary.ofBits (Decimal.toBits ⟨m, 0⟩)).value = m := by
  have hvalue : (Decimal.mk m 0).value = m := by rw [Decimal.value, zpow_zero, mul_one]
  rw [← hvalue]
  have hbits : m.log2 < 64 := by
    rcases Nat.eq_zero_or_pos m with rfl | hpos
    · decide
    · exact (Nat.log2_lt hpos.ne').mpr hfits
  generalize hk : m.log2 - 52 = k at hm
  obtain ⟨q, hq⟩ := hm
  have hsignificand : q < 2 ^ 53 := by
    refine Nat.lt_of_mul_lt_mul_left (a := 2 ^ k) ?_
    calc 2 ^ k * q = m := hq.symm
      _ < 2 ^ (m.log2 + 1) := Nat.lt_log2_self
      _ ≤ 2 ^ (k + 53) := Nat.pow_le_pow_right (by decide) (by omega)
      _ = 2 ^ k * 2 ^ 53 := Nat.pow_add 2 k 53
  refine Decimal.toBits_of_fits (t := k) hsignificand (by omega) (by omega) (hvalue.trans ?_)
  rw [hq, zpow_natCast, Nat.cast_mul, Nat.cast_pow, mul_comm]
  rfl

/-- Sixty-four bits scaled by a small power of ten are within the range of the doubles. -/
theorem toBits_lt_infinityBits {m : Nat} (hm : m < UInt64.size) {e : ℤ} (he : e.natAbs ≤ 22) : Decimal.toBits ⟨m, e⟩ < infinityBits := by
  have hvalue := Decimal.quotient_eq_value ⟨m, e⟩
  rw [Decimal.toBits_eq_nearestBits]
  refine nearestBits_lt_infinityBits (tens_pos _) ?_
  rw [hvalue, Decimal.value]
  have hdigits : (m : ℚ) < 2 ^ 64 := by exact_mod_cast hm
  calc (m : ℚ) * 10 ^ e ≤ m * 10 ^ (22 : ℤ) :=
        mul_le_mul_of_nonneg_left (zpow_le_zpow_right₀ (by norm_num) (by omega)) (by positivity)
    _ < 2 ^ 64 * 10 ^ (22 : ℤ) := mul_lt_mul_of_pos_right hdigits (by positivity)
    _ < 2 ^ (138 : ℤ) := by norm_num
    _ < 2 ^ (1023 : ℤ) := zpow_lt_zpow_right₀ (by norm_num) (by norm_num)

/-- A double scaled by a small power of ten is scaled to the nearest double: both sides of the product or quotient are doubles, and only
the result is rounded. -/
theorem scale_of_double {m : Nat} (hfits : m < UInt64.size) (hm : 2 ^ (m.log2 - 52) ∣ m) {e : ℤ} (he : e.natAbs ≤ 22) :
    scale (ofMagnitude false (Decimal.toBits ⟨m, 0⟩)) e = some (ofMagnitude false (Decimal.toBits ⟨m, e⟩)) := by
  obtain ⟨hwhole, hwholeValue⟩ := toBits_whole hfits hm
  obtain ⟨hpower, hpowerValue⟩ := toBits_powerOfTen he
  have hpos : 0 < Decimal.toBits ⟨1, e.natAbs⟩ := by
    refine Nat.pos_of_ne_zero fun hzero => ?_
    rw [hzero, Binary.value_eq_zero_iff.mpr rfl] at hpowerValue
    exact absurd hpowerValue.symm (by positivity)
  have hquotient := Decimal.quotient_eq_value ⟨m, e⟩
  rw [scale, if_pos (Nat.le_trans he (by decide)), powerOfTen]
  split
  · next hsign =>
    have hproduct : ((m * tens e.toNat : ℕ) : ℚ) / (tens (-e).toNat : ℕ) =
        (Binary.ofBits (Decimal.toBits ⟨m, 0⟩)).value * (Binary.ofBits (Decimal.toBits ⟨1, e.natAbs⟩)).value := by
      rw [hquotient, hwholeValue, hpowerValue, Decimal.value, ← zpow_natCast, Int.natAbs_of_nonneg hsign]
    rw [mul_ofMagnitude false false hwhole hpos hpower (tens_pos _) hproduct, ← Decimal.toBits_eq_nearestBits ⟨m, e⟩]
    have hfinite := isInf_ofMagnitude false (toBits_lt_infinityBits hfits he)
    rw [Option.filter_some, Bool.xor_false, hfinite]
    rfl
  · next hsign =>
    have hdivision : ((m * tens e.toNat : ℕ) : ℚ) / (tens (-e).toNat : ℕ) =
        (Binary.ofBits (Decimal.toBits ⟨m, 0⟩)).value / (Binary.ofBits (Decimal.toBits ⟨1, e.natAbs⟩)).value := by
      have hnegative : e = -(e.natAbs : ℤ) := by omega
      rw [hquotient, hwholeValue, hpowerValue, Decimal.value, hnegative, zpow_neg, zpow_natCast, Int.natAbs_neg, Int.natAbs_natCast,
        div_eq_mul_inv]
    rw [div_ofMagnitude false false hwhole hpos hpower (tens_pos _) hdivision, ← Decimal.toBits_eq_nearestBits ⟨m, e⟩]
    rfl

/-- Such a numeral is read as the double nearest to its decimal. -/
theorem Exact.value?_eq {n : Numeral} (h : n.Exact) : n.value? = some (ofMagnitude n.negative n.decimal.toBits) := by
  rw [value?_of_fits h.fits, scale_of_double h.fits h.significand h.power, Option.map_some]
  split
  · next hnegative =>
    rw [neg_ofMagnitude false (toBits_lt_infinityBits h.fits h.power), hnegative]
    rfl
  · next hpositive =>
    rw [Bool.eq_false_iff.mpr hpositive]

end Numeral

end Spreadsheet.Json
