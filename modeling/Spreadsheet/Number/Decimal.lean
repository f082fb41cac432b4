import Spreadsheet.Number.Binary

/-!
# Decimals

A decimal is a whole number of units `10 ^ exponent`. Every decimal has a nearest double (`Decimal.toBits`), and every finite
double is exactly a decimal (`Binary.exact`), since a half, a quarter and so on all end in base ten.
-/

namespace Spreadsheet.Number

/-- A power of ten. -/
def tens (n : Nat) : Nat := Nat.pow 10 n

/-- The number `digits * 10 ^ exponent`. -/
structure Decimal where
  digits : Nat
  exponent : Int
deriving DecidableEq, Repr

namespace Decimal

/-- The decimal written with these digits before and after the point, scaled by a power of ten. -/
def ofParts (whole fraction : List Char) (exponent : Int) : Decimal :=
  ⟨Nat.ofDigitChars 10 (whole ++ fraction) 0, exponent - fraction.length⟩

/-- The magnitude of the double nearest to a decimal. As `8 < 10`, a decimal whose exponent alone carries it past every double
or below half of the least one is settled without writing out the power of ten. -/
def toBits (d : Decimal) : Nat :=
  if d.digits = 0 then 0
  else if 0 ≤ d.exponent ∧ 1024 ≤ d.digits.log2 + 3 * d.exponent then infinityBits
  else if d.exponent < 0 ∧ d.digits.log2 + 1 + 3 * d.exponent ≤ -1075 then 0
  else nearestBits (d.digits * tens d.exponent.toNat) (tens (-d.exponent).toNat)

/-- The place of the leading digit of a decimal: `3` for `1234`, `-2` for `0.05`. -/
def leadingPlace (d : Decimal) : Int := (Nat.toDigits 10 d.digits).length - 1 + d.exponent

/-- The same number without zeros at the end of its digits. -/
def withoutTrailingZeros (d : Decimal) : Decimal :=
  if h : 0 < d.digits ∧ d.digits % 10 = 0 then withoutTrailingZeros ⟨d.digits / 10, d.exponent + 1⟩ else d
termination_by d.digits
decreasing_by exact Nat.div_lt_self h.1 (by decide)

theorem toBits_le (d : Decimal) : d.toBits ≤ infinityBits := by
  unfold toBits
  repeat' split
  · exact Nat.zero_le _
  · exact Nat.le_refl _
  · exact Nat.zero_le _
  · exact nearestBits_le _ _

end Decimal

/-- A finite double is a decimal: `2 ^ -k` is `5 ^ k` units of `10 ^ -k`. Zero is no units of one. -/
def Binary.exact (b : Binary) : Decimal :=
  if 0 ≤ b.exponent ∨ b.significand = 0 then ⟨b.significand <<< b.exponent.toNat, 0⟩
  else ⟨b.significand * Nat.pow 5 (-b.exponent).toNat, b.exponent⟩

end Spreadsheet.Number
