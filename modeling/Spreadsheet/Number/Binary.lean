/-!
# Doubles as whole numbers

A double is a sign and a magnitude: the 63 lower bits of its pattern, read as a natural. Magnitudes are in the order of the
numbers they stand for; the infinities have magnitude `infinityBits`, and no number has a larger one. A finite magnitude
stands for a whole significand times a power of two (`Binary`), and every quotient of naturals has a nearest magnitude
(`nearestBits`): halves go to the even significand, and what is too large goes to infinity. Powers of two are written as the
patterns they are, or as shifts.
-/

namespace Spreadsheet.Number

/-- The bit of the sign, above all others. -/
def signBit : Nat := 0x8000000000000000

/-- The least bit of the exponent's field, above the 52 bits of the fraction. -/
def exponentBit : Nat := 0x10000000000000

/-- The magnitude of an infinity: an exponent field of ones over a zero fraction. -/
def infinityBits : Nat := 0x7ff0000000000000

/-- The magnitude given to what is not a number. -/
def nanBits : Nat := 0x7ff8000000000000

/-- The 63 bits below the sign of a double. -/
def magnitude (x : Float) : Nat := x.toBits.toNat % signBit

/-- The sign of a double, which zeros have too. -/
def isNegative (x : Float) : Bool := signBit ≤ x.toBits.toNat

/-- The double of a sign and a magnitude. -/
def ofMagnitude (negative : Bool) (bits : Nat) : Float :=
  Float.ofBits (UInt64.ofNat (bits + if negative then signBit else 0))

/-- The number `significand * 2 ^ exponent`. -/
structure Binary where
  significand : Nat
  exponent : Int
deriving DecidableEq, Repr

/-- The number a finite magnitude stands for: with an exponent's field of zero there is no leading one to restore. -/
def Binary.ofBits (bits : Nat) : Binary :=
  if bits / exponentBit = 0 then ⟨bits, -1074⟩
  else ⟨exponentBit + bits % exponentBit, bits / exponentBit - 1075⟩

/-- A quotient rounded to the nearest natural, a half to the even one. -/
def roundQuotient (num den : Nat) : Nat :=
  if den < 2 * (num % den) ∨ (2 * (num % den) = den ∧ num / den % 2 = 1) then num / den + 1 else num / den

/-- The place of the leading bit of a positive quotient: the greatest `e` with `2 ^ e ≤ num / den`. -/
def leadingBit (num den : Nat) : Int :=
  let e : Int := num.log2 - den.log2
  if den <<< e.toNat ≤ num <<< (-e).toNat then e else e - 1

/-- The place of the last bit that a double near the quotient can hold. -/
def lastBit (num den : Nat) : Int := max (leadingBit num den - 52) (-1074)

/-- The magnitude nearest to a quotient. The significand is added to the exponent's field rather than put beside it, so that one
rounded up to the next power of two carries into the exponent, and the leading one of a normal number counts there. -/
def nearestBits (num den : Nat) : Nat :=
  if num = 0 then 0
  else
    let place := lastBit num den
    let significand := roundQuotient (num <<< (-place).toNat) (den <<< place.toNat)
    min ((place + 1074).toNat * exponentBit + significand) infinityBits

/-! ### Small facts -/

theorem nearestBits_le (num den : Nat) : nearestBits num den ≤ infinityBits := by
  unfold nearestBits
  split
  · exact Nat.zero_le _
  · exact Nat.min_le_right _ _

/-- A quotient that is a natural is that natural. -/
theorem roundQuotient_mul_self (n den : Nat) (h : 0 < den) : roundQuotient (n * den) den = n := by
  simp [roundQuotient, Nat.mul_div_cancel _ h]
  omega

end Spreadsheet.Number
