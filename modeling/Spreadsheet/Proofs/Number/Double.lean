import Mathlib
import Spreadsheet.Number.Binary

/-!
# Doubles and their patterns

A double is the one that is made of its sign and its magnitude (`ofMagnitude_magnitude`), and it is finite exactly if its magnitude
is below that of an infinity (`isFinite_iff`). What is made of a sign and a finite magnitude has these (`toBits_ofMagnitude`); a
magnitude above that of an infinity would not come back, as what is not a number has one pattern only.
-/

namespace Spreadsheet.Number

open Float.Model
open Float.Model.UnpackedFloat hiding pack unpack isFinite

namespace DoubleAux

/-- A pattern of a double. -/
abbrev Pattern := BitVec Format.binary64.numBits

/-- An exponent's field of all ones is not that of a finite double. -/
theorem unpackExponent_eq_ones (b : Pattern) : unpackExponent b = -1#_ ↔ b.toNat / 2 ^ 52 % 2 ^ 11 = 2047 := by
  have hfield : (unpackExponent b).toNat = b.toNat / 2 ^ 52 % 2 ^ 11 := by
    rw [unpackExponent_def, BitVec.extractLsb'_toNat, Nat.shiftRight_eq_div_pow]
  rw [← hfield, ← BitVec.toNat_inj]
  rfl

theorem isFinite_unpack (b : Pattern) :
    (UnpackedFloat.unpack .binary64 b).isFinite = true ↔ b.toNat / 2 ^ 52 % 2 ^ 11 ≠ 2047 := by
  rw [ne_eq, ← unpackExponent_eq_ones, UnpackedFloat.unpack]
  split
  · next h =>
    have hinfinite : ∀ u : Bool, u = false → (u = true ↔ ¬unpackExponent b = -1#_) := by
      rintro u rfl
      exact ⟨fun hu => absurd hu Bool.false_ne_true, fun hu => absurd h hu⟩
    refine hinfinite _ ?_
    split <;> rfl
  · next h =>
    have hfinite : ∀ u : Bool, u = true → (u = true ↔ ¬unpackExponent b = -1#_) := by
      rintro u rfl
      exact ⟨fun _ => h, fun _ => rfl⟩
    refine hfinite _ ?_
    split
    · split <;> rfl
    · rfl

/-- A finite pattern is taken apart and put together without change. -/
theorem pack_unpack_of_isFinite {b : Pattern} (h : b.toNat / 2 ^ 52 % 2 ^ 11 ≠ 2047) :
    UnpackedFloat.pack .binary64 (UnpackedFloat.unpack .binary64 b) = b := by
  rw [ne_eq, ← unpackExponent_eq_ones] at h
  have hnumber : isNaNBits b = false := by
    rw [isNaNBits]
    exact decide_eq_false fun hb => h hb.1
  rw [UnpackedFloat.pack_unpack, hnumber]
  rfl

end DoubleAux

/-- A double is finite if its magnitude is below that of an infinity. -/
theorem isFinite_iff (x : Float) : x.isFinite = true ↔ magnitude x < infinityBits := by
  have hbits : x.toBits.toNat < 2 ^ 64 := x.toBits.toNat_lt
  have hfinite : x.isFinite = true ↔ x.toBits.toNat / 2 ^ 52 % 2 ^ 11 ≠ 2047 := DoubleAux.isFinite_unpack x.toBits.toBitVec
  rw [hfinite, magnitude, infinityBits, signBit]
  omega

/-- A double is made of its sign and its magnitude. -/
theorem ofMagnitude_magnitude (x : Float) : ofMagnitude (isNegative x) (magnitude x) = x := by
  have hbits : x.toBits.toNat < 2 ^ 64 := x.toBits.toNat_lt
  have hsum : UInt64.ofNat (magnitude x + if isNegative x then signBit else 0) = x.toBits := by
    refine UInt64.toNat_inj.mp ?_
    rw [UInt64.toNat_ofNat', magnitude]
    by_cases hsign : signBit ≤ x.toBits.toNat
    · have hnegative : isNegative x = true := decide_eq_true hsign
      rw [if_pos hnegative]
      rw [signBit] at hsign ⊢
      omega
    · have hpositive : ¬isNegative x = true := fun hn => hsign (of_decide_eq_true hn)
      rw [if_neg hpositive]
      rw [signBit] at hsign ⊢
      omega
  rw [ofMagnitude, hsum, Float.ofBits_toBits]

/-- A double made of a sign and a finite magnitude has these as its pattern. -/
theorem toBits_ofMagnitude (negative : Bool) {bits : Nat} (h : bits < infinityBits) :
    (ofMagnitude negative bits).toBits.toNat = bits + if negative then signBit else 0 := by
  have hsum : (UInt64.ofNat (bits + if negative then signBit else 0)).toNat = bits + if negative then signBit else 0 := by
    rw [UInt64.toNat_ofNat']
    rw [infinityBits] at h
    cases negative
    · simp
      omega
    · simp [signBit]
      omega
  have hfinite : (UInt64.ofNat (bits + if negative then signBit else 0)).toBitVec.toNat / 2 ^ 52 % 2 ^ 11 ≠ 2047 := by
    rw [UInt64.toNat_toBitVec, hsum]
    rw [infinityBits] at h
    cases negative
    · simp
      omega
    · simp [signBit]
      omega
  change (UnpackedFloat.pack .binary64 (UnpackedFloat.unpack .binary64 _)).toNat = _
  rw [DoubleAux.pack_unpack_of_isFinite hfinite, UInt64.toNat_toBitVec, hsum]

theorem isNegative_ofMagnitude (negative : Bool) {bits : Nat} (h : bits < infinityBits) :
    isNegative (ofMagnitude negative bits) = negative := by
  rw [isNegative, toBits_ofMagnitude negative h]
  rw [infinityBits] at h
  cases negative
  · simp [signBit]
    omega
  · simp [signBit]

end Spreadsheet.Number
