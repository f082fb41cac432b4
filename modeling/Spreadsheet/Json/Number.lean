import Spreadsheet.Number.Numeral

/-!
# Numbers in JSON text

A JSON numeral is a minus sign or none, digits without a needless zero in front, a fraction or none and an exponent or none.
The double it stands for is found quickly rather than exactly: the digits make up a significand as far as it fits 64 bits,
those that no longer fit only count as powers of ten, and the significand is scaled by one multiplication or division of
doubles. So up to fifteen digits with a small exponent are read without error, and others may come out a neighbour of the
nearest double. A number too large for a double is refused; one too small is zero.
-/

namespace Spreadsheet.Json

open Number

/-- The parts of a JSON numeral. -/
structure Numeral where
  negative : Bool
  whole : List Char
  /-- The digits after the point. -/
  fraction : List Char
  /-- The exponent, zero if none is written. -/
  exponent : Int

namespace Numeral

/-- The whole part at the front of a text, a zero on its own or digits that begin with another one, and the rest. -/
def spanWhole : List Char → List Char × List Char
  | '0' :: s => (['0'], s)
  | s => spanDigits s

/-- The fraction at the front of a text without its point, and the rest. A point that no digit follows stays where it is. -/
def spanFraction : List Char → List Char × List Char
  | '.' :: s => if (spanDigits s).1 = [] then ([], '.' :: s) else spanDigits s
  | s => ([], s)

/-- A minus sign at the front of a text, if there is one, and the rest. -/
def spanMinus : List Char → Bool × List Char
  | '-' :: s => (true, s)
  | s => (false, s)

/-- The numeral at the front of a text, and the rest. -/
def read? (s : List Char) : Option (Numeral × List Char) :=
  let whole := spanWhole (spanMinus s).2
  let fraction := spanFraction whole.2
  let exponent := spanExponent fraction.2
  if whole.1 = [] then none
  else some (⟨(spanMinus s).1, whole.1, fraction.1, (exponent? exponent.1).getD 0⟩, exponent.2)

/-- A significand of digits so far, and the number of digits taken into it. -/
structure Significand where
  value : Nat
  taken : Nat

/-- Digits taken into a significand until one no longer fits 64 bits. -/
def Significand.take (m : Significand) : List Char → Significand
  | [] => m
  | c :: s =>
    if m.value * 10 + (c.toNat - '0'.toNat) < UInt64.size then
      take ⟨m.value * 10 + (c.toNat - '0'.toNat), m.taken + 1⟩ s
    else m

/-- The double nearest to a power of ten. -/
def powerOfTen (exponent : Nat) : Float := ofMagnitude false (Decimal.toBits ⟨1, exponent⟩)

/-- The greatest power of ten that a double is scaled by at once. -/
def greatestPower : Nat := 308

/-- A double scaled by a power of ten; what becomes too large is refused. Small powers are divided out in turns. -/
def scale (x : Float) (exponent : Int) : Option Float :=
  if exponent.natAbs ≤ greatestPower then
    if 0 ≤ exponent then (some (x * powerOfTen exponent.natAbs)).filter fun y => !y.isInf
    else some (x / powerOfTen exponent.natAbs)
  else if x == 0 then some x
  else if 0 ≤ exponent then none
  else scale (x / powerOfTen greatestPower) (exponent + greatestPower)
termination_by (-exponent).toNat
decreasing_by
  simp only [greatestPower] at *
  omega

/-- The double that a numeral stands for, if it is not too large for one. Digits of the whole part that do not fit the significand
each leave one power of ten to scale by, digits taken from the fraction each take one away. -/
def value? (n : Numeral) : Option Float :=
  let whole := Significand.take ⟨0, 0⟩ n.whole
  let all := Significand.take ⟨whole.value, 0⟩ n.fraction
  let exponent : Int := (n.whole.length - whole.taken : Nat) - all.taken + n.exponent
  (scale (ofMagnitude false (Decimal.toBits ⟨all.value, 0⟩)) exponent).map fun x => if n.negative then -x else x

theorem spanWhole_append (s : List Char) : (spanWhole s).1 ++ (spanWhole s).2 = s := by
  unfold spanWhole
  split
  · rfl
  · exact spanDigits_append s

theorem length_spanFraction_le (s : List Char) : (spanFraction s).2.length ≤ s.length := by
  unfold spanFraction
  split
  · next s =>
    split
    · simp
    · exact Nat.le_succ_of_le (List.dropWhile_sublist _).length_le
  · simp

theorem length_spanExponent_le (s : List Char) : (spanExponent s).2.length ≤ s.length := by
  have h := congrArg List.length (spanExponent_append s)
  rw [List.length_append] at h
  omega

theorem length_spanMinus_le (s : List Char) : (spanMinus s).2.length ≤ s.length := by
  unfold spanMinus
  split <;> simp

theorem read?_shorter {s rest : List Char} {n : Numeral} (h : read? s = some (n, rest)) : rest.length < s.length := by
  simp only [read?] at h
  split at h
  · cases h
  · next hw =>
    simp only [Option.some.injEq, Prod.mk.injEq] at h
    have h₀ := length_spanMinus_le s
    have h₁ := congrArg List.length (spanWhole_append (spanMinus s).2)
    have hpos := List.length_pos_iff.mpr hw
    have h₂ := length_spanFraction_le (spanWhole (spanMinus s).2).2
    have h₃ := length_spanExponent_le (spanFraction (spanWhole (spanMinus s).2).2).2
    rw [List.length_append] at h₁
    rw [← h.2]
    omega

end Numeral

end Spreadsheet.Json
