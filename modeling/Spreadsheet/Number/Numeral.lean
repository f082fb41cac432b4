import Spreadsheet.Number.Decimal

/-!
# Numerals

A numeral is digits with at most one point, then perhaps an exponent: a mark, a sign or none, and at least one digit. Here are
the longest numeral at the front of a text (`spanNumeral`), which is cut off as a lexeme, and the number a whole text stands for
(`read?`), which also knows signs, infinities and what is not a number. Only the ten ASCII digits count.
-/

namespace Spreadsheet.Number

/-- The digits at the front of a text, and the rest. -/
def spanDigits (s : List Char) : List Char × List Char := (s.takeWhile Char.isDigit, s.dropWhile Char.isDigit)

/-- Digits and a point with digits at the front of a text, either part perhaps missing, and the rest. -/
def spanMantissa (s : List Char) : List Char × List Char :=
  match s.dropWhile Char.isDigit with
  | '.' :: rest => (s.takeWhile Char.isDigit ++ '.' :: rest.takeWhile Char.isDigit, rest.dropWhile Char.isDigit)
  | rest => (s.takeWhile Char.isDigit, rest)

/-- The mark that starts an exponent. -/
def isExponentMark (c : Char) : Bool := c == 'e' || c == 'E'

/-- A sign at the front of a text, if there is one, and the rest. -/
def spanSign : List Char → List Char × List Char
  | '+' :: s => (['+'], s)
  | '-' :: s => (['-'], s)
  | s => ([], s)

/-- An exponent at the front of a text and the rest. A mark that no digit follows is no exponent and stays where it is. -/
def spanExponent (s : List Char) : List Char × List Char :=
  match s with
  | [] => ([], [])
  | c :: t =>
    if isExponentMark c ∧ (spanDigits (spanSign t).2).1 ≠ [] then
      (c :: (spanSign t).1 ++ (spanDigits (spanSign t).2).1, (spanDigits (spanSign t).2).2)
    else ([], s)

/-- The longest numeral at the front of a text, and the rest. -/
def spanNumeral (s : List Char) : List Char × List Char :=
  ((spanMantissa s).1 ++ (spanExponent (spanMantissa s).2).1, (spanExponent (spanMantissa s).2).2)

/-- The value of digits under a sign. -/
def signedValue (sign digits : List Char) : Int :=
  if sign = ['-'] then -(Nat.ofDigitChars 10 digits 0 : Int) else Nat.ofDigitChars 10 digits 0

/-- The value of what is left of a numeral after its mantissa: nothing, or one whole exponent. -/
def exponent? : List Char → Option Int
  | [] => some 0
  | c :: t =>
    let (sign, digits) := spanSign t
    if isExponentMark c ∧ digits ≠ [] ∧ digits.all Char.isDigit then some (signedValue sign digits) else none

/-- The decimal that an unsigned numeral writes; there is a digit on at least one side of the point. -/
def decimal? (s : List Char) : Option Decimal :=
  let whole := s.takeWhile Char.isDigit
  match s.dropWhile Char.isDigit with
  | '.' :: rest =>
    let fraction := rest.takeWhile Char.isDigit
    if whole = [] ∧ fraction = [] then none
    else (exponent? (rest.dropWhile Char.isDigit)).map (Decimal.ofParts whole fraction)
  | rest => if whole = [] then none else (exponent? rest).map (Decimal.ofParts whole [])

/-- The magnitude of an unsigned number: a numeral, or the words for infinity and for no number in any letter case. -/
def readMagnitude? (s : List Char) : Option Nat :=
  let word := String.ofList (s.map Char.toLower)
  if word = "inf" ∨ word = "infinity" then some infinityBits
  else if word = "nan" then some nanBits
  else (decimal? s).map Decimal.toBits

/-- The double nearest to the number that a text stands for, as far as it is the text of a number. -/
def read? (s : List Char) : Option Float :=
  let (sign, rest) := spanSign s
  (readMagnitude? rest).map (ofMagnitude (sign = ['-']))

/-- The number that a text stands for, if that is a finite number. -/
def readFinite? (s : List Char) : Option Float := (read? s).filter Float.isFinite

/-! ### Nothing is lost -/

theorem spanDigits_append (s : List Char) : (spanDigits s).1 ++ (spanDigits s).2 = s := List.takeWhile_append_dropWhile

theorem spanMantissa_append (s : List Char) : (spanMantissa s).1 ++ (spanMantissa s).2 = s := by
  have h := List.takeWhile_append_dropWhile (p := Char.isDigit) (l := s)
  unfold spanMantissa
  split
  · next rest hr =>
    rw [hr] at h
    simpa [List.takeWhile_append_dropWhile] using h
  · exact h

theorem spanSign_append (s : List Char) : (spanSign s).1 ++ (spanSign s).2 = s := by
  unfold spanSign
  split <;> rfl

theorem spanExponent_append (s : List Char) : (spanExponent s).1 ++ (spanExponent s).2 = s := by
  unfold spanExponent
  split
  · rfl
  · next c t =>
    split
    · simp [spanDigits_append, spanSign_append]
    · rfl

theorem spanNumeral_append (s : List Char) : (spanNumeral s).1 ++ (spanNumeral s).2 = s := by
  simp only [spanNumeral, List.append_assoc, spanExponent_append, spanMantissa_append]

end Spreadsheet.Number
