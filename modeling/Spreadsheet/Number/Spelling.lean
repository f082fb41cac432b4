import Spreadsheet.Number.Shortest

/-!
# Spelling numbers

A number is spelt with the fewest digits that read back. What else differs from one format to another (which way a tie goes,
when an exponent is written, what stands for infinity) is one record, `Spelling`; each format of the library is a value of it.
-/

namespace Spreadsheet.Number

/-- How a format spells numbers. -/
structure Spelling where
  /-- Which of two equally near shortest decimals is written. -/
  tie : Tie
  /-- Whether a number with its leading digit at this place is written without an exponent. -/
  positional : Int → Bool
  /-- Whether a number without an exponent always has a digit after the point. -/
  pointed : Bool
  infinity : String
  minusInfinity : String
  notANumber : String

namespace Spelling

/-- Digits with the last one at place `exponent`, written out without an exponent. -/
def positionalText (pointed : Bool) (digits : List Char) (exponent : Int) : List Char :=
  let places := (-exponent).toNat
  if 0 ≤ exponent then digits ++ List.replicate exponent.toNat '0' ++ (if pointed then ['.', '0'] else [])
  else if places < digits.length then digits.take (digits.length - places) ++ '.' :: digits.drop (digits.length - places)
  else '0' :: '.' :: List.replicate (places - digits.length) '0' ++ digits

/-- Digits with a point after the first one, and the place of that one as a signed exponent. -/
def exponentText (digits : List Char) (place : Int) : List Char :=
  digits.take 1 ++ (if digits.length ≤ 1 then [] else '.' :: digits.drop 1) ++
    'e' :: (if place < 0 then '-' else '+') :: Nat.toDigits 10 place.natAbs

/-- The text of a finite magnitude. -/
def magnitudeText (s : Spelling) (bits : Nat) : List Char :=
  let d := shortest s.tie bits
  let digits := Nat.toDigits 10 d.digits
  if s.positional d.leadingPlace then positionalText s.pointed digits d.exponent
  else exponentText digits d.leadingPlace

/-- The text of a double. -/
def text (s : Spelling) (x : Float) : String :=
  if infinityBits < magnitude x then s.notANumber
  else if magnitude x = infinityBits then if isNegative x then s.minusInfinity else s.infinity
  else String.ofList ((if isNegative x then ['-'] else []) ++ s.magnitudeText (magnitude x))

/-- Numbers in formulas, contents and answers: never an exponent, no point after a whole number, ties upwards. -/
def plain : Spelling where
  tie := .up
  positional := fun _ => true
  pointed := false
  infinity := "inf"
  minusInfinity := "-inf"
  notANumber := "NaN"

/-- Numbers in JSON text: always a point or an exponent, positional from `0.00001` up to sixteen whole digits, ties to even;
what JSON cannot say is `null`. -/
def json : Spelling where
  tie := .even
  positional := fun place => -5 ≤ place && place ≤ 15
  pointed := true
  infinity := "null"
  minusInfinity := "null"
  notANumber := "null"

end Spelling

end Spreadsheet.Number
