import Spreadsheet.Formula.Token
import Spreadsheet.Name
import Spreadsheet.Number.Numeral

/-!
# Lexemes

A text is cut into lexemes with blanks between them, each the longest that starts where it does: a numeral, a name, or a single
character. A lexeme alone decides its token (`Token.ofLexeme`). A numeral without a digit in its mantissa, or of a number too
large for a double, makes an illegal token, and so does any character that is no operator and no parenthesis. Nothing but blanks
is lost (`spanLexeme_append`).
-/

namespace Spreadsheet

/-- The characters a numeral may start with. -/
def isNumeralStart (c : Char) : Bool := c.isDigit || c == '.'

/-- The lexeme at the front of a text that begins with no blank, and the rest. -/
def spanLexeme : List Char → List Char × List Char
  | [] => ([], [])
  | c :: s =>
    if isNumeralStart c then Number.spanNumeral (c :: s)
    else if isNameStart c then (c :: s.takeWhile isNameContinue, s.dropWhile isNameContinue)
    else ([c], s)

/-- The token that a character makes by itself. -/
def Token.ofSymbol? : Char → Option Token
  | '+' => some (.operator .add)
  | '-' => some (.operator .subtract)
  | '*' => some (.operator .multiply)
  | '/' => some (.operator .divide)
  | '(' => some .openParen
  | ')' => some .closeParen
  | _ => none

/-- The token of a lexeme. -/
def Token.ofLexeme (lexeme : List Char) : Token :=
  match lexeme with
  | [] => .illegal ""
  | c :: _ =>
    if isNumeralStart c then
      match Number.readFinite? lexeme with
      | some value => .number value
      | none => .illegal (String.ofList lexeme)
    else if isNameStart c then .var (String.ofList lexeme)
    else (ofSymbol? c).getD (.illegal (String.ofList lexeme))

/-- A number comes from a lexeme that begins as a numeral does and stands for a finite number. -/
theorem Token.readFinite?_of_ofLexeme {lexeme : List Char} {value : Float} (h : ofLexeme lexeme = number value) :
    ∃ c s, lexeme = c :: s ∧ isNumeralStart c = true ∧ Number.readFinite? lexeme = some value := by
  unfold ofLexeme at h
  split at h
  · cases h
  · next c s =>
    split at h
    · next hstart =>
      split at h
      · next hread =>
        cases h
        exact ⟨c, s, rfl, hstart, hread⟩
      · cases h
    · split at h
      · cases h
      · unfold ofSymbol? at h
        split at h <;> cases h

/-! ### Cutting loses nothing and gets on -/

theorem spanLexeme_append (s : List Char) : (spanLexeme s).1 ++ (spanLexeme s).2 = s := by
  unfold spanLexeme
  split
  · rfl
  · next c s =>
    split
    · exact Number.spanNumeral_append (c :: s)
    · split
      · simp [List.takeWhile_append_dropWhile]
      · rfl

/-- A text that starts as a numeral does has a mantissa. -/
theorem spanMantissa_ne_nil {c : Char} (h : isNumeralStart c = true) (s : List Char) :
    (Number.spanMantissa (c :: s)).1 ≠ [] := by
  unfold Number.spanMantissa
  split
  · simp
  · next hd =>
    by_cases hc : c.isDigit = true
    · simp [hc]
    · obtain rfl : c = '.' := by simpa [isNumeralStart, hc] using h
      exact (hd s (by simp)).elim

theorem spanLexeme_ne_nil (c : Char) (s : List Char) : (spanLexeme (c :: s)).1 ≠ [] := by
  simp only [spanLexeme]
  split
  · next h => simp [Number.spanNumeral, spanMantissa_ne_nil h s]
  · split <;> simp

theorem length_spanLexeme_lt (c : Char) (s : List Char) : (spanLexeme (c :: s)).2.length < (c :: s).length := by
  have h := congrArg List.length (spanLexeme_append (c :: s))
  have hp := List.length_pos_iff.mpr (spanLexeme_ne_nil c s)
  rw [List.length_append] at h
  omega

/-- The lexemes of a text, in order. -/
def lexemes (s : List Char) : List (List Char) :=
  match _h : s.dropWhile Text.isBlank with
  | [] => []
  | c :: t => (spanLexeme (c :: t)).1 :: lexemes (spanLexeme (c :: t)).2
termination_by s.length
decreasing_by
  have h₁ := length_spanLexeme_lt c t
  have h₂ := (List.dropWhile_sublist (p := Text.isBlank) (l := s)).length_le
  rw [_h] at h₂
  omega

/-- The tokens of a text, in order. -/
def Token.scan (s : List Char) : List Token := (lexemes s).map ofLexeme

end Spreadsheet
