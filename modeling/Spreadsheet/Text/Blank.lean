/-!
# Blanks

The characters with the `White_Space` property. They separate tokens and are trimmed from the ends of a text. The invisible
characters U+180E, U+200B and U+FEFF are not among them, nor are the separators U+001C to U+001F.
-/

namespace Spreadsheet.Text

/-- The `White_Space` characters. -/
def isBlank (c : Char) : Bool :=
  let n := c.toNat
  (0x9 ≤ n && n ≤ 0xd) || n == 0x20 || n == 0x85 || n == 0xa0 || n == 0x1680 || (0x2000 ≤ n && n ≤ 0x200a) ||
    n == 0x2028 || n == 0x2029 || n == 0x202f || n == 0x205f || n == 0x3000

/-- A text without the blanks at its ends. -/
def trim (s : List Char) : List Char := ((s.dropWhile isBlank).reverse.dropWhile isBlank).reverse

/-- What begins and ends with no blank is not trimmed. -/
theorem trim_eq_self (s : List Char) (h : ∀ c ∈ s, isBlank c = false) : trim s = s := by
  have h₁ : s.dropWhile isBlank = s := by
    cases s with
    | nil => rfl
    | cons c t => simp [h c List.mem_cons_self]
  have h₂ : s.reverse.dropWhile isBlank = s.reverse := by
    cases hs : s.reverse with
    | nil => rfl
    | cons c t =>
      have hc : c ∈ s := List.mem_reverse.mp (hs ▸ List.mem_cons_self)
      simp [h c hc]
  rw [trim, h₁, h₂, List.reverse_reverse]

end Spreadsheet.Text
