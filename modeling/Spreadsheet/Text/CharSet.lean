/-!
# Sets of characters by their edges

A set of characters is held as the ascending list of code points at which membership changes, beginning with its first member.
A character is in the set exactly when an odd number of edges lies at or below it.
-/

namespace Spreadsheet.Text

/-- Whether a code point lies in the set with these edges. -/
def inside (edges : Array Nat) (code : Nat) : Bool :=
  edges.foldl (fun within edge => if edge ≤ code then !within else within) false

end Spreadsheet.Text
