import Spreadsheet.Text.CaseTable
import Spreadsheet.Text.CharSet

/-!
# Upper and lower case

Full case conversion of a text: a letter may become several characters (`ß` becomes `SS`), and in lower case a capital sigma is
written `ς` at the end of a word and `σ` elsewhere.
-/

namespace Spreadsheet.Text

/-- The character a letter is converted to by a table of runs, which is itself if no run holds it. -/
def shifted (runs : Array Run) (c : Char) : Char :=
  match runs.find? (fun r => r.first ≤ c.toNat && c.toNat ≤ r.last && (c.toNat - r.first) % r.step == 0) with
  | some r => Char.ofNat (c.toNat + r.shift).toNat
  | none => c

/-- The characters a letter is converted to: several if it is one of the specials, otherwise one. -/
def converted (runs : Array Run) (specials : Array (Nat × List Nat)) (c : Char) : List Char :=
  match specials.find? (fun s => s.1 == c.toNat) with
  | some s => s.2.map Char.ofNat
  | none => [shifted runs c]

/-- A character in upper case. -/
def upperChar (c : Char) : List Char := converted upperRuns upperSpecials c

/-- A character in lower case, wherever it stands. -/
def lowerChar (c : Char) : List Char := converted lowerRuns lowerSpecials c

/-- Whether the first character that counts is one with a case: marks and the like are passed over. -/
def meetsCased (s : List Char) : Bool :=
  match s.dropWhile (fun c => inside caseIgnorableEdges c.toNat) with
  | c :: _ => inside casedEdges c.toNat
  | [] => false

/-- The lower case of a capital sigma between what stands before it, nearest first, and what stands after it. -/
def lowerSigma (before after : List Char) : Char :=
  if meetsCased before && !meetsCased after then 'ς' else 'σ'

/-- The lower case of a text of which some characters, nearest first, went before. -/
def lowerAfter (before : List Char) : List Char → List Char
  | [] => []
  | c :: s => (if c = 'Σ' then [lowerSigma before s] else lowerChar c) ++ lowerAfter (c :: before) s

/-- A text in upper case. -/
def upper (s : String) : String := String.ofList (s.toList.flatMap upperChar)

/-- A text in lower case. -/
def lower (s : String) : String := String.ofList (lowerAfter [] s.toList)

end Spreadsheet.Text
