import Spreadsheet.Formula.Fault
import Spreadsheet.Text.Quoted

/-!
# Formulas

A formula is what is left of a text once its tokens have been found without fault: the tokens with every variable under its
normalized name. Its canonical text is the text of its tokens without blanks, and formulas are compared by it: how a number or a
name was spelt does not count.
-/

namespace Spreadsheet

/-- A sequence of tokens without fault, its variables normalized. Whether their names are accepted is for the rules it was built
under to say; all are well formed. -/
structure Formula where
  tokens : List Token
  faultless : firstFault? .any tokens = none

namespace Formula

/-- The formula of some tokens, or what is wrong with them. -/
def ofTokens? (rules : NameRules) (ts : List Token) : Except Fault Formula :=
  match h : firstFault? rules ts with
  | some fault => .error fault
  | none => .ok ⟨ts.map (Token.mapName rules.normalize), firstFault?_mapName h⟩

/-- The formula a text spells, or what is wrong with it. -/
def parse? (rules : NameRules) (text : String) : Except Fault Formula := ofTokens? rules (Token.scan text.toList)

/-- The names a formula asks for. -/
def names (f : Formula) : Names := .ofList (f.tokens.filterMap Token.name?)

/-- The text of a formula without blanks. -/
def canonical (f : Formula) : String := String.join (f.tokens.map Token.text)

/-- Formulas are compared by their canonical texts. -/
instance : BEq Formula := ⟨fun f g => f.canonical == g.canonical⟩

instance : Hashable Formula := ⟨fun f => hash f.canonical⟩

/-- A formula as it is shown among other values. -/
def description (f : Formula) : String := "Formula(" ++ Text.quoted f.canonical ++ ")"

/-- Formulas are the same if their tokens are. -/
theorem ext {f g : Formula} (h : f.tokens = g.tokens) : f = g := by
  cases f
  cases g
  cases h
  rfl

theorem ofTokens?_eq_ok {rules : NameRules} {ts : List Token} {f : Formula} (h : ofTokens? rules ts = .ok f) :
    firstFault? rules ts = none ∧ f.tokens = ts.map (Token.mapName rules.normalize) := by
  unfold ofTokens? at h
  split at h
  · cases h
  · next hf => cases h; exact ⟨hf, rfl⟩

theorem ofTokens?_eq_error {rules : NameRules} {ts : List Token} {fault : Fault} (h : ofTokens? rules ts = .error fault) :
    firstFault? rules ts = some fault := by
  unfold ofTokens? at h
  split at h
  · next hf => cases h; exact hf
  · cases h

theorem mem_names {f : Formula} {name : String} : name ∈ f.names ↔ .var name ∈ f.tokens := by
  simp only [names, Std.ExtTreeSet.mem_ofList, List.contains_iff_mem, List.mem_filterMap]
  constructor
  · rintro ⟨t, ht, hn⟩
    cases t <;> simp [Token.name?] at hn
    exact hn ▸ ht
  · exact fun h => ⟨_, h, rfl⟩

end Formula

end Spreadsheet
