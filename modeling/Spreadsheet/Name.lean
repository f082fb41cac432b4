import Spreadsheet.Text.Blank
import Spreadsheet.Text.Case
import Std.Data.ExtTreeSet

/-!
# Names and naming rules

Cells and variables share one language of names: an ASCII letter or underscore, then ASCII letters, digits or underscores. A
sheet adds rules of its own: every name is first normalized, and the normalized name must be well formed and accepted. Nothing
is asked of a normalizer; in particular it need not leave its own results alone.
-/

namespace Spreadsheet

/-- The characters a name may start with. -/
def isNameStart (c : Char) : Bool := c.isAlpha || c == '_'

/-- The characters a name may go on with. -/
def isNameContinue (c : Char) : Bool := c.isAlphanum || c == '_'

/-- Whether characters spell a name. -/
def spellsName : List Char → Bool
  | [] => false
  | c :: s => isNameStart c && s.all isNameContinue

/-- Whether a text is a well-formed name. -/
def isName (name : String) : Bool := spellsName name.toList

/-- A finite set of names, in ascending order of code points. -/
abbrev Names := Std.ExtTreeSet String

/-- A sheet's rules for names: how a name is normalized, and which normalized names are accepted. -/
structure NameRules where
  normalize : String → String
  accepts : String → Bool

namespace NameRules

/-- Names are taken as written and all accepted. -/
def any : NameRules := ⟨id, fun _ => true⟩

/-- Whether a name that is already normalized is well formed and accepted. -/
def admits (rules : NameRules) (name : String) : Bool := isName name && rules.accepts name

/-- The normalized form of a name, if that is a name the rules admit. -/
def admit? (rules : NameRules) (name : String) : Option String :=
  if rules.admits (rules.normalize name) then some (rules.normalize name) else none

/-- Normalizing twice is normalizing once. -/
def Idempotent (rules : NameRules) : Prop := ∀ name, rules.normalize (rules.normalize name) = rules.normalize name

/-- What naming rules show of themselves: functions have no text. -/
def description : String := "FormulaRules \x7b .. \x7d"

theorem admit?_eq_some {rules : NameRules} {name normalized : String} (h : rules.admit? name = some normalized) :
    rules.normalize name = normalized ∧ rules.admits normalized = true := by
  unfold admit? at h
  split at h
  · cases h; exact ⟨rfl, by assumption⟩
  · cases h

theorem any_idempotent : any.Idempotent := fun _ => rfl

end NameRules

/-- A letter or underscore may also stand later in a name. -/
theorem isNameContinue_of_isNameStart {c : Char} (h : isNameStart c = true) : isNameContinue c = true := by
  simp only [isNameStart, isNameContinue, Char.isAlphanum, Bool.or_eq_true] at h ⊢
  exact h.elim (fun h => Or.inl (Or.inl h)) Or.inr

/-! ## A choice of rules -/

/-- Ways to normalize a name that can be asked for by name. -/
inductive Normalizer where
  | identity
  | upper
  | lower
  | trim
  | prepend (text : String)
  | append (text : String)
  | replace (table : List (String × String))

/-- The name as a normalizer writes it. A replacement looks the whole name up and keeps a name it does not find. -/
def Normalizer.apply : Normalizer → String → String
  | identity, name => name
  | upper, name => Text.upper name
  | lower, name => Text.lower name
  | trim, name => String.ofList (Text.trim name.toList)
  | prepend text, name => text ++ name
  | append text, name => name ++ text
  | replace table, name => (table.lookup name).getD name

/-- Conditions on normalized names that can be asked for by name. -/
inductive Acceptance where
  | all
  | none
  | withoutLowerCase
  | startsWith (text : String)
  | only (names : List String)
  | except (names : List String)

/-- Whether a condition accepts a normalized name. Only the ASCII letters count as lower case. -/
def Acceptance.holds : Acceptance → String → Bool
  | all, _ => true
  | none, _ => false
  | withoutLowerCase, name => !name.toList.any Char.isLower
  | startsWith text, name => text.toList.isPrefixOf name.toList
  | only names, name => names.contains name
  | except names, name => !names.contains name

/-- The rules of a normalizer and a condition. -/
def NameRules.of (normalizer : Normalizer) (acceptance : Acceptance) : NameRules := ⟨normalizer.apply, acceptance.holds⟩

/-- To replace one name is idempotent, whatever it is replaced by. -/
theorem NameRules.idempotent_replace (name other : String) (acceptance : Acceptance) :
    (NameRules.of (.replace [(name, other)]) acceptance).Idempotent := by
  have hkeep : ∀ given, given ≠ name → (NameRules.of (.replace [(name, other)]) acceptance).normalize given = given := by
    intro given h
    simp [NameRules.of, Normalizer.apply, List.lookup_cons, beq_false_of_ne h]
  have hreplace : (NameRules.of (.replace [(name, other)]) acceptance).normalize name = other := by
    simp [NameRules.of, Normalizer.apply]
  intro given
  by_cases hgiven : given = name
  · rw [hgiven, hreplace]
    by_cases hother : other = name
    · rw [hother] at hreplace ⊢
      exact hreplace
    · exact hkeep other hother
  · rw [hkeep given hgiven, hkeep given hgiven]

end Spreadsheet
