import Spreadsheet.Formula.Evaluation
import Spreadsheet.Text.Blank

/-!
# Cells

A cell holds what was typed into it, its contents, apart from what it shows, its value. Typed text is a formula if it starts
with `=`, a number if it is the text of a finite one between blanks, and otherwise itself (`Contents.classify?`). The string form
of contents is text that is classified as them again.
-/

namespace Spreadsheet

/-- What was typed into a cell. Empty text is no contents. -/
inductive Contents where
  | text (text : String)
  | number (value : Float)
  | formula (formula : Formula)

namespace Contents

/-- No contents. -/
def empty : Contents := text ""

def isEmpty : Contents → Bool
  | text t => t.isEmpty
  | _ => false

/-- The text that stands for contents. -/
def stringForm : Contents → String
  | text t => t
  | number value => Number.Spelling.plain.text value
  | formula f => "=" ++ f.canonical

/-- The contents that a typed text stands for, or why its formula is none. -/
def classify? (rules : NameRules) (typed : String) : Except Fault Contents :=
  match typed.toList with
  | '=' :: rest => (Formula.ofTokens? rules (Token.scan rest)).map formula
  | cs =>
    match Number.readFinite? (Text.trim cs) with
    | some value => .ok (number value)
    | none => .ok (text typed)

/-- The names that contents read: the variables of a formula. -/
def reads : Contents → Names
  | formula f => f.names
  | _ => ∅

/-- Only a formula reads anything. -/
theorem mem_reads {contents : Contents} {name : String} : name ∈ contents.reads ↔ ∃ f, contents = formula f ∧ name ∈ f.names := by
  cases contents <;> simp [reads]

end Contents

/-- What a cell shows. -/
inductive Value where
  | text (text : String)
  | number (value : Float)
  | error (error : EvalError)
deriving DecidableEq

namespace Value

/-- The value of a cell without contents. -/
def empty : Value := text ""

/-- The number that formulas read from a value. -/
def number? : Value → Option Float
  | number value => some value
  | _ => none

def isError : Value → Bool
  | error _ => true
  | _ => false

/-- The value of an evaluation that ended. -/
def ofOutcome : Except EvalError Float → Value
  | .ok value => number value
  | .error e => error e

end Value

/-- What contents show, variables being looked up for a formula. -/
def Contents.value (rules : NameRules) (lookup : Lookup) : Contents → Value
  | text t => .text t
  | number value => .number value
  | formula f => .ofOutcome (f.evaluate rules lookup)

/-- A cell: its contents, and the value it had when it was last recalculated. -/
structure Cell where
  contents : Contents
  value : Value

namespace Cell

/-- A cell without contents. -/
def empty : Cell := ⟨.empty, .empty⟩

/-- A cell of new contents. A formula shows nothing until it is evaluated. -/
def ofContents (contents : Contents) : Cell :=
  match contents with
  | .text t => ⟨contents, .text t⟩
  | .number value => ⟨contents, .number value⟩
  | .formula _ => ⟨contents, .empty⟩

end Cell

end Spreadsheet
