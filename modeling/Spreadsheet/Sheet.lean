import Spreadsheet.Cell
import Spreadsheet.Dependency.Order

/-!
# Sheets

A sheet keeps cells by their normalized names, which of them read which, its naming rules, a version tag, and a mark that says
whether it was changed since it was made, restored or saved. New contents are all or nothing: the name and the text are checked,
the links of the cell are replaced and the order of recalculation is found; only then is the cell written and recalculated with
all that depends on it. If the new links close a cycle, the old ones are put back.
-/

namespace Spreadsheet

/-- Why an operation on a sheet is refused. -/
inductive SheetError where
  | invalidName (name : String)
  | formulaFormat (fault : Fault)
  | circularDependency (cycle : Cycle)
deriving DecidableEq, Repr

/-- The message of a refusal. -/
def SheetError.message : SheetError → String
  | invalidName name => "Invalid cell name: " ++ Text.quoted name
  | formulaFormat fault => "Invalid formula: " ++ fault.message
  | circularDependency cycle => cycle.message

/-- The cells of a sheet with all that is known of them. -/
structure Sheet where
  cells : Std.ExtTreeMap String Cell
  dependencies : Dependencies
  rules : NameRules
  version : String
  changed : Bool

namespace Sheet

/-- The version tag of a sheet that is given none. -/
def defaultVersion : String := "default"

/-- A sheet without cells. -/
def empty (rules : NameRules) (version : String) : Sheet := ⟨∅, .empty, rules, version, false⟩

/-- A sheet that counts as saved. -/
def markSaved (sheet : Sheet) : Sheet := { sheet with changed := false }

/-- The number that a name stands for in formulas. -/
def lookup (sheet : Sheet) : Lookup := fun name => sheet.cells[name]?.bind fun cell => cell.value.number?

/-- The normalized form of a cell's name. A name that is not admitted is reported as it was given. -/
def resolve (sheet : Sheet) (name : String) : Except SheetError String :=
  match sheet.rules.admit? name with
  | some normalized => .ok normalized
  | none => .error (.invalidName name)

/-! ### Reading -/

/-- The cells with contents, in the order of their names. -/
def nonempty (sheet : Sheet) : List (String × Cell) := sheet.cells.toList.filter fun entry => !entry.2.contents.isEmpty

/-- The contents under a normalized name. -/
def contentsAt (sheet : Sheet) (name : String) : Contents := (sheet.cells[name]?.getD .empty).contents

/-- The value under a normalized name. -/
def valueAt (sheet : Sheet) (name : String) : Value := (sheet.cells[name]?.getD .empty).value

/-- The contents of a cell, empty if it was never written. -/
def contents (sheet : Sheet) (name : String) : Except SheetError Contents := (sheet.resolve name).map sheet.contentsAt

/-- The value of a cell, empty text if it was never written. -/
def value (sheet : Sheet) (name : String) : Except SheetError Value := (sheet.resolve name).map sheet.valueAt

/-- The cells whose formulas read a cell. -/
def directDependents (sheet : Sheet) (name : String) : Except SheetError Names :=
  (sheet.resolve name).map sheet.dependencies.dependentsOf

/-- What a name stands for in a formula that is not in the sheet: it is resolved like any cell's name. -/
def publicLookup (sheet : Sheet) : Lookup := fun name => (sheet.value name).toOption.bind Value.number?

/-- The outcome of a formula that is not in the sheet, under the sheet's rules. -/
def evaluate (sheet : Sheet) (text : String) : Except Fault (Except EvalError Float) :=
  (Formula.parse? sheet.rules text).map (Formula.evaluate sheet.rules sheet.publicLookup)

/-! ### Writing -/

/-- The cell under a name evaluated again, from the values that the sheet shows. -/
def refresh (sheet : Sheet) (name : String) : Sheet :=
  match sheet.cells[name]? with
  | none => sheet
  | some cell =>
    { sheet with cells := sheet.cells.insert name { cell with value := cell.contents.value sheet.rules sheet.lookup } }

/-- Cells evaluated again one after the other, each from the values the ones before it now show. -/
def recalculate (sheet : Sheet) (order : List String) : Sheet := order.foldl refresh sheet

/-- The links of a cell replaced: it reads these names and no others. -/
def relink (sheet : Sheet) (name : String) (reads : Names) : Sheet :=
  { sheet with dependencies := sheet.dependencies.replaceDependees name reads.toList }

/-- A new cell in place of an old one; the sheet is changed. -/
def write (sheet : Sheet) (name : String) (contents : Contents) : Sheet :=
  { sheet with cells := sheet.cells.insert name (.ofContents contents), changed := true }

/-- Contents put under a normalized name. The order of recalculation is that of the new links, and if they close a cycle the old
ones are put back. -/
def place (sheet : Sheet) (name : String) (contents : Contents) : Except Cycle (List String) × Sheet :=
  let relinked := sheet.relink name contents.reads
  match relinked.dependencies.recalculationOrder name with
  | .ok order => (.ok order, (relinked.write name contents).recalculate order)
  | .error cycle => (.error cycle, relinked.relink name (sheet.dependencies.dependeesOf name))

/-- Text typed into a cell: the names recalculated, in order, or why the text is refused; and the sheet as it then is. -/
def set (sheet : Sheet) (name typed : String) : Except SheetError (List String) × Sheet :=
  match sheet.resolve name with
  | .error e => (.error e, sheet)
  | .ok name =>
    match Contents.classify? sheet.rules typed with
    | .error fault => (.error (.formulaFormat fault), sheet)
    | .ok contents =>
      let (outcome, sheet) := sheet.place name contents
      (outcome.mapError .circularDependency, sheet)

end Sheet

end Spreadsheet
