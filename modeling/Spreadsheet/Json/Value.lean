import Spreadsheet.Cell
import Spreadsheet.Json.Reader

/-!
# Values as JSON

A value is written as an object with one member that names its kind, so that it can be shipped to a host. An evaluation error
that carries nothing is written as its name, one that carries a text as an object again. The reader also takes the name of a
bare error as a key over `null`. Numbers that JSON cannot say are written as `null`, which is not read back.
-/

namespace Spreadsheet

open Json (Reader)

/-- An evaluation error as JSON. -/
def EvalError.toJson : EvalError → List Char
  | divideByZero => Json.quote "DivideByZero"
  | undefinedVariable name => Json.writeObject [("UndefinedVariable", Json.quote name)]
  | malformed reason => Json.writeObject [("Malformed", Json.quote reason)]
  | overflow => Json.quote "Overflow"

/-- The error that is written as its name. -/
def EvalError.ofBareName? : String → Option EvalError
  | "DivideByZero" => some divideByZero
  | "Overflow" => some overflow
  | _ => none

/-- The reader of what an error carries. -/
def EvalError.carried (kind : String) : Reader EvalError :=
  match kind with
  | "UndefinedVariable" => Reader.string.map undefinedVariable
  | "Malformed" => Reader.string.map malformed
  | kind => Reader.null.filterMap fun _ => ofBareName? kind

/-- The reader of evaluation errors. -/
def EvalError.reader : Reader EvalError := (Reader.string.filterMap ofBareName?).orElse (Reader.variant carried)

namespace Value

/-- A value as JSON. -/
def toJson : Value → List Char
  | text t => Json.writeObject [("Text", Json.quote t)]
  | number value => Json.writeObject [("Number", (Number.Spelling.json.text value).toList)]
  | error e => Json.writeObject [("Error", e.toJson)]

/-- The reader of what a value of some kind holds. -/
def held (kind : String) : Reader Value :=
  match kind with
  | "Text" => Reader.string.map text
  | "Number" => Reader.number.map number
  | "Error" => EvalError.reader.map error
  | _ => Reader.fail

/-- The value that a whole JSON text is. -/
def ofJson? (json : String) : Option Value := (Reader.variant held).readAll json

/-- The JSON text of a value. -/
def jsonText (value : Value) : String := String.ofList value.toJson

end Value

end Spreadsheet
