import Spreadsheet.Formula.Basic

/-!
# Evaluation

A formula is evaluated from left to right with a stack of values and a stack of operators and parentheses that wait. A waiting
`*` or `/` is applied as soon as its right operand is there, a waiting `+` or `-` when the next one of them, a closing
parenthesis or the end comes. Each variable is looked up when it is read, under its name normalized once more; the names are
recorded in the order in which they are asked for, also when evaluation fails. No result is ever infinite or not a number.
-/

namespace Spreadsheet

/-- Why a formula has no number. -/
inductive EvalError where
  | divideByZero
  | undefinedVariable (name : String)
  | malformed (reason : String)
  | overflow
deriving DecidableEq, Repr

/-- The message of an evaluation error. -/
def EvalError.message : EvalError → String
  | divideByZero => "Division by zero"
  | undefinedVariable name => "Undefined variable: " ++ name
  | malformed reason => "Malformed expression: " ++ reason
  | overflow => "Numeric overflow"

/-- A finite result; one that left the range of the doubles is an overflow. -/
def finite (x : Float) : Except EvalError Float := if x.isFinite then .ok x else .error .overflow

/-- The result of an operator. Nothing is divided by a zero of either sign. -/
def Operator.apply (op : Operator) (left right : Float) : Except EvalError Float :=
  match op with
  | add => finite (left + right)
  | subtract => finite (left - right)
  | multiply => finite (left * right)
  | divide => if right == 0 then .error .divideByZero else finite (left / right)

/-- The number a variable stands for, if it has one. -/
abbrev Lookup := String → Option Float

/-- A computation that may fail and that keeps the names it asked for, the last one first. -/
abbrev Evaluation := ExceptT EvalError (StateM (List String))

namespace Evaluation

/-- A result that asks for nothing. -/
def settle {α : Type} (result : Except EvalError α) : Evaluation α := fun asked => (result, asked)

/-- The value of a variable: its name is recorded, and without a value evaluation ends. -/
def ask (lookup : Lookup) (name : String) : Evaluation Float := fun asked =>
  (match lookup name with
    | some value => .ok value
    | none => .error (.undefinedVariable name), name :: asked)

/-- How a computation ends. -/
def outcome {α : Type} (e : Evaluation α) : Except EvalError α := (e []).1

/-- The names a computation asks for, in order. -/
def names {α : Type} (e : Evaluation α) : List String := (e []).2.reverse

end Evaluation

/-- What waits on the stack of operators. -/
inductive Waiting where
  | operator (op : Operator)
  | openParen
deriving DecidableEq, Repr

/-- The two stacks of an evaluation, newest entries first. -/
structure Machine where
  waiting : List Waiting
  values : List Float

namespace Machine

/-- Both stacks empty. -/
def empty : Machine := ⟨[], []⟩

/-- Something more waits. -/
def await (w : Waiting) (m : Machine) : Machine := { m with waiting := w :: m.waiting }

/-- An operator applied to the two newest values. -/
def reduce (op : Operator) (m : Machine) : Except EvalError Machine :=
  match m.values with
  | right :: left :: values => (op.apply left right).map fun value => { m with values := value :: values }
  | _ => .error (.malformed "missing operand")

/-- The newest waiting operator applied, if it binds as asked: tightly or not. -/
def resolve (multiplicative : Bool) (m : Machine) : Except EvalError Machine :=
  match m.waiting with
  | .operator op :: waiting =>
    if op.isMultiplicative = multiplicative then reduce op { m with waiting } else .ok m
  | _ => .ok m

/-- One more value, taken at once by a waiting `*` or `/`. -/
def push (value : Float) (m : Machine) : Except EvalError Machine :=
  resolve true { m with values := value :: m.values }

/-- A parenthesis closed: what waits inside is applied, and the value is taken at once by a waiting `*` or `/`. -/
def close (m : Machine) : Except EvalError Machine := do
  let m ← resolve false m
  match m.waiting with
  | .openParen :: waiting => resolve true { m with waiting }
  | _ => .error (.malformed "')' without matching '('")

/-- One token read. -/
def step (rules : NameRules) (lookup : Lookup) (m : Machine) : Token → Evaluation Machine
  | .operator op =>
    if op.isMultiplicative then pure (m.await (.operator op))
    else .settle ((resolve false m).map (await (.operator op)))
  | .openParen => pure (m.await .openParen)
  | .closeParen => .settle m.close
  | .number value => .settle (m.push value)
  | .var name => do
    let value ← Evaluation.ask lookup (rules.normalize name)
    .settle (m.push value)
  | .illegal text => .settle (.error (.malformed ("illegal token '" ++ text ++ "'")))

/-- The result when all tokens are read: a last `+` or `-` may still wait. -/
def result (m : Machine) : Except EvalError Float :=
  match m.waiting, m.values with
  | [], [value] => finite value
  | [], _ => .error (.malformed "expected exactly one value")
  | [.operator op], [right, left] =>
    if op.isMultiplicative then .error (.malformed "leftover operators") else op.apply left right
  | _, _ => .error (.malformed "leftover operators")

/-- Further tokens read, then the result. -/
def run (rules : NameRules) (lookup : Lookup) (m : Machine) (ts : List Token) : Evaluation Float := do
  let m ← ts.foldlM (step rules lookup) m
  .settle m.result

end Machine

namespace Formula

/-- The evaluation of a formula, with the names it asks for. -/
def evaluation (rules : NameRules) (lookup : Lookup) (f : Formula) : Evaluation Float :=
  Machine.empty.run rules lookup f.tokens

/-- The number of a formula, or why it has none. -/
def evaluate (rules : NameRules) (lookup : Lookup) (f : Formula) : Except EvalError Float :=
  (f.evaluation rules lookup).outcome

end Formula

/-! ### What operators give is finite -/

theorem isFinite_of_finite {x y : Float} (h : finite x = .ok y) : y.isFinite = true := by
  unfold finite at h
  split at h
  · cases h; assumption
  · cases h

theorem Operator.isFinite_of_apply {op : Operator} {left right value : Float} (h : op.apply left right = .ok value) :
    value.isFinite = true := by
  unfold apply at h
  split at h
  · exact isFinite_of_finite h
  · exact isFinite_of_finite h
  · exact isFinite_of_finite h
  · split at h
    · cases h
    · exact isFinite_of_finite h

theorem Machine.isFinite_of_result {m : Machine} {value : Float} (h : m.result = .ok value) : value.isFinite = true := by
  unfold result at h
  split at h
  · exact isFinite_of_finite h
  · cases h
  · split at h
    · cases h
    · exact Operator.isFinite_of_apply h
  · cases h

end Spreadsheet
