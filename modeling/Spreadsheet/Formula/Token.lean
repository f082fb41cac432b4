import Spreadsheet.Number.Spelling

/-!
# Tokens

The tokens of a formula, and what each may stand beside. Numbers and variables are the operands. An operand or an opening
parenthesis can start what an operator or an opening parenthesis waits for; an operand or a closing parenthesis can end it.
-/

namespace Spreadsheet

/-- The four operators. -/
inductive Operator where
  | add
  | subtract
  | multiply
  | divide
deriving DecidableEq, Repr

/-- `*` and `/` bind tighter than `+` and `-`. -/
def Operator.isMultiplicative : Operator → Bool
  | multiply | divide => true
  | add | subtract => false

def Operator.symbol : Operator → Char
  | add => '+'
  | subtract => '-'
  | multiply => '*'
  | divide => '/'

/-- A token; an illegal one keeps the characters that make no other token. -/
inductive Token where
  | number (value : Float)
  | var (name : String)
  | operator (op : Operator)
  | openParen
  | closeParen
  | illegal (text : String)
deriving DecidableEq

namespace Token

/-- Whether a token has a value on its own. -/
def isOperand : Token → Bool
  | number _ | var _ => true
  | _ => false

/-- Whether a token can begin a formula or follow an operator or an opening parenthesis. -/
def canStart (t : Token) : Bool := t.isOperand || t == openParen

/-- Whether a token can end a formula or precede an operator or a closing parenthesis. -/
def canEnd (t : Token) : Bool := t.isOperand || t == closeParen

/-- Whether a token can follow one that can end an operand. -/
def canFollowOperand : Token → Bool
  | operator _ | closeParen => true
  | _ => false

/-- The text of a token. -/
def text : Token → String
  | number value => Number.Spelling.plain.text value
  | var name => name
  | operator op => op.symbol.toString
  | openParen => "("
  | closeParen => ")"
  | illegal text => text

/-- A token with a variable's name changed. -/
def mapName (f : String → String) : Token → Token
  | var name => var (f name)
  | t => t

/-- The name a token asks for. -/
def name? : Token → Option String
  | var name => some name
  | _ => none

/-- The text of an illegal token. -/
def illegal? : Token → Option String
  | illegal text => some text
  | _ => none

/-! ### A changed name changes nothing else -/

@[simp] theorem canStart_mapName (f : String → String) (t : Token) : (t.mapName f).canStart = t.canStart := by
  cases t <;> rfl

@[simp] theorem canEnd_mapName (f : String → String) (t : Token) : (t.mapName f).canEnd = t.canEnd := by
  cases t <;> rfl

@[simp] theorem canFollowOperand_mapName (f : String → String) (t : Token) :
    (t.mapName f).canFollowOperand = t.canFollowOperand := by
  cases t <;> rfl

@[simp] theorem illegal?_mapName (f : String → String) (t : Token) : (t.mapName f).illegal? = t.illegal? := by
  cases t <;> rfl

@[simp] theorem mapName_eq_number (f : String → String) (t : Token) (value : Float) :
    t.mapName f = number value ↔ t = number value := by
  cases t <;> simp [mapName]

@[simp] theorem mapName_eq_openParen (f : String → String) (t : Token) : t.mapName f = openParen ↔ t = openParen := by
  cases t <;> simp [mapName]

@[simp] theorem mapName_eq_closeParen (f : String → String) (t : Token) :
    t.mapName f = closeParen ↔ t = closeParen := by
  cases t <;> simp [mapName]

end Token

end Spreadsheet
