import Spreadsheet.Formula.Lexeme

/-!
# Faults of a formula

What can be wrong with the tokens of a formula, and which fault is found. Nothing at all, an illegal token anywhere, a first
token that cannot start and a last one that cannot end are looked for in that order; then each token from left to right is held
against the one before it, the parentheses so far and the rules for names; at last the parentheses are counted.
-/

namespace Spreadsheet

/-- Why a text is no formula. Tokens are reported by their text, variables as they were written, except that a variable the rules
do not admit is reported by its normalized name. -/
inductive Fault where
  | empty
  | illegalToken (token : String)
  | invalidStart (token : String)
  | invalidEnd (token : String)
  | unmatchedClose (position : Nat)
  | unbalancedParens (opened closed : Nat)
  | expectedOperand (previous found : String)
  | expectedOperator (previous found : String)
  | invalidVariable (name : String)
deriving DecidableEq, Repr

/-- The message of a fault. -/
def Fault.message : Fault → String
  | empty => "The formula is empty"
  | illegalToken token => "Invalid token: " ++ token
  | invalidStart token =>
    "The formula must start with a number, variable or '(' but starts with '" ++ token ++ "'"
  | invalidEnd token => "The formula must end with a number, variable or ')' but ends with '" ++ token ++ "'"
  | unmatchedClose position => "Closing parenthesis has no matching '(' at token " ++ toString position
  | unbalancedParens opened closed => toString opened ++ " '(' but " ++ toString closed ++ " ')'"
  | expectedOperand previous found =>
    "'" ++ previous ++ "' must be followed by a number, variable or '(' but found '" ++ found ++ "'"
  | expectedOperator previous found =>
    "'" ++ previous ++ "' must be followed by an operator or ')' but found '" ++ found ++ "'"
  | invalidVariable name => "Invalid variable: " ++ name

/-- What has been read of a formula: how many tokens, how many parentheses of each kind, and the last token. -/
structure Progress where
  position : Nat
  opened : Nat
  closed : Nat
  previous : Option Token

namespace Progress

/-- Nothing has been read. -/
def start : Progress := ⟨0, 0, 0, none⟩

/-- One more token has been read. -/
def next (p : Progress) (t : Token) : Progress where
  position := p.position + 1
  opened := if t = .openParen then p.opened + 1 else p.opened
  closed := if t = .closeParen then p.closed + 1 else p.closed
  previous := some t

/-- A parenthesis closed that was not opened. -/
def parenFault? (p : Progress) (t : Token) : Option Fault :=
  if (p.next t).opened < (p.next t).closed ∧ t = .closeParen then some (.unmatchedClose p.position) else none

/-- A token that cannot stand after the one before it. -/
def adjacencyFault? (p : Progress) (t : Token) : Option Fault :=
  match p.previous with
  | none => none
  | some previous =>
    if previous.canEnd then
      if t.canFollowOperand then none else some (.expectedOperator previous.text t.text)
    else if t.canStart then none else some (.expectedOperand previous.text t.text)

/-- A variable whose normalized name the rules do not admit. -/
def nameFault? (rules : NameRules) (t : Token) : Option Fault :=
  match t.name? with
  | none => none
  | some name => if rules.admits (rules.normalize name) then none else some (.invalidVariable (rules.normalize name))

/-- The first fault of the next token: parentheses, then neighbours, then names. -/
def fault? (rules : NameRules) (p : Progress) (t : Token) : Option Fault :=
  p.parenFault? t <|> p.adjacencyFault? t <|> nameFault? rules t

end Progress

/-- The first fault among further tokens, the count of parentheses included once all are read. -/
def faultFrom? (rules : NameRules) (p : Progress) : List Token → Option Fault
  | [] => if p.opened = p.closed then none else some (.unbalancedParens p.opened p.closed)
  | t :: ts =>
    match p.fault? rules t with
    | some fault => some fault
    | none => faultFrom? rules (p.next t) ts

/-- The fault that is reported for tokens, if they are no formula. -/
def firstFault? (rules : NameRules) (ts : List Token) : Option Fault :=
  match ts.head?, ts.getLast? with
  | some first, some last =>
    match ts.findSome? Token.illegal? with
    | some text => some (.illegalToken text)
    | none =>
      if !first.canStart then some (.invalidStart first.text)
      else if !last.canEnd then some (.invalidEnd last.text)
      else faultFrom? rules .start ts
  | _, _ => some .empty

/-! ### What it takes to have no fault -/

theorem Progress.fault?_eq_none_iff {rules : NameRules} {p : Progress} {t : Token} :
    p.fault? rules t = none ↔ p.parenFault? t = none ∧ p.adjacencyFault? t = none ∧ nameFault? rules t = none := by
  simp only [fault?, HOrElse.hOrElse, OrElse.orElse, Option.orElse_eq_or, Option.or_eq_none_iff]

theorem faultFrom?_nil_eq_none_iff {rules : NameRules} {p : Progress} : faultFrom? rules p [] = none ↔ p.opened = p.closed := by
  simp [faultFrom?]

theorem faultFrom?_cons_eq_none_iff {rules : NameRules} {p : Progress} {t : Token} {ts : List Token} :
    faultFrom? rules p (t :: ts) = none ↔ p.fault? rules t = none ∧ faultFrom? rules (p.next t) ts = none := by
  rw [faultFrom?]
  cases p.fault? rules t <;> simp

/-- The checks that tokens without a fault pass. -/
theorem firstFault?_eq_none_iff {rules : NameRules} {ts : List Token} :
    firstFault? rules ts = none ↔ (∀ t ∈ ts, t.illegal? = none) ∧ (∃ first, ts.head? = some first ∧ first.canStart = true) ∧
      (∃ last, ts.getLast? = some last ∧ last.canEnd = true) ∧ faultFrom? rules .start ts = none := by
  unfold firstFault?
  split
  · next first last hfirst hlast =>
    rw [← List.findSome?_eq_none_iff]
    cases ts.findSome? Token.illegal? with
    | some text => simp
    | none => cases hs : first.canStart <;> cases he : last.canEnd <;> simp [hfirst, hlast, hs, he]
  · next hnone =>
    constructor
    · intro h
      cases h
    · rintro ⟨-, ⟨first, hfirst, -⟩, ⟨last, hlast, -⟩, -⟩
      exact (hnone first last hfirst hlast).elim

/-! ### Normalized tokens have no fault either -/

/-- The progress that is made on tokens with changed names. -/
def Progress.mapName (f : String → String) (p : Progress) : Progress :=
  { p with previous := p.previous.map (Token.mapName f) }

theorem Progress.next_mapName (f : String → String) (p : Progress) (t : Token) :
    (p.mapName f).next (t.mapName f) = (p.next t).mapName f := by
  simp [next, mapName]

theorem Progress.parenFault?_mapName (f : String → String) (p : Progress) (t : Token) :
    (p.mapName f).parenFault? (t.mapName f) = p.parenFault? t := by
  simp only [parenFault?, next_mapName, Token.mapName_eq_closeParen]
  rfl

theorem Progress.adjacencyFault?_mapName {f : String → String} {p : Progress} {t : Token}
    (h : p.adjacencyFault? t = none) : (p.mapName f).adjacencyFault? (t.mapName f) = none := by
  cases hp : p.previous with
  | none => simp [adjacencyFault?, mapName, hp]
  | some previous =>
    simp only [adjacencyFault?, mapName, hp, Option.map_some, Token.canEnd_mapName, Token.canFollowOperand_mapName,
      Token.canStart_mapName] at h ⊢
    split at h <;> split at h <;> simp_all

theorem Progress.nameFault?_mapName {rules : NameRules} {t : Token} (h : nameFault? rules t = none) :
    nameFault? .any (t.mapName rules.normalize) = none := by
  cases t <;> simp_all [nameFault?, Token.mapName, Token.name?, NameRules.any, NameRules.admits]

/-- A token that has no fault under some rules has none under its normalized name when all names are accepted. -/
theorem Progress.fault?_mapName {rules : NameRules} {p : Progress} {t : Token} (h : p.fault? rules t = none) :
    (p.mapName rules.normalize).fault? .any (t.mapName rules.normalize) = none := by
  rw [fault?_eq_none_iff] at h ⊢
  exact ⟨parenFault?_mapName _ p t ▸ h.1, adjacencyFault?_mapName h.2.1, nameFault?_mapName h.2.2⟩

theorem faultFrom?_mapName {rules : NameRules} {p : Progress} {ts : List Token} (h : faultFrom? rules p ts = none) :
    faultFrom? .any (p.mapName rules.normalize) (ts.map (Token.mapName rules.normalize)) = none := by
  induction ts generalizing p with
  | nil => exact h
  | cons t ts ih =>
    obtain ⟨hf, hrest⟩ := faultFrom?_cons_eq_none_iff.mp h
    rw [List.map_cons, faultFrom?_cons_eq_none_iff, Progress.next_mapName]
    exact ⟨Progress.fault?_mapName hf, ih hrest⟩

/-- Tokens that have no fault under some rules have none under their normalized names when all names are accepted. -/
theorem firstFault?_mapName {rules : NameRules} {ts : List Token} (h : firstFault? rules ts = none) :
    firstFault? .any (ts.map (Token.mapName rules.normalize)) = none := by
  rw [firstFault?_eq_none_iff] at h ⊢
  obtain ⟨hlegal, ⟨first, hfirst, hstart⟩, ⟨last, hlast, hend⟩, hfrom⟩ := h
  refine ⟨by simpa using hlegal, ⟨_, by rw [List.head?_map, hfirst]; rfl, ?_⟩, ⟨_, by rw [List.getLast?_map, hlast]; rfl, ?_⟩,
    faultFrom?_mapName hfrom⟩
  · rw [Token.canStart_mapName, hstart]
  · rw [Token.canEnd_mapName, hend]

end Spreadsheet
