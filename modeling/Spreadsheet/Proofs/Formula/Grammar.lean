import Spreadsheet.Formula.Basic

/-!
# The grammar of formulas

A formula is a sum of products of factors: `E` is `T` or `E ± T`, `T` is `F` or `T * F` or `T / F`, and `F` is a number, a variable
or `(E)`. So operators of one kind associate to the left. The trees of this grammar are `Expression`, `Term` and `Factor`, and the
tokens of a tree are read off it.

Faults are looked for without a tree: by neighbouring tokens and by counting parentheses. What these checks let through is said
once more as a language with a counter (`BeforeOperand`, `AfterOperand`), and every sequence of that language is the sequence of
some tree. Tokens that are read without a fault (`Progress.Reads`) go on to what that language asks for next. So every formula has a
tree (`Formula.exists_expression`).
-/

namespace Spreadsheet

mutual

/-- A sum: a product, or a sum and one more product. -/
inductive Expression where
  | term (t : Term)
  | combine (left : Expression) (op : Operator) (additive : op.isMultiplicative = false) (right : Term)

/-- A product: a factor, or a product and one more factor. -/
inductive Term where
  | factor (f : Factor)
  | combine (left : Term) (op : Operator) (multiplicative : op.isMultiplicative = true) (right : Factor)

/-- A number, a variable, or a sum in parentheses. -/
inductive Factor where
  | number (value : Float)
  | var (name : String)
  | paren (e : Expression)

end

mutual

/-- The tokens of a sum. -/
def Expression.tokens : Expression → List Token
  | .term t => t.tokens
  | .combine left op _ right => left.tokens ++ .operator op :: right.tokens

/-- The tokens of a product. -/
def Term.tokens : Term → List Token
  | .factor f => f.tokens
  | .combine left op _ right => left.tokens ++ .operator op :: right.tokens

/-- The tokens of a factor. -/
def Factor.tokens : Factor → List Token
  | .number value => [.number value]
  | .var name => [.var name]
  | .paren e => .openParen :: e.tokens ++ [.closeParen]

end

/-- A sum with one more operator and factor at its end: `*` and `/` take only the last product. -/
def Expression.extend (e : Expression) (op : Operator) (f : Factor) : Expression :=
  if h : op.isMultiplicative = true then
    match e with
    | .term t => .term (.combine t op h f)
    | .combine left op' h' t => .combine left op' h' (.combine t op h f)
  else .combine e op (by simpa using h) (.factor f)

theorem Expression.tokens_extend (e : Expression) (op : Operator) (f : Factor) :
    (e.extend op f).tokens = e.tokens ++ .operator op :: f.tokens := by
  unfold extend
  split
  · cases e <;> simp [Expression.tokens, Term.tokens]
  · simp [Expression.tokens, Term.tokens]

mutual

/-- What may follow an operand inside some number of open parentheses. -/
inductive AfterOperand : Nat → List Token → Prop where
  | done : AfterOperand 0 []
  | close {depth : Nat} {ts : List Token} : AfterOperand depth ts → AfterOperand (depth + 1) (.closeParen :: ts)
  | operator {depth : Nat} {ts : List Token} (op : Operator) :
      BeforeOperand depth ts → AfterOperand depth (.operator op :: ts)

/-- What may stand where an operand is due inside some number of open parentheses. -/
inductive BeforeOperand : Nat → List Token → Prop where
  | number {depth : Nat} {ts : List Token} (value : Float) :
      AfterOperand depth ts → BeforeOperand depth (.number value :: ts)
  | var {depth : Nat} {ts : List Token} (name : String) : AfterOperand depth ts → BeforeOperand depth (.var name :: ts)
  | openParen {depth : Nat} {ts : List Token} :
      BeforeOperand (depth + 1) ts → BeforeOperand depth (.openParen :: ts)

end

/-! ## Every admitted sequence has a tree -/

/-- What is left when a sum has been read as far as it goes: nothing, or the parenthesis that closes it and what follows. -/
def SumEnds (depth : Nat) (rest : List Token) : Prop :=
  depth = 0 ∧ rest = [] ∨ ∃ outer after, depth = outer + 1 ∧ rest = .closeParen :: after ∧ AfterOperand outer after

/-- A factor can be read where an operand is due, and a sum that has been begun can be read to its end. Both are said of sequences
up to some length, since a parenthesis is a sum inside a factor. -/
theorem exists_factor_and_sum (n : Nat) :
    (∀ depth ts, ts.length ≤ n → BeforeOperand depth ts →
      ∃ (f : Factor) (rest : List Token), ts = f.tokens ++ rest ∧ rest.length < ts.length ∧ AfterOperand depth rest) ∧
    (∀ depth ts (e : Expression), ts.length ≤ n → AfterOperand depth ts →
      ∃ (e' : Expression) (rest : List Token), e.tokens ++ ts = e'.tokens ++ rest ∧ rest.length ≤ ts.length ∧
        SumEnds depth rest) := by
  induction n with
  | zero =>
    constructor
    · intro depth ts hlen h
      cases h <;> simp at hlen
    · intro depth ts e hlen h
      cases h with
      | done => exact ⟨e, [], rfl, Nat.le_refl _, Or.inl ⟨rfl, rfl⟩⟩
      | close h => simp at hlen
      | operator op h => simp at hlen
  | succ n ih =>
    obtain ⟨ihFactor, ihSum⟩ := ih
    constructor
    · intro depth ts hlen h
      cases h with
      | @number _ rest value h => exact ⟨.number value, rest, rfl, by simp, h⟩
      | @var _ rest name h => exact ⟨.var name, rest, rfl, by simp, h⟩
      | @openParen _ inner h =>
        rw [List.length_cons] at hlen
        obtain ⟨f, rest, rfl, hlt, hrest⟩ := ihFactor (depth + 1) inner (by omega) h
        obtain ⟨e, rest', he, hle, hends⟩ := ihSum (depth + 1) rest (.term (.factor f)) (by omega) hrest
        rcases hends with ⟨hzero, -⟩ | ⟨outer, after, hsucc, rfl, hafter⟩
        · cases hzero
        · cases hsucc
          refine ⟨.paren e, after, ?_, ?_, hafter⟩
          · rw [show f.tokens ++ rest = e.tokens ++ .closeParen :: after from he]
            simp [Factor.tokens]
          · simp only [List.length_cons] at hle ⊢
            omega
    · intro depth ts e hlen h
      cases h with
      | done => exact ⟨e, [], rfl, Nat.le_refl _, Or.inl ⟨rfl, rfl⟩⟩
      | @close outer after h => exact ⟨e, _, rfl, Nat.le_refl _, Or.inr ⟨outer, after, rfl, rfl, h⟩⟩
      | @operator _ rest op h =>
        rw [List.length_cons] at hlen
        obtain ⟨f, rest', rfl, hlt, hrest⟩ := ihFactor depth rest (by omega) h
        obtain ⟨e', rest'', he, hle, hends⟩ := ihSum depth rest' (e.extend op f) (by omega) hrest
        refine ⟨e', rest'', ?_, ?_, hends⟩
        · rw [← he, Expression.tokens_extend]
          simp
        · rw [List.length_cons]
          omega

theorem BeforeOperand.exists_expression {ts : List Token} (h : BeforeOperand 0 ts) : ∃ e : Expression, e.tokens = ts := by
  obtain ⟨f, rest, rfl, -, hrest⟩ := (exists_factor_and_sum ts.length).1 0 ts (Nat.le_refl _) h
  obtain ⟨e, rest', he, -, hends⟩ := (exists_factor_and_sum rest.length).2 0 rest (.term (.factor f)) (Nat.le_refl _) hrest
  rcases hends with ⟨-, rfl⟩ | ⟨outer, after, hsucc, -⟩
  · exact ⟨e, by rw [← List.append_nil e.tokens, ← he]; rfl⟩
  · cases hsucc

/-! ## What the checks for faults let through -/

/-- The parentheses that are open. -/
def Progress.depth (p : Progress) : Nat := p.opened - p.closed

/-- A token without a fault closes no parenthesis that was not opened. -/
theorem Progress.closed_le_of_fault? {rules : NameRules} {p : Progress} {t : Token} (hp : p.closed ≤ p.opened)
    (h : p.fault? rules t = none) : (p.next t).closed ≤ (p.next t).opened := by
  have hparen : p.parenFault? t = none := (fault?_eq_none_iff.mp h).1
  unfold parenFault? at hparen
  split at hparen
  · cases hparen
  · next hn =>
    by_cases ht : t = .closeParen
    · simpa [ht] using hn
    · simp only [next, ht, if_false]
      split <;> omega

/-- A token without a fault after another is one that may stand there. -/
theorem Progress.adjacent_of_fault? {rules : NameRules} {p : Progress} {t previous : Token} (hprev : p.previous = some previous)
    (h : p.fault? rules t = none) :
    if previous.canEnd then t.canFollowOperand = true else t.canStart = true := by
  have hadj : p.adjacencyFault? t = none := (fault?_eq_none_iff.mp h).2.1
  simp only [adjacencyFault?, hprev] at hadj
  split at hadj <;> split at hadj <;> simp_all

/-- A token that may come first, before what may follow it, stands where an operand is due. -/
theorem beforeOperand_cons {p : Progress} {t : Token} {ts : List Token} (hp : p.closed ≤ p.opened) (ht : t.canStart = true)
    (hrest : if t.canEnd then AfterOperand (p.next t).depth ts else BeforeOperand (p.next t).depth ts) :
    BeforeOperand p.depth (t :: ts) := by
  cases t with
  | number value =>
    have hafter : AfterOperand p.depth ts := hrest
    exact .number value hafter
  | var name =>
    have hafter : AfterOperand p.depth ts := hrest
    exact .var name hafter
  | openParen =>
    have hbefore : BeforeOperand (p.next .openParen).depth ts := hrest
    have hdepth : (p.next .openParen).depth = p.depth + 1 := by
      simp only [Progress.depth, Progress.next, if_true, reduceCtorEq, if_false]
      omega
    rw [hdepth] at hbefore
    exact .openParen hbefore
  | operator op => cases ht
  | closeParen => cases ht
  | illegal text => cases ht

/-- A token that may follow an operand, before what may follow the token, stands after an operand. -/
theorem afterOperand_cons {p : Progress} {t : Token} {ts : List Token} (hp : (p.next t).closed ≤ (p.next t).opened)
    (ht : t.canFollowOperand = true)
    (hrest : if t.canEnd then AfterOperand (p.next t).depth ts else BeforeOperand (p.next t).depth ts) :
    AfterOperand p.depth (t :: ts) := by
  cases t with
  | operator op =>
    have hbefore : BeforeOperand p.depth ts := hrest
    exact .operator op hbefore
  | closeParen =>
    have hafter : AfterOperand (p.next .closeParen).depth ts := hrest
    have hdepth : p.depth = (p.next .closeParen).depth + 1 := by
      simp only [Progress.depth, Progress.next, if_true, reduceCtorEq, if_false] at hp ⊢
      omega
    rw [hdepth]
    exact .close hafter
  | number value => cases ht
  | var name => cases ht
  | openParen => cases ht
  | illegal text => cases ht

/-- What may follow what has been read: after an operand, or where one is due. -/
def Progress.Continues (p : Progress) (ts : List Token) : Prop :=
  if p.previous.any Token.canEnd then AfterOperand p.depth ts else BeforeOperand p.depth ts

/-- A token without a fault may follow, before what may follow the token. -/
theorem Progress.Continues.cons {rules : NameRules} {p : Progress} {t : Token} {ts : List Token} (h : (p.next t).Continues ts)
    (hp : p.closed ≤ p.opened) (hf : p.fault? rules t = none) (hfirst : p.previous = none → t.canStart = true) :
    p.Continues (t :: ts) := by
  have hrest : if t.canEnd then AfterOperand (p.next t).depth ts else BeforeOperand (p.next t).depth ts := h
  cases hprev : p.previous with
  | none =>
    rw [Continues, hprev, Option.any_none, if_neg Bool.false_ne_true]
    exact beforeOperand_cons hp (hfirst hprev) hrest
  | some previous =>
    have hadj := adjacent_of_fault? hprev hf
    rw [Continues, hprev, Option.any_some]
    split
    · next hend =>
      rw [if_pos hend] at hadj
      exact afterOperand_cons (closed_le_of_fault? hp hf) hadj hrest
    · next hend =>
      rw [if_neg hend] at hadj
      exact beforeOperand_cons hp hadj hrest

/-- Tokens that are read one after the other without a fault, with the progress before them and after. -/
inductive Progress.Reads (rules : NameRules) : Progress → List Token → Progress → Prop where
  | done (p : Progress) : Reads rules p [] p
  | read {p q : Progress} {t : Token} {ts : List Token} :
      p.fault? rules t = none → Reads rules (p.next t) ts q → Reads rules p (t :: ts) q

/-- Tokens are read up to the first that has a fault, or to the end. -/
theorem exists_reads (rules : NameRules) (p : Progress) (ts : List Token) :
    (∃ before t after q fault, ts = before ++ t :: after ∧ p.Reads rules before q ∧ q.fault? rules t = some fault) ∨
      ∃ q, p.Reads rules ts q := by
  induction ts generalizing p with
  | nil => exact Or.inr ⟨p, .done p⟩
  | cons t ts ih =>
    cases hf : p.fault? rules t with
    | some fault => exact Or.inl ⟨[], t, ts, p, fault, rfl, .done p, hf⟩
    | none =>
      rcases ih (p.next t) with ⟨before, t', after, q, fault, rfl, hreads, hfault⟩ | ⟨q, hreads⟩
      · exact Or.inl ⟨t :: before, t', after, q, fault, rfl, .read hf hreads, hfault⟩
      · exact Or.inr ⟨q, .read hf hreads⟩

namespace Progress.Reads

variable {rules : NameRules} {p q : Progress} {ts : List Token}

/-- What follows tokens without a fault is held against the progress that they make. -/
theorem faultFrom?_append (h : p.Reads rules ts q) (rest : List Token) : faultFrom? rules p (ts ++ rest) = faultFrom? rules q rest := by
  induction h with
  | done p => rfl
  | read hf _ ih =>
    rw [List.cons_append, faultFrom?, hf]
    exact ih

/-- No parenthesis is closed that was not opened. -/
theorem closed_le (h : p.Reads rules ts q) (hp : p.closed ≤ p.opened) : q.closed ≤ q.opened := by
  induction h with
  | done p => exact hp
  | read hf _ ih => exact ih (closed_le_of_fault? hp hf)

/-- The token that was read last. -/
theorem previous_eq (h : p.Reads rules ts q) : q.previous = ts.getLast?.or p.previous := by
  induction h with
  | done p => rfl
  | @read p q t ts _ _ ih =>
    rw [ih, List.getLast?_cons]
    cases ts.getLast? <;> rfl

/-- Tokens without a fault may come before what may follow them. -/
theorem continues (h : p.Reads rules ts q) (hp : p.closed ≤ p.opened)
    (hfirst : p.previous = none → ∀ first ∈ ts.head?, first.canStart = true) {rest : List Token} (hrest : q.Continues rest) :
    p.Continues (ts ++ rest) := by
  induction h with
  | done p => exact hrest
  | read hf _ ih =>
    have hnext := ih (closed_le_of_fault? hp hf) (fun hnone => by cases hnone) hrest
    exact hnext.cons hp hf fun hnone => hfirst hnone _ rfl

end Progress.Reads

/-- Tokens without a fault are in the language with a counter. -/
theorem beforeOperand_of_firstFault? {rules : NameRules} {ts : List Token} (h : firstFault? rules ts = none) :
    BeforeOperand 0 ts := by
  obtain ⟨-, ⟨first, hfirst, hstart⟩, ⟨last, hlast, hend⟩, hfrom⟩ := firstFault?_eq_none_iff.mp h
  rcases exists_reads rules .start ts with ⟨before, t, after, q, fault, rfl, hreads, hfault⟩ | ⟨q, hreads⟩
  · rw [hreads.faultFrom?_append] at hfrom
    rw [(faultFrom?_cons_eq_none_iff.mp hfrom).1] at hfault
    cases hfault
  · have heven : q.opened = q.closed := by
      rw [← List.append_nil ts, hreads.faultFrom?_append] at hfrom
      exact faultFrom?_nil_eq_none_iff.mp hfrom
    -- When all is read an operand has ended and no parenthesis is open.
    have hends : q.Continues [] := by
      rw [Progress.Continues, hreads.previous_eq, hlast, Option.some_or, Option.any_some, if_pos hend, Progress.depth, heven,
        Nat.sub_self]
      exact .done
    have hbefore := hreads.continues (Nat.le_refl _) (fun _ t ht => by rw [hfirst] at ht; cases ht; exact hstart) hends
    rw [List.append_nil] at hbefore
    exact hbefore

/-- Every formula has a tree. -/
theorem Formula.exists_expression (f : Formula) : ∃ e : Expression, e.tokens = f.tokens :=
  (beforeOperand_of_firstFault? f.faultless).exists_expression

end Spreadsheet
