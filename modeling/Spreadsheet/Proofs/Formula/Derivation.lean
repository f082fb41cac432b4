import Mathlib
import Spreadsheet.Proofs.Formula.Grammar
import Spreadsheet.Proofs.Formula.Names

/-!
# Formulas are what the grammar derives

The checks for faults know no grammar: they look at the first token and the last, at neighbours, and at two counters. They let
through exactly the language with a counter (`firstFault?_eq_none_iff_beforeOperand`), and that language is exactly what the trees of the grammar
spell (`beforeOperand_iff_exists_expression`). So a text is a formula if and only if its tokens have a tree and its names are
admitted.

No sequence has two trees (`Expression.eq_of_tokens_eq`). A tree is taken apart from its end: the last product of a sum is the
same in both trees, since what stands before it ends in `+` or `-`, and so is the last factor of a product, since a factor ends in
its operand or in the parenthesis that closes it.
-/

namespace Spreadsheet

variable {rules : NameRules}

/-! ## The trees spell the language with a counter -/

mutual

/-- A sum may stand where an operand is due, before what may follow an operand. -/
theorem Expression.beforeOperand : ∀ (e : Expression) {depth : Nat} {rest : List Token}, AfterOperand depth rest →
    BeforeOperand depth (e.tokens ++ rest)
  | .term t, _, _, h => by
    rw [Expression.tokens]
    exact Term.beforeOperand t h
  | .combine left op _ right, _, _, h => by
    have hleft := Expression.beforeOperand left (.operator op (Term.beforeOperand right h))
    rw [Expression.tokens, List.append_assoc]
    exact hleft

/-- A product may stand where an operand is due, before what may follow an operand. -/
theorem Term.beforeOperand : ∀ (t : Term) {depth : Nat} {rest : List Token}, AfterOperand depth rest →
    BeforeOperand depth (t.tokens ++ rest)
  | .factor f, _, _, h => by
    rw [Term.tokens]
    exact Factor.beforeOperand f h
  | .combine left op _ right, _, _, h => by
    have hleft := Term.beforeOperand left (.operator op (Factor.beforeOperand right h))
    rw [Term.tokens, List.append_assoc]
    exact hleft

/-- A factor may stand where an operand is due, before what may follow an operand. -/
theorem Factor.beforeOperand : ∀ (f : Factor) {depth : Nat} {rest : List Token}, AfterOperand depth rest →
    BeforeOperand depth (f.tokens ++ rest)
  | .number value, _, _, h => by
    rw [Factor.tokens]
    exact .number value h
  | .var name, _, _, h => by
    rw [Factor.tokens]
    exact .var name h
  | .paren e, _, _, h => by
    have hinside := Expression.beforeOperand e (.close h)
    rw [Factor.tokens, List.cons_append, List.cons_append, List.append_assoc]
    exact .openParen hinside

end

/-- The sequences that may stand for a whole formula are those that a tree spells. -/
theorem beforeOperand_iff_exists_expression {ts : List Token} : BeforeOperand 0 ts ↔ ∃ e : Expression, e.tokens = ts := by
  constructor
  · exact BeforeOperand.exists_expression
  · rintro ⟨e, rfl⟩
    have h := e.beforeOperand .done
    rwa [List.append_nil] at h

/-! ## The checks let the language with a counter through -/

/-- Only a closing parenthesis can be one too many. -/
theorem Progress.parenFault?_of_ne {p : Progress} {t : Token} (h : t ≠ .closeParen) : p.parenFault? t = none := by
  simp [parenFault?, h]

/-- What has been read leaves an operand due: nothing at all, or last a token that cannot end one. -/
def Progress.AwaitsOperand (p : Progress) : Prop := ∀ previous ∈ p.previous, previous.canEnd = false

/-- What has been read ends in an operand. -/
def Progress.EndsOperand (p : Progress) : Prop := ∃ previous, p.previous = some previous ∧ previous.canEnd = true

theorem Progress.AwaitsOperand.adjacencyFault? {p : Progress} (h : p.AwaitsOperand) {t : Token} (ht : t.canStart = true) :
    p.adjacencyFault? t = none := by
  unfold Progress.adjacencyFault?
  split
  · rfl
  · next previous hp => simp [h previous hp, ht]

theorem Progress.EndsOperand.adjacencyFault? {p : Progress} (h : p.EndsOperand) {t : Token}
    (ht : t.canFollowOperand = true) : p.adjacencyFault? t = none := by
  obtain ⟨previous, hp, hend⟩ := h
  simp [Progress.adjacencyFault?, hp, hend, ht]

/-- A token without a fault, before tokens without a fault. -/
theorem faultFrom?_cons_eq_none {p : Progress} {t : Token} {ts : List Token} (hparen : p.parenFault? t = none)
    (hadjacency : p.adjacencyFault? t = none) (hname : Progress.nameFault? rules t = none)
    (hrest : faultFrom? rules (p.next t) ts = none) : faultFrom? rules p (t :: ts) = none :=
  faultFrom?_cons_eq_none_iff.mpr ⟨Progress.fault?_eq_none_iff.mpr ⟨hparen, hadjacency, hname⟩, hrest⟩

/-- In a sequence of the language whose names are admitted no fault is found. -/
theorem faultFrom?_of_language (ts : List Token) (hn : ∀ t ∈ ts, Progress.nameFault? rules t = none) :
    (∀ (depth : Nat) (p : Progress), p.opened = p.closed + depth → p.AwaitsOperand → BeforeOperand depth ts →
      faultFrom? rules p ts = none) ∧
    ∀ (depth : Nat) (p : Progress), p.opened = p.closed + depth → p.EndsOperand → AfterOperand depth ts →
      faultFrom? rules p ts = none := by
  induction ts with
  | nil =>
    refine ⟨fun depth p _ _ h => (by cases h), fun depth p hp _ h => ?_⟩
    cases h with
    | done => exact faultFrom?_nil_eq_none_iff.mpr hp
  | cons t ts ih =>
    obtain ⟨ihBefore, ihAfter⟩ := ih fun t' ht' => hn t' (List.mem_cons_of_mem _ ht')
    have hname := hn t List.mem_cons_self
    refine ⟨fun depth p hp hawaits h => ?_, fun depth p hp hends h => ?_⟩
    · cases h with
      | number value h =>
        exact faultFrom?_cons_eq_none (Progress.parenFault?_of_ne (by simp)) (hawaits.adjacencyFault? rfl) hname
          (ihAfter depth _ hp ⟨_, rfl, rfl⟩ h)
      | var name h =>
        exact faultFrom?_cons_eq_none (Progress.parenFault?_of_ne (by simp)) (hawaits.adjacencyFault? rfl) hname
          (ihAfter depth _ hp ⟨_, rfl, rfl⟩ h)
      | openParen h =>
        have hopened : (p.next .openParen).opened = (p.next .openParen).closed + (depth + 1) := by
          change p.opened + 1 = p.closed + (depth + 1)
          omega
        exact faultFrom?_cons_eq_none (Progress.parenFault?_of_ne (by simp)) (hawaits.adjacencyFault? rfl) hname
          (ihBefore (depth + 1) _ hopened (fun previous hprevious => by cases hprevious; rfl) h)
    · cases h with
      | @close outer _ h =>
        have hclosed : (p.next .closeParen).opened = (p.next .closeParen).closed + outer := by
          change p.opened = p.closed + 1 + outer
          omega
        have hparen : p.parenFault? .closeParen = none := by
          rw [Progress.parenFault?, if_neg]
          omega
        exact faultFrom?_cons_eq_none hparen (hends.adjacencyFault? rfl) hname (ihAfter outer _ hclosed ⟨_, rfl, rfl⟩ h)
      | operator op h =>
        exact faultFrom?_cons_eq_none (Progress.parenFault?_of_ne (by simp)) (hends.adjacencyFault? rfl) hname
          (ihBefore depth _ hp (fun previous hprevious => by cases hprevious; rfl) h)

/-- A sequence of the language has no illegal token. -/
theorem illegal?_of_language (ts : List Token) :
    (∀ depth, BeforeOperand depth ts → ∀ t ∈ ts, t.illegal? = none) ∧
      ∀ depth, AfterOperand depth ts → ∀ t ∈ ts, t.illegal? = none := by
  induction ts with
  | nil => exact ⟨fun depth _ t ht => (by cases ht), fun depth _ t ht => (by cases ht)⟩
  | cons t ts ih =>
    obtain ⟨ihBefore, ihAfter⟩ := ih
    refine ⟨fun depth h => ?_, fun depth h => ?_⟩
    · cases h with
      | number value h => exact List.forall_mem_cons.mpr ⟨rfl, ihAfter _ h⟩
      | var name h => exact List.forall_mem_cons.mpr ⟨rfl, ihAfter _ h⟩
      | openParen h => exact List.forall_mem_cons.mpr ⟨rfl, ihBefore _ h⟩
    · cases h with
      | close h => exact List.forall_mem_cons.mpr ⟨rfl, ihAfter _ h⟩
      | operator op h => exact List.forall_mem_cons.mpr ⟨rfl, ihBefore _ h⟩

/-- A sequence of the language ends as a formula may. -/
theorem canEnd_of_language (ts : List Token) :
    (∀ depth previous, BeforeOperand depth ts → (ts.getLastD previous).canEnd = true) ∧
      ∀ depth previous, previous.canEnd = true → AfterOperand depth ts → (ts.getLastD previous).canEnd = true := by
  induction ts with
  | nil => exact ⟨fun depth previous h => (by cases h), fun depth previous hend _ => hend⟩
  | cons t ts ih =>
    obtain ⟨ihBefore, ihAfter⟩ := ih
    refine ⟨fun depth previous h => ?_, fun depth previous _ h => ?_⟩
    · rw [List.getLastD_cons]
      cases h with
      | number value h => exact ihAfter _ _ rfl h
      | var name h => exact ihAfter _ _ rfl h
      | openParen h => exact ihBefore _ _ h
    · rw [List.getLastD_cons]
      cases h with
      | close h => exact ihAfter _ _ rfl h
      | operator op h => exact ihBefore _ _ h

/-- A sequence of the language begins as a formula may. -/
theorem BeforeOperand.exists_canStart {depth : Nat} {ts : List Token} (h : BeforeOperand depth ts) :
    ∃ first rest, ts = first :: rest ∧ first.canStart = true := by
  cases h with
  | number value h => exact ⟨_, _, rfl, rfl⟩
  | var name h => exact ⟨_, _, rfl, rfl⟩
  | openParen h => exact ⟨_, _, rfl, rfl⟩

/-- No fault is found exactly in the sequences of the language whose names are admitted. -/
theorem firstFault?_eq_none_iff_beforeOperand {ts : List Token} :
    firstFault? rules ts = none ↔ BeforeOperand 0 ts ∧ ∀ t ∈ ts, Progress.nameFault? rules t = none := by
  constructor
  · intro h
    exact ⟨beforeOperand_of_firstFault? h, nameFault?_of_firstFault? h⟩
  · rintro ⟨h, hn⟩
    obtain ⟨first, rest, rfl, hstart⟩ := h.exists_canStart
    have hend : (rest.getLastD first).canEnd = true := by
      rw [← List.getLastD_cons (a := first)]
      exact (canEnd_of_language _).1 0 first h
    have hawaits : Progress.start.AwaitsOperand := fun previous hprevious => by cases hprevious
    exact firstFault?_eq_none_iff.mpr ⟨(illegal?_of_language _).1 0 h, ⟨first, rfl, hstart⟩,
      ⟨rest.getLastD first, by rw [List.getLast?_cons, List.getLastD_eq_getLast?], hend⟩,
      (faultFrom?_of_language _ hn).1 0 .start rfl hawaits h⟩

/-! ## No sequence has two trees -/

/-- What stands before a sum or a product ends in none of some operators. -/
def EndsInNo (ops : Operator → Prop) (before : List Token) : Prop := ∀ op, ops op → before.getLast? ≠ some (.operator op)

theorem endsInNo_operator_iff {ops : Operator → Prop} {op : Operator} (before left : List Token) :
    EndsInNo ops (before ++ (left ++ [.operator op])) ↔ ¬ops op := by
  rw [EndsInNo, ← List.append_assoc, List.getLast?_concat]
  constructor
  · exact fun h hop => h op hop rfl
  · rintro h op' hop' heq
    cases heq
    exact h hop'

theorem endsInNo_openParen (ops : Operator → Prop) (before : List Token) : EndsInNo ops (before ++ [.openParen]) := by
  intro op _ h
  rw [List.getLast?_concat] at h
  cases h

/-- An operator and its left operand belong to what stands before the right operand. -/
theorem append_operator_cons (before left : List Token) (op : Operator) (right : List Token) :
    before ++ (left ++ .operator op :: right) = before ++ (left ++ [.operator op]) ++ right := by
  simp

/-- An opening parenthesis belongs to what stands before the sum in it. -/
theorem append_tokens_paren (before : List Token) (e : Expression) :
    before ++ (Factor.paren e).tokens = before ++ [.openParen] ++ e.tokens ++ [.closeParen] := by
  simp [Factor.tokens]

mutual

/-- A sum is found from its end if it follows no operator. -/
theorem Expression.eq_of_append_eq : ∀ (e e' : Expression) {before before' : List Token},
    EndsInNo (fun _ => True) before → EndsInNo (fun _ => True) before' →
    before ++ e.tokens = before' ++ e'.tokens → before = before' ∧ e = e'
  | .term t, .term t', before, before', hb, hb', h => by
    obtain ⟨hbefore, rfl⟩ := Term.eq_of_append_eq t t' (fun op _ => hb op trivial) (fun op _ => hb' op trivial) h
    exact ⟨hbefore, rfl⟩
  | .term t, .combine left op additive right, before, before', hb, hb', h => by
    rw [Expression.tokens, Expression.tokens, append_operator_cons] at h
    obtain ⟨rfl, -⟩ := Term.eq_of_append_eq t right (fun op _ => hb op trivial)
      ((endsInNo_operator_iff _ _).mpr (by simp [additive])) h
    exact absurd trivial ((endsInNo_operator_iff _ _).mp hb)
  | .combine left op additive right, .term t, before, before', hb, hb', h => by
    rw [Expression.tokens, Expression.tokens, append_operator_cons] at h
    obtain ⟨rfl, -⟩ := Term.eq_of_append_eq right t ((endsInNo_operator_iff _ _).mpr (by simp [additive]))
      (fun op _ => hb' op trivial) h
    exact absurd trivial ((endsInNo_operator_iff _ _).mp hb')
  | .combine left op additive right, .combine left' op' additive' right', before, before', hb, hb', h => by
    rw [Expression.tokens, Expression.tokens, append_operator_cons before, append_operator_cons before'] at h
    obtain ⟨hbefore, rfl⟩ := Term.eq_of_append_eq right right' ((endsInNo_operator_iff _ _).mpr (by simp [additive]))
      ((endsInNo_operator_iff _ _).mpr (by simp [additive'])) h
    rw [← List.append_assoc, ← List.append_assoc] at hbefore
    obtain ⟨hleft, hop⟩ := List.append_inj' hbefore rfl
    cases hop
    obtain ⟨rfl, rfl⟩ := Expression.eq_of_append_eq left left' hb hb' hleft
    exact ⟨rfl, rfl⟩

/-- A product is found from its end if it follows no `*` and no `/`. -/
theorem Term.eq_of_append_eq : ∀ (t t' : Term) {before before' : List Token},
    EndsInNo (fun op => op.isMultiplicative = true) before → EndsInNo (fun op => op.isMultiplicative = true) before' →
    before ++ t.tokens = before' ++ t'.tokens → before = before' ∧ t = t'
  | .factor f, .factor f', before, before', hb, hb', h => by
    obtain ⟨hbefore, rfl⟩ := Factor.eq_of_append_eq f f' h
    exact ⟨hbefore, rfl⟩
  | .factor f, .combine left op multiplicative right, before, before', hb, hb', h => by
    rw [Term.tokens, Term.tokens, append_operator_cons] at h
    obtain ⟨rfl, -⟩ := Factor.eq_of_append_eq f right h
    exact absurd multiplicative ((endsInNo_operator_iff _ _).mp hb)
  | .combine left op multiplicative right, .factor f, before, before', hb, hb', h => by
    rw [Term.tokens, Term.tokens, append_operator_cons] at h
    obtain ⟨rfl, -⟩ := Factor.eq_of_append_eq right f h
    exact absurd multiplicative ((endsInNo_operator_iff _ _).mp hb')
  | .combine left op _ right, .combine left' op' _ right', before, before', hb, hb', h => by
    rw [Term.tokens, Term.tokens, append_operator_cons before, append_operator_cons before'] at h
    obtain ⟨hbefore, rfl⟩ := Factor.eq_of_append_eq right right' h
    rw [← List.append_assoc, ← List.append_assoc] at hbefore
    obtain ⟨hleft, hop⟩ := List.append_inj' hbefore rfl
    cases hop
    obtain ⟨rfl, rfl⟩ := Term.eq_of_append_eq left left' hb hb' hleft
    exact ⟨rfl, rfl⟩

/-- A factor is found from its end whatever it follows. -/
theorem Factor.eq_of_append_eq : ∀ (f f' : Factor) {before before' : List Token},
    before ++ f.tokens = before' ++ f'.tokens → before = before' ∧ f = f'
  | .number value, f', before, before', h => by
    cases f' with
    | number value' =>
      obtain ⟨hbefore, hlast⟩ := List.append_inj' h rfl
      cases hlast
      exact ⟨hbefore, rfl⟩
    | var name => cases (List.append_inj' h rfl).2
    | paren e =>
      rw [append_tokens_paren] at h
      cases (List.append_inj' h rfl).2
  | .var name, f', before, before', h => by
    cases f' with
    | number value => cases (List.append_inj' h rfl).2
    | var name' =>
      obtain ⟨hbefore, hlast⟩ := List.append_inj' h rfl
      cases hlast
      exact ⟨hbefore, rfl⟩
    | paren e =>
      rw [append_tokens_paren] at h
      cases (List.append_inj' h rfl).2
  | .paren e, f', before, before', h => by
    rw [append_tokens_paren] at h
    cases f' with
    | number value => cases (List.append_inj' h rfl).2
    | var name => cases (List.append_inj' h rfl).2
    | paren e' =>
      rw [append_tokens_paren] at h
      obtain ⟨hbefore, rfl⟩ := Expression.eq_of_append_eq e e' (endsInNo_openParen _ _) (endsInNo_openParen _ _)
        (List.append_inj' h rfl).1
      exact ⟨(List.append_inj' hbefore rfl).1, rfl⟩

end

/-- A sequence of tokens has at most one tree. -/
theorem Expression.eq_of_tokens_eq {e e' : Expression} (h : e.tokens = e'.tokens) : e = e' := by
  have hnil : EndsInNo (fun _ => True) [] := fun op _ hlast => by cases hlast
  have hafter : [] ++ e.tokens = [] ++ e'.tokens := h
  exact (Expression.eq_of_append_eq e e' hnil hnil hafter).2

namespace Formula

/-- The tokens of a text make a formula exactly if no fault is found in them. -/
theorem exists_parse?_iff {text : String} :
    (∃ f, parse? rules text = .ok f) ↔ firstFault? rules (Token.scan text.toList) = none := exists_ofTokens?_iff

/-- A text is a formula if and only if the grammar derives its tokens and the rules admit the normalized name of each of its
variables. The formula then has these tokens, each variable under its normalized name, and there is one derivation only. -/
theorem accepted_by_grammar (rules : NameRules) (text : String) :
    ((∃ f, parse? rules text = .ok f) ↔
      (∃ e : Expression, e.tokens = Token.scan text.toList) ∧
        ∀ name, .var name ∈ Token.scan text.toList →
          isName (rules.normalize name) = true ∧ rules.accepts (rules.normalize name) = true) ∧
    (∀ f, parse? rules text = .ok f → f.tokens = (Token.scan text.toList).map (Token.mapName rules.normalize)) ∧
    ∀ e e' : Expression, e.tokens = Token.scan text.toList → e'.tokens = Token.scan text.toList → e = e' := by
  refine ⟨?_, fun f h => (ofTokens?_eq_ok h).2, fun e e' h h' => Expression.eq_of_tokens_eq (h.trans h'.symm)⟩
  rw [exists_parse?_iff, firstFault?_eq_none_iff_beforeOperand, beforeOperand_iff_exists_expression]
  refine and_congr_right fun _ => ?_
  simp only [Progress.nameFault?_eq_none_iff, NameRules.admits, Bool.and_eq_true]
  exact ⟨fun h name hmem => h _ hmem name rfl, fun h t ht name hname => h name (hname ▸ ht)⟩

/-- With an `x` put before every name, `a*(b - c)` is a formula of the prefixed names, and it is a product in one way only. In `)a(`
the parentheses are as many of each kind, and no tree has these tokens. -/
theorem accepted_by_grammar_prepended :
    let product : Term := .combine (.factor (.var "a")) .multiply rfl
      (.paren (.combine (.term (.factor (.var "b"))) .subtract rfl (.factor (.var "c"))))
    (∃ f, parse? (.of (.prepend "x") .all) "a*(b - c)" = .ok f ∧
      f.tokens = [.var "xa", .operator .multiply, .openParen, .var "xb", .operator .subtract, .var "xc", .closeParen]) ∧
    (∀ e : Expression, e.tokens = Token.scan "a*(b - c)".toList → e = .term product) ∧
    ¬∃ e : Expression, e.tokens = Token.scan ")a(".toList := by
  intro product
  have hscan : Token.scan "a*(b - c)".toList = [.var "a", .operator .multiply, .openParen, .var "b", .operator .subtract, .var "c",
      .closeParen] := by cbv
  have hreversed : Token.scan ")a(".toList = [.closeParen, .var "a", .openParen] := by cbv
  have hproduct : (Expression.term product).tokens = Token.scan "a*(b - c)".toList := by
    rw [hscan]
    rfl
  obtain ⟨hiff, htokens, hunique⟩ := accepted_by_grammar (.of (.prepend "x") .all) "a*(b - c)"
  have hnames : ∀ name, .var name ∈ Token.scan "a*(b - c)".toList →
      isName ((NameRules.of (.prepend "x") .all).normalize name) = true ∧
        (NameRules.of (.prepend "x") .all).accepts ((NameRules.of (.prepend "x") .all).normalize name) = true := by
    intro name hname
    rw [hscan] at hname
    simp only [List.mem_cons, Token.var.injEq, reduceCtorEq, List.not_mem_nil, or_false, false_or] at hname
    rcases hname with rfl | rfl | rfl <;> exact ⟨by decide, rfl⟩
  obtain ⟨f, hf⟩ := hiff.mpr ⟨⟨_, hproduct⟩, hnames⟩
  refine ⟨⟨f, hf, ?_⟩, fun e he => hunique e _ he hproduct, ?_⟩
  · rw [htokens f hf, hscan]
    decide
  · rw [hreversed, ← beforeOperand_iff_exists_expression]
    intro h
    cases h

end Formula

end Spreadsheet
