import Spreadsheet.Proofs.Formula.Derivation
import Spreadsheet.Proofs.Formula.Dialogue

/-!
# A formula in place of a variable

The tokens of a formula, put in parentheses in the place of a variable of another, make a formula again (`Formula.inlined`). The tree of
the whole is the tree of the one with the tree of the other in it (`Expression.tokens_inline`), so that a parenthesis is pushed
like any operand. If the inner formula has a number, the whole ends as the outer one does where the variable stands for that
number (`Expression.endsAs_inline`). It does not ask for the same names, only for names with which it ends the same: that
is `Evaluation.EndsAs`.
-/

namespace Spreadsheet

/-! ## Ending alike -/

namespace Evaluation

variable {α β : Type}

/-- Computations that end with the same result, whatever names have been asked for before or are asked for on the way. -/
def EndsAs (x y : Evaluation α) : Prop := ∀ asked asked', (x asked).1 = (y asked').1

theorem endsAs_settle (r : Except EvalError α) : EndsAs (settle r) (settle r) := fun _ _ => rfl

theorem endsAs_ask {lookup lookup' : Lookup} {name : String} (h : lookup name = lookup' name) :
    EndsAs (ask lookup name) (ask lookup' name) := by
  intro asked asked'
  rw [ask, ask, h]

/-- What follows computations that end alike ends alike if it does so from every value. -/
theorem EndsAs.bind {x y : Evaluation α} {k k' : α → Evaluation β} (hx : EndsAs x y) (hk : ∀ a, EndsAs (k a) (k' a)) :
    EndsAs (x >>= k) (y >>= k') := by
  intro asked asked'
  have hend := hx asked asked'
  rw [bind_apply, bind_apply]
  revert hend
  rcases x asked with ⟨result, later⟩
  rcases y asked' with ⟨result', later'⟩
  rintro rfl
  cases result with
  | ok a => exact hk a later later'
  | error e => rfl

end Evaluation

open Evaluation

/-! ## Trees with a tree in them -/

mutual

/-- A sum with another one in parentheses in place of a variable. -/
def Expression.inline : Expression → String → Expression → Expression
  | .term t, x, inner => .term (t.inline x inner)
  | .combine left op additive right, x, inner => .combine (left.inline x inner) op additive (right.inline x inner)

/-- A product with a sum in parentheses in place of a variable. -/
def Term.inline : Term → String → Expression → Term
  | .factor f, x, inner => .factor (f.inline x inner)
  | .combine left op multiplicative right, x, inner => .combine (left.inline x inner) op multiplicative (right.inline x inner)

/-- A factor with a sum in parentheses in place of a variable. -/
def Factor.inline : Factor → String → Expression → Factor
  | .number value, _, _ => .number value
  | .var name, x, inner => if name = x then .paren inner else .var name
  | .paren e, x, inner => .paren (e.inline x inner)

end

/-- What stands for a token once a variable is replaced by further tokens in parentheses. -/
def Token.inline (x : String) (inner : List Token) (t : Token) : List Token :=
  if t = .var x then .openParen :: inner ++ [.closeParen] else [t]

section

variable (x : String) (inner : Expression)

mutual

/-- The tokens of a tree with another in it are its tokens with those of the other in place of the variable. -/
theorem Expression.tokens_inline : ∀ e : Expression, (e.inline x inner).tokens = e.tokens.flatMap (Token.inline x inner.tokens)
  | .term t => by
    rw [Expression.inline, Expression.tokens, Expression.tokens]
    exact Term.tokens_inline t
  | .combine left op additive right => by
    rw [Expression.inline, Expression.tokens, Expression.tokens, List.flatMap_append, List.flatMap_cons,
      Expression.tokens_inline left, Term.tokens_inline right]
    rfl

theorem Term.tokens_inline : ∀ t : Term, (t.inline x inner).tokens = t.tokens.flatMap (Token.inline x inner.tokens)
  | .factor f => by
    rw [Term.inline, Term.tokens, Term.tokens]
    exact Factor.tokens_inline f
  | .combine left op multiplicative right => by
    rw [Term.inline, Term.tokens, Term.tokens, List.flatMap_append, List.flatMap_cons, Term.tokens_inline left,
      Factor.tokens_inline right]
    rfl

theorem Factor.tokens_inline : ∀ f : Factor, (f.inline x inner).tokens = f.tokens.flatMap (Token.inline x inner.tokens)
  | .number value => rfl
  | .var name => by
    rw [Factor.inline, Factor.tokens, List.flatMap_singleton, Token.inline]
    by_cases hname : name = x
    · rw [if_pos hname, if_pos (congrArg Token.var hname), Factor.tokens]
    · rw [if_neg hname, if_neg (hname ∘ Token.var.inj), Factor.tokens]
  | .paren e => by
    rw [Factor.inline, Factor.tokens, Factor.tokens, List.cons_append, List.cons_append, List.flatMap_cons, List.flatMap_append,
      Expression.tokens_inline e]
    rfl

end

end

section

variable {rules : NameRules} {lookup : Lookup} {x : String} {inner : Expression} {v : Float}

mutual

/-- A tree with another in it ends as it does alone where the variable stands for the number of the other. -/
theorem Expression.endsAs_inline (hinner : EndsAs (inner.value rules lookup) (pure v)) :
    ∀ e : Expression, (∀ name, .var name ∈ e.tokens → rules.normalize name = name) →
      EndsAs ((e.inline x inner).value rules lookup) (e.value rules (Function.update lookup x (some v)))
  | .term t, h => by
    rw [Expression.inline, Expression.value, Expression.value]
    exact Term.endsAs_inline hinner t h
  | .combine left op additive right, h => by
    rw [Expression.inline, Expression.value, Expression.value]
    rw [Expression.tokens] at h
    have hleft := Expression.endsAs_inline hinner left fun name hn => h name (List.mem_append_left _ hn)
    have hright := Term.endsAs_inline hinner right fun name hn => h name (List.mem_append_right _ (List.mem_cons_of_mem _ hn))
    exact hleft.bind fun l => hright.bind fun r => endsAs_settle (op.apply l r)

theorem Term.endsAs_inline (hinner : EndsAs (inner.value rules lookup) (pure v)) :
    ∀ t : Term, (∀ name, .var name ∈ t.tokens → rules.normalize name = name) →
      EndsAs ((t.inline x inner).value rules lookup) (t.value rules (Function.update lookup x (some v)))
  | .factor f, h => by
    rw [Term.inline, Term.value, Term.value]
    exact Factor.endsAs_inline hinner f h
  | .combine left op multiplicative right, h => by
    rw [Term.inline, Term.value, Term.value]
    rw [Term.tokens] at h
    have hleft := Term.endsAs_inline hinner left fun name hn => h name (List.mem_append_left _ hn)
    have hright := Factor.endsAs_inline hinner right fun name hn => h name (List.mem_append_right _ (List.mem_cons_of_mem _ hn))
    exact hleft.bind fun l => hright.bind fun r => endsAs_settle (op.apply l r)

theorem Factor.endsAs_inline (hinner : EndsAs (inner.value rules lookup) (pure v)) :
    ∀ f : Factor, (∀ name, .var name ∈ f.tokens → rules.normalize name = name) →
      EndsAs ((f.inline x inner).value rules lookup) (f.value rules (Function.update lookup x (some v)))
  | .number value, _ => by
    rw [Factor.inline, Factor.value, Factor.value]
    exact endsAs_settle (.ok value)
  | .var name, h => by
    have hnormal : rules.normalize name = name := h name List.mem_cons_self
    rw [Factor.inline, Factor.value, hnormal]
    by_cases hname : name = x
    · subst hname
      rw [if_pos rfl, Factor.value]
      intro asked asked'
      rw [hinner asked asked', ask, Function.update_self]
      rfl
    · rw [if_neg hname, Factor.value, hnormal]
      exact endsAs_ask (Function.update_of_ne hname _ _).symm
  | .paren e, h => by
    rw [Factor.inline, Factor.value, Factor.value]
    refine Expression.endsAs_inline hinner e fun name hn => h name ?_
    exact List.mem_cons_of_mem _ (List.mem_append_left _ hn)

end

end

/-- A finite result is what it was asked of. -/
theorem eq_of_finite {a b : Float} (h : finite a = .ok b) : a = b := by
  unfold finite at h
  split at h
  · cases h
    rfl
  · cases h

namespace Formula

variable {rules : NameRules} {lookup : Lookup} {ts us : List Token} {f g : Formula}

/-- A formula that has a number has a tree of that value. -/
theorem endsAs_of_evaluate {v : Float} {e : Expression} (he : e.tokens = g.tokens) (hv : g.evaluate rules lookup = .ok v) :
    EndsAs (e.value rules lookup) (pure v) := by
  intro asked asked'
  have hend : (e.evaluation rules lookup asked).1 = .ok v := by
    rw [← evaluation_eq_of_tokens rules lookup he, evaluation_apply, ← evaluate_eq, hv]
  rw [Expression.evaluation, bind_apply] at hend
  revert hend
  rcases e.value rules lookup asked with ⟨result, later⟩
  cases result with
  | ok a =>
    intro hend
    rw [eq_of_finite hend]
    rfl
  | error e =>
    intro hend
    cases hend

/-- The tokens of a formula with another one in parentheses in place of a variable, wherever it stands. -/
def inlined (f : Formula) (x : String) (g : Formula) : List Token := f.tokens.flatMap (Token.inline x g.tokens)

theorem mem_inlined {x : String} {t : Token} (ht : t ∈ f.inlined x g) :
    t ∈ f.tokens ∨ t ∈ g.tokens ∨ t = .openParen ∨ t = .closeParen := by
  obtain ⟨s, hs, ht⟩ := List.mem_flatMap.mp ht
  rw [Token.inline] at ht
  split at ht
  · simp only [List.mem_append, List.mem_cons, List.not_mem_nil, or_false] at ht
    tauto
  · rw [List.mem_singleton] at ht
    exact Or.inl (ht ▸ hs)

/-- A formula with another one in parentheses in place of a variable is a formula of these tokens. -/
theorem exists_ofTokens?_inlined (hi : rules.Idempotent) (hf : ofTokens? rules ts = .ok f) (hg : ofTokens? rules us = .ok g)
    (x : String) : ∃ k, ofTokens? rules (f.inlined x g) = .ok k ∧ k.tokens = f.inlined x g := by
  obtain ⟨outer, houter⟩ := f.exists_expression
  obtain ⟨inner, hinner⟩ := g.exists_expression
  have htree : (outer.inline x inner).tokens = f.inlined x g := by rw [Expression.tokens_inline, houter, hinner, inlined]
  refine exists_ofTokens? (firstFault?_eq_none_iff_beforeOperand.mpr ⟨?_, fun t ht => ?_⟩) fun t ht => ?_
  · exact beforeOperand_iff_exists_expression.mpr ⟨_, htree⟩
  · rcases mem_inlined ht with ht | ht | rfl | rfl
    · exact nameFault?_of_mem_tokens hi hf ht
    · exact nameFault?_of_mem_tokens hi hg ht
    · rfl
    · rfl
  · rcases mem_inlined ht with ht | ht | rfl | rfl
    · exact mapName_of_mem_tokens hi hf ht
    · exact mapName_of_mem_tokens hi hg ht
    · rfl
    · rfl

/-- Under idempotent rules a formula with another one in parentheses in place of a variable is a formula; and whatever the lookup, if
the inner formula has a number then the whole has the number, or the error, that the outer one has where the variable stands for that
number and all else for what it did. -/
theorem evaluate_inlined (hi : rules.Idempotent) (hf : ofTokens? rules ts = .ok f) (hg : ofTokens? rules us = .ok g) (x : String) :
    ∃ k, ofTokens? rules (f.inlined x g) = .ok k ∧ k.tokens = f.inlined x g ∧
      ∀ lookup v, g.evaluate rules lookup = .ok v →
        k.evaluate rules lookup = f.evaluate rules (Function.update lookup x (some v)) := by
  obtain ⟨k, hk, htokens⟩ := exists_ofTokens?_inlined hi hf hg x
  refine ⟨k, hk, htokens, fun lookup v hv => ?_⟩
  obtain ⟨outer, houter⟩ := f.exists_expression
  obtain ⟨inner, hinner⟩ := g.exists_expression
  have htree : (outer.inline x inner).tokens = k.tokens := by rw [Expression.tokens_inline, houter, hinner, htokens, inlined]
  have hnormal : ∀ name, .var name ∈ outer.tokens → rules.normalize name = name := by
    intro name hn
    rw [houter] at hn
    exact normalize_of_mem_names hi hf (mem_names.mpr hn)
  have hends := (Expression.endsAs_inline (endsAs_of_evaluate hinner hv) (x := x) outer hnormal).bind fun a => endsAs_settle (finite a)
  rw [evaluate, evaluate, evaluation_eq_of_tokens _ _ htree, evaluation_eq_of_tokens _ _ houter]
  exact hends [] []

set_option maxRecDepth 10000 in
/-- With `a+b` in place of both `x` in `y-x*x`, the difference of 10 and the square of 3 where `a` is 1 and `b` is 2: the parentheses keep
the product apart from the sums. Where `y` stands for nothing the whole asks for it in vain, as the outer formula does. -/
theorem evaluate_inlined_square :
    let lookup : Lookup := fun name => if name = "a" then some 1 else if name = "b" then some 2 else none
    ∃ f g k : Formula, NameRules.any.Idempotent ∧ parse? .any "y-x*x" = .ok f ∧ parse? .any "a+b" = .ok g ∧
      k.canonical = "y-(a+b)*(a+b)" ∧ g.evaluate .any lookup = .ok 3 ∧
      k.evaluate .any lookup = f.evaluate .any (Function.update lookup "x" (some 3)) ∧
      k.evaluate .any lookup = .error (.undefinedVariable "y") ∧
      k.evaluate .any (Function.update lookup "y" (some 10)) = .ok 1 := by
  intro lookup
  have hf : parse? .any "y-x*x" =
      .ok ⟨[.var "y", .operator .subtract, .var "x", .operator .multiply, .var "x"], by decide⟩ := by cbv
  have hg : parse? .any "a+b" = .ok ⟨[.var "a", .operator .add, .var "b"], by decide⟩ := by cbv
  obtain ⟨k, -, htokens, hk⟩ := evaluate_inlined NameRules.any_idempotent hf hg "x"
  have hcanonical : k.canonical = "y-(a+b)*(a+b)" := by
    rw [canonical, htokens]
    cbv
  have hthree : evaluate .any lookup ⟨[.var "a", .operator .add, .var "b"], by decide⟩ = .ok 3 := by decide +kernel
  have hundefined := hk lookup 3 hthree
  have hdefined := hk (Function.update lookup "y" (some 10)) 3 (by decide +kernel)
  exact ⟨_, _, k, NameRules.any_idempotent, hf, hg, hcanonical, hthree, hundefined, hundefined.trans (by decide +kernel),
    hdefined.trans (by decide +kernel)⟩

end Formula

end Spreadsheet
