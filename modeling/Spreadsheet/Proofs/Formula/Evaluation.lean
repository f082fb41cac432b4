import Spreadsheet.Formula.Evaluation
import Spreadsheet.Proofs.Formula.Grammar

/-!
# Evaluation by stacks and evaluation by the grammar

The trees of the grammar are evaluated by recursion: operands from left to right, then the operator. The machine with two stacks
does the same on the tokens of a tree, whatever waits on its stacks when it starts (`Factor.run`, `Term.run`, `Expression.run`):
a factor is pushed, a product leaves its value, and a sum leaves all but its last addition done. So a formula has the outcome of
its tree and asks for the same names in the same order. Nothing is used of the arithmetic but that both sides apply the same
operators.
-/

namespace Spreadsheet

variable (rules : NameRules) (lookup : Lookup)

mutual

/-- The value of a sum. -/
def Expression.value : Expression → Evaluation Float
  | .term t => t.value
  | .combine left op _ right => do
    let l ← left.value
    let r ← right.value
    Evaluation.settle (op.apply l r)

/-- The value of a product. -/
def Term.value : Term → Evaluation Float
  | .factor f => f.value
  | .combine left op _ right => do
    let l ← left.value
    let r ← right.value
    Evaluation.settle (op.apply l r)

/-- The value of a factor. A variable is asked for under its normalized name. -/
def Factor.value : Factor → Evaluation Float
  | .number value => pure value
  | .var name => Evaluation.ask lookup (rules.normalize name)
  | .paren e => e.value

end

/-- The evaluation of a tree: its value, which has to be finite. -/
def Expression.evaluation (e : Expression) : Evaluation Float := do
  let value ← e.value rules lookup
  Evaluation.settle (finite value)

/-! ## Settled results -/

namespace Evaluation

variable {α β : Type}

theorem settle_ok (a : α) : settle (.ok a) = pure a := rfl

/-- A settled result and what follows from it can be settled at once. -/
theorem settle_bind (r : Except EvalError α) (k : α → Except EvalError β) :
    (settle r >>= fun a => settle (k a)) = settle (r >>= k) := by
  cases r <;> rfl

theorem settle_map (r : Except EvalError α) (f : α → β) : (settle r >>= fun a => pure (f a)) = settle (r.map f) := by
  cases r <;> rfl

/-- No way to end is malformed. -/
def NeverMalformed (x : Evaluation α) : Prop := ∀ asked reason, (x asked).1 ≠ .error (.malformed reason)

theorem neverMalformed_pure (a : α) : NeverMalformed (pure a : Evaluation α) := by
  intro asked reason h
  cases h

theorem neverMalformed_settle {r : Except EvalError α} (h : ∀ reason, r ≠ .error (.malformed reason)) :
    NeverMalformed (settle r) :=
  fun _ reason => h reason

theorem neverMalformed_ask (name : String) : NeverMalformed (ask lookup name) := by
  intro asked reason h
  unfold ask at h
  split at h <;> cases h

/-- What follows a computation goes on with the names it asked for; nothing follows one that fails. -/
theorem bind_apply (x : Evaluation α) (k : α → Evaluation β) (asked : List String) :
    (x >>= k) asked = match x asked with
      | (.ok a, asked) => k a asked
      | (.error e, asked) => (.error e, asked) := by
  change ExceptT.bindCont k (x asked).1 (x asked).2 = _
  rcases x asked with ⟨_ | _, asked'⟩ <;> rfl

theorem NeverMalformed.bind {x : Evaluation α} {k : α → Evaluation β} (hx : NeverMalformed x) (hk : ∀ a, NeverMalformed (k a)) :
    NeverMalformed (x >>= k) := by
  intro asked reason h
  rw [bind_apply] at h
  split at h
  · exact hk _ _ reason h
  · next e asked' he =>
    cases h
    exact hx asked reason (congrArg Prod.fst he)

end Evaluation

/-- What is not finite is an overflow. -/
theorem eq_overflow_of_finite {x : Float} {e : EvalError} (h : finite x = .error e) : e = .overflow := by
  unfold finite at h
  split at h
  · cases h
  · cases h
    rfl

/-- An operator fails for two reasons only. -/
theorem Operator.eq_of_apply_error {op : Operator} {left right : Float} {e : EvalError} (h : op.apply left right = .error e) :
    e = .divideByZero ∨ e = .overflow := by
  unfold apply at h
  split at h
  · exact Or.inr (eq_overflow_of_finite h)
  · exact Or.inr (eq_overflow_of_finite h)
  · exact Or.inr (eq_overflow_of_finite h)
  · split at h
    · cases h
      exact Or.inl rfl
    · exact Or.inr (eq_overflow_of_finite h)

theorem finite_ne_malformed (x : Float) (reason : String) : finite x ≠ .error (.malformed reason) := by
  intro h
  cases eq_overflow_of_finite h

theorem Operator.apply_ne_malformed (op : Operator) (left right : Float) (reason : String) :
    op.apply left right ≠ .error (.malformed reason) := by
  intro h
  rcases Operator.eq_of_apply_error h with he | he <;> cases he

/-- What an operator gives is finite as it is. -/
theorem Operator.apply_bind_finite (op : Operator) (left right : Float) :
    (op.apply left right >>= finite) = op.apply left right := by
  cases h : op.apply left right with
  | error e => rfl
  | ok value =>
    change finite value = .ok value
    rw [finite, if_pos (Operator.isFinite_of_apply h)]

mutual

theorem Expression.neverMalformed_value : ∀ e : Expression, Evaluation.NeverMalformed (e.value rules lookup)
  | .term t => by
    rw [Expression.value]
    exact Term.neverMalformed_value t
  | .combine left op _ right => by
    rw [Expression.value]
    exact (Expression.neverMalformed_value left).bind fun l => (Term.neverMalformed_value right).bind fun r =>
      Evaluation.neverMalformed_settle (op.apply_ne_malformed l r)

theorem Term.neverMalformed_value : ∀ t : Term, Evaluation.NeverMalformed (t.value rules lookup)
  | .factor f => by
    rw [Term.value]
    exact Factor.neverMalformed_value f
  | .combine left op _ right => by
    rw [Term.value]
    exact (Term.neverMalformed_value left).bind fun l => (Factor.neverMalformed_value right).bind fun r =>
      Evaluation.neverMalformed_settle (op.apply_ne_malformed l r)

theorem Factor.neverMalformed_value : ∀ f : Factor, Evaluation.NeverMalformed (f.value rules lookup)
  | .number value => by
    rw [Factor.value]
    exact Evaluation.neverMalformed_pure value
  | .var name => by
    rw [Factor.value]
    exact Evaluation.neverMalformed_ask lookup (rules.normalize name)
  | .paren e => by
    rw [Factor.value]
    exact Expression.neverMalformed_value e

end

theorem Expression.neverMalformed_evaluation (e : Expression) : Evaluation.NeverMalformed (e.evaluation rules lookup) :=
  (e.neverMalformed_value rules lookup).bind fun value => Evaluation.neverMalformed_settle (finite_ne_malformed value)

/-! ## The machine on the tokens of a tree -/

namespace Machine

/-- One more value on the stack. -/
def give (m : Machine) (value : Float) : Machine := { m with values := value :: m.values }

/-- No operator is the newest to wait: a sum may begin. -/
def Fresh (m : Machine) : Prop := ∀ op waiting, m.waiting ≠ .operator op :: waiting

/-- No `*` or `/` is the newest to wait: a product may begin. -/
def Ready (m : Machine) : Prop := ∀ op waiting, m.waiting = .operator op :: waiting → op.isMultiplicative = false

theorem Fresh.ready {m : Machine} (h : m.Fresh) : m.Ready := fun op waiting hw => absurd hw (h op waiting)

/-- With nothing to resolve a machine stays as it is. -/
theorem Fresh.resolve {m : Machine} (h : m.Fresh) (multiplicative : Bool) : m.resolve multiplicative = .ok m := by
  unfold Machine.resolve
  split
  · next op waiting hw => exact absurd hw (h op waiting)
  · rfl

/-- Where a product may begin, a value is only put on the stack. -/
theorem Ready.push {m : Machine} (h : m.Ready) (value : Float) :
    m.push value = .ok (m.give value) := by
  unfold Machine.push Machine.resolve
  split
  · next op waiting hw =>
    have hop : op.isMultiplicative = false := h op waiting hw
    simp only [hop, Bool.false_eq_true, if_false]
    rfl
  · rfl

/-- A waiting operator of the kind asked for is applied to the two newest values. -/
theorem resolve_operator {multiplicative : Bool} {op : Operator} (h : op.isMultiplicative = multiplicative)
    (waiting : List Waiting) (l r : Float) (values : List Float) :
    resolve multiplicative ⟨.operator op :: waiting, r :: l :: values⟩ =
      (op.apply l r).map fun value => ⟨waiting, value :: values⟩ := by
  simp [resolve, reduce, h]

/-- The machine after a sum: its last addition still waits. -/
def load (m : Machine) : Expression → Evaluation Machine
  | .term t => do
    let value ← t.value rules lookup
    pure (m.give value)
  | .combine left op _ right => do
    let l ← left.value rules lookup
    let r ← right.value rules lookup
    pure ⟨.operator op :: m.waiting, r :: l :: m.values⟩

/-- Once its last addition is applied, a sum has left its value. -/
theorem load_resolve {m : Machine} (h : m.Fresh) (e : Expression) :
    (m.load rules lookup e >>= fun m' => Evaluation.settle (m'.resolve false)) =
      e.value rules lookup >>= fun value => pure (m.give value) := by
  cases e with
  | term t =>
    rw [load, Expression.value, bind_assoc]
    refine bind_congr ?_
    intro value
    have hfresh : (m.give value).Fresh := h
    rw [pure_bind, hfresh.resolve, Evaluation.settle_ok]
  | combine left op additive right =>
    rw [load, Expression.value, bind_assoc, bind_assoc]
    refine bind_congr ?_
    intro l
    rw [bind_assoc, bind_assoc]
    refine bind_congr ?_
    intro r
    rw [pure_bind, resolve_operator additive, Evaluation.settle_map]
    rfl

/-- On empty stacks, what is left of a sum is its outcome. -/
theorem load_result (e : Expression) :
    (empty.load rules lookup e >>= fun m => Evaluation.settle m.result) = e.evaluation rules lookup := by
  cases e with
  | term t =>
    rw [load, Expression.evaluation, Expression.value, bind_assoc]
    refine bind_congr ?_
    intro value
    rw [pure_bind]
    rfl
  | combine left op additive right =>
    rw [load, Expression.evaluation, Expression.value, bind_assoc, bind_assoc]
    refine bind_congr ?_
    intro l
    rw [bind_assoc, bind_assoc]
    refine bind_congr ?_
    intro r
    have hresult : result ⟨.operator op :: empty.waiting, r :: l :: empty.values⟩ = op.apply l r := by
      simp [result, empty, additive]
    rw [pure_bind, hresult, Evaluation.settle_bind, op.apply_bind_finite]

/-- A closed parenthesis gives the value inside to what waits outside. -/
theorem settle_close (m : Machine) :
    Evaluation.settle m.close = Evaluation.settle (m.resolve false) >>= fun m' =>
      match m'.waiting with
      | .openParen :: waiting => Evaluation.settle (resolve true { m' with waiting })
      | _ => Evaluation.settle (.error (.malformed "')' without matching '('")) := by
  unfold close
  cases m.resolve false with
  | error e => rfl
  | ok m' =>
    obtain ⟨waiting, values⟩ := m'
    cases waiting with
    | nil => rfl
    | cons w waiting => cases w <;> rfl

end Machine

open Machine in
mutual

/-- A sum is read as it is evaluated, up to its last addition. -/
theorem Expression.run : ∀ (e : Expression) (m : Machine), m.Fresh →
    e.tokens.foldlM (Machine.step rules lookup) m = m.load rules lookup e
  | .term t, m, h => by
    rw [Expression.tokens, Term.run t m h.ready, load]
  | .combine left op additive right, m, h => by
    have hstep : ∀ m' : Machine, Machine.step rules lookup m' (.operator op) =
        Evaluation.settle (m'.resolve false) >>= fun m'' => pure (m''.await (.operator op)) := by
      intro m'
      rw [Machine.step, if_neg (by simp [additive]), Evaluation.settle_map]
    have hready : ∀ l, Ready (await (.operator op) (m.give l)) := by
      intro l op' waiting hw
      cases hw
      exact additive
    rw [Expression.tokens, List.foldlM_append, Expression.run left m h]
    simp only [List.foldlM_cons, hstep, bind_assoc, pure_bind]
    rw [← bind_assoc, load_resolve rules lookup h left, bind_assoc, load]
    refine bind_congr ?_
    intro l
    rw [pure_bind, Term.run right _ (hready l)]
    rfl

/-- A product is read as it is evaluated, and leaves its value. -/
theorem Term.run : ∀ (t : Term) (m : Machine), m.Ready →
    t.tokens.foldlM (Machine.step rules lookup) m = t.value rules lookup >>= fun value => pure (m.give value)
  | .factor f, m, h => by
    rw [Term.tokens, Factor.run f m, Term.value]
    refine bind_congr ?_
    intro value
    rw [h.push, Evaluation.settle_ok]
  | .combine left op multiplicative right, m, h => by
    have hstep : ∀ m' : Machine, Machine.step rules lookup m' (.operator op) = pure (m'.await (.operator op)) := by
      intro m'
      rw [Machine.step, if_pos multiplicative]
    have hpush : ∀ l r, (await (.operator op) (m.give l)).push r = (op.apply l r).map m.give :=
      fun l r => resolve_operator multiplicative m.waiting l r m.values
    rw [Term.tokens, List.foldlM_append, Term.run left m h, Term.value, bind_assoc, bind_assoc]
    refine bind_congr ?_
    intro l
    rw [pure_bind, List.foldlM_cons, hstep, pure_bind, Factor.run right, bind_assoc]
    refine bind_congr ?_
    intro r
    rw [hpush, Evaluation.settle_map]

/-- A factor is pushed. -/
theorem Factor.run : ∀ (f : Factor) (m : Machine),
    f.tokens.foldlM (Machine.step rules lookup) m = f.value rules lookup >>= fun value => Evaluation.settle (m.push value)
  | .number value, m => by
    rw [Factor.tokens, Factor.value, pure_bind, List.foldlM_cons]
    simp [Machine.step]
  | .var name, m => by
    rw [Factor.tokens, Factor.value, List.foldlM_cons]
    simp [Machine.step]
  | .paren e, m => by
    have hfresh : (m.await .openParen).Fresh := by
      intro op waiting hw
      cases hw
    have hclose : ∀ m' : Machine, [Token.closeParen].foldlM (Machine.step rules lookup) m' = Evaluation.settle m'.close := by
      intro m'
      rw [List.foldlM_cons, Machine.step]
      simp
    rw [Factor.tokens, Factor.value, List.cons_append, List.foldlM_cons, Machine.step, pure_bind, List.foldlM_append,
      Expression.run e _ hfresh]
    simp only [hclose, settle_close]
    rw [← bind_assoc, load_resolve rules lookup hfresh e, bind_assoc]
    refine bind_congr ?_
    intro value
    rw [pure_bind]
    rfl

end

/-- A formula is evaluated as any tree of its tokens is. -/
theorem Formula.evaluation_eq_of_tokens {f : Formula} {e : Expression} (h : e.tokens = f.tokens) :
    f.evaluation rules lookup = e.evaluation rules lookup := by
  have hfresh : Machine.empty.Fresh := by
    intro op waiting hw
    cases hw
  rw [Formula.evaluation, Machine.run, ← h, Expression.run rules lookup e _ hfresh, Machine.load_result]

/-- Every formula has a tree of the grammar, and whichever tree has its tokens, the formula has the outcome of that tree and asks
for the same names in the same order; in particular its evaluation is never malformed. -/
theorem Formula.evaluates_by_grammar (f : Formula) :
    (∃ e : Expression, e.tokens = f.tokens) ∧
    (∀ e : Expression, e.tokens = f.tokens →
      f.evaluate rules lookup = (e.evaluation rules lookup).outcome ∧
        (f.evaluation rules lookup).names = (e.evaluation rules lookup).names) ∧
    ∀ reason, f.evaluate rules lookup ≠ .error (.malformed reason) := by
  refine ⟨f.exists_expression, fun e he => ?_, fun reason hm => ?_⟩
  · rw [evaluate, evaluation_eq_of_tokens rules lookup he]
    exact ⟨rfl, rfl⟩
  · obtain ⟨e, he⟩ := f.exists_expression
    rw [evaluate, evaluation_eq_of_tokens rules lookup he] at hm
    exact e.neverMalformed_evaluation rules lookup [] reason hm

/-- In `2/(y-1)*x` with `y` standing for one, the division by zero comes before `x` is asked for. -/
theorem Formula.evaluates_by_grammar_divideByZero :
    ∃ (f : Formula) (e : Expression) (lookup : Lookup), e.tokens = f.tokens ∧
      (f.evaluate .any lookup = (e.evaluation .any lookup).outcome ∧
        (f.evaluation .any lookup).names = (e.evaluation .any lookup).names) ∧
      f.evaluate .any lookup = .error .divideByZero ∧ (f.evaluation .any lookup).names = ["y"] := by
  let difference : Expression := .combine (.term (.factor (.var "y"))) .subtract rfl (.factor (.number 1))
  let e : Expression := .term (.combine (.combine (.factor (.number 2)) .divide rfl (.paren difference)) .multiply rfl
    (.var "x"))
  let f : Formula := ⟨e.tokens, by decide⟩
  let lookup : Lookup := fun name => if name = "y" then some 1 else none
  have h := (Formula.evaluates_by_grammar .any lookup f).2.1 e rfl
  have houtcome : (e.evaluation .any lookup).outcome = .error .divideByZero := by rfl
  have hnames : (e.evaluation .any lookup).names = ["y"] := by rfl
  exact ⟨f, e, lookup, rfl, h, h.1.trans houtcome, h.2.trans hnames⟩

end Spreadsheet
