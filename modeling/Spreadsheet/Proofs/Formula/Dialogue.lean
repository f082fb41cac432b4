import Mathlib
import Spreadsheet.Proofs.Formula.Evaluation
import Spreadsheet.Proofs.Formula.Names

/-!
# Evaluation as a dialogue

An evaluation asks for a name, goes on as it is answered, and ends with a result. Written down without a lookup this is a tree, a
`Dialogue`; a lookup picks one path through it (`Machine.run_dialogue`). So an evaluation depends on a lookup through the answers to
what it asks for and through nothing else (`Dialogue.follow_congr`, `Formula.evaluation_congr`), and it blames a variable only if it
has asked for it in vain. It ends with a number only if it has asked for every variable, and for none in vain
(`Formula.exists_lookup_of_evaluate`).

What a formula asks for are its variables, normalized once more. So its variables decide its outcome exactly if it never asks for
anything else (`Formula.variables_decide_iff`). Under idempotent rules it never does. Under others a formula need not even depend on
the variables that it is linked by (`Formula.variables_decide_false`).
-/

namespace Spreadsheet

/-- What a computation does whatever it is answered: it asks for a name and goes on with its value, or it ends. A name without a
value ends it too. -/
inductive Dialogue (α : Type) where
  | done (result : Except EvalError α)
  | ask (name : String) (next : Float → Dialogue α)

namespace Dialogue

variable {α β : Type} {lookup lookup' : Lookup}

/-- How a dialogue ends under a lookup. -/
def outcome (lookup : Lookup) : Dialogue α → Except EvalError α
  | done result => result
  | ask name next =>
    match lookup name with
    | some value => (next value).outcome lookup
    | none => .error (.undefinedVariable name)

/-- The names that are asked for under a lookup, in order. -/
def names (lookup : Lookup) : Dialogue α → List String
  | done _ => []
  | ask name next =>
    name :: match lookup name with
      | some value => (next value).names lookup
      | none => []

/-- A dialogue carried out with a lookup. -/
def run (lookup : Lookup) : Dialogue α → Evaluation α
  | done result => Evaluation.settle result
  | ask name next => Evaluation.ask lookup name >>= fun value => (next value).run lookup

/-- A dialogue and what follows from its result. -/
def andThen (d : Dialogue α) (k : α → Dialogue β) : Dialogue β :=
  match d with
  | done (.ok a) => k a
  | done (.error e) => done (.error e)
  | ask name next => ask name fun value => (next value).andThen k

theorem outcome_andThen (d : Dialogue α) (k : α → Dialogue β) :
    (d.andThen k).outcome lookup = d.outcome lookup >>= fun a => (k a).outcome lookup := by
  induction d with
  | done result => cases result <;> rfl
  | ask name next ih =>
    rw [andThen, outcome, outcome]
    cases lookup name with
    | none => rfl
    | some value => exact ih value

/-- What follows is asked after what comes first, if that ends with a value. -/
theorem names_andThen {d : Dialogue α} {a : α} (h : d.outcome lookup = .ok a) (k : α → Dialogue β) :
    (d.andThen k).names lookup = d.names lookup ++ (k a).names lookup := by
  induction d with
  | done result =>
    cases h
    rfl
  | ask name next ih =>
    rw [outcome] at h
    rw [andThen, names, names]
    cases hv : lookup name with
    | none =>
      rw [hv] at h
      cases h
    | some value =>
      rw [hv] at h
      exact congrArg (name :: ·) (ih value h)

theorem run_andThen (d : Dialogue α) (k : α → Dialogue β) : (d.andThen k).run lookup = d.run lookup >>= fun a => (k a).run lookup := by
  induction d with
  | done result => cases result <;> rfl
  | ask name next ih =>
    rw [andThen, run, run, bind_assoc]
    exact bind_congr ih

/-- A dialogue that is carried out ends as the dialogue does, and has asked for its names. -/
theorem run_apply (d : Dialogue α) (asked : List String) :
    d.run lookup asked = (d.outcome lookup, (d.names lookup).reverse ++ asked) := by
  induction d generalizing asked with
  | done result => rfl
  | ask name next ih =>
    rw [run, Evaluation.bind_apply, Evaluation.ask, outcome, names]
    cases lookup name with
    | none => simp
    | some value => simp [ih]

/-! ## What a dialogue depends on -/

/-- Lookups that answer alike what is asked for are asked for the same, to the same end. -/
theorem follow_congr {d : Dialogue α} (h : ∀ name ∈ d.names lookup, lookup name = lookup' name) :
    d.outcome lookup = d.outcome lookup' ∧ d.names lookup = d.names lookup' := by
  induction d with
  | done result => exact ⟨rfl, rfl⟩
  | ask name next ih =>
    rw [names] at h
    have hname : lookup name = lookup' name := h name List.mem_cons_self
    simp only [outcome, names, ← hname]
    cases hv : lookup name with
    | none => exact ⟨rfl, rfl⟩
    | some value =>
      rw [hv] at h
      obtain ⟨houtcome, hnames⟩ := ih value fun asked hasked => h asked (List.mem_cons_of_mem name hasked)
      exact ⟨houtcome, congrArg (name :: ·) hnames⟩

/-- What is asked for in vain is blamed. -/
theorem outcome_of_mem_names {d : Dialogue α} {name : String} (h : name ∈ d.names lookup) (hnone : lookup name = none) :
    d.outcome lookup = .error (.undefinedVariable name) := by
  induction d with
  | done result => cases h
  | ask first next ih =>
    rw [names] at h
    rw [outcome]
    cases hv : lookup first with
    | none =>
      rw [hv] at h
      rw [List.mem_singleton.mp h]
    | some value =>
      rw [hv] at h
      rcases List.mem_cons.mp h with rfl | hlater
      · cases hv.symm.trans hnone
      · exact ih value hlater

/-- No end of a dialogue blames a variable. -/
def Blameless : Dialogue α → Prop
  | done result => ∀ name, result ≠ .error (.undefinedVariable name)
  | ask _ next => ∀ value, (next value).Blameless

theorem Blameless.andThen {d : Dialogue α} {k : α → Dialogue β} (hd : d.Blameless) (hk : ∀ a, (k a).Blameless) :
    (d.andThen k).Blameless := by
  induction d with
  | done result =>
    cases result with
    | ok a => exact hk a
    | error e =>
      intro name he
      cases he
      exact hd name rfl
  | ask name next ih => exact fun value => ih value (hd value)

/-- So if a variable is blamed, it has no value. -/
theorem Blameless.lookup_eq_none {d : Dialogue α} (hd : d.Blameless) {name : String}
    (h : d.outcome lookup = .error (.undefinedVariable name)) : lookup name = none := by
  induction d with
  | done result => exact absurd h (hd name)
  | ask first next ih =>
    rw [outcome] at h
    cases hv : lookup first with
    | none =>
      rw [hv] at h
      cases h
      exact hv
    | some value =>
      rw [hv] at h
      exact ih value (hd value) h

/-- Every question is for a name of one kind. -/
def AsksOnly (p : String → Prop) : Dialogue α → Prop
  | done _ => True
  | ask name next => p name ∧ ∀ value, (next value).AsksOnly p

theorem AsksOnly.andThen {p : String → Prop} {d : Dialogue α} {k : α → Dialogue β} (hd : d.AsksOnly p)
    (hk : ∀ a, (k a).AsksOnly p) : (d.andThen k).AsksOnly p := by
  induction d with
  | done result =>
    cases result with
    | ok a => exact hk a
    | error e => trivial
  | ask name next ih => exact ⟨hd.1, fun value => ih value (hd.2 value)⟩

theorem AsksOnly.of_mem_names {p : String → Prop} {d : Dialogue α} (hd : d.AsksOnly p) {name : String}
    (h : name ∈ d.names lookup) : p name := by
  induction d with
  | done result => cases h
  | ask first next ih =>
    rw [names] at h
    rcases List.mem_cons.mp h with rfl | hlater
    · exact hd.1
    · cases hv : lookup first with
      | none =>
        rw [hv] at hlater
        cases hlater
      | some value =>
        rw [hv] at hlater
        exact ih value (hd.2 value) hlater

/-- Some names decide how a dialogue ends exactly if it never asks for any other. For if it asks for another, it ends by blaming that
name where it has no value, and otherwise where it has one. -/
theorem Blameless.decided_iff {d : Dialogue α} (hd : d.Blameless) (p : String → Prop) :
    (∀ lookup lookup', (∀ name, p name → lookup name = lookup' name) → d.outcome lookup = d.outcome lookup') ↔
      ∀ lookup, ∀ name ∈ d.names lookup, p name := by
  constructor
  · intro h lookup name hasked
    by_contra hp
    let bare : Lookup := Function.update lookup name none
    let defined : Lookup := Function.update lookup name (some 0)
    have hother : ∀ name', p name' → name' ≠ name := by
      rintro _ hp' rfl
      exact hp hp'
    -- The name is asked for without a value too, since otherwise it made no difference that it had one.
    have hbare : name ∈ d.names bare := by
      by_contra hnot
      have hnames : d.names bare = d.names lookup := by
        refine (follow_congr fun name' hname' => ?_).2
        have hne : name' ≠ name := by
          rintro rfl
          exact hnot hname'
        exact Function.update_of_ne hne _ _
      exact hnot (hnames ▸ hasked)
    have hblamed : d.outcome bare = .error (.undefinedVariable name) :=
      outcome_of_mem_names hbare (Function.update_self ..)
    have hsame : d.outcome bare = d.outcome defined := by
      refine h bare defined fun name' hp' => ?_
      exact (Function.update_of_ne (hother name' hp') _ _).trans (Function.update_of_ne (hother name' hp') _ _).symm
    have hnone : defined name = none := hd.lookup_eq_none (hsame.symm.trans hblamed)
    cases hnone.symm.trans (Function.update_self name (some 0) lookup)
  · intro h lookup lookup' hagree
    exact (follow_congr fun name hasked => hagree name (h lookup name hasked)).1

end Dialogue

/-! ## The dialogue of a formula -/

namespace Machine

variable (rules : NameRules)

/-- The dialogue of one token: only a variable asks for anything. -/
def stepDialogue (m : Machine) : Token → Dialogue Machine
  | .var name => .ask (rules.normalize name) fun value => .done (m.push value)
  | t => .done (m.step rules (fun _ => none) t).outcome

/-- The dialogue of further tokens. -/
def dialogue (m : Machine) : List Token → Dialogue Float
  | [] => .done m.result
  | t :: ts => (m.stepDialogue rules t).andThen fun m => m.dialogue ts

theorem run_stepDialogue (lookup : Lookup) (m : Machine) (t : Token) : (m.stepDialogue rules t).run lookup = m.step rules lookup t := by
  cases t with
  | operator op =>
    change Evaluation.settle (m.step rules (fun _ => none) (.operator op)).outcome = m.step rules lookup (.operator op)
    rw [step, step]
    cases op.isMultiplicative <;> rfl
  | var name => rfl
  | number value => rfl
  | openParen => rfl
  | closeParen => rfl
  | illegal text => rfl

/-- The machine carries out its dialogue. -/
theorem run_dialogue (lookup : Lookup) (m : Machine) (ts : List Token) : (m.dialogue rules ts).run lookup = m.run rules lookup ts := by
  induction ts generalizing m with
  | nil => rfl
  | cons t ts ih =>
    rw [dialogue, Dialogue.run_andThen, run_stepDialogue, run, List.foldlM_cons, bind_assoc]
    exact bind_congr fun m' => ih m'

/-- What tokens ask for are their variables, normalized once more. -/
theorem asksOnly_dialogue {p : String → Prop} {ts : List Token} (hp : ∀ name, .var name ∈ ts → p (rules.normalize name))
    (m : Machine) : (m.dialogue rules ts).AsksOnly p := by
  induction ts generalizing m with
  | nil => trivial
  | cons t ts ih =>
    refine Dialogue.AsksOnly.andThen ?_ fun m' => ih (fun name hname => hp name (List.mem_cons_of_mem t hname)) m'
    cases t with
    | var name => exact ⟨hp name List.mem_cons_self, fun _ => trivial⟩
    | number value => trivial
    | operator op => trivial
    | openParen => trivial
    | closeParen => trivial
    | illegal text => trivial

/-- A token asks for its variable, and for nothing else. -/
theorem names_stepDialogue {lookup : Lookup} (m : Machine) (t : Token) :
    (m.stepDialogue rules t).names lookup = (t.name?.map rules.normalize).toList := by
  cases t with
  | var name =>
    rw [stepDialogue, Dialogue.names]
    cases lookup (rules.normalize name) <;> rfl
  | number value => rfl
  | operator op => rfl
  | openParen => rfl
  | closeParen => rfl
  | illegal text => rfl

/-- Tokens with a result have asked for all their variables, one after the other. -/
theorem names_dialogue_of_ok {lookup : Lookup} {m : Machine} {ts : List Token} {v : Float}
    (h : (m.dialogue rules ts).outcome lookup = .ok v) :
    (m.dialogue rules ts).names lookup = (ts.filterMap Token.name?).map rules.normalize := by
  induction ts generalizing m with
  | nil => rfl
  | cons t ts ih =>
    rw [dialogue, Dialogue.outcome_andThen] at h
    cases hstep : (m.stepDialogue rules t).outcome lookup with
    | error e =>
      rw [hstep] at h
      cases h
    | ok m' =>
      rw [hstep] at h
      rw [dialogue, Dialogue.names_andThen hstep, names_stepDialogue, ih h]
      cases t <;> rfl

/-! ### No operation blames a variable -/

theorem reduce_ne_undefinedVariable (op : Operator) (m : Machine) (name : String) :
    m.reduce op ≠ .error (.undefinedVariable name) := by
  intro h
  unfold reduce at h
  split at h
  · next right left values _ =>
    cases happly : op.apply left right with
    | ok value =>
      rw [happly] at h
      cases h
    | error e =>
      rw [happly] at h
      cases h
      rcases Operator.eq_of_apply_error happly with he | he <;> cases he
  · cases h

theorem resolve_ne_undefinedVariable (multiplicative : Bool) (m : Machine) (name : String) :
    m.resolve multiplicative ≠ .error (.undefinedVariable name) := by
  intro h
  unfold resolve at h
  split at h
  · split at h
    · exact reduce_ne_undefinedVariable _ _ name h
    · cases h
  · cases h

theorem close_ne_undefinedVariable (m : Machine) (name : String) : m.close ≠ .error (.undefinedVariable name) := by
  intro h
  unfold close at h
  cases hresolve : m.resolve false with
  | error e =>
    rw [hresolve] at h
    cases h
    exact resolve_ne_undefinedVariable false m name hresolve
  | ok m' =>
    rw [hresolve] at h
    obtain ⟨waiting, values⟩ := m'
    cases waiting with
    | nil => cases h
    | cons w waiting =>
      cases w with
      | operator op => cases h
      | openParen => exact resolve_ne_undefinedVariable true ⟨waiting, values⟩ name h

theorem result_ne_undefinedVariable (m : Machine) (name : String) : m.result ≠ .error (.undefinedVariable name) := by
  intro h
  unfold result at h
  split at h
  · cases eq_overflow_of_finite h
  · cases h
  · split at h
    · cases h
    · rcases Operator.eq_of_apply_error h with he | he <;> cases he
  · cases h

theorem blameless_stepDialogue (m : Machine) (t : Token) : (m.stepDialogue rules t).Blameless := by
  cases t with
  | var name => exact fun value => resolve_ne_undefinedVariable true _
  | number value => exact resolve_ne_undefinedVariable true _
  | operator op =>
    intro name h
    change (m.step rules (fun _ => none) (.operator op)).outcome = .error (.undefinedVariable name) at h
    rw [step] at h
    split at h
    · cases h
    · change (m.resolve false).map (await (.operator op)) = .error (.undefinedVariable name) at h
      cases hresolve : m.resolve false with
      | ok m' =>
        rw [hresolve] at h
        cases h
      | error e =>
        rw [hresolve] at h
        cases h
        exact resolve_ne_undefinedVariable false m name hresolve
  | openParen =>
    intro name h
    cases h
  | closeParen => exact close_ne_undefinedVariable m
  | illegal text =>
    intro name h
    cases h

theorem blameless_dialogue (m : Machine) (ts : List Token) : (m.dialogue rules ts).Blameless := by
  induction ts generalizing m with
  | nil => exact result_ne_undefinedVariable m
  | cons t ts ih => exact (m.blameless_stepDialogue rules t).andThen ih

end Machine

namespace Formula

variable {rules : NameRules}

/-- The dialogue of a formula. -/
def dialogue (rules : NameRules) (f : Formula) : Dialogue Float := Machine.empty.dialogue rules f.tokens

theorem evaluation_apply (lookup : Lookup) (f : Formula) (asked : List String) :
    f.evaluation rules lookup asked =
      ((f.dialogue rules).outcome lookup, ((f.dialogue rules).names lookup).reverse ++ asked) := by
  rw [evaluation, ← Machine.run_dialogue]
  exact Dialogue.run_apply _ asked

theorem evaluate_eq (lookup : Lookup) (f : Formula) : f.evaluate rules lookup = (f.dialogue rules).outcome lookup := by
  rw [evaluate, Evaluation.outcome, evaluation_apply]

theorem names_evaluation (lookup : Lookup) (f : Formula) :
    (f.evaluation rules lookup).names = (f.dialogue rules).names lookup := by
  rw [Evaluation.names, evaluation_apply, List.append_nil, List.reverse_reverse]

/-- A formula that has a number has found a number for each of its variables: for each it has asked, and none in vain. -/
theorem exists_lookup_of_evaluate {lookup : Lookup} {f : Formula} {v : Float} (h : f.evaluate rules lookup = .ok v) {name : String}
    (hn : name ∈ f.names) : ∃ x, lookup (rules.normalize name) = some x := by
  rw [evaluate_eq] at h
  have hasked : rules.normalize name ∈ (f.dialogue rules).names lookup := by
    rw [dialogue, Machine.names_dialogue_of_ok rules h]
    exact List.mem_map_of_mem (List.mem_filterMap.mpr ⟨_, mem_names.mp hn, rfl⟩)
  cases hlookup : lookup (rules.normalize name) with
  | some x => exact ⟨x, rfl⟩
  | none => cases h.symm.trans (Dialogue.outcome_of_mem_names hasked hlookup)

/-- A formula asks for its variables, normalized once more. -/
theorem exists_of_mem_names_evaluation {lookup : Lookup} {f : Formula} {asked : String}
    (h : asked ∈ (f.evaluation rules lookup).names) : ∃ name ∈ f.names, asked = rules.normalize name := by
  have hasks : (f.dialogue rules).AsksOnly fun asked => ∃ name ∈ f.names, asked = rules.normalize name :=
    Machine.asksOnly_dialogue rules (fun name hname => ⟨name, mem_names.mpr hname, rfl⟩) Machine.empty
  rw [names_evaluation] at h
  exact hasks.of_mem_names h

/-- Lookups that agree on the names of a formula, as they are asked for, give it the same evaluation. -/
theorem evaluation_congr {lookup lookup' : Lookup} {f : Formula}
    (h : ∀ name ∈ f.names, lookup (rules.normalize name) = lookup' (rules.normalize name)) :
    f.evaluation rules lookup = f.evaluation rules lookup' := by
  have hasked : ∀ asked ∈ (f.dialogue rules).names lookup, lookup asked = lookup' asked := by
    intro asked hmem
    rw [← names_evaluation] at hmem
    obtain ⟨name, hname, rfl⟩ := exists_of_mem_names_evaluation hmem
    exact h name hname
  obtain ⟨houtcome, hnames⟩ := Dialogue.follow_congr hasked
  funext asked
  rw [evaluation_apply, evaluation_apply, houtcome, hnames]

/-- Lookups that agree on the names of a formula, as they are asked for, give it the same outcome. -/
theorem evaluate_congr {lookup lookup' : Lookup} {f : Formula}
    (h : ∀ name ∈ f.names, lookup (rules.normalize name) = lookup' (rules.normalize name)) :
    f.evaluate rules lookup = f.evaluate rules lookup' := by
  rw [evaluate, evaluate, evaluation_congr h]

/-- The variables of a formula decide its outcome if and only if it never asks for anything else, whatever it is answered. What it
asks for are its variables normalized once more. So under idempotent rules its variables do decide. -/
theorem variables_decide_iff {text : String} {f : Formula} (h : parse? rules text = .ok f) :
    ((∀ lookup lookup' : Lookup, (∀ name ∈ f.names, lookup name = lookup' name) →
        f.evaluate rules lookup = f.evaluate rules lookup') ↔
      ∀ lookup : Lookup, ∀ asked ∈ (f.evaluation rules lookup).names, asked ∈ f.names) ∧
    (∀ lookup : Lookup, ∀ asked ∈ (f.evaluation rules lookup).names, ∃ name ∈ f.names, asked = rules.normalize name) ∧
    (rules.Idempotent → ∀ lookup lookup' : Lookup, (∀ name ∈ f.names, lookup name = lookup' name) →
      f.evaluate rules lookup = f.evaluate rules lookup') := by
  have hdecide : (∀ lookup lookup' : Lookup, (∀ name ∈ f.names, lookup name = lookup' name) →
        f.evaluate rules lookup = f.evaluate rules lookup') ↔
      ∀ lookup : Lookup, ∀ asked ∈ (f.evaluation rules lookup).names, asked ∈ f.names := by
    simp only [evaluate_eq, names_evaluation]
    exact (Machine.blameless_dialogue rules Machine.empty f.tokens).decided_iff (· ∈ f.names)
  refine ⟨hdecide, fun lookup asked => exists_of_mem_names_evaluation, fun hi => hdecide.mpr ?_⟩
  intro lookup asked hasked
  obtain ⟨name, hname, rfl⟩ := exists_of_mem_names_evaluation hasked
  rw [normalize_of_mem_names hi h hname]
  exact hname

set_option maxRecDepth 10000 in
/-- Where an `x` is put before every name, `0/0+a` has the variable `xa` and would ask for `xxa`; but it divides by zero before it
asks for anything, so its variables decide. -/
theorem variables_decide_iff_divideByZero :
    ∃ f : Formula, ¬(NameRules.of (.prepend "x") .all).Idempotent ∧ parse? (.of (.prepend "x") .all) "0/0+a" = .ok f ∧
      f.names.toList = ["xa"] ∧
      ∀ lookup lookup' : Lookup, (∀ name ∈ f.names, lookup name = lookup' name) →
        f.evaluate (.of (.prepend "x") .all) lookup = f.evaluate (.of (.prepend "x") .all) lookup' := by
  have hidempotent : ¬(NameRules.of (.prepend "x") .all).Idempotent := fun hi => absurd (hi "a") (by decide)
  have hparse : parse? (.of (.prepend "x") .all) "0/0+a" =
      .ok ⟨[.number 0, .operator .divide, .number 0, .operator .add, .var "xa"], by decide⟩ := by cbv
  have hnames : (names ⟨[.number 0, .operator .divide, .number 0, .operator .add, .var "xa"], by decide⟩).toList = ["xa"] := by cbv
  refine ⟨_, hidempotent, hparse, hnames, (variables_decide_iff hparse).1.mpr ?_⟩
  intro lookup asked hasked
  cases hasked

/-- Variables that are not normalized for good decide nothing: where an `x` is put before every name, `a` has the variable `xa` and
its outcome is that of `xxa`. -/
theorem variables_decide_false :
    ¬∀ (rules : NameRules) (text : String) (f : Formula) (lookup lookup' : Lookup), parse? rules text = .ok f →
      (∀ name ∈ f.names, lookup name = lookup' name) → f.evaluate rules lookup = f.evaluate rules lookup' := by
  intro hall
  let lookup : Lookup := fun name => if name = "xa" then some 2 else none
  let lookup' : Lookup := fun name => if name = "xa" then some 2 else if name = "xxa" then some 3 else none
  have hparse : parse? (.of (.prepend "x") .all) "a" = .ok ⟨[.var "xa"], by decide⟩ := by cbv
  have hagree : ∀ name ∈ names ⟨[.var "xa"], by decide⟩, lookup name = lookup' name := by
    intro name hname
    obtain rfl : name = "xa" := by simpa [mem_names] using hname
    rfl
  have hundefined : evaluate (.of (.prepend "x") .all) lookup ⟨[.var "xa"], by decide⟩ = .error (.undefinedVariable "xxa") := by
    rfl
  have hvalue : evaluate (.of (.prepend "x") .all) lookup' ⟨[.var "xa"], by decide⟩ = .ok 3 := by rfl
  have hsame := hall _ _ _ lookup lookup' hparse hagree
  rw [hundefined, hvalue] at hsame
  cases hsame

end Formula

end Spreadsheet
