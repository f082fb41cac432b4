import Spreadsheet.Proofs.Formula.Derivation

/-!
# Faults at the first token that nothing can mend

What has been read without a fault can always be made a formula: by an operand if one is due, and by as many closing parentheses as
are still open (`Progress.completion`). And a token that has a fault has it whatever comes later, for it is only held against what
was read before it. So the fault of a token is found at the first one with which the tokens are lost
(`Formula.fault_at_first_hopeless`).

That parentheses are still open is no fault of any token. All tokens have then been read, they end in an operand, and closing
parentheses are all that is missing.
-/

namespace Spreadsheet

variable {rules : NameRules}

/-! ## What is still missing -/

/-- Parentheses closed as often as they are open may follow an operand. -/
theorem afterOperand_replicate (depth : Nat) : AfterOperand depth (List.replicate depth .closeParen) := by
  induction depth with
  | zero => exact .done
  | succ depth ih => exact .close ih

namespace Progress

/-- What is still missing of a formula: an operand if one is due, then the parentheses that are open. -/
def completion (p : Progress) : List Token :=
  if p.previous.any Token.canEnd then List.replicate p.depth .closeParen
  else .number 0 :: List.replicate p.depth .closeParen

theorem continues_completion (p : Progress) : p.Continues p.completion := by
  rw [Continues, completion]
  split
  · exact afterOperand_replicate p.depth
  · exact .number 0 (afterOperand_replicate p.depth)

/-- What is missing has no names. -/
theorem nameFault?_of_mem_completion {p : Progress} {t : Token} (h : t ∈ p.completion) : nameFault? rules t = none := by
  have hclose : ∀ t ∈ List.replicate p.depth Token.closeParen, nameFault? rules t = none := by
    intro t ht
    rw [List.eq_of_mem_replicate ht]
    rfl
  rw [completion] at h
  split at h
  · exact hclose t h
  · rcases List.mem_cons.mp h with rfl | h
    · rfl
    · exact hclose t h

namespace Reads

variable {p q : Progress} {ts : List Token}

/-- What is read without a fault has no name that is not admitted. -/
theorem nameFault? (h : p.Reads rules ts q) : ∀ t ∈ ts, Progress.nameFault? rules t = none := by
  induction h with
  | done p => simp
  | read hf _ ih => exact List.forall_mem_cons.mpr ⟨(fault?_eq_none_iff.mp hf).2.2, ih⟩

/-- Progress counts the tokens and the parentheses of each kind. -/
theorem counts (h : p.Reads rules ts q) : q.position = p.position + ts.length ∧
    q.opened = p.opened + ts.count .openParen ∧ q.closed = p.closed + ts.count .closeParen := by
  induction h with
  | done p => simp
  | @read p q t ts _ _ ih =>
    obtain ⟨hposition, hopened, hclosed⟩ := ih
    rw [hposition, hopened, hclosed]
    refine ⟨?_, ?_, ?_⟩
    · simp only [next, List.length_cons]
      omega
    · by_cases ht : t = .openParen <;> simp [next, ht]
      omega
    · by_cases ht : t = .closeParen <;> simp [next, ht]
      omega

/-- What is read from the start without a fault is completed to tokens without a fault. -/
theorem firstFault?_completion (h : start.Reads rules ts q) (hfirst : ∀ first ∈ ts.head?, first.canStart = true) :
    firstFault? rules (ts ++ q.completion) = none := by
  refine firstFault?_eq_none_iff_beforeOperand.mpr ⟨?_, ?_⟩
  · exact h.continues (Nat.le_refl _) (fun _ => hfirst) q.continues_completion
  · intro t ht
    rcases List.mem_append.mp ht with ht | ht
    · exact h.nameFault? t ht
    · exact nameFault?_of_mem_completion ht

/-- After an operand only the parentheses are missing that are still open. -/
theorem completion_eq (h : start.Reads rules ts q) {last : Token} (hlast : ts.getLast? = some last) (hend : last.canEnd = true) :
    q.completion = List.replicate (q.opened - q.closed) .closeParen := by
  have hends : q.previous.any Token.canEnd = true := by
    rw [h.previous_eq, hlast, Option.some_or, Option.any_some, hend]
  rw [completion, if_pos hends, depth]

end Reads

/-! ## What a fault says -/

/-- The fault of a token tells its position, or its text and the one before it, or the name it is for. -/
theorem fault?_cases {p : Progress} {t : Token} {fault : Fault} (h : p.fault? rules t = some fault) :
    (t = .closeParen ∧ fault = .unmatchedClose p.position) ∨
    (∃ previous, p.previous = some previous ∧
      (fault = .expectedOperand previous.text t.text ∨ fault = .expectedOperator previous.text t.text)) ∨
    ∃ written, t = .var written ∧ fault = .invalidVariable (rules.normalize written) := by
  simp only [fault?, HOrElse.hOrElse, OrElse.orElse, Option.orElse_eq_or, Option.or_eq_some_iff] at h
  rcases h with hparen | ⟨-, hadjacency | ⟨-, hname⟩⟩
  · rw [parenFault?] at hparen
    split at hparen
    · next hclose =>
      cases hparen
      exact Or.inl ⟨hclose.2, rfl⟩
    · cases hparen
  · refine Or.inr (Or.inl ?_)
    rw [adjacencyFault?] at hadjacency
    split at hadjacency
    · cases hadjacency
    · next previous hprevious =>
      refine ⟨previous, hprevious, ?_⟩
      split at hadjacency
      · split at hadjacency
        · cases hadjacency
        · cases hadjacency
          exact Or.inr rfl
      · split at hadjacency
        · cases hadjacency
        · cases hadjacency
          exact Or.inl rfl
  · refine Or.inr (Or.inr ?_)
    cases t with
    | var written =>
      simp only [Progress.nameFault?, Token.name?] at hname
      split at hname
      · cases hname
      · cases hname
        exact ⟨written, rfl, rfl⟩
    | number value => cases hname
    | operator op => cases hname
    | openParen => cases hname
    | closeParen => cases hname
    | illegal text => cases hname

end Progress

/-- A fault that is found in reading tokens is that of the first token that has one, or all are read and the parentheses are out of
balance. -/
theorem exists_reads_of_faultFrom? {p : Progress} {ts : List Token} {fault : Fault} (h : faultFrom? rules p ts = some fault) :
    (∃ before t after q, ts = before ++ t :: after ∧ p.Reads rules before q ∧ q.fault? rules t = some fault) ∨
      ∃ q, p.Reads rules ts q ∧ q.opened ≠ q.closed ∧ fault = .unbalancedParens q.opened q.closed := by
  rcases exists_reads rules p ts with ⟨before, t, after, q, fault', rfl, hreads, hfault⟩ | ⟨q, hreads⟩
  · rw [hreads.faultFrom?_append, faultFrom?, hfault] at h
    cases h
    exact Or.inl ⟨before, t, after, q, rfl, hreads, hfault⟩
  · rw [← List.append_nil ts, hreads.faultFrom?_append, faultFrom?] at h
    split at h
    · cases h
    · next hne =>
      cases h
      exact Or.inr ⟨q, hreads, hne, rfl⟩

/-- What is wrong with tokens shows before they are read one by one, or the first can start, the last can end and the fault is found
in reading them. -/
theorem firstFault?_cases {ts : List Token} {fault : Fault} (h : firstFault? rules ts = some fault) :
    (fault = .empty ∨ (∃ text, fault = .illegalToken text) ∨ (∃ text, fault = .invalidStart text) ∨ ∃ text, fault = .invalidEnd text) ∨
      (∀ first ∈ ts.head?, first.canStart = true) ∧ (∃ last, ts.getLast? = some last ∧ last.canEnd = true) ∧
        faultFrom? rules .start ts = some fault := by
  unfold firstFault? at h
  split at h
  · next first last hhead hlast =>
    split at h
    · cases h
      simp
    · split at h
      · cases h
        simp
      · next hstart =>
        split at h
        · cases h
          simp
        · next hend => exact Or.inr ⟨by simpa [hhead] using hstart, ⟨last, hlast, by simpa using hend⟩, h⟩
  · cases h
    simp

namespace Formula

/-! ## The first token that nothing can mend -/

/-- With some further tokens these make a formula. -/
def Completable (rules : NameRules) (ts : List Token) : Prop := ∃ more f, ofTokens? rules (ts ++ more) = .ok f

/-- Before the token at an index further tokens could still make a formula, and with it they cannot any more. -/
def FirstHopeless (rules : NameRules) (ts : List Token) (index : Nat) : Prop :=
  Completable rules (ts.take index) ∧ ¬Completable rules (ts.take (index + 1))

/-- A token that has a fault after tokens that have none is the first with which nothing can be mended. -/
theorem firstHopeless_of_fault? {before after : List Token} {t : Token} {q : Progress} {fault : Fault}
    (hfirst : ∀ first ∈ (before ++ t :: after).head?, first.canStart = true) (hreads : Progress.start.Reads rules before q)
    (hfault : q.fault? rules t = some fault) : FirstHopeless rules (before ++ t :: after) before.length := by
  refine ⟨?_, ?_⟩
  · rw [List.take_left]
    refine ⟨q.completion, exists_ofTokens?_iff.mpr (hreads.firstFault?_completion fun first hmem => hfirst first ?_)⟩
    rw [List.head?_append, Option.mem_def.mp hmem, Option.some_or]
    exact rfl
  · rintro ⟨more, f, hf⟩
    have hnone := (firstFault?_eq_none_iff.mp (ofTokens?_eq_ok hf).1).2.2.2
    have htake : (before ++ t :: after).take (before.length + 1) ++ more = before ++ t :: more := by
      simp [List.take_append]
    rw [htake, hreads.faultFrom?_append] at hnone
    rw [(faultFrom?_cons_eq_none_iff.mp hnone).1] at hfault
    cases hfault

/-- If a parenthesis closed too many, an operand or an operator missing, or a name that is not admitted is reported of tokens, it is
reported of the first one with which nothing can be mended: it is at the position told, or its text and the one before it are told,
or it is a variable whose normalized name is told. If parentheses out of balance are reported, they are counted over all tokens, more
are opened than closed, and closing the others at the end makes a formula. -/
theorem fault_at_first_hopeless {ts : List Token} {fault : Fault} (h : ofTokens? rules ts = .error fault) :
    match fault with
    | .unmatchedClose position => ts[position]? = some .closeParen ∧ FirstHopeless rules ts position
    | .expectedOperand previous found | .expectedOperator previous found =>
      ∃ index t t', ts[index]? = some t ∧ ts[index + 1]? = some t' ∧ t.text = previous ∧ t'.text = found ∧
        FirstHopeless rules ts (index + 1)
    | .invalidVariable name =>
      ∃ index written, ts[index]? = some (.var written) ∧ rules.normalize written = name ∧ FirstHopeless rules ts index
    | .unbalancedParens opened closed =>
      opened = ts.count .openParen ∧ closed = ts.count .closeParen ∧ closed < opened ∧
        ∃ f, ofTokens? rules (ts ++ List.replicate (opened - closed) .closeParen) = .ok f
    | .empty | .illegalToken _ | .invalidStart _ | .invalidEnd _ => True := by
  rcases firstFault?_cases (ofTokens?_eq_error h) with hwhole | ⟨hfirst, ⟨last, hlast, hend⟩, hfrom⟩
  · rcases hwhole with rfl | ⟨text, rfl⟩ | ⟨text, rfl⟩ | ⟨text, rfl⟩ <;> trivial
  · rcases exists_reads_of_faultFrom? hfrom with ⟨before, t, after, q, rfl, hreads, hfault⟩ | ⟨q, hreads, hne, rfl⟩
    · have hhopeless := firstHopeless_of_fault? hfirst hreads hfault
      have hat : (before ++ t :: after)[before.length]? = some t := by simp
      rcases Progress.fault?_cases hfault with ⟨rfl, rfl⟩ | ⟨previous, hprevious, htold⟩ | ⟨written, rfl, rfl⟩
      · have hposition : q.position = before.length := by
          rw [hreads.counts.1]
          exact Nat.zero_add _
        rw [← hposition] at hat hhopeless
        exact ⟨hat, hhopeless⟩
      · -- What was read ends in the token that is told before the one with the fault.
        rw [hreads.previous_eq, Progress.start, Option.or_none] at hprevious
        obtain ⟨init, rfl⟩ := List.getLast?_eq_some_iff.mp hprevious
        rw [List.length_append, List.length_singleton] at hat hhopeless
        have hprev : (init ++ [previous] ++ t :: after)[init.length]? = some previous := by simp
        rcases htold with rfl | rfl
        · exact ⟨init.length, previous, t, hprev, hat, rfl, rfl, hhopeless⟩
        · exact ⟨init.length, previous, t, hprev, hat, rfl, rfl, hhopeless⟩
      · exact ⟨before.length, written, hat, rfl, hhopeless⟩
    · obtain ⟨-, hopened, hclosed⟩ := hreads.counts
      have hle : q.closed ≤ q.opened := hreads.closed_le (Nat.le_refl _)
      refine ⟨hopened.trans (Nat.zero_add _), hclosed.trans (Nat.zero_add _), by omega, ?_⟩
      rw [← hreads.completion_eq hlast hend]
      exact exists_ofTokens?_iff.mpr (hreads.firstFault?_completion hfirst)

/-- Of `a)(b` the parenthesis at 1 is told, though as many are opened as closed. Of `(a+)` the operator and the parenthesis after it
are told. Where `b` is not accepted, it is told of `a+b` by its normalized name. To `((a)` one parenthesis is added. -/
theorem fault_at_first_hopeless_each :
    (ofTokens? .any [.var "a", .closeParen, .openParen, .var "b"] = .error (.unmatchedClose 1) ∧
      FirstHopeless .any [.var "a", .closeParen, .openParen, .var "b"] 1) ∧
    (ofTokens? .any [.openParen, .var "a", .operator .add, .closeParen] = .error (.expectedOperand "+" ")") ∧
      ∃ index, FirstHopeless .any [.openParen, .var "a", .operator .add, .closeParen] (index + 1)) ∧
    (ofTokens? (.of (.prepend "x") (.except ["xb"])) [.var "a", .operator .add, .var "b"] = .error (.invalidVariable "xb") ∧
      ∃ index, FirstHopeless (.of (.prepend "x") (.except ["xb"])) [.var "a", .operator .add, .var "b"] index) ∧
    ofTokens? .any [.openParen, .openParen, .var "a", .closeParen] = .error (.unbalancedParens 2 1) ∧
      ∃ f, ofTokens? .any ([.openParen, .openParen, .var "a", .closeParen] ++ [.closeParen]) = .ok f := by
  have hclose : ofTokens? .any [.var "a", .closeParen, .openParen, .var "b"] = .error (.unmatchedClose 1) := rfl
  have hoperand : ofTokens? .any [.openParen, .var "a", .operator .add, .closeParen] = .error (.expectedOperand "+" ")") := rfl
  have hname : ofTokens? (.of (.prepend "x") (.except ["xb"])) [.var "a", .operator .add, .var "b"] =
      .error (.invalidVariable "xb") := rfl
  have hopen : ofTokens? .any [.openParen, .openParen, .var "a", .closeParen] = .error (.unbalancedParens 2 1) := rfl
  obtain ⟨-, hposition⟩ := fault_at_first_hopeless hclose
  obtain ⟨index, -, -, -, -, -, -, hmissing⟩ := fault_at_first_hopeless hoperand
  obtain ⟨index', -, -, -, hrefused⟩ := fault_at_first_hopeless hname
  obtain ⟨-, -, -, hclosed⟩ := fault_at_first_hopeless hopen
  exact ⟨⟨hclose, hposition⟩, ⟨hoperand, index, hmissing⟩, ⟨hname, index', hrefused⟩, hopen, hclosed⟩

end Formula

end Spreadsheet
