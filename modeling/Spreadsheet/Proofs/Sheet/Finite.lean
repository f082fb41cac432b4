import Spreadsheet.Proofs.Sheet.Request

/-!
# Numbers are finite

A formula takes what it is given for its variables as it is, infinite or no number at all. But an operator gives finite results only,
and a value that meets no operator is looked at when evaluation ends, so no formula has a result that is not finite
(`Formula.isFinite_of_evaluate`).

A sheet keeps numbers in three places: as contents, in its formulas, and in what its cells show. The first two come from texts, and
only finite numbers are read from a text (`Contents.finite_of_classify?`). What a cell shows is put there when the cell is written and
when it is evaluated again, and both times it is finite if the contents are (`Sheet.ShowsFinite.set`). The naming rules do not matter.
-/

namespace Spreadsheet

variable {rules : NameRules} {version : String}

/-- All numbers that contents hold are finite: a number itself, and those that stand in a formula. -/
def Contents.Finite : Contents → Prop
  | text _ => True
  | number value => value.isFinite = true
  | formula f => ∀ value, .number value ∈ f.tokens → value.isFinite = true

/-- A value that is a number is a finite one. -/
def Value.Finite : Value → Prop
  | number value => value.isFinite = true
  | _ => True

/-! ## What is read and what is evaluated -/

/-- A text has no tokens that are not finite. -/
theorem Token.isFinite_of_mem_scan {s : List Char} {value : Float} (h : number value ∈ scan s) : value.isFinite = true := by
  obtain ⟨lexeme, -, hlexeme⟩ := List.mem_map.mp h
  obtain ⟨c, s, -, -, hread⟩ := readFinite?_of_ofLexeme hlexeme
  exact (Option.filter_eq_some_iff.mp hread).2

/-- The numbers that stand in a formula are those of its text. -/
theorem Formula.isFinite_of_mem_tokens {s : List Char} {f : Formula} (h : ofTokens? rules (Token.scan s) = .ok f) {value : Float}
    (hv : .number value ∈ f.tokens) : value.isFinite = true := by
  rw [(ofTokens?_eq_ok h).2, List.mem_map] at hv
  obtain ⟨t, ht, heq⟩ := hv
  rw [Token.mapName_eq_number] at heq
  subst heq
  exact Token.isFinite_of_mem_scan ht

/-- However evaluation came to its end, and whatever was looked up on the way, the result is finite. -/
theorem Formula.isFinite_of_evaluate {lookup : Lookup} {f : Formula} {value : Float} (h : f.evaluate rules lookup = .ok value) :
    value.isFinite = true := by
  rw [evaluate, evaluation, Machine.run, Evaluation.outcome, Evaluation.bind_apply] at h
  split at h
  · next m asked _ =>
    have hresult : m.result = .ok value := h
    exact Machine.isFinite_of_result hresult
  · cases h

/-- Contents that a text stands for hold finite numbers. -/
theorem Contents.finite_of_classify? {typed : String} {contents : Contents} (h : classify? rules typed = .ok contents) :
    contents.Finite := by
  rcases classify?_cases h with ⟨rest, f, -, hf, rfl⟩ | ⟨-, ⟨value, hv, rfl⟩ | ⟨-, rfl⟩⟩
  · intro value hmem
    exact Formula.isFinite_of_mem_tokens hf hmem
  · exact (Option.filter_eq_some_iff.mp hv).2
  · trivial

/-- Contents with finite numbers show finite numbers, whatever their formula is given. -/
theorem Contents.Finite.value {contents : Contents} (h : contents.Finite) (rules : NameRules) (lookup : Lookup) :
    (contents.value rules lookup).Finite := by
  cases contents with
  | text t => trivial
  | number value => exact h
  | formula f =>
    rw [Contents.value]
    cases hv : f.evaluate rules lookup with
    | ok value => exact Formula.isFinite_of_evaluate hv
    | error e => trivial

namespace Sheet

variable {sheet : Sheet}

/-! ## What cells show -/

/-- No cell shows a number that is not finite. -/
def ShowsFinite (sheet : Sheet) : Prop := ∀ name, (sheet.valueAt name).Finite

/-- The contents of a sound sheet hold finite numbers. -/
theorem Sound.finite_contentsAt (h : sheet.Sound rules version) (name : String) : (sheet.contentsAt name).Finite := by
  obtain ⟨typed, htyped⟩ := h.exists_classify? name
  exact Contents.finite_of_classify? htyped

theorem showsFinite_empty (rules : NameRules) (version : String) : (empty rules version).ShowsFinite := by
  intro name
  simp [Sheet.empty, valueAt, Cell.empty, Value.empty, Value.Finite]

/-- A cell that is evaluated again shows what its contents call for, and that is finite. -/
theorem ShowsFinite.refresh (h : sheet.ShowsFinite) (hs : sheet.Sound rules version) (name : String) :
    (sheet.refresh name).ShowsFinite := by
  intro t
  by_cases ht : name = t
  · subst ht
    rw [valueAt_refresh_self]
    exact (hs.finite_contentsAt name).value sheet.rules sheet.lookup
  · rw [valueAt_refresh_of_ne ht]
    exact h t

theorem ShowsFinite.recalculate (h : sheet.ShowsFinite) (hs : sheet.Sound rules version) (order : List String) :
    (sheet.recalculate order).ShowsFinite := by
  induction order generalizing sheet with
  | nil => exact h
  | cons name order ih => exact ih (h.refresh hs name) (hs.refresh name)

/-- A cell that is written shows its number, or nothing yet. -/
theorem ShowsFinite.write (h : sheet.ShowsFinite) {contents : Contents} (hc : contents.Finite) (name : String) :
    (sheet.write name contents).ShowsFinite := by
  intro t
  by_cases ht : t = name
  · rw [valueAt, getElem?_write, if_pos ht, Option.getD_some]
    cases contents with
    | text t => trivial
    | number value => exact hc
    | formula f => trivial
  · rw [valueAt_write_of_ne ht]
    exact h t

/-- A call leaves no number that is not finite. -/
theorem ShowsFinite.set (h : sheet.ShowsFinite) (hs : sheet.Sound rules version) (name typed : String) :
    (sheet.set name typed).2.ShowsFinite := by
  rcases hs.set_cases name typed with ⟨e, hset⟩ | ⟨normalized, contents, order, hname, htyped, horder, hset⟩
  · rw [hset]
    exact h
  · have hrelinked : (sheet.relink normalized contents.reads).ShowsFinite := h
    rw [hset]
    exact (hrelinked.write (Contents.finite_of_classify? htyped) normalized).recalculate (hs.write hname htyped horder) order

/-- No cell of a sheet in use shows a number that is not finite. -/
theorem InUse.showsFinite (h : InUse rules version sheet) : sheet.ShowsFinite :=
  h.preserves (p := ShowsFinite) (showsFinite_empty rules version) (fun _ name typed hs hf => hf.set hs name typed) (fun _ hf => hf)

/-- No formula has a result that is not finite, whatever is looked up for its variables. And whatever the naming rules, a sheet in use
has no number that is not finite: not as the contents of a cell, not in a formula, and not as what a cell shows. -/
theorem numbers_finite :
    (∀ (rules : NameRules) (lookup : Lookup) (f : Formula) (value : Float),
      f.evaluate rules lookup = .ok value → value.isFinite = true) ∧
    ∀ (rules : NameRules) (version : String) (sheet : Sheet), InUse rules version sheet →
      ∀ (name : String) (cell : Cell), sheet.cells[name]? = some cell →
        (∀ value, cell.contents = .number value → value.isFinite = true) ∧
        (∀ f value, cell.contents = .formula f → .number value ∈ f.tokens → value.isFinite = true) ∧
        ∀ value, cell.value = .number value → value.isFinite = true := by
  refine ⟨fun _ _ _ _ h => Formula.isFinite_of_evaluate h, ?_⟩
  intro rules version sheet h name cell hcell
  have hcontents : cell.contents.Finite := by
    rw [← contentsAt_of_getElem? hcell]
    exact h.sound.finite_contentsAt name
  have hvalue : cell.value.Finite := by
    rw [← valueAt_of_getElem? hcell]
    exact h.showsFinite name
  refine ⟨?_, ?_, ?_⟩
  · intro value hv
    rw [hv] at hcontents
    exact hcontents
  · intro f value hf hmem
    rw [hf] at hcontents
    exact hcontents value hmem
  · intro value hv
    rw [hv] at hvalue
    exact hvalue

set_option maxRecDepth 10000 in
/-- An infinite number by itself is an overflow, but one divided by it is zero. In a sheet a formula holds a number, and so does the
cell that it reads, and it shows one. -/
theorem numbers_finite_infiniteLookup :
    ∃ (sheet : Sheet) (read shown : Cell) (f : Formula), InUse .any "v" sheet ∧
      Formula.evaluate .any (fun _ => some (1 / 0)) ⟨[.var "a"], rfl⟩ = .error .overflow ∧
      (∃ value, Formula.evaluate .any (fun _ => some (1 / 0)) ⟨[.number 1, .operator .divide, .var "a"], rfl⟩ = .ok value ∧
        value.isFinite = true) ∧
      sheet.cells["a"]? = some read ∧ (∃ value, read.contents = .number value ∧ value.isFinite = true) ∧
      sheet.cells["b"]? = some shown ∧ shown.contents = .formula f ∧
      (∃ value, .number value ∈ f.tokens ∧ value.isFinite = true) ∧ ∃ value, shown.value = .number value ∧ value.isFinite = true := by
  have hoverflow : Formula.evaluate .any (fun _ => some (1 / 0)) ⟨[.var "a"], rfl⟩ = .error .overflow := by decide
  have hzero : Formula.evaluate .any (fun _ => some (1 / 0)) ⟨[.number 1, .operator .divide, .var "a"], rfl⟩ = .ok 0 := by decide
  have hread : (((Sheet.empty .any "v").set "a" "0").2.set "b" "=a*0").2.cells["a"]? = some ⟨.number 0, .number 0⟩ := by cbv
  have hshown : (((Sheet.empty .any "v").set "a" "0").2.set "b" "=a*0").2.cells["b"]? =
      some ⟨.formula ⟨[.var "a", .operator .multiply, .number 0], rfl⟩, .number 0⟩ := by cbv
  have h : InUse .any "v" (((Sheet.empty .any "v").set "a" "0").2.set "b" "=a*0").2 := ⟨[.set "a" "0", .set "b" "=a*0"], rfl⟩
  obtain ⟨hevaluate, hsheet⟩ := numbers_finite
  obtain ⟨hcontents, -, -⟩ := hsheet _ _ _ h "a" _ hread
  obtain ⟨-, hformula, hvalue⟩ := hsheet _ _ _ h "b" _ hshown
  have hmem : Token.number 0 ∈ [.var "a", .operator .multiply, .number 0] := by simp
  exact ⟨_, _, _, _, h, hoverflow, ⟨0, hzero, hevaluate _ _ _ _ hzero⟩, hread, ⟨0, rfl, hcontents 0 rfl⟩, hshown, rfl,
    ⟨0, hmem, hformula _ 0 rfl hmem⟩, 0, rfl, hvalue 0 rfl⟩

end Sheet

end Spreadsheet
