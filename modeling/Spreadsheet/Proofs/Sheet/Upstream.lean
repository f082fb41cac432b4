import Spreadsheet.Proofs.Sheet.Request

/-!
# Numbers come from numbers

A formula has a number only if it has found one for each of its variables. In a sheet in use what it finds is what the cells show
now, so a formula that shows a number reads cells that show numbers (`Sheet.InUse.exists_number_of_reads`), and so back along every
chain of formulas. Where there is no number, be it a text, an error or no cell at all, every formula downstream shows an error.

The rules have to be idempotent: under others a formula may find its number under a name that it does not read.
-/

namespace Spreadsheet

namespace Sheet

variable {rules : NameRules} {version : String} {sheet : Sheet}

/-- A name is upstream of another if the formula there has it for a variable, or a variable that it is upstream of. -/
def Upstream (sheet : Sheet) : String → String → Prop := Relation.TransGen fun s t => s ∈ (sheet.contentsAt t).reads

/-- Only a cell shows a number. -/
theorem exists_cell_of_valueAt {name : String} {x : Float} (h : sheet.valueAt name = .number x) :
    ∃ cell, sheet.cells[name]? = some cell ∧ cell.value = .number x := by
  rw [valueAt] at h
  cases hc : sheet.cells[name]? with
  | none =>
    rw [hc] at h
    cases h
  | some cell =>
    rw [hc] at h
    exact ⟨cell, rfl, h⟩

/-- What a formula reads shows a number if the formula does. -/
theorem InUse.exists_number_of_reads (hi : rules.Idempotent) (h : InUse rules version sheet) {s t : String}
    (hreads : s ∈ (sheet.contentsAt t).reads) {x : Float} (hx : sheet.valueAt t = .number x) :
    ∃ y, sheet.valueAt s = .number y := by
  obtain ⟨typed, htyped⟩ := h.sound.exists_classify? t
  obtain ⟨f, hf, hs⟩ := Contents.mem_reads.mp hreads
  rw [h.current hi t, hf, Contents.value, h.sound.rules_eq] at hx
  obtain ⟨y, hy⟩ : ∃ y, sheet.lookup (rules.normalize s) = some y := by
    cases hv : f.evaluate rules sheet.lookup with
    | ok value => exact Formula.exists_lookup_of_evaluate hv hs
    | error e =>
      rw [hv] at hx
      cases hx
  rw [Contents.normalize_of_mem_reads hi htyped hreads, lookup_eq] at hy
  exact ⟨y, Value.number?_eq_some_iff.mp hy⟩

/-- Everything upstream of a number shows a number. -/
theorem InUse.exists_number_of_upstream (hi : rules.Idempotent) (h : InUse rules version sheet) {s t : String}
    (hup : sheet.Upstream s t) {x : Float} (hx : sheet.valueAt t = .number x) : ∃ y, sheet.valueAt s = .number y := by
  induction hup generalizing x with
  | single hreads => exact h.exists_number_of_reads hi hreads hx
  | tail _ hreads ih =>
    obtain ⟨y, hy⟩ := h.exists_number_of_reads hi hreads hx
    exact ih hy

/-- A formula of a sheet in use shows a number or an error. -/
theorem InUse.formula_shows (hi : rules.Idempotent) (h : InUse rules version sheet) {name : String} {f : Formula}
    (hf : sheet.contentsAt name = .formula f) : (∃ x, sheet.valueAt name = .number x) ∨ ∃ e, sheet.valueAt name = .error e := by
  rw [h.current hi name, hf, Contents.value]
  cases f.evaluate sheet.rules sheet.lookup with
  | ok x => exact Or.inl ⟨x, rfl⟩
  | error e => exact Or.inr ⟨e, rfl⟩

/-- In a sheet in use, under idempotent rules, every name upstream of a formula that shows a number is that of a cell that shows a
number. So what has no number, be it that its cell shows a text, nothing or an error, or that it has no cell, makes every formula
downstream show an error. -/
theorem numbers_from_numbers (hi : rules.Idempotent) (h : InUse rules version sheet) {name : String} {cell : Cell} {f : Formula}
    (hc : sheet.cells[name]? = some cell) (hf : cell.contents = .formula f) :
    (∀ x, cell.value = .number x → ∀ source, sheet.Upstream source name →
      ∃ origin y, sheet.cells[source]? = some origin ∧ origin.value = .number y) ∧
    ∀ source, sheet.Upstream source name → (∀ origin y, sheet.cells[source]? = some origin → origin.value ≠ .number y) →
      ∃ e, cell.value = .error e := by
  have hvalue : sheet.valueAt name = cell.value := valueAt_of_getElem? hc
  have hcontents : sheet.contentsAt name = .formula f := (contentsAt_of_getElem? hc).trans hf
  have hnumbers : ∀ x, cell.value = .number x → ∀ source, sheet.Upstream source name →
      ∃ origin y, sheet.cells[source]? = some origin ∧ origin.value = .number y := by
    intro x hx source hup
    obtain ⟨y, hy⟩ := h.exists_number_of_upstream hi hup (hvalue.trans hx)
    obtain ⟨origin, horigin, hshown⟩ := exists_cell_of_valueAt hy
    exact ⟨origin, y, horigin, hshown⟩
  refine ⟨hnumbers, fun source hup hnone => ?_⟩
  rcases h.formula_shows hi hcontents with ⟨x, hx⟩ | ⟨e, he⟩
  · obtain ⟨origin, y, horigin, hshown⟩ := hnumbers x (hvalue.symm.trans hx) source hup
    exact absurd hshown (hnone origin y horigin)
  · exact ⟨e, hvalue.symm.trans he⟩

set_option maxRecDepth 10000 in
/-- A formula reads a formula that reads a cell that is missing, and the first shows an error. Once the missing cell holds a number, the
first shows a number, and so does all that is upstream of it. -/
theorem numbers_from_numbers_chain :
    ∃ (bare full : Sheet) (cell cell' : Cell) (f : Formula), NameRules.any.Idempotent ∧ InUse .any "v" bare ∧
      bare.cells["c"]? = some cell ∧ cell.contents = .formula f ∧ bare.Upstream "a" "c" ∧ bare.cells["a"]? = none ∧
      (∃ e, cell.value = .error e) ∧
      InUse .any "v" full ∧ full.cells["c"]? = some cell' ∧ cell'.contents = .formula f ∧ full.Upstream "a" "c" ∧
      cell'.value = .number 0 ∧ ∃ origin y, full.cells["a"]? = some origin ∧ origin.value = .number y := by
  have hmissing : (((Sheet.empty .any "v").set "b" "=a").2.set "c" "=b").2.cells["a"]? = none := by cbv
  have hb : (((Sheet.empty .any "v").set "b" "=a").2.set "c" "=b").2.cells["b"]?.map Cell.contents =
      some (.formula ⟨[.var "a"], rfl⟩) := by cbv
  have hc : (((Sheet.empty .any "v").set "b" "=a").2.set "c" "=b").2.cells["c"]?.map Cell.contents =
      some (.formula ⟨[.var "b"], rfl⟩) := by cbv
  have hb' : ((((Sheet.empty .any "v").set "b" "=a").2.set "c" "=b").2.set "a" "0").2.cells["b"]?.map Cell.contents =
      some (.formula ⟨[.var "a"], rfl⟩) := by cbv
  have hc' : ((((Sheet.empty .any "v").set "b" "=a").2.set "c" "=b").2.set "a" "0").2.cells["c"]? =
      some ⟨.formula ⟨[.var "b"], rfl⟩, .number 0⟩ := by cbv
  have hbare : InUse .any "v" (((Sheet.empty .any "v").set "b" "=a").2.set "c" "=b").2 := ⟨[.set "b" "=a", .set "c" "=b"], rfl⟩
  have hfull : InUse .any "v" ((((Sheet.empty .any "v").set "b" "=a").2.set "c" "=b").2.set "a" "0").2 :=
    hbare.perform (.set "a" "0")
  revert hmissing hb hc hb' hc' hbare hfull
  generalize ((((Sheet.empty .any "v").set "b" "=a").2.set "c" "=b").2.set "a" "0").2 = full
  generalize (((Sheet.empty .any "v").set "b" "=a").2.set "c" "=b").2 = bare
  intro hmissing hb hc hb' hc' hbare hfull
  -- In both sheets the formulas are the same, and so is what they read.
  have hchain : ∀ sheet : Sheet, sheet.cells["b"]?.map Cell.contents = some (.formula ⟨[.var "a"], rfl⟩) →
      sheet.cells["c"]?.map Cell.contents = some (.formula ⟨[.var "b"], rfl⟩) → sheet.Upstream "a" "c" := by
    intro sheet hb hc
    refine .tail (.single (?_ : "a" ∈ (sheet.contentsAt "b").reads)) (?_ : "b" ∈ (sheet.contentsAt "c").reads)
    · rw [contentsAt_eq, hb]
      exact Formula.mem_names.mpr List.mem_cons_self
    · rw [contentsAt_eq, hc]
      exact Formula.mem_names.mpr List.mem_cons_self
  have hup : bare.Upstream "a" "c" := hchain bare hb hc
  have hup' : full.Upstream "a" "c" := hchain full hb' (by rw [hc', Option.map_some])
  obtain ⟨cell, hcell, hf⟩ := Option.map_eq_some_iff.mp hc
  have herror := (numbers_from_numbers NameRules.any_idempotent hbare hcell hf).2 "a" hup fun origin y horigin =>
    absurd (hmissing.symm.trans horigin) (by simp)
  have hnumber := (numbers_from_numbers NameRules.any_idempotent hfull hc' rfl).1 0 rfl "a" hup'
  exact ⟨bare, full, cell, _, _, NameRules.any_idempotent, hbare, hcell, hf, hup, hmissing, herror, hfull, hc', rfl, hup', rfl,
    hnumber⟩

end Sheet

end Spreadsheet
