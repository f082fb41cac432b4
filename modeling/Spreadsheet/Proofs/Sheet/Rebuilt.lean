import Spreadsheet.Proofs.Sheet.Contents
import Spreadsheet.Proofs.Sheet.Request

/-!
# The dependencies are those of the formulas

The dependencies of a sheet are changed one cell at a time, before the cell is written, and put back if they close a cycle. After any
requests they are nonetheless what one gets by going through the cells once and linking each to what it reads (`Sheet.rebuilt`),
down to the count of pairs and the names that are listed. Nothing depends on itself, although only what depends on the cell that
changes is ever looked at. And all names are well formed and accepted, those of cells as well as those that formulas read, which
need not have cells (`Sheet.dependencies_match_formulas`).
-/

namespace Spreadsheet

namespace Dependencies

/-- A name is listed, on whichever side: as one that is read or that reads, or among those of another name. -/
def Mentions (g : Dependencies) (name : String) : Prop :=
  name ∈ g.dependents ∨ name ∈ g.dependees ∨ (∃ s, name ∈ g.dependentsOf s) ∨ ∃ t, name ∈ g.dependeesOf t

/-- A name that is listed is in a pair. -/
theorem Consistent.mentions_iff {g : Dependencies} (h : g.Consistent) {name : String} :
    g.Mentions name ↔ (∃ t, g.Holds name t) ∨ ∃ s, g.Holds s name := by
  have hdependents : name ∈ g.dependents ↔ ∃ t, g.Holds name t := h.dependents_pruned.mem_iff
  have hdependees : (∃ t, name ∈ g.dependeesOf t) ↔ ∃ t, g.Holds name t := exists_congr fun t => h.mem_dependeesOf
  rw [Mentions, hdependents, h.mem_dependees, hdependees]
  constructor
  · rintro (hs | ht | ht | hs)
    · exact Or.inl hs
    · exact Or.inr ht
    · exact Or.inr ht
    · exact Or.inl hs
  · rintro (hs | ht)
    · exact Or.inl hs
    · exact Or.inr (Or.inl ht)

end Dependencies

namespace Sheet

/-- The dependencies with a cell linked to what its contents read. -/
def link (g : Dependencies) (entry : String × Cell) : Dependencies :=
  g.replaceDependees entry.1 entry.2.contents.reads.toList

/-- The dependencies that the formulas of a sheet call for: its cells linked one after the other. -/
def rebuilt (sheet : Sheet) : Dependencies := sheet.cells.toList.foldl link .empty

variable {rules : NameRules} {version : String} {sheet : Sheet}

theorem consistent_foldl_link {g : Dependencies} (hg : g.Consistent) (entries : List (String × Cell)) :
    (entries.foldl link g).Consistent := by
  induction entries generalizing g with
  | nil => exact hg
  | cons entry entries ih => exact ih (hg.replaceDependees entry.1 _)

/-- Cells of different names that are linked one after the other depend on what they read, and other names on what they did. -/
theorem holds_foldl_link {g : Dependencies} (hg : g.Consistent) {entries : List (String × Cell)}
    (hn : (entries.map Prod.fst).Nodup) {s t : String} :
    (entries.foldl link g).Holds s t ↔
      (∃ cell, (t, cell) ∈ entries ∧ s ∈ cell.contents.reads) ∨ t ∉ entries.map Prod.fst ∧ g.Holds s t := by
  induction entries generalizing g with
  | nil => simp
  | cons entry entries ih =>
    obtain ⟨name, cell⟩ := entry
    obtain ⟨hnew, hn⟩ := List.nodup_cons.mp hn
    have hlink : (link g (name, cell)).Consistent := hg.replaceDependees name _
    rw [List.foldl_cons, ih hlink hn, link, hg.holds_replaceDependees, Std.ExtTreeSet.mem_toList]
    by_cases ht : t = name
    · subst ht
      have hnew' : t ∉ entries.map Prod.fst := hnew
      have hnone : ∀ cell', (t, cell') ∉ entries := fun cell' hmem => hnew' (List.mem_map.mpr ⟨_, hmem, rfl⟩)
      simp [hnone, hnew']
    · simp [ht]

/-- The dependencies of a sound sheet are those that its formulas call for. -/
theorem Sound.dependencies_eq_rebuilt (h : sheet.Sound rules version) : sheet.dependencies = sheet.rebuilt := by
  have hnodup : (sheet.cells.toList.map Prod.fst).Nodup := by
    rw [Std.ExtTreeMap.map_fst_toList_eq_keys]
    exact Std.ExtTreeMap.nodup_keys
  refine h.consistent.ext (consistent_foldl_link Dependencies.consistent_empty _) fun s t => ?_
  rw [rebuilt, holds_foldl_link Dependencies.consistent_empty hnodup, h.holds_iff, contentsAt]
  simp only [Std.ExtTreeMap.mem_toList_iff_getElem?_eq_some, Dependencies.not_holds_empty, and_false, or_false]
  cases sheet.cells[t]? with
  | none => simp [Cell.empty, Contents.empty, Contents.reads]
  | some cell => simp

/-- A cell has what it reads among its dependees, and a name without a formula has none. -/
theorem Sound.holds_iff_formula (h : sheet.Sound rules version) {s t : String} :
    sheet.dependencies.Holds s t ↔ ∃ cell f, sheet.cells[t]? = some cell ∧ cell.contents = .formula f ∧ s ∈ f.names := by
  rw [h.holds_iff, Contents.mem_reads, contentsAt]
  cases sheet.cells[t]? with
  | none => simp [Cell.empty, Contents.empty]
  | some cell => simp

/-- A name that a cell is stored under is admitted. -/
theorem Sound.admits_of_mem_cells (h : sheet.Sound rules version) {name : String} (hn : name ∈ sheet.cells) :
    rules.admits name = true := by
  obtain ⟨given, hgiven⟩ := h.named name hn
  exact (NameRules.admit?_eq_some hgiven).2

/-- A name that a formula of a sheet reads is admitted. -/
theorem Sound.admits_of_mem_names (h : sheet.Sound rules version) {name t : String} {cell : Cell} {f : Formula}
    (hc : sheet.cells[t]? = some cell) (hf : cell.contents = .formula f) (hn : name ∈ f.names) : rules.admits name = true := by
  obtain ⟨typed, htyped⟩ := h.classified t cell hc
  rw [hf] at htyped
  obtain ⟨ts, hts⟩ := Contents.exists_ofTokens?_of_classify? htyped
  exact Formula.admits_of_mem_tokens hts (Formula.mem_names.mp hn)

/-- In a sheet in use a name depends on another exactly if a formula is stored under it that has the other among its variables. So
the dependencies are those that would be made anew from the formulas; no name depends on itself, by however many steps; and every
name of a cell and every name among the dependencies is well formed and accepted by the rules. -/
theorem dependencies_match_formulas (h : InUse rules version sheet) :
    (∀ s t, sheet.dependencies.Holds s t ↔
      ∃ cell f, sheet.cells[t]? = some cell ∧ cell.contents = .formula f ∧ s ∈ f.names) ∧
    sheet.dependencies = sheet.rebuilt ∧
    (∀ name, ¬sheet.dependencies.Cyclic name) ∧
    ∀ name, name ∈ sheet.cells ∨ sheet.dependencies.Mentions name → isName name = true ∧ rules.accepts name = true := by
  have hs := h.sound
  refine ⟨fun s t => hs.holds_iff_formula, hs.dependencies_eq_rebuilt, Dependencies.not_cyclic_of_wellFounded hs.acyclic, ?_⟩
  intro name hname
  rw [← Bool.and_eq_true]
  change rules.admits name = true
  rw [hs.consistent.mentions_iff] at hname
  rcases hname with hcell | ⟨t, ht⟩ | ⟨s, hs'⟩
  · exact hs.admits_of_mem_cells hcell
  · obtain ⟨cell, f, hc, hf, hn⟩ := hs.holds_iff_formula.mp ht
    exact hs.admits_of_mem_names hc hf hn
  · obtain ⟨cell, f, hc, -, -⟩ := hs.holds_iff_formula.mp hs'
    exact hs.admits_of_mem_cells (mem_cells_of_getElem? hc)

set_option maxRecDepth 10000 in
/-- Under rules that put an `x` before every name, also before one that has it already, a formula reads a name that has no cell, and
the formula that would read it back is refused. -/
theorem dependencies_match_formulas_prepended :
    ∃ (rules : NameRules) (sheet : Sheet), ¬rules.Idempotent ∧ InUse rules "v" sheet ∧ "xc" ∉ sheet.cells ∧
      sheet.dependencies.Holds "xc" "xb" ∧ sheet.dependencies = sheet.rebuilt ∧ ¬sheet.dependencies.Cyclic "xb" ∧
      isName "xc" = true ∧ rules.accepts "xc" = true := by
  have hidempotent : ¬(NameRules.of (.prepend "x") .all).Idempotent := fun hi => absurd (hi "a") (by decide)
  have hformula : (((Sheet.empty (.of (.prepend "x") .all) "v").set "b" "=c").2.set "c" "=b").2.cells["xb"]?.map Cell.contents =
      some (.formula ⟨[.var "xc"], rfl⟩) := by cbv
  have hnone : (((Sheet.empty (.of (.prepend "x") .all) "v").set "b" "=c").2.set "c" "=b").2.cells["xc"]? = none := by cbv
  have h : InUse (.of (.prepend "x") .all) "v" (((Sheet.empty (.of (.prepend "x") .all) "v").set "b" "=c").2.set "c" "=b").2 :=
    ⟨[.set "b" "=c", .set "c" "=b"], rfl⟩
  obtain ⟨cell, hcell, hcontents⟩ := Option.map_eq_some_iff.mp hformula
  obtain ⟨hholds, hrebuilt, hacyclic, hnames⟩ := dependencies_match_formulas h
  have hread := (hholds "xc" "xb").mpr ⟨cell, _, hcell, hcontents, Formula.mem_names.mpr List.mem_cons_self⟩
  have hnever : "xc" ∉ (((Sheet.empty (.of (.prepend "x") .all) "v").set "b" "=c").2.set "c" "=b").2.cells := by
    rw [Std.ExtTreeMap.mem_iff_isSome_getElem?, hnone]
    exact Bool.false_ne_true
  have hmentioned := h.sound.consistent.mentions_iff.mpr (Or.inl ⟨"xb", hread⟩)
  exact ⟨_, _, hidempotent, h, hnever, hread, hrebuilt, hacyclic "xb", hnames "xc" (Or.inr hmentioned)⟩

end Sheet

end Spreadsheet
