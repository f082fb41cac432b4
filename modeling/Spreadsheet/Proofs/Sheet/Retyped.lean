import Spreadsheet.Proofs.Sheet.History
import Spreadsheet.Proofs.Sheet.Request

/-!
# Contents typed again

The string form of contents that came from a text is a text for the same contents, so it can be typed into their cell again. The cell
is then linked to what it is linked to already (`Sheet.Sound.relink_reads`), so the call is not refused. All contents stay, and as
there is one way to be current, so do all values. What is left of the call is the mark that the sheet was changed
(`Sheet.Sound.set_again`).
-/

namespace Spreadsheet.Sheet

variable {rules : NameRules} {version : String} {sheet sheet' : Sheet}

attribute [ext] Sheet

/-- The links of a cell replaced by those of its contents leave a sheet as it is. -/
theorem Sound.relink_reads (h : sheet.Sound rules version) (name : String) :
    sheet.relink name (sheet.contentsAt name).reads = sheet := by
  have hdependencies : (sheet.relink name (sheet.contentsAt name).reads).dependencies = sheet.dependencies := by
    refine (h.consistent_relink name _).ext h.consistent fun s t => ?_
    rw [h.holds_relink]
    split
    · next ht => rw [ht, h.holds_iff]
    · rfl
  calc sheet.relink name (sheet.contentsAt name).reads
      = { sheet with dependencies := (sheet.relink name (sheet.contentsAt name).reads).dependencies } := rfl
    _ = sheet := by rw [hdependencies]

/-- Cells are the same if the contents and the values under all names are. -/
theorem cells_eq (hcontents : ∀ t : String, sheet.cells[t]?.map Cell.contents = sheet'.cells[t]?.map Cell.contents)
    (hvalue : ∀ t, sheet.valueAt t = sheet'.valueAt t) : sheet.cells = sheet'.cells := by
  refine Std.ExtTreeMap.ext_getElem? fun t => ?_
  have hc := hcontents t
  have hv := hvalue t
  rw [valueAt, valueAt] at hv
  cases h : sheet.cells[t]? with
  | none =>
    rw [h, Option.map_none, eq_comm, Option.map_eq_none_iff] at hc
    exact hc.symm
  | some cell =>
    rw [h, Option.map_some, eq_comm, Option.map_eq_some_iff] at hc
    obtain ⟨cell', h', hc'⟩ := hc
    rw [h, h'] at hv
    have hcell : cell = cell' := by
      cases cell
      cases cell'
      cases hc'
      cases hv
      rfl
    rw [h', hcell]

/-- A text that stands for what a cell holds already is not refused when it is typed into the cell, and changes nothing but the
mark. -/
theorem Sound.set_again (hi : rules.Idempotent) (h : sheet.Sound rules version) (hv : sheet.CurrentBut []) {given name typed : String}
    {cell : Cell} (hc : sheet.cells[name]? = some cell) (hname : rules.admit? given = some name)
    (htyped : Contents.classify? rules typed = .ok cell.contents) :
    ∃ order, sheet.set given typed = (.ok order, { sheet with changed := true }) := by
  have hcontents : sheet.contentsAt name = cell.contents := contentsAt_of_getElem? hc
  have hlinks : sheet.relink name cell.contents.reads = sheet := hcontents ▸ h.relink_reads name
  obtain ⟨order, horder⟩ := Dependencies.recalculationOrder_ok_of_wellFounded h.consistent h.acyclic name
  have hset := h.set_eq hname htyped (by rwa [hlinks])
  rw [hlinks] at hset
  have hsound := h.set given typed
  have hcurrent := hv.set hi h given typed
  rw [hset] at hsound hcurrent
  have hmap : ∀ t : String, ((sheet.write name cell.contents).recalculate order).cells[t]?.map Cell.contents =
      sheet.cells[t]?.map Cell.contents := by
    intro t
    rw [map_contents_recalculate, map_contents_write]
    split
    · next ht => rw [ht, hc, Option.map_some]
    · rfl
  have hvalue : ∀ t, ((sheet.write name cell.contents).recalculate order).valueAt t = sheet.valueAt t := by
    refine valueAt_eq hi hsound h (fun t => hcurrent t List.not_mem_nil) (fun t => hv t List.not_mem_nil) fun t => ?_
    rw [contentsAt_eq, contentsAt_eq, hmap]
  refine ⟨order, hset.trans (congrArg _ (Sheet.ext (cells_eq hmap hvalue) ?_ ?_ ?_ ?_))⟩
  · exact recalculate_dependencies _ order
  · exact recalculate_rules _ order
  · exact recalculate_version _ order
  · exact recalculate_changed _ order

/-- The string form of contents that a text stands for stands for the same contents. So in a sheet in use the string form of any cell
can be typed into it again: the call is not refused, and afterwards the sheet has the same cells, with the same contents and the same
values, and the same dependencies, and is only marked as changed. -/
theorem stringForm_reproduces (hi : rules.Idempotent) :
    (∀ typed contents, Contents.classify? rules typed = .ok contents →
      Contents.classify? rules contents.stringForm = .ok contents) ∧
    ∀ version sheet, InUse rules version sheet → ∀ (name : String) (cell : Cell), sheet.cells[name]? = some cell →
      ∃ order, sheet.set name cell.contents.stringForm = (.ok order, { sheet with changed := true }) := by
  refine ⟨fun typed contents htyped => Contents.classify?_stringForm hi htyped, ?_⟩
  intro version sheet h name cell hc
  obtain ⟨typed, htyped⟩ := h.sound.classified name cell hc
  have hname := h.sound.admit?_of_mem_cells hi (mem_cells_of_getElem? hc)
  exact h.sound.set_again hi (fun t _ => h.current hi t) hc hname (Contents.classify?_stringForm hi htyped)

set_option maxRecDepth 10000 in
/-- Under rules that take `a` for `b`, a formula with blanks in it is typed again as the text without blanks and with the other name,
into a sheet that counts as saved. Negative zero keeps its sign. -/
theorem stringForm_reproduces_renamed :
    ∃ (rules : NameRules) (sheet : Sheet) (cell : Cell), rules.Idempotent ∧
      Contents.classify? rules " -0.0 " = .ok (.number (-0.0)) ∧ (Contents.number (-0.0)).stringForm = "-0" ∧
      Contents.classify? rules "-0" = .ok (.number (-0.0)) ∧
      InUse rules "v" sheet ∧ sheet.cells["d"]? = some cell ∧ cell.contents.stringForm = "=b*0" ∧ sheet.changed = false ∧
      ∃ order, sheet.set "d" "=b*0" = (.ok order, { sheet with changed := true }) := by
  have hi := NameRules.idempotent_replace "a" "b" .all
  have hnumber : Contents.classify? (.of (.replace [("a", "b")]) .all) " -0.0 " = .ok (.number (-0.0)) :=
    Contents.classify?_of_readFinite? (by simp) (by decide +kernel)
  have hform : (Contents.number (-0.0)).stringForm = "-0" := by decide +kernel
  have hcontents : (((Sheet.empty (.of (.replace [("a", "b")]) .all) "v").set "d" "= a * 0.00 ").2.markSaved).cells["d"]?.map
      Cell.contents = some (.formula ⟨[.var "b", .operator .multiply, .number 0], by decide⟩) := by cbv
  have hprinted : (Contents.formula ⟨[.var "b", .operator .multiply, .number 0], by decide⟩).stringForm = "=b*0" := by
    decide +kernel
  have h : InUse (.of (.replace [("a", "b")]) .all) "v"
      ((Sheet.empty (.of (.replace [("a", "b")]) .all) "v").set "d" "= a * 0.00 ").2.markSaved :=
    ⟨[.set "d" "= a * 0.00 ", .markSaved], rfl⟩
  obtain ⟨cell, hcell, hformula⟩ := Option.map_eq_some_iff.mp hcontents
  obtain ⟨hclassify, hset⟩ := stringForm_reproduces hi
  have hagain := hclassify _ _ hnumber
  rw [hform] at hagain
  have hkept := hset "v" _ h "d" cell hcell
  rw [hformula, hprinted] at hkept
  exact ⟨_, _, cell, hi, hnumber, hform, hagain, h, hcell, hformula ▸ hprinted, rfl, hkept⟩

end Spreadsheet.Sheet
