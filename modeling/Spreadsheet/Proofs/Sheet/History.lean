import Spreadsheet.Proofs.Sheet.Current

/-!
# Sheets do not show their history

What a sheet shows is decided by its contents. The dependencies are, since they hold the pairs that formulas read
(`Sheet.Sound.dependencies_eq`), and so are the values: each is current, and dependencies close no cycle, so there is one way to
fill in the values from the cells that read nothing upwards (`Sheet.valueAt_eq`). The contents in turn are decided by the cells
that are not empty (`Sheet.written`). So sheets that were made in different ways show the same as soon as they have the same
cells with contents, and a cell that was emptied is like one that was never written.
-/

namespace Spreadsheet

namespace Sheet

variable {rules : NameRules} {version version' : String} {sheet sheet' : Sheet}

/-- The names that have contents and what these are, in the order of the names. -/
def written (sheet : Sheet) : List (String × Contents) := sheet.nonempty.map fun entry => (entry.1, entry.2.contents)

theorem mem_nonempty {name : String} {cell : Cell} :
    (name, cell) ∈ sheet.nonempty ↔ sheet.cells[name]? = some cell ∧ cell.contents.isEmpty = false := by
  rw [nonempty, List.mem_filter, Std.ExtTreeMap.mem_toList_iff_getElem?_eq_some, Bool.not_eq_true']

theorem mem_written {name : String} {contents : Contents} :
    (name, contents) ∈ sheet.written ↔ sheet.contentsAt name = contents ∧ contents.isEmpty = false := by
  rw [written, List.mem_map]
  constructor
  · rintro ⟨⟨t, cell⟩, hmem, heq⟩
    obtain ⟨hcell, hempty⟩ := mem_nonempty.mp hmem
    cases heq
    exact ⟨contentsAt_of_getElem? hcell, hempty⟩
  · rintro ⟨rfl, hempty⟩
    obtain ⟨cell, hcell, hcontents⟩ := exists_cell_of_contentsAt hempty
    rw [← hcontents] at hempty ⊢
    exact ⟨(name, cell), mem_nonempty.mpr ⟨hcell, hempty⟩, rfl⟩

/-- The cells with contents decide the contents under every name. -/
theorem contentsAt_eq_of_written (h : sheet.written = sheet'.written) (name : String) :
    sheet.contentsAt name = sheet'.contentsAt name := by
  by_cases he : (sheet.contentsAt name).isEmpty = true
  · by_cases he' : (sheet'.contentsAt name).isEmpty = true
    · rw [Contents.isEmpty_iff.mp he, Contents.isEmpty_iff.mp he']
    · have hmem : (name, sheet'.contentsAt name) ∈ sheet.written := by
        rw [h]
        exact mem_written.mpr ⟨rfl, by simpa using he'⟩
      exact (mem_written.mp hmem).1
  · have hmem : (name, sheet.contentsAt name) ∈ sheet'.written := by
      rw [← h]
      exact mem_written.mpr ⟨rfl, by simpa using he⟩
    exact (mem_written.mp hmem).1.symm

/-- The cells with contents are decided by the contents under all names. -/
theorem written_eq_of_contentsAt (hc : ∀ name, sheet.contentsAt name = sheet'.contentsAt name) :
    sheet.written = sheet'.written := by
  have hsorted : ∀ sheet : Sheet, sheet.written.Pairwise fun a b => compare a.1 b.1 = .lt := by
    intro sheet
    rw [written, List.pairwise_map, nonempty]
    exact sheet.cells.ordered_keys_toList.filter _
  have hasymm : ∀ a b : String × Contents, compare a.1 b.1 = .lt → ¬compare b.1 a.1 = .lt :=
    fun a b => Std.OrientedCmp.not_lt_of_lt
  have : Std.Irrefl fun a b : String × Contents => compare a.1 b.1 = .lt := ⟨fun a h => hasymm a a h h⟩
  have : Std.Antisymm fun a b : String × Contents => compare a.1 b.1 = .lt := ⟨fun a b h h' => absurd h' (hasymm a b h)⟩
  refine (hsorted sheet).eq_of_mem_iff (hsorted sheet') ?_
  rintro ⟨name, contents⟩
  rw [mem_written, mem_written, hc]

theorem map_fst_nonempty (sheet : Sheet) : sheet.nonempty.map Prod.fst = sheet.written.map Prod.fst := by
  rw [written, List.map_map]
  rfl

/-- Sound sheets with the same contents have the same dependencies. -/
theorem Sound.dependencies_eq (h : sheet.Sound rules version) (h' : sheet'.Sound rules version')
    (hc : ∀ name, sheet.contentsAt name = sheet'.contentsAt name) : sheet.dependencies = sheet'.dependencies := by
  refine h.consistent.ext h'.consistent ?_
  intro s t
  rw [h.holds_iff, h'.holds_iff, hc]

/-- There is one way to be current: sheets with the same contents show the same values. -/
theorem valueAt_eq (hi : rules.Idempotent) (h : sheet.Sound rules version) (h' : sheet'.Sound rules version')
    (hv : ∀ name, sheet.Current name) (hv' : ∀ name, sheet'.Current name)
    (hc : ∀ name, sheet.contentsAt name = sheet'.contentsAt name) (name : String) : sheet.valueAt name = sheet'.valueAt name := by
  induction name using h.acyclic.induction with
  | _ t ih =>
    obtain ⟨typed, htyped⟩ := h.exists_classify? t
    rw [hv t, hv' t, ← hc t, h.rules_eq, h'.rules_eq]
    refine Contents.value_congr hi htyped ?_
    intro s hs
    rw [lookup_eq, lookup_eq, ih s ((h.holds_iff s t).mpr hs)]

/-- Reachable sheets with the same contents show the same under every name. -/
theorem Reachable.shows_eq (hi : rules.Idempotent) (h : Reachable rules version sheet) (h' : Reachable rules version' sheet')
    (hc : ∀ name, sheet.contentsAt name = sheet'.contentsAt name) (name : String) :
    sheet.contents name = sheet'.contents name ∧ sheet.value name = sheet'.value name ∧
      sheet.directDependents name = sheet'.directDependents name := by
  have hv : ∀ t, sheet.valueAt t = sheet'.valueAt t :=
    valueAt_eq hi h.sound h'.sound (h.current hi) (h'.current hi) hc
  have hd : sheet.dependencies = sheet'.dependencies := h.sound.dependencies_eq h'.sound hc
  have hresolve : sheet.resolve name = sheet'.resolve name := by
    rw [resolve, resolve, h.sound.rules_eq, h'.sound.rules_eq]
  refine ⟨?_, ?_, ?_⟩
  · rw [contents, contents, hresolve, funext hc]
  · rw [value, value, hresolve, funext hv]
  · rw [directDependents, directDependents, hresolve, hd]

/-- Sheets under the same rules that have the same cells with contents cannot be told apart by the contents, the value or the
dependents of any name, however each of them was made. In particular a cell that is emptied cannot be told from one that was never
written. -/
theorem history_independent (hi : rules.Idempotent) (h : Reachable rules version sheet) (h' : Reachable rules version' sheet') :
    (sheet.written = sheet'.written → ∀ name,
      sheet.contents name = sheet'.contents name ∧ sheet.value name = sheet'.value name ∧
        sheet.directDependents name = sheet'.directDependents name) ∧
    ∀ given normalized, rules.admit? given = some normalized → normalized ∉ sheet'.cells →
      (∀ t, t ≠ normalized → sheet.contentsAt t = sheet'.contentsAt t) → ∀ name,
        (sheet.set given "").2.contents name = sheet'.contents name ∧ (sheet.set given "").2.value name = sheet'.value name ∧
          (sheet.set given "").2.directDependents name = sheet'.directDependents name := by
  refine ⟨fun hw => h.shows_eq hi h' (contentsAt_eq_of_written hw), ?_⟩
  intro given normalized hgiven hnever hothers
  refine (h.set given "").shows_eq hi h' ?_
  intro t
  have htyped : Contents.classify? rules "" = .ok .empty := rfl
  rw [h.sound.contentsAt_set_of_reads_eq hgiven htyped rfl]
  by_cases ht : t = normalized
  · subst ht
    rw [if_pos rfl, contentsAt, Std.ExtTreeMap.getElem?_eq_none hnever]
    rfl
  · rw [if_neg ht]
    exact hothers t ht

set_option maxRecDepth 10000 in
/-- A cell is written, read by another, overwritten and emptied, and a cycle is refused; nothing of this shows. Nor does it show
when a cell is emptied that was only read. -/
theorem history_independent_emptied :
    let before := ((((Sheet.empty .any "v").set "c" "x").2.set "b" "=c").2.set "c" "=b").2
    let sheet := (before.set "c" "").2
    let sheet' := ((Sheet.empty .any "w").set "b" "=c").2
    NameRules.any.Idempotent ∧ Reachable .any "v" sheet ∧ Reachable .any "w" sheet' ∧ sheet.written = sheet'.written ∧
      (sheet.contents "c" = sheet'.contents "c" ∧ sheet.value "c" = sheet'.value "c" ∧
        sheet.directDependents "c" = sheet'.directDependents "c") ∧
      "c" ∉ sheet'.cells ∧ (sheet'.set "c" "").2.directDependents "c" = sheet'.directDependents "c" := by
  have hw : (((((Sheet.empty .any "v").set "c" "x").2.set "b" "=c").2.set "c" "=b").2.set "c" "").2.written =
      ((Sheet.empty .any "w").set "b" "=c").2.written := by cbv
  have hnone : ((Sheet.empty .any "w").set "b" "=c").2.cells["c"]? = none := by cbv
  have hnever : "c" ∉ ((Sheet.empty .any "w").set "b" "=c").2.cells := by
    rw [Std.ExtTreeMap.mem_iff_isSome_getElem?, hnone]
    exact Bool.false_ne_true
  have h : Reachable .any "v" (((((Sheet.empty .any "v").set "c" "x").2.set "b" "=c").2.set "c" "=b").2.set "c" "").2 :=
    (((Reachable.empty.set "c" "x").set "b" "=c").set "c" "=b").set "c" ""
  have h' : Reachable .any "w" ((Sheet.empty .any "w").set "b" "=c").2 := Reachable.empty.set "b" "=c"
  have hsame := (history_independent NameRules.any_idempotent h h').1 hw "c"
  have hemptied := (history_independent NameRules.any_idempotent h' h').2 "c" "c" rfl hnever (fun _ _ => rfl) "c"
  exact ⟨NameRules.any_idempotent, h, h', hw, hsame, hnever, hemptied.2.2⟩

end Sheet

end Spreadsheet
