import Spreadsheet.Sheet
import Spreadsheet.Proofs.Dependency.Walk

/-!
# The states of a sheet

A sheet is reachable if it comes from a sheet without cells by contents being set, refused calls included. What holds of every
reachable sheet apart from its values is `Sheet.Sound`: the dependencies are exactly what the formulas read, nothing depends on
itself, every name is admitted and normalized, and all contents are what some text stands for.

There are two ways for a call to end (`Sheet.Sound.set_cases`). It is refused, and the sheet is what it was: links that were put
in place are put back. Or the cell is written and everything in the order of recalculation is evaluated again. The order is a
proof that the new links close no cycle (`Sheet.Sound.acyclic_relink`).
-/

namespace Spreadsheet.Sheet

/-- A sheet that is made by setting contents, with or without success, starting from no cells. -/
inductive Reachable (rules : NameRules) (version : String) : Sheet → Prop where
  | empty : Reachable rules version (.empty rules version)
  | set {sheet : Sheet} (h : Reachable rules version sheet) (name typed : String) :
      Reachable rules version (sheet.set name typed).2

/-! ## What recalculation leaves alone -/

section

variable (sheet : Sheet) (name : String) (order : List String)

@[simp] theorem refresh_rules : (sheet.refresh name).rules = sheet.rules := by
  unfold refresh
  split <;> rfl

@[simp] theorem refresh_version : (sheet.refresh name).version = sheet.version := by
  unfold refresh
  split <;> rfl

@[simp] theorem refresh_changed : (sheet.refresh name).changed = sheet.changed := by
  unfold refresh
  split <;> rfl

@[simp] theorem refresh_dependencies : (sheet.refresh name).dependencies = sheet.dependencies := by
  unfold refresh
  split <;> rfl

/-- A cell that is evaluated again gets the value its contents call for; the others stay. -/
theorem getElem?_refresh (t : String) :
    (sheet.refresh name).cells[t]? =
      if name = t then sheet.cells[t]?.map fun cell => { cell with value := cell.contents.value sheet.rules sheet.lookup }
      else sheet.cells[t]? := by
  unfold refresh
  split
  · next hnone =>
    by_cases ht : name = t
    · rw [if_pos ht, ← ht, hnone]
      rfl
    · rw [if_neg ht]
  · next cell hsome =>
    by_cases ht : name = t
    · subst ht
      simp [hsome]
    · simp [Std.ExtTreeMap.getElem?_insert, ht]

/-- Recalculation changes values and nothing else. -/
theorem map_contents_refresh (t : String) :
    (sheet.refresh name).cells[t]?.map Cell.contents = sheet.cells[t]?.map Cell.contents := by
  rw [getElem?_refresh]
  split
  · rw [Option.map_map]
    rfl
  · rfl

@[simp] theorem recalculate_rules : (sheet.recalculate order).rules = sheet.rules := by
  induction order generalizing sheet with
  | nil => rfl
  | cons name order ih => exact (ih _).trans (refresh_rules sheet name)

@[simp] theorem recalculate_version : (sheet.recalculate order).version = sheet.version := by
  induction order generalizing sheet with
  | nil => rfl
  | cons name order ih => exact (ih _).trans (refresh_version sheet name)

@[simp] theorem recalculate_changed : (sheet.recalculate order).changed = sheet.changed := by
  induction order generalizing sheet with
  | nil => rfl
  | cons name order ih => exact (ih _).trans (refresh_changed sheet name)

@[simp] theorem recalculate_dependencies : (sheet.recalculate order).dependencies = sheet.dependencies := by
  induction order generalizing sheet with
  | nil => rfl
  | cons name order ih => exact (ih _).trans (refresh_dependencies sheet name)

theorem map_contents_recalculate (t : String) :
    (sheet.recalculate order).cells[t]?.map Cell.contents = sheet.cells[t]?.map Cell.contents := by
  induction order generalizing sheet with
  | nil => rfl
  | cons name order ih => exact (ih _).trans (map_contents_refresh sheet name t)

/-- What is not in the order keeps its cell, the value included. -/
theorem getElem?_recalculate_of_not_mem {order : List String} {t : String} (ht : t ∉ order) :
    (sheet.recalculate order).cells[t]? = sheet.cells[t]? := by
  induction order generalizing sheet with
  | nil => rfl
  | cons name order ih =>
    obtain ⟨hne, ht⟩ := not_or.mp (mt List.mem_cons.mpr ht)
    exact (ih _ ht).trans ((getElem?_refresh sheet name t).trans (if_neg fun he => hne he.symm))

/-- The contents under a name are those of its cell, or none. -/
theorem contentsAt_eq : sheet.contentsAt name = (sheet.cells[name]?.map Cell.contents).getD .empty := by
  unfold contentsAt
  cases sheet.cells[name]? <;> rfl

@[simp] theorem contentsAt_refresh (t : String) : (sheet.refresh name).contentsAt t = sheet.contentsAt t := by
  rw [contentsAt_eq, contentsAt_eq, map_contents_refresh]

@[simp] theorem contentsAt_recalculate (t : String) : (sheet.recalculate order).contentsAt t = sheet.contentsAt t := by
  rw [contentsAt_eq, contentsAt_eq, map_contents_recalculate]

end

theorem contentsAt_of_getElem? {sheet : Sheet} {name : String} {cell : Cell} (h : sheet.cells[name]? = some cell) :
    sheet.contentsAt name = cell.contents := by
  rw [contentsAt, h, Option.getD_some]

theorem mem_cells_of_getElem? {sheet : Sheet} {name : String} {cell : Cell} (h : sheet.cells[name]? = some cell) :
    name ∈ sheet.cells := by
  rw [Std.ExtTreeMap.mem_iff_isSome_getElem?, h, Option.isSome_some]

/-- Where there are contents, there is a cell that has them. -/
theorem exists_cell_of_contentsAt {sheet : Sheet} {name : String} (h : (sheet.contentsAt name).isEmpty = false) :
    ∃ cell, sheet.cells[name]? = some cell ∧ cell.contents = sheet.contentsAt name := by
  cases hcell : sheet.cells[name]? with
  | none =>
    rw [contentsAt, hcell] at h
    cases h
  | some cell => exact ⟨cell, rfl, (contentsAt_of_getElem? hcell).symm⟩

theorem valueAt_of_getElem? {sheet : Sheet} {name : String} {cell : Cell} (h : sheet.cells[name]? = some cell) :
    sheet.valueAt name = cell.value := by
  rw [valueAt, h, Option.getD_some]

@[simp] theorem contents_ofContents (contents : Contents) : (Cell.ofContents contents).contents = contents := by
  cases contents <;> rfl

/-- A written cell is a new one; the others stay. -/
theorem getElem?_write (sheet : Sheet) (name : String) (contents : Contents) (t : String) :
    (sheet.write name contents).cells[t]? = if t = name then some (.ofContents contents) else sheet.cells[t]? := by
  rw [write, Std.ExtTreeMap.getElem?_insert]
  by_cases ht : t = name
  · subst ht
    simp
  · have hne : ¬name = t := fun h => ht h.symm
    simp [ht, hne]

/-- A written cell has the new contents; the others keep theirs. -/
theorem map_contents_write (sheet : Sheet) (name : String) (contents : Contents) (t : String) :
    (sheet.write name contents).cells[t]?.map Cell.contents =
      if t = name then some contents else sheet.cells[t]?.map Cell.contents := by
  rw [getElem?_write]
  split
  · rw [Option.map_some, contents_ofContents]
  · rfl

theorem contentsAt_write (sheet : Sheet) (name : String) (contents : Contents) (t : String) :
    (sheet.write name contents).contentsAt t = if t = name then contents else sheet.contentsAt t := by
  rw [contentsAt_eq, map_contents_write, contentsAt_eq]
  split <;> rfl

/-! ## Sound sheets -/

/-- What is true of every reachable sheet, its values apart. -/
structure Sound (rules : NameRules) (version : String) (sheet : Sheet) : Prop where
  rules_eq : sheet.rules = rules
  version_eq : sheet.version = version
  consistent : sheet.dependencies.Consistent
  holds_iff : ∀ s t, sheet.dependencies.Holds s t ↔ s ∈ (sheet.contentsAt t).reads
  acyclic : WellFounded sheet.dependencies.Holds
  classified : ∀ (name : String) (cell : Cell), sheet.cells[name]? = some cell → ∃ typed, Contents.classify? rules typed = .ok cell.contents
  named : ∀ name : String, name ∈ sheet.cells → ∃ given, rules.admit? given = some name

variable {rules : NameRules} {version : String} {sheet : Sheet}

theorem sound_empty (rules : NameRules) (version : String) : (empty rules version).Sound rules version where
  rules_eq := rfl
  version_eq := rfl
  consistent := Dependencies.consistent_empty
  holds_iff s t := by
    have hreads : ((empty rules version).contentsAt t).reads = ∅ := by
      simp [empty, contentsAt, Cell.empty, Contents.empty, Contents.reads]
    rw [hreads]
    constructor
    · exact fun h => absurd h Dependencies.not_holds_empty
    · exact fun h => absurd h Std.ExtTreeSet.not_mem_empty
  acyclic := ⟨fun t => ⟨t, fun _ h => absurd h Dependencies.not_holds_empty⟩⟩
  classified name cell h := by simp [empty] at h
  named name h := by simp [empty] at h

/-- Sheets with the same contents and dependencies are sound together, whatever their values. -/
theorem Sound.transfer (h : sheet.Sound rules version) {after : Sheet} (hrules : after.rules = sheet.rules)
    (hversion : after.version = sheet.version) (hdependencies : after.dependencies = sheet.dependencies)
    (hcontents : ∀ t : String, after.cells[t]?.map Cell.contents = sheet.cells[t]?.map Cell.contents) :
    after.Sound rules version where
  rules_eq := hrules.trans h.rules_eq
  version_eq := hversion.trans h.version_eq
  consistent := by
    rw [hdependencies]
    exact h.consistent
  holds_iff s t := by
    rw [hdependencies, contentsAt_eq, hcontents, ← contentsAt_eq]
    exact h.holds_iff s t
  acyclic := by
    rw [hdependencies]
    exact h.acyclic
  classified t cell ht := by
    have hold := (hcontents t).symm
    rw [ht, Option.map_some, Option.map_eq_some_iff] at hold
    obtain ⟨old, hold, heq⟩ := hold
    rw [← heq]
    exact h.classified t old hold
  named t ht := by
    refine h.named t ?_
    rw [Std.ExtTreeMap.mem_iff_isSome_getElem?, ← Option.isSome_map (f := Cell.contents)] at ht ⊢
    rw [← hcontents t]
    exact ht

theorem Sound.refresh (h : sheet.Sound rules version) (name : String) : (sheet.refresh name).Sound rules version :=
  h.transfer (refresh_rules sheet name) (refresh_version sheet name) (refresh_dependencies sheet name)
    (map_contents_refresh sheet name)

theorem Sound.recalculate (h : sheet.Sound rules version) (order : List String) : (sheet.recalculate order).Sound rules version :=
  h.transfer (recalculate_rules sheet order) (recalculate_version sheet order) (recalculate_dependencies sheet order)
    (map_contents_recalculate sheet order)

/-- The links of a cell replaced by the same again leave a sheet as it is. -/
theorem Sound.relink_undo (h : sheet.Sound rules version) (name : String) (reads : Names) :
    (sheet.relink name reads).relink name (sheet.dependencies.dependeesOf name) = sheet := by
  simp only [relink, h.consistent.replaceDependees_undo]

theorem Sound.consistent_relink (h : sheet.Sound rules version) (name : String) (reads : Names) :
    (sheet.relink name reads).dependencies.Consistent :=
  h.consistent.replaceDependees name reads.toList

/-- What a sheet depends on once the links of a cell are replaced. -/
theorem Sound.holds_relink (h : sheet.Sound rules version) {name : String} {reads : Names} {s t : String} :
    (sheet.relink name reads).dependencies.Holds s t ↔ if t = name then s ∈ reads else sheet.dependencies.Holds s t := by
  rw [relink, h.consistent.holds_replaceDependees, Std.ExtTreeSet.mem_toList]

/-- There is an order of recalculation if the new links are part of a relation that closes no cycle. -/
theorem Sound.exists_order (h : sheet.Sound rules version) {name : String} {reads : Names} {r : String → String → Prop}
    (hr : WellFounded r) (hsub : ∀ s t, (sheet.relink name reads).dependencies.Holds s t → r s t) :
    ∃ order, (sheet.relink name reads).dependencies.recalculationOrder name = .ok order :=
  Dependencies.recalculationOrder_ok_of_wellFounded (h.consistent_relink name reads) (Subrelation.wf (hsub _ _) hr) name

theorem Sound.resolve_eq (h : sheet.Sound rules version) {name normalized : String} (hname : rules.admit? name = some normalized) :
    sheet.resolve name = .ok normalized := by
  rw [resolve, h.rules_eq, hname]

/-- What a call does that is not refused. -/
theorem Sound.set_eq (h : sheet.Sound rules version) {name typed normalized : String} {contents : Contents} {order : List String}
    (hname : rules.admit? name = some normalized) (htyped : Contents.classify? rules typed = .ok contents)
    (horder : (sheet.relink normalized contents.reads).dependencies.recalculationOrder normalized = .ok order) :
    sheet.set name typed =
      (.ok order, ((sheet.relink normalized contents.reads).write normalized contents).recalculate order) := by
  simp [set, h.resolve_eq hname, h.rules_eq, htyped, place, horder, Except.mapError]

/-- A call that is not refused puts the new contents under one name and leaves the others. -/
theorem Sound.contentsAt_set (h : sheet.Sound rules version) {name typed normalized : String} {contents : Contents}
    {order : List String} (hname : rules.admit? name = some normalized) (htyped : Contents.classify? rules typed = .ok contents)
    (horder : (sheet.relink normalized contents.reads).dependencies.recalculationOrder normalized = .ok order) (t : String) :
    (sheet.set name typed).2.contentsAt t = if t = normalized then contents else sheet.contentsAt t := by
  rw [h.set_eq hname htyped horder, contentsAt_recalculate, contentsAt_write]
  rfl

/-- Links that are only taken away close no cycle. -/
theorem Sound.exists_order_of_reads_eq (h : sheet.Sound rules version) {reads : Names} (hreads : reads = ∅) (name : String) :
    ∃ order, (sheet.relink name reads).dependencies.recalculationOrder name = .ok order := by
  refine h.exists_order h.acyclic fun s t hst => ?_
  rw [h.holds_relink, hreads] at hst
  split at hst
  · exact absurd hst Std.ExtTreeSet.not_mem_empty
  · exact hst

/-- Contents that read nothing are never refused. -/
theorem Sound.contentsAt_set_of_reads_eq (h : sheet.Sound rules version) {name typed normalized : String} {contents : Contents}
    (hname : rules.admit? name = some normalized) (htyped : Contents.classify? rules typed = .ok contents)
    (hreads : contents.reads = ∅) (t : String) :
    (sheet.set name typed).2.contentsAt t = if t = normalized then contents else sheet.contentsAt t := by
  obtain ⟨order, horder⟩ := h.exists_order_of_reads_eq hreads normalized
  exact h.contentsAt_set hname htyped horder t

/-- A call is refused and changes nothing, or the cell is written and all in the order of recalculation is evaluated again. -/
theorem Sound.set_cases (h : sheet.Sound rules version) (name typed : String) :
    (∃ e, sheet.set name typed = (.error e, sheet)) ∨
    ∃ normalized contents order, rules.admit? name = some normalized ∧ Contents.classify? rules typed = .ok contents ∧
      (sheet.relink normalized contents.reads).dependencies.recalculationOrder normalized = .ok order ∧
      sheet.set name typed = (.ok order, ((sheet.relink normalized contents.reads).write normalized contents).recalculate order) := by
  cases hname : rules.admit? name with
  | none => exact Or.inl ⟨.invalidName name, by simp [set, resolve, h.rules_eq, hname]⟩
  | some normalized =>
    cases htyped : Contents.classify? rules typed with
    | error fault => exact Or.inl ⟨.formulaFormat fault, by simp [set, h.resolve_eq hname, h.rules_eq, htyped]⟩
    | ok contents =>
      cases horder : (sheet.relink normalized contents.reads).dependencies.recalculationOrder normalized with
      | error cycle =>
        refine Or.inl ⟨.circularDependency cycle, ?_⟩
        simp [set, h.resolve_eq hname, h.rules_eq, htyped, place, horder, h.relink_undo, Except.mapError]
      | ok order => exact Or.inr ⟨normalized, contents, order, rfl, rfl, horder, h.set_eq hname htyped horder⟩

/-- New links that allow an order of recalculation close no cycle: what is not in the order reads what it read before, and the
order lists nothing before what it reads. -/
theorem Sound.acyclic_relink (h : sheet.Sound rules version) {name : String} {reads : Names} {order : List String}
    (horder : (sheet.relink name reads).dependencies.recalculationOrder name = .ok order) :
    WellFounded (sheet.relink name reads).dependencies.Holds := by
  have hconsistent := h.consistent_relink name reads
  obtain ⟨harr, -⟩ := Dependencies.arranged_of_recalculationOrder hconsistent horder
  have hmem := Dependencies.start_mem_of_recalculationOrder hconsistent horder
  refine ⟨harr.acc fun s => ?_⟩
  induction s using h.acyclic.induction with
  | _ s ih =>
    intro hs
    refine ⟨s, fun r hrs => ?_⟩
    have hne : s ≠ name := by
      rintro rfl
      exact hs hmem
    have hold : sheet.dependencies.Holds r s := by
      have hrs' := hrs
      rw [h.holds_relink, if_neg hne] at hrs'
      exact hrs'
    exact ih r hold fun hr => hs (harr.closed hr hrs)

/-- A sheet with a cell written and its links replaced is sound again if there is an order of recalculation. -/
theorem Sound.write (h : sheet.Sound rules version) {name typed normalized : String} {contents : Contents} {order : List String}
    (hname : rules.admit? name = some normalized) (htyped : Contents.classify? rules typed = .ok contents)
    (horder : (sheet.relink normalized contents.reads).dependencies.recalculationOrder normalized = .ok order) :
    Sound rules version ((sheet.relink normalized contents.reads).write normalized contents) where
  rules_eq := h.rules_eq
  version_eq := h.version_eq
  consistent := h.consistent_relink normalized contents.reads
  holds_iff s t := by
    rw [contentsAt_write]
    change (sheet.relink normalized contents.reads).dependencies.Holds s t ↔ _
    rw [h.holds_relink]
    by_cases ht : t = normalized
    · rw [if_pos ht, if_pos ht]
    · rw [if_neg ht, if_neg ht, h.holds_iff]
      rfl
  acyclic := h.acyclic_relink horder
  classified t cell ht := by
    rw [getElem?_write] at ht
    split at ht
    · cases ht
      exact ⟨typed, by rw [contents_ofContents, htyped]⟩
    · exact h.classified t cell ht
  named t ht := by
    rw [Sheet.write, Std.ExtTreeMap.mem_insert] at ht
    rcases ht with heq | hold
    · obtain rfl : normalized = t := Std.LawfulEqCmp.compare_eq_iff_eq.mp heq
      exact ⟨name, hname⟩
    · exact h.named t hold

/-- A call keeps a sheet sound. -/
theorem Sound.set (h : sheet.Sound rules version) (name typed : String) : Sound rules version (sheet.set name typed).2 := by
  rcases h.set_cases name typed with ⟨e, hset⟩ | ⟨normalized, contents, order, hname, htyped, horder, hset⟩
  · rw [hset]
    exact h
  · rw [hset]
    exact (h.write hname htyped horder).recalculate order

/-- Every reachable sheet is sound. -/
theorem Reachable.sound (h : Reachable rules version sheet) : sheet.Sound rules version := by
  induction h with
  | empty => exact sound_empty rules version
  | set _ name typed ih => exact ih.set name typed

/-- Under idempotent rules a name that a cell is stored under is admitted as it is. -/
theorem Sound.admit?_of_mem_cells (hi : rules.Idempotent) (h : sheet.Sound rules version) {name : String}
    (hn : name ∈ sheet.cells) : rules.admit? name = some name := by
  obtain ⟨given, hgiven⟩ := h.named name hn
  obtain ⟨hnormalize, hadmits⟩ := NameRules.admit?_eq_some hgiven
  have hstable : rules.normalize name = name := by
    rw [← hnormalize]
    exact hi given
  rw [NameRules.admit?, hstable, if_pos hadmits]

end Spreadsheet.Sheet
