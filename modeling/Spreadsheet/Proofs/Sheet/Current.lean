import Spreadsheet.Proofs.Sheet.Contents
import Spreadsheet.Proofs.Sheet.State

/-!
# Values are current

The value of a cell is current if it is the one that its contents call for under the values that the sheet shows now. While the
order of recalculation is being carried out, the cells that are not current are among those still to come
(`Sheet.CurrentBut`): a cell that is evaluated again does not read itself, and what reads it comes later in the order. So at the
end of every call every value is current.

What a formula ought to read is what the cells show (`Sheet.shownNumber`), and that is what it is given (`Sheet.lookup_eq_shownNumber`).

The rules have to be idempotent here. A formula asks for its names normalized once more, and only if that changes nothing does it
ask for the names it is linked to.
-/

namespace Spreadsheet

namespace Sheet

variable {rules : NameRules} {version : String} {sheet : Sheet}

/-- The value under a name is the one that its contents call for now. -/
def Current (sheet : Sheet) (name : String) : Prop :=
  sheet.valueAt name = (sheet.contentsAt name).value sheet.rules sheet.lookup

/-- Every value is current, but for some names. -/
def CurrentBut (sheet : Sheet) (names : List String) : Prop := ∀ t, t ∉ names → sheet.Current t

/-- What formulas read under a name is the number in its value. -/
theorem lookup_eq (sheet : Sheet) (name : String) : sheet.lookup name = (sheet.valueAt name).number? := by
  rw [lookup, valueAt]
  cases sheet.cells[name]? <;> rfl

/-- The numbers that a sheet shows: under a name the number in the present value of its cell, and none if there is no cell or it shows
a text or an error. -/
def shownNumber (sheet : Sheet) : Lookup := fun name =>
  match sheet.cells[name]? with
  | some ⟨_, .number value⟩ => some value
  | _ => none

theorem shownNumber_eq (sheet : Sheet) (name : String) : sheet.shownNumber name = (sheet.valueAt name).number? := by
  rw [shownNumber, valueAt]
  rcases sheet.cells[name]? with _ | ⟨contents, value⟩
  · rfl
  · cases value <;> rfl

/-- What formulas read are the numbers that the sheet shows. -/
theorem lookup_eq_shownNumber (sheet : Sheet) : sheet.lookup = sheet.shownNumber :=
  funext fun name => (lookup_eq sheet name).trans (shownNumber_eq sheet name).symm

/-- The contents under a name are what some text stands for, also where there is no cell. -/
theorem Sound.exists_classify? (h : sheet.Sound rules version) (name : String) :
    ∃ typed, Contents.classify? rules typed = .ok (sheet.contentsAt name) := by
  rw [contentsAt]
  cases hc : sheet.cells[name]? with
  | none => exact ⟨"", rfl⟩
  | some cell => exact h.classified name cell hc

/-- A value stays current if its cell and the values that its contents read stay as they are. -/
theorem Current.transfer (hi : rules.Idempotent) {after : Sheet} {t : String} (h : sheet.Current t)
    (hsheet : sheet.Sound rules version) (hafter : after.rules = rules) (hcontents : after.contentsAt t = sheet.contentsAt t)
    (hvalue : after.valueAt t = sheet.valueAt t)
    (hreads : ∀ s ∈ (sheet.contentsAt t).reads, after.valueAt s = sheet.valueAt s) : after.Current t := by
  obtain ⟨typed, htyped⟩ := hsheet.exists_classify? t
  rw [Current, hafter, hcontents, hvalue, h, hsheet.rules_eq]
  refine Contents.value_congr hi htyped ?_
  intro s hs
  rw [lookup_eq, lookup_eq, hreads s hs]

theorem valueAt_refresh_of_ne {name t : String} (h : name ≠ t) : (sheet.refresh name).valueAt t = sheet.valueAt t := by
  rw [valueAt, valueAt, getElem?_refresh, if_neg h]

/-- A cell that is evaluated again shows what its contents call for under the values before. -/
theorem valueAt_refresh_self (sheet : Sheet) (name : String) :
    (sheet.refresh name).valueAt name = (sheet.contentsAt name).value sheet.rules sheet.lookup := by
  rw [valueAt, contentsAt, getElem?_refresh, if_pos rfl]
  cases sheet.cells[name]? <;> rfl

/-- The first name of an order becomes current when its cell is evaluated again, and what was current stays so. -/
theorem CurrentBut.refresh (hi : rules.Idempotent) {name : String} {order : List String} (h : sheet.CurrentBut (name :: order))
    (hs : sheet.Sound rules version) (harr : sheet.dependencies.Arranged (name :: order)) :
    (sheet.refresh name).CurrentBut order := by
  intro t ht
  by_cases hname : t = name
  · subst hname
    obtain ⟨typed, htyped⟩ := hs.exists_classify? t
    rw [Current, valueAt_refresh_self, contentsAt_refresh, refresh_rules, hs.rules_eq]
    refine Contents.value_congr hi htyped ?_
    intro s hread
    -- The cell does not read itself, so what it reads is not changed by its own new value.
    have hne : t ≠ s := by
      rintro rfl
      exact harr.not_holds_head List.mem_cons_self ((hs.holds_iff t t).mpr hread)
    rw [lookup_eq, lookup_eq, valueAt_refresh_of_ne hne]
  · have hcurrent : sheet.Current t := h t (by simp [hname, ht])
    refine hcurrent.transfer hi hs (by rw [refresh_rules, hs.rules_eq]) (contentsAt_refresh sheet name t)
      (valueAt_refresh_of_ne fun he => hname he.symm) fun s hread => valueAt_refresh_of_ne ?_
    rintro rfl
    exact ht (harr.2.1 t ((hs.holds_iff name t).mpr hread))

/-- At the end of an order everything is current that was, and all that is in the order. -/
theorem CurrentBut.recalculate (hi : rules.Idempotent) {order : List String} (h : sheet.CurrentBut order)
    (hs : sheet.Sound rules version) (harr : sheet.dependencies.Arranged order) : (sheet.recalculate order).CurrentBut [] := by
  induction order generalizing sheet with
  | nil => exact h
  | cons name order ih =>
    refine ih (h.refresh hi hs harr) (hs.refresh name) ?_
    rw [refresh_dependencies]
    exact harr.2.2

theorem valueAt_write_of_ne {name t : String} (h : t ≠ name) (contents : Contents) :
    (sheet.write name contents).valueAt t = sheet.valueAt t := by
  rw [valueAt, valueAt, getElem?_write, if_neg h]

/-- A cell that is written leaves current what is not in the order of recalculation: that reads no written cell. -/
theorem CurrentBut.write (hi : rules.Idempotent) (h : sheet.CurrentBut []) (hs : sheet.Sound rules version) {name : String}
    {contents : Contents} {order : List String}
    (horder : (sheet.relink name contents.reads).dependencies.recalculationOrder name = .ok order) :
    ((sheet.relink name contents.reads).write name contents).CurrentBut order := by
  have hconsistent := hs.consistent_relink name contents.reads
  obtain ⟨harr, -⟩ := Dependencies.arranged_of_recalculationOrder hconsistent horder
  have hmem := Dependencies.start_mem_of_recalculationOrder hconsistent horder
  intro t ht
  have hne : t ≠ name := by
    rintro rfl
    exact ht hmem
  have hcurrent : sheet.Current t := h t List.not_mem_nil
  refine hcurrent.transfer hi hs hs.rules_eq ?_ (valueAt_write_of_ne hne contents) fun s hread => valueAt_write_of_ne ?_ contents
  · rw [contentsAt_write, if_neg hne]
    rfl
  · rintro rfl
    refine ht (harr.closed hmem ?_)
    rw [hs.holds_relink, if_neg hne]
    exact (hs.holds_iff s t).mpr hread

/-- A call keeps every value current. -/
theorem CurrentBut.set (hi : rules.Idempotent) (h : sheet.CurrentBut []) (hs : sheet.Sound rules version) (name typed : String) :
    (sheet.set name typed).2.CurrentBut [] := by
  rcases hs.set_cases name typed with ⟨e, hset⟩ | ⟨normalized, contents, order, hname, htyped, horder, hset⟩
  · rw [hset]
    exact h
  · have hwrite := hs.write hname htyped horder
    rw [hset]
    exact (h.write hi hs horder).recalculate hi hwrite (Dependencies.arranged_of_recalculationOrder hwrite.consistent horder).1

/-- Without cells every value is current. -/
theorem currentBut_empty (rules : NameRules) (version : String) : (empty rules version).CurrentBut [] := by
  intro t _
  simp [Current, Sheet.empty, valueAt, contentsAt, Cell.empty, Contents.empty, Contents.value, Value.empty]

/-- In a reachable sheet every value is current. -/
theorem Reachable.current (hi : rules.Idempotent) (h : Reachable rules version sheet) (name : String) : sheet.Current name := by
  have hall : sheet.CurrentBut [] := by
    induction h with
    | empty => exact currentBut_empty rules version
    | set hr name typed ih => exact ih.set hi hr.sound name typed
  exact hall name List.not_mem_nil

theorem Reachable.valueAt_number (hi : rules.Idempotent) (h : Reachable rules version sheet) {name : String} {value : Float}
    (hc : sheet.contentsAt name = .number value) : sheet.valueAt name = .number value := by
  rw [h.current hi name, hc, Contents.value]

/-- In a reachable sheet a formula that reads one cell shows its outcome for the value of that cell. -/
theorem Reachable.valueAt_formula (hi : rules.Idempotent) (h : Reachable rules version sheet) {name s : String} {f : Formula}
    {value : Value} (hf : sheet.contentsAt name = .formula f) (hnames : ∀ t ∈ f.names, t = s) (hs : sheet.valueAt s = value) :
    sheet.valueAt name = .ofOutcome (f.evaluate rules fun _ => value.number?) := by
  obtain ⟨typed, htyped⟩ := h.sound.exists_classify? name
  rw [hf] at htyped
  have hcurrent : sheet.valueAt name = (Contents.formula f).value rules sheet.lookup := by
    rw [h.current hi name, hf, h.sound.rules_eq]
  rw [hcurrent]
  refine Contents.value_congr hi htyped fun t ht => ?_
  rw [lookup_eq, hnames t ht, hs]

/-- No call ever leaves a stale value: a text or a number shows itself, and a formula its number or its error under the numbers that
the cells show now. -/
theorem cell_value_current (hi : rules.Idempotent) (h : Reachable rules version sheet) {name : String} {cell : Cell}
    (hc : sheet.cells[name]? = some cell) :
    match cell.contents with
    | .text t => cell.value = .text t
    | .number value => cell.value = .number value
    | .formula f =>
      (∀ value, f.evaluate rules sheet.shownNumber = .ok value → cell.value = .number value) ∧
        ∀ e, f.evaluate rules sheet.shownNumber = .error e → cell.value = .error e := by
  have hcurrent : cell.value = cell.contents.value rules sheet.shownNumber := by
    have h' := h.current hi name
    rw [Current, valueAt, contentsAt, hc, h.sound.rules_eq, lookup_eq_shownNumber] at h'
    exact h'
  split
  · next t ht => rw [hcurrent, ht, Contents.value]
  · next value hv => rw [hcurrent, hv, Contents.value]
  · next f hf =>
    rw [hcurrent, hf, Contents.value]
    constructor
    · intro value hv
      rw [hv]
      rfl
    · intro e he
      rw [he]
      rfl

set_option maxRecDepth 10000 in
/-- A formula adds a cell to itself. When the number in that cell is changed by a second call, the formula shows the new sum. -/
theorem cell_value_current_changedOperand :
    ∃ (sheet : Sheet) (f : Formula) (cell cell' : Cell), NameRules.any.Idempotent ∧ Reachable .any "v" sheet ∧
      sheet.cells["b"]? = some cell ∧ cell.contents = .formula f ∧ f.evaluate .any sheet.shownNumber = .ok 2 ∧
      cell.value = .number 2 ∧ Reachable .any "v" (sheet.set "a" "2").2 ∧
      (sheet.set "a" "2").2.cells["b"]? = some cell' ∧ cell'.contents = .formula f ∧
      f.evaluate .any (sheet.set "a" "2").2.shownNumber = .ok 4 ∧ cell'.value = .number 4 := by
  obtain ⟨f, hf, hnames, hone, htwo⟩ : ∃ f : Formula, ((Sheet.empty .any "v").set "b" "=a+a").2.contentsAt "b" = .formula f ∧
      (∀ s ∈ f.names, s = "a") ∧ f.evaluate .any (fun _ => some 1) = .ok 2 ∧ f.evaluate .any (fun _ => some 2) = .ok 4 :=
    ⟨⟨[.var "a", .operator .add, .var "a"], rfl⟩, by cbv, by simp [Formula.mem_names], by decide +kernel, by decide +kernel⟩
  -- What a number in the cell leaves in the formula's cell, whatever was in the cell before.
  have hchange : ∀ (sheet : Sheet) (typed : String) (value sum : Float), Reachable .any "v" sheet →
      sheet.contentsAt "b" = .formula f → Contents.classify? .any typed = .ok (.number value) →
      f.evaluate .any (fun _ => some value) = .ok sum →
      Reachable .any "v" (sheet.set "a" typed).2 ∧ ∃ cell, (sheet.set "a" typed).2.cells["b"]? = some cell ∧
        cell.contents = .formula f ∧ f.evaluate .any (sheet.set "a" typed).2.shownNumber = .ok sum ∧ cell.value = .number sum := by
    intro sheet typed value sum h hf htyped hsum
    have hname : NameRules.any.admit? "a" = some "a" := rfl
    have hcontents := h.sound.contentsAt_set_of_reads_eq hname htyped rfl
    have hreach := h.set "a" typed
    have hb : (sheet.set "a" typed).2.contentsAt "b" = .formula f := by rw [hcontents, if_neg (by decide), hf]
    have hvalue : (sheet.set "a" typed).2.valueAt "a" = .number value :=
      hreach.valueAt_number NameRules.any_idempotent (by rw [hcontents, if_pos rfl])
    have hshown : f.evaluate .any (sheet.set "a" typed).2.shownNumber = .ok sum := by
      rw [← hsum]
      refine Formula.evaluate_congr fun s hs => ?_
      obtain rfl : s = "a" := hnames s hs
      exact (shownNumber_eq _ "a").trans (congrArg Value.number? hvalue)
    obtain ⟨cell, hcell, hformula⟩ := exists_cell_of_contentsAt (by rw [hb]; rfl)
    rw [hb] at hformula
    have hcurrent := cell_value_current NameRules.any_idempotent hreach hcell
    rw [hformula] at hcurrent
    exact ⟨hreach, cell, hcell, hformula, hshown, hcurrent.1 sum hshown⟩
  have htyped : Contents.classify? .any "1" = .ok (.number 1) := Contents.classify?_of_readFinite? (by simp) (by decide +kernel)
  have htyped' : Contents.classify? .any "2" = .ok (.number 2) := Contents.classify?_of_readFinite? (by simp) (by decide +kernel)
  obtain ⟨h, cell, hcell, hformula, hshown, hvalue⟩ := hchange _ "1" 1 2 (Reachable.empty.set "b" "=a+a") hf htyped hone
  have hkept := (contentsAt_of_getElem? hcell).trans hformula
  obtain ⟨h', cell', hcell', hformula', hshown', hvalue'⟩ := hchange _ "2" 2 4 h hkept htyped' htwo
  exact ⟨_, f, cell, cell', NameRules.any_idempotent, h, hcell, hformula, hshown, hvalue, h', hcell', hformula', hshown', hvalue'⟩

end Sheet

end Spreadsheet
