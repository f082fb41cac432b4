import Spreadsheet.Proofs.Sheet.History
import Spreadsheet.Proofs.Snapshot.Entries
import Spreadsheet.Proofs.Snapshot.Text
import Spreadsheet.Snapshot.File

/-!
# Saved sheets come back

A sheet is restored by typing the string forms of its cells in the order of their names, so a formula may come back before the
cells it reads. All that the entries read is among what the saved sheet depends on, so none of them is refused for a cycle, nor for
its name or its form (`Snapshot.exists_replay_ofSheet`). Every cell has one entry, so at the end all contents are back
(`Snapshot.contentsAt_of_replay_ofSheet`), and sheets of the same contents show the same and are saved as the same text.
-/

namespace Spreadsheet

variable {rules : NameRules} {version version' : String}

namespace Sheet

variable {sheet : Sheet}

/-- A name under which a reachable sheet has contents is admitted as it is. -/
theorem Sound.admit?_of_mem_written (hi : rules.Idempotent) (h : sheet.Sound rules version) {name : String} {contents : Contents}
    (hm : (name, contents) ∈ sheet.written) : rules.admit? name = some name := by
  obtain ⟨rfl, hne⟩ := mem_written.mp hm
  obtain ⟨cell, hcell, -⟩ := exists_cell_of_contentsAt hne
  exact h.admit?_of_mem_cells hi (mem_cells_of_getElem? hcell)

/-- The string form of the contents of a reachable sheet stands for these contents. -/
theorem Sound.classify?_of_mem_written (hi : rules.Idempotent) (h : sheet.Sound rules version) {name : String} {contents : Contents}
    (hm : (name, contents) ∈ sheet.written) : Contents.classify? rules contents.stringForm = .ok contents := by
  obtain ⟨typed, htyped⟩ := h.exists_classify? name
  rw [(mem_written.mp hm).1] at htyped
  exact Contents.classify?_stringForm hi htyped

/-- What is saved of a sheet are the string forms of its cells with contents. -/
theorem entries_ofSheet (sheet : Sheet) :
    (Snapshot.ofSheet sheet).cells.entries = sheet.written.map fun e => (e.1, e.2.stringForm) := by
  rw [written, List.map_map]
  rfl

end Sheet

/-- What is loaded from a file that holds a text is the sheet that the text is of. -/
theorem StoredFile.load_ofText (text : String) : (ofText text).load rules version = Sheet.ofText text rules version := by
  rw [load, text_ofText]
  rfl

namespace Snapshot

open Sheet

variable {sheet restored : Sheet}

/-- An entry of a saved sheet is the string form of one of its cells, and the name of the cell is normalized. -/
theorem entry_of_mem_ofSheet (hi : rules.Idempotent) (h : sheet.Sound rules version') {e : String × String}
    (he : e ∈ (ofSheet sheet).cells.entries) :
    ∃ contents, (e.1, contents) ∈ sheet.written ∧ contents.stringForm = e.2 ∧ rules.normalize e.1 = e.1 := by
  rw [entries_ofSheet] at he
  obtain ⟨⟨name, contents⟩, hm, rfl⟩ := List.mem_map.mp he
  exact ⟨contents, hm, rfl, (NameRules.admit?_eq_some (h.admit?_of_mem_written hi hm)).1⟩

/-- Saved cells that are typed one after the other are never refused. -/
theorem exists_replay_ofSheet (hi : rules.Idempotent) (h : sheet.Sound rules version') (version : String) :
    ∃ restored, replay (.empty rules version) (ofSheet sheet).cells.entries = .ok restored := by
  refine exists_replay (sound_empty rules version) h.acyclic (fun s t hst => absurd hst Dependencies.not_holds_empty) ?_
  intro e he
  obtain ⟨contents, hm, hform, hnormal⟩ := entry_of_mem_ofSheet hi h he
  refine ⟨contents, ?_, ?_, fun s hs => ?_⟩
  · rw [hnormal]
    exact h.admit?_of_mem_written hi hm
  · rw [← hform]
    exact h.classify?_of_mem_written hi hm
  · rw [hnormal, h.holds_iff, (mem_written.mp hm).1]
    exact hs

/-- Saved cells that are typed one after the other put all contents back. -/
theorem contentsAt_of_replay_ofSheet (hi : rules.Idempotent) (h : sheet.Sound rules version')
    (hok : replay (.empty rules version) (ofSheet sheet).cells.entries = .ok restored) (t : String) :
    restored.contentsAt t = sheet.contentsAt t := by
  by_cases hempty : (sheet.contentsAt t).isEmpty = true
  · -- What is not saved is empty in the saved sheet too.
    have hnone : ∀ e ∈ (ofSheet sheet).cells.entries, rules.normalize e.1 ≠ t := by
      rintro e he rfl
      obtain ⟨contents, hm, -, hnormal⟩ := entry_of_mem_ofSheet hi h he
      obtain ⟨hcontents, hne⟩ := mem_written.mp hm
      rw [hnormal, hcontents, hne] at hempty
      cases hempty
    rw [contentsAt_replay_of_forall_ne (sound_empty rules version) hok hnone, Contents.isEmpty_iff.mp hempty]
    simp [Sheet.empty, contentsAt, Cell.empty]
  · have hm : (t, sheet.contentsAt t) ∈ sheet.written := mem_written.mpr ⟨rfl, by simpa using hempty⟩
    have he : (t, (sheet.contentsAt t).stringForm) ∈ (ofSheet sheet).cells.entries := by
      rw [entries_ofSheet]
      exact List.mem_map_of_mem hm
    have hnormal : ∀ e ∈ (ofSheet sheet).cells.entries, rules.normalize e.1 = e.1 := by
      intro e he
      obtain ⟨-, -, -, hnormal⟩ := entry_of_mem_ofSheet hi h he
      exact hnormal
    have hdistinct : ((ofSheet sheet).cells.entries.map fun e => rules.normalize e.1).Nodup := by
      rw [List.map_congr_left hnormal]
      exact (ofSheet sheet).cells.distinct
    have hform := classify?_of_mem (sound_empty rules version) hok hdistinct he
    rw [h.classify?_of_mem_written hi hm, hnormal _ he] at hform
    exact (Except.ok.inj hform).symm

end Snapshot

namespace Sheet

variable {sheet : Sheet}

/-- The text of a reachable sheet is restored as a sheet of the same contents that counts as saved. -/
theorem exists_restored (hi : rules.Idempotent) (h : Reachable rules version sheet) :
    ∃ restored, Sheet.ofText sheet.text rules version = .ok restored.markSaved ∧ Reachable rules version restored ∧
      ∀ t, restored.contentsAt t = sheet.contentsAt t := by
  obtain ⟨restored, hreplay⟩ := Snapshot.exists_replay_ofSheet hi h.sound version
  refine ⟨restored, ?_, Snapshot.reachable_of_replay Reachable.empty hreplay,
    Snapshot.contentsAt_of_replay_ofSheet hi h.sound hreplay⟩
  have hversion : (Snapshot.ofSheet sheet).version = version := h.sound.version_eq
  rw [Sheet.ofText, Sheet.text, Snapshot.ofText?_text]
  change (Snapshot.ofSheet sheet).restore rules version = _
  rw [Snapshot.restore_eq_ok_iff]
  exact ⟨hversion, restored, hreplay, rfl⟩

/-- A sheet that is written as text and read under the same rules and version comes back: with the same names that have contents,
the same contents, values and dependents under every name, the same version, and as unchanged; and its text is the same text again.
A sheet that is saved to a file and loaded from it comes back as the same. -/
theorem text_round_trip (hi : rules.Idempotent) (h : Reachable rules version sheet) :
    ∃ restored, Sheet.ofText sheet.text rules version = .ok restored ∧
      restored.nonempty.map Prod.fst = sheet.nonempty.map Prod.fst ∧
      (∀ name, restored.contents name = sheet.contents name ∧ restored.value name = sheet.value name ∧
        restored.directDependents name = sheet.directDependents name) ∧
      restored.version = sheet.version ∧ restored.changed = false ∧ restored.text = sheet.text ∧
      ∃ file, (sheet.save false).1 = .ok file ∧ file.load rules version = .ok restored := by
  obtain ⟨restored, hok, hreach, hc⟩ := exists_restored hi h
  have hwritten : restored.written = sheet.written := written_eq_of_contentsAt hc
  have hversion : restored.version = sheet.version := by rw [hreach.sound.version_eq, h.sound.version_eq]
  have hshows := hreach.shows_eq hi h hc
  refine ⟨restored.markSaved, hok, ?_, hshows, hversion, rfl, ?_, ?_⟩
  · have hnames : ∀ sheet : Sheet, sheet.nonempty.map Prod.fst = sheet.written.map Prod.fst := by
      intro sheet
      rw [written, List.map_map]
      rfl
    change restored.nonempty.map Prod.fst = _
    rw [hnames, hnames, hwritten]
  · have hsnapshot : Snapshot.ofSheet restored = Snapshot.ofSheet sheet := by
      have hcells : (Snapshot.ofSheet restored).cells = (Snapshot.ofSheet sheet).cells := by
        refine SavedCells.ext ?_
        rw [entries_ofSheet, entries_ofSheet, hwritten]
      calc Snapshot.ofSheet restored = ⟨(Snapshot.ofSheet restored).cells, restored.version⟩ := rfl
        _ = ⟨(Snapshot.ofSheet sheet).cells, sheet.version⟩ := by rw [hcells, hversion]
    exact congrArg Snapshot.text hsnapshot
  · refine ⟨StoredFile.ofText sheet.text, rfl, ?_⟩
    rw [StoredFile.load_ofText]
    exact hok

set_option maxRecDepth 10000 in
/-- A sum and a formula of a missing cell are saved together with the number that the sum adds to itself. The sum comes back before the
number, and shows the same once that is there too; the other formula shows the same error. -/
theorem text_round_trip_forwardReference :
    ∃ sheet restored : Sheet, NameRules.any.Idempotent ∧ Reachable .any "v" sheet ∧
      sheet.written.map Prod.fst = ["b", "c", "d"] ∧ Sheet.ofText sheet.text .any "v" = .ok restored ∧
      restored.value "b" = .ok (.number 4) ∧ restored.value "d" = .ok (.error (.undefinedVariable "e")) ∧
      (restored.directDependents "c").map Std.ExtTreeSet.toList = .ok ["b"] := by
  have hi := NameRules.any_idempotent
  -- The sheet before the number is typed is evaluated, the rest follows from what a call does.
  obtain ⟨part, hpart, hb, hd, he, hnames, hreads⟩ : ∃ part : Sheet, Reachable .any "v" part ∧
      part.contentsAt "b" = .formula ⟨[.var "c", .operator .add, .var "c"], rfl⟩ ∧ part.contentsAt "d" = .formula ⟨[.var "e"], rfl⟩ ∧
      part.contentsAt "e" = .empty ∧ (∀ value, (part.write "c" (.number value)).written.map Prod.fst = ["b", "c", "d"]) ∧
      ((part.relink "c" ∅).dependencies.dependentsOf "c").toList = ["b"] := by
    refine ⟨_, ((Reachable.empty.set "c" "x").set "d" "=e").set "b" "=c+c", ?_, ?_, ?_, fun value => ?_, ?_⟩
    · cbv
    · cbv
    · cbv
    · cbv
    · cbv
  have hadmitted : ∀ name ∈ ["b", "c", "d"], NameRules.any.admit? name = some name := by decide
  have hname := hadmitted "c" (by decide)
  have htyped : Contents.classify? .any "2" = .ok (.number 2) := Contents.classify?_of_readFinite? (by simp) (by decide +kernel)
  have h := hpart.set "c" "2"
  have hcontents := hpart.sound.contentsAt_set_of_reads_eq hname htyped rfl
  have hnumber : (part.set "c" "2").2.valueAt "c" = .number 2 := h.valueAt_number hi (by rw [hcontents, if_pos rfl])
  have hsum : (part.set "c" "2").2.valueAt "b" = .number 4 := by
    rw [h.valueAt_formula hi ((hcontents "b").trans hb) (by simp [Formula.mem_names]) hnumber]
    decide +kernel
  have hmissing : (part.set "c" "2").2.valueAt "d" = .error (.undefinedVariable "e") := by
    have hnothing : (part.set "c" "2").2.valueAt "e" = .empty := by
      rw [h.current hi "e", hcontents "e", if_neg (by decide), he]
      rfl
    rw [h.valueAt_formula hi ((hcontents "d").trans hd) (by simp [Formula.mem_names]) hnothing]
    decide +kernel
  have hwritten : (part.set "c" "2").2.written = (part.write "c" (.number 2)).written :=
    written_eq_of_contentsAt fun t => (hcontents t).trans (contentsAt_write part "c" _ t).symm
  have hdependencies : (part.set "c" "2").2.dependencies = (part.relink "c" ∅).dependencies := by
    obtain ⟨order, horder⟩ := hpart.sound.exists_order_of_reads_eq (rfl : (Contents.number 2).reads = ∅) "c"
    rw [hpart.sound.set_eq hname htyped horder, recalculate_dependencies]
    rfl
  obtain ⟨restored, hok, -, hsame, -⟩ := text_round_trip hi h
  refine ⟨_, restored, hi, h, ?_, hok, ?_, ?_, ?_⟩
  · rw [hwritten, hnames]
  · rw [(hsame "b").2.1, value, h.sound.resolve_eq (hadmitted "b" (by decide)), Except.map, hsum]
  · rw [(hsame "d").2.1, value, h.sound.resolve_eq (hadmitted "d" (by decide)), Except.map, hmissing]
  · rw [(hsame "c").2.2, directDependents, h.sound.resolve_eq hname, Except.map, Except.map, hdependencies, hreads]

end Sheet

end Spreadsheet
