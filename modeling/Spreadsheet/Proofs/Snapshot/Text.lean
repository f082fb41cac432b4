import Spreadsheet.Proofs.Json.Written
import Spreadsheet.Snapshot.Text

/-!
# The text of a snapshot is read back

A written snapshot has its members once each and its cells under different names, so each member meets a state in which it is
new, and each cell comes to stand behind the ones before it. The snapshot that is read is the one that was written, the order of
its cells included.
-/

namespace Spreadsheet

open Json (Reader writeObject quote)

/-- A name that is new comes last. -/
theorem SavedCells.entries_insert_of_not_mem {cells : SavedCells} {name : String} (h : name ∉ cells.entries.map Prod.fst)
    (form : String) : (cells.insert name form).entries = cells.entries ++ [(name, form)] := by
  rw [insert, dif_neg h]

namespace Snapshot

theorem takes_form (form : String) : formReader.Takes (writeObject [("stringForm", quote form)]) form := by
  have hmembers : Reader.Accumulates formMember none [("stringForm", quote form)] (some form) :=
    ⟨some form, (Reader.takes_string form).once, rfl⟩
  have hform : ((Reader.object formMember none).filterMap id).Takes (writeObject [("stringForm", quote form)]) form :=
    (Reader.takes_object hmembers).filterMap rfl
  exact hform.orElse _

/-- Cells under different names are taken up in their order. -/
theorem accumulates_cells {before after : SavedCells} {entries : List (String × String)}
    (h : before.entries ++ entries = after.entries) :
    Reader.Accumulates (fun cells name => formReader.map (cells.insert name)) before
      (entries.map fun e => (e.1, writeObject [("stringForm", quote e.2)])) after := by
  induction entries generalizing before with
  | nil =>
    rw [List.append_nil] at h
    exact SavedCells.ext h
  | cons e entries ih =>
    have hnew : e.1 ∉ before.entries.map Prod.fst := by
      have hdistinct := after.distinct
      rw [← h, List.map_append, List.map_cons, List.nodup_append] at hdistinct
      exact fun hmem => hdistinct.2.2 e.1 hmem e.1 List.mem_cons_self rfl
    refine ⟨before.insert e.1 e.2, (takes_form e.2).map (before.insert e.1), ih ?_⟩
    rw [SavedCells.entries_insert_of_not_mem hnew, List.append_assoc]
    exact h

theorem takes_cells (cells : SavedCells) :
    cellsReader.Takes (writeObject (cells.entries.map fun e => (e.1, writeObject [("stringForm", quote e.2)]))) cells :=
  Reader.takes_object (accumulates_cells (List.nil_append cells.entries))

theorem takes_snapshot (snapshot : Snapshot) : reader.Takes snapshot.toJson snapshot := by
  have hcells : (partsMember ⟨none, none⟩ "cells").Takes
      (writeObject (snapshot.cells.entries.map fun e => (e.1, writeObject [("stringForm", quote e.2)])))
      ⟨some snapshot.cells, none⟩ := (takes_cells snapshot.cells).once.map _
  have hversion : (partsMember ⟨some snapshot.cells, none⟩ "Version").Takes (quote snapshot.version)
      ⟨some snapshot.cells, some snapshot.version⟩ := (Reader.takes_string snapshot.version).once.map _
  have hmembers : Reader.Accumulates partsMember ⟨none, none⟩
      [("cells", writeObject (snapshot.cells.entries.map fun e => (e.1, writeObject [("stringForm", quote e.2)]))),
        ("Version", quote snapshot.version)] ⟨some snapshot.cells, some snapshot.version⟩ :=
    ⟨_, hcells, _, hversion, rfl⟩
  have hobject : ((Reader.object partsMember ⟨none, none⟩).filterMap Parts.snapshot?).Takes snapshot.toJson snapshot :=
    (Reader.takes_object hmembers).filterMap rfl
  exact hobject.orElse _

/-- The text of a snapshot is read as that snapshot. -/
theorem ofText?_text (snapshot : Snapshot) : ofText? snapshot.text = some snapshot := (takes_snapshot snapshot).readAll

/-- The text of a snapshot is read without fail: the same version and the same cells in the same order, whatever characters the version,
the names and the string forms are made of. So two snapshots have the same text only if they are the same, the order of the cells
included. -/
theorem text_decoded (snapshot : Snapshot) :
    (∃ read, ofText? snapshot.text = some read ∧ read.version = snapshot.version ∧ read.cells.entries = snapshot.cells.entries) ∧
    ∀ other : Snapshot, other.text = snapshot.text ↔
      other.version = snapshot.version ∧ other.cells.entries = snapshot.cells.entries := by
  refine ⟨⟨snapshot, ofText?_text snapshot, rfl, rfl⟩, fun other => ⟨?_, ?_⟩⟩
  · intro htext
    have hread : some other = some snapshot := by rw [← ofText?_text other, htext, ofText?_text snapshot]
    cases Option.some.inj hread
    exact ⟨rfl, rfl⟩
  · rintro ⟨hversion, hentries⟩
    have hcells : other.cells = snapshot.cells := SavedCells.ext hentries
    rw [text, text, toJson, toJson, hversion, hcells]

/-- A quote, a backslash and a control character are written as escapes. -/
example : (⟨⟨[("a\"", "\\")], by decide⟩, "\n"⟩ : Snapshot).text =
    "\x7b\"cells\":\x7b\"a\\\"\":\x7b\"stringForm\":\"\\\\\"\x7d\x7d,\"Version\":\"\\n\"\x7d" := by decide

end Snapshot

end Spreadsheet
