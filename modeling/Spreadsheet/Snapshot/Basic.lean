import Spreadsheet.Sheet

/-!
# Snapshots

A snapshot is what is kept of a sheet: its version and, for every cell with contents, the text that stands for them. Values are
not kept; they come back when the texts are typed again in the order of the snapshot. The cells of a snapshot have different
names and keep the order in which they first came.
-/

namespace Spreadsheet

/-- String forms by cell names, in the order in which the names first came. -/
structure SavedCells where
  entries : List (String × String)
  distinct : (entries.map Prod.fst).Nodup

namespace SavedCells

/-- No cell. -/
def empty : SavedCells := ⟨[], by simp⟩

/-- An entry takes the place of one of the same name, and otherwise comes last. -/
def insert (cells : SavedCells) (name form : String) : SavedCells :=
  if h : name ∈ cells.entries.map Prod.fst then
    { entries := cells.entries.map fun e => if e.1 = name then (name, form) else e
      distinct := by
        have hf : ((fun e : String × String => if e.1 = name then (name, form) else e)) =
            fun e => (e.1, if e.1 = name then form else e.2) := by
          funext e
          split
          · next he => simp [he]
          · rfl
        rw [hf, List.map_map]
        exact cells.distinct }
  else
    { entries := cells.entries ++ [(name, form)]
      distinct := by
        rw [List.map_append, List.nodup_append]
        refine ⟨cells.distinct, by simp, ?_⟩
        intro a ha b hb hab
        simp only [List.map_cons, List.map_nil, List.mem_singleton] at hb
        exact h (hb ▸ hab ▸ ha) }

/-- The string form under a name. -/
def find? (cells : SavedCells) (name : String) : Option String := cells.entries.lookup name

/-- Whether two lists of cells have the same entries, in whatever order. -/
def agrees (a b : SavedCells) : Bool :=
  a.entries.length == b.entries.length && a.entries.all fun e => b.find? e.1 == some e.2

theorem ext {a b : SavedCells} (h : a.entries = b.entries) : a = b := by
  cases a
  cases b
  cases h
  rfl

end SavedCells

/-- What is kept of a sheet. -/
structure Snapshot where
  cells : SavedCells
  version : String

namespace Snapshot

/-- Snapshots are compared without regard to the order of their cells. -/
instance : BEq Snapshot := ⟨fun a b => a.cells.agrees b.cells && a.version == b.version⟩

/-- The snapshot of a sheet, its cells in the order of their names. -/
def ofSheet (sheet : Sheet) : Snapshot where
  cells :=
    { entries := sheet.nonempty.map fun entry => (entry.1, entry.2.contents.stringForm)
      distinct := by
        rw [List.map_map]
        refine List.Nodup.sublist (List.Sublist.map Prod.fst (List.filter_sublist (l := sheet.cells.toList))) ?_
        rw [Std.ExtTreeMap.map_fst_toList_eq_keys]
        exact Std.ExtTreeMap.nodup_keys }
  version := sheet.version

end Snapshot

/-- Why a snapshot cannot be written, read or restored. Of a failing file or text no more is kept than that it failed. -/
inductive RestoreError where
  | io
  | json
  | versionMismatch (expected found : String)
  | replay (cell : String) (source : SheetError)
deriving DecidableEq, Repr

/-- The message of a failed restoration. -/
def RestoreError.message? : RestoreError → Option String
  | io | json => none
  | versionMismatch expected found =>
    some ("Snapshot version " ++ Text.quoted found ++ " does not match expected version " ++ Text.quoted expected)
  | replay cell source => some ("Cannot restore cell " ++ cell ++ ": " ++ source.message)

namespace Snapshot

/-- String forms typed into a sheet one after the other, up to the first that is refused. -/
def replay (sheet : Sheet) : List (String × String) → Except RestoreError Sheet
  | [] => .ok sheet
  | (name, form) :: entries =>
    match sheet.set name form with
    | (.ok _, sheet) => replay sheet entries
    | (.error source, _) => .error (.replay name source)

/-- The sheet that a snapshot keeps, if its version is the one expected. It counts as saved. -/
def restore (snapshot : Snapshot) (rules : NameRules) (version : String) : Except RestoreError Sheet :=
  if snapshot.version = version then
    (replay (.empty rules version) snapshot.cells.entries).map Sheet.markSaved
  else .error (.versionMismatch version snapshot.version)

/-- A replay is not refused if its first entry is not and then the others are not. -/
theorem replay_cons_eq_ok_iff {sheet restored : Sheet} {name form : String} {entries : List (String × String)} :
    replay sheet ((name, form) :: entries) = .ok restored ↔
      (∃ order, (sheet.set name form).1 = .ok order) ∧ replay (sheet.set name form).2 entries = .ok restored := by
  rw [replay]
  split <;> simp_all

/-- What typing a text keeps, a replay keeps. -/
theorem replay_preserves {p : Sheet → Prop} (hset : ∀ sheet name typed, p sheet → p (sheet.set name typed).2)
    {part restored : Sheet} {entries : List (String × String)} (h : p part) (hok : replay part entries = .ok restored) :
    p restored := by
  induction entries generalizing part with
  | nil =>
    cases hok
    exact h
  | cons e entries ih => exact ih (hset part e.1 e.2 h) (replay_cons_eq_ok_iff.mp hok).2

/-- What is restored is what is replayed, as a saved sheet. -/
theorem restore_eq_ok_iff {snapshot : Snapshot} {rules : NameRules} {version : String} {sheet : Sheet} :
    snapshot.restore rules version = .ok sheet ↔
      snapshot.version = version ∧
        ∃ replayed, replay (.empty rules version) snapshot.cells.entries = .ok replayed ∧ replayed.markSaved = sheet := by
  unfold restore
  split
  · next hv =>
    cases replay (.empty rules version) snapshot.cells.entries <;> simp [hv, Except.map]
  · next hv => simp [hv]

end Snapshot

end Spreadsheet
