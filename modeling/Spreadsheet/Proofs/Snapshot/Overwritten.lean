import Spreadsheet.Proofs.Snapshot.Order

/-!
# Entries that are overwritten leave no trace

Names that differ as they are written may be the same once they are normalized, so a snapshot can have many entries for one name. Of
these the last decides what is under the name. The others put links into the sheet that later entries take away again; whether a
snapshot without them is restored is therefore a matter of the sheet at the end alone. Its dependencies are all that the last entries
read, and they close no cycle (`Snapshot.restorable_lastEntries`).
-/

namespace Spreadsheet

namespace Snapshot

open Sheet

variable {rules : NameRules} {version : String}

/-- A snapshot without the entries that a later one overwrites. -/
def reduced (rules : NameRules) (snapshot : Snapshot) : Snapshot where
  cells :=
    { entries := lastEntries rules snapshot.cells.entries
      distinct := snapshot.cells.distinct.sublist ((lastEntries_sublist rules snapshot.cells.entries).map Prod.fst) }
  version := snapshot.version

/-- A snapshot that is restored is restored as well if, of the entries for each normalized name, only the last is kept, and in whatever
order the kept ones come. Both sheets have the same names with contents, and the same contents, value and dependents under every name. -/
theorem last_entry_wins (hi : rules.Idempotent) {snapshot : Snapshot} {sheet : Sheet}
    (hok : snapshot.restore rules version = .ok sheet) (snapshot' : Snapshot)
    (hversion : snapshot'.version = (snapshot.reduced rules).version)
    (hperm : snapshot'.cells.entries.Perm (snapshot.reduced rules).cells.entries) :
    ∃ sheet', snapshot'.restore rules version = .ok sheet' ∧
      sheet'.nonempty.map Prod.fst = sheet.nonempty.map Prod.fst ∧
      ∀ name, sheet'.contents name = sheet.contents name ∧ sheet'.value name = sheet.value name ∧
        sheet'.directDependents name = sheet.directDependents name := by
  obtain ⟨hexpected, replayed, hreplay, rfl⟩ := restore_eq_ok_iff.mp hok
  have hrestorable : Restorable rules snapshot'.cells.entries := (restorable_lastEntries hreplay).perm hperm
  obtain ⟨replayed', hreplay'⟩ := hrestorable.exists_replay version
  have hlast : (lastEntries rules snapshot.cells.entries).Perm (lastEntries rules snapshot'.cells.entries) := by
    have hdistinct : (snapshot'.cells.entries.map fun e => rules.normalize e.1).Nodup :=
      (hperm.map _).nodup_iff.mpr (nodup_lastEntries rules snapshot.cells.entries)
    rw [lastEntries_eq_self hdistinct]
    exact hperm.symm
  have hcontents : ∀ t, replayed'.contentsAt t = replayed.contentsAt t :=
    contentsAt_eq_of_lastEntries (sound_empty rules version) hlast hreplay' hreplay
  have hreach := reachable_of_replay Reachable.empty hreplay
  have hreach' := reachable_of_replay Reachable.empty hreplay'
  have hshows := hreach'.shows_eq hi hreach hcontents
  refine ⟨replayed'.markSaved, restore_eq_ok_iff.mpr ⟨hversion.trans hexpected, replayed', hreplay', rfl⟩, ?_, ?_⟩
  · change replayed'.nonempty.map Prod.fst = replayed.nonempty.map Prod.fst
    rw [map_fst_nonempty, map_fst_nonempty, written_eq_of_contentsAt hcontents]
  · exact hshows

set_option maxRecDepth 10000 in
/-- Under rules that take `x` for `a`, a formula under `a` reads `b`, a number under `x` overwrites it, and then a formula under `b` reads
`a`. The last two entries are restored as well, also the other way round. -/
theorem last_entry_wins_crossed :
    ∃ (rules : NameRules) (snapshot snapshot' : Snapshot) (sheet sheet' : Sheet), rules.Idempotent ∧
      snapshot.cells.entries = [("a", "=b"), ("x", "0"), ("b", "=a")] ∧
      (snapshot.reduced rules).cells.entries = [("x", "0"), ("b", "=a")] ∧
      snapshot'.cells.entries = [("b", "=a"), ("x", "0")] ∧
      snapshot.restore rules "v" = .ok sheet ∧ snapshot'.restore rules "v" = .ok sheet' ∧
      sheet'.nonempty.map Prod.fst = ["a", "b"] ∧ sheet'.value "b" = .ok (.number 0) := by
  have hi := NameRules.idempotent_replace "x" "a" .all
  have hok : restore ⟨⟨[("a", "=b"), ("x", "0"), ("b", "=a")], by decide⟩, "v"⟩ (.of (.replace [("x", "a")]) .all) "v" =
      .ok ((((Sheet.empty (.of (.replace [("x", "a")]) .all) "v").set "a" "=b").2.set "x" "0").2.set "b" "=a").2.markSaved := by cbv
  obtain ⟨sheet', hok', hnames, hsame⟩ := last_entry_wins hi hok ⟨⟨[("b", "=a"), ("x", "0")], by decide⟩, "v"⟩ rfl (by decide)
  refine ⟨_, _, _, _, sheet', hi, rfl, by decide, rfl, hok, hok', ?_, ?_⟩
  · rw [hnames]
    cbv
  · rw [(hsame "b").2.1]
    cbv

end Snapshot

end Spreadsheet
