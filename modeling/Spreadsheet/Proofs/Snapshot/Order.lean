import Spreadsheet.Proofs.Sheet.History
import Spreadsheet.Proofs.Snapshot.Entries

/-!
# The order of the entries does not matter

Where each name has one entry, a snapshot is restored or not whatever the order of its entries, and what is restored is the same.
Each order goes through sheets of its own, but their dependencies are always among what the entries read. So if that closes no
cycle, no order is refused; and at the end the dependencies are all of what the entries read, so if it closes a cycle, every order
is refused at some entry (`Snapshot.exists_restore_iff`). The contents at the end are those that the entries stand for
(`Snapshot.contentsAt_eq_of_perm`), and sheets of the same contents show the same.
-/

namespace Spreadsheet

/-- A relation without cycles is well founded if only finitely many things come after others. -/
theorem wellFounded_of_acyclic {α : Type} {r : α → α → Prop} (hfinite : {b | ∃ a, r a b}.Finite)
    (hacyclic : ∀ a, ¬Relation.TransGen r a a) : WellFounded r := by
  have : Std.Irrefl (Relation.TransGen r) := ⟨hacyclic⟩
  have : IsStrictOrder α (Relation.TransGen r) := {}
  have hlater : {b | ∃ a, r a b}.WellFoundedOn (Relation.TransGen r) := hfinite.wellFoundedOn
  -- What comes after nothing needs no induction.
  have hacc : ∀ b, (∀ a, (∃ c, r c a) → r a b → Acc r a) → Acc r b := by
    intro b h
    refine ⟨b, fun a hab => ?_⟩
    by_cases ha : ∃ c, r c a
    · exact h a ha hab
    · exact ⟨a, fun c hca => absurd ⟨c, hca⟩ ha⟩
  refine ⟨fun b => hacc b fun a ha _ => ?_⟩
  exact hlater.induction ha fun c _ ih => hacc c fun d hd hdc => ih d hd (.single hdc)

namespace Snapshot

open Sheet

variable {rules : NameRules} {version : String} {entries entries' : List (String × String)}

/-- One of the entries is for a name and is a formula that has a variable. -/
def Reads (rules : NameRules) (entries : List (String × String)) (v name : String) : Prop :=
  ∃ e ∈ entries, rules.normalize e.1 = name ∧ ∃ f, Contents.classify? rules e.2 = .ok (.formula f) ∧ v ∈ f.names

/-- Entries that are fine in themselves and do not read one another in a circle. -/
structure Restorable (rules : NameRules) (entries : List (String × String)) : Prop where
  named : ∀ e ∈ entries, ∃ normalized, rules.admit? e.1 = some normalized
  classified : ∀ e ∈ entries, ∃ contents, Contents.classify? rules e.2 = .ok contents
  acyclic : ∀ name, ¬Relation.TransGen (Reads rules entries) name name

theorem finite_reads (rules : NameRules) (entries : List (String × String)) : {name | ∃ v, Reads rules entries v name}.Finite := by
  refine (entries.map fun e => rules.normalize e.1).finite_toSet.subset ?_
  rintro name ⟨v, e, he, rfl, -⟩
  exact List.mem_map.mpr ⟨e, he, rfl⟩

/-- Whether entries can be restored is not a matter of their order. -/
theorem Restorable.perm (h : Restorable rules entries) (hperm : entries'.Perm entries) : Restorable rules entries' where
  named e he := h.named e (hperm.mem_iff.mp he)
  classified e he := h.classified e (hperm.mem_iff.mp he)
  acyclic name hcycle := by
    have hreads : ∀ v t, Reads rules entries' v t → Reads rules entries v t := by
      rintro v t ⟨e, he, hread⟩
      exact ⟨e, hperm.mem_iff.mp he, hread⟩
    exact h.acyclic name (Relation.TransGen.mono hreads name name hcycle)

/-- Restorable entries are not refused. -/
theorem Restorable.exists_replay (h : Restorable rules entries) (version : String) :
    ∃ restored, replay (.empty rules version) entries = .ok restored := by
  refine Snapshot.exists_replay (sound_empty rules version) (wellFounded_of_acyclic (finite_reads rules entries) h.acyclic)
    (fun s t hst => absurd hst Dependencies.not_holds_empty) ?_
  intro e he
  obtain ⟨normalized, hname⟩ := h.named e he
  obtain ⟨contents, hform⟩ := h.classified e he
  obtain rfl : rules.normalize e.1 = normalized := (NameRules.admit?_eq_some hname).1
  refine ⟨contents, hname, hform, fun s hs => ?_⟩
  obtain ⟨f, rfl, hread⟩ := Contents.mem_reads.mp hs
  exact ⟨e, he, rfl, f, hform, hread⟩

/-- The last entries of a replay are restorable. The sheet at the end depends on all that they read. -/
theorem restorable_lastEntries {restored : Sheet} (hok : replay (.empty rules version) entries = .ok restored) :
    Restorable rules (lastEntries rules entries) := by
  have hempty := sound_empty rules version
  have hsound := sound_of_replay hempty hok
  have haccepted : ∀ e ∈ lastEntries rules entries,
      rules.admit? e.1 = some (rules.normalize e.1) ∧ ∃ contents, Contents.classify? rules e.2 = .ok contents :=
    fun e he => accepted_of_replay hempty hok e ((lastEntries_sublist rules entries).subset he)
  have hreads : ∀ v name, Reads rules (lastEntries rules entries) v name → restored.dependencies.Holds v name := by
    rintro v name ⟨e, he, rfl, f, hform, hread⟩
    have hcontents : .ok (.formula f) = Except.ok (restored.contentsAt (rules.normalize e.1)) :=
      hform.symm.trans (classify?_of_mem_lastEntries hempty hok he)
    rw [hsound.holds_iff, ← Except.ok.inj hcontents]
    exact hread
  refine ⟨fun e he => ⟨_, (haccepted e he).1⟩, fun e he => (haccepted e he).2, fun name hcycle => ?_⟩
  have hcyclic : restored.dependencies.Cyclic name := Relation.TransGen.mono hreads name name hcycle
  exact Dependencies.not_cyclic_of_wellFounded hsound.acyclic name hcyclic

/-- Entries for different names that are not refused are restorable. -/
theorem restorable_of_replay (hdistinct : (entries.map fun e => rules.normalize e.1).Nodup) {restored : Sheet}
    (hok : replay (.empty rules version) entries = .ok restored) : Restorable rules entries := by
  rw [← lastEntries_eq_self hdistinct]
  exact restorable_lastEntries hok

/-- A snapshot of the expected version with one entry for each name is restored exactly if its entries are restorable. -/
theorem exists_restore_iff {snapshot : Snapshot} (hversion : snapshot.version = version)
    (hdistinct : (snapshot.cells.entries.map fun e => rules.normalize e.1).Nodup) :
    (∃ sheet, snapshot.restore rules version = .ok sheet) ↔ Restorable rules snapshot.cells.entries := by
  constructor
  · rintro ⟨sheet, hok⟩
    obtain ⟨-, replayed, hreplay, -⟩ := restore_eq_ok_iff.mp hok
    exact restorable_of_replay hdistinct hreplay
  · intro h
    obtain ⟨replayed, hreplay⟩ := h.exists_replay version
    exact ⟨replayed.markSaved, restore_eq_ok_iff.mpr ⟨hversion, replayed, hreplay, rfl⟩⟩

/-- Entries for different names leave the same contents in whatever order they are typed. -/
theorem contentsAt_eq_of_perm (hperm : entries'.Perm entries) (hdistinct : (entries.map fun e => rules.normalize e.1).Nodup)
    {part restored restored' : Sheet} (h : part.Sound rules version) (hok : replay part entries = .ok restored)
    (hok' : replay part entries' = .ok restored') (t : String) : restored.contentsAt t = restored'.contentsAt t := by
  have hdistinct' : (entries'.map fun e => rules.normalize e.1).Nodup := (hperm.map _).nodup_iff.mpr hdistinct
  refine contentsAt_eq_of_lastEntries h ?_ hok hok' t
  rw [lastEntries_eq_self hdistinct, lastEntries_eq_self hdistinct']
  exact hperm

/-- A snapshot of the expected version whose names are different once they are normalized is restored if and only if every name is
admitted, every form stands for contents, and the variables of the formulas, taken as what the formulas' names read, close no cycle.
In any other order its entries are restored or refused alike; if they are restored, every name has the same contents, value and
dependents, and the sheets count as saved. -/
theorem restore_order_irrelevant (hi : rules.Idempotent) {snapshot : Snapshot} (hversion : snapshot.version = version)
    (hdistinct : (snapshot.cells.entries.map fun e => rules.normalize e.1).Nodup) :
    ((∃ sheet, snapshot.restore rules version = .ok sheet) ↔ Restorable rules snapshot.cells.entries) ∧
    ∀ snapshot' : Snapshot, snapshot'.version = version → snapshot'.cells.entries.Perm snapshot.cells.entries →
      ((∃ sheet', snapshot'.restore rules version = .ok sheet') ↔ ∃ sheet, snapshot.restore rules version = .ok sheet) ∧
      ∀ sheet sheet', snapshot.restore rules version = .ok sheet → snapshot'.restore rules version = .ok sheet' →
        sheet.changed = false ∧ sheet'.changed = false ∧ ∀ name, sheet.contents name = sheet'.contents name ∧
          sheet.value name = sheet'.value name ∧ sheet.directDependents name = sheet'.directDependents name := by
  refine ⟨exists_restore_iff hversion hdistinct, fun snapshot' hversion' hperm => ⟨?_, ?_⟩⟩
  · have hdistinct' : (snapshot'.cells.entries.map fun e => rules.normalize e.1).Nodup := (hperm.map _).nodup_iff.mpr hdistinct
    rw [exists_restore_iff hversion' hdistinct', exists_restore_iff hversion hdistinct]
    exact ⟨fun h => h.perm hperm.symm, fun h => h.perm hperm⟩
  · intro sheet sheet' hok hok'
    obtain ⟨-, replayed, hreplay, rfl⟩ := restore_eq_ok_iff.mp hok
    obtain ⟨-, replayed', hreplay', rfl⟩ := restore_eq_ok_iff.mp hok'
    have hcontents := contentsAt_eq_of_perm hperm hdistinct (sound_empty rules version) hreplay hreplay'
    have hreach := reachable_of_replay Reachable.empty hreplay
    have hreach' := reachable_of_replay Reachable.empty hreplay'
    have hshows := hreach.shows_eq hi hreach' hcontents
    exact ⟨rfl, rfl, hshows⟩

set_option maxRecDepth 10000 in
/-- Under rules that take `b` for `d`, a snapshot has a sum that reads `b` before the formula for `b`, and that one before the number
it reads. From the last entry to the first all is restored too, and the sum is the same. -/
theorem restore_order_irrelevant_reversed :
    ∃ (rules : NameRules) (snapshot snapshot' : Snapshot) (sheet sheet' : Sheet), rules.Idempotent ∧
      snapshot.cells.entries = [("a", "=b+b"), ("b", "=c"), ("c", "2")] ∧
      snapshot'.cells.entries = [("c", "2"), ("b", "=c"), ("a", "=b+b")] ∧
      Restorable rules snapshot.cells.entries ∧ snapshot.restore rules "v" = .ok sheet ∧ snapshot'.restore rules "v" = .ok sheet' ∧
      sheet.value "a" = .ok (.number 4) ∧ sheet'.value "a" = .ok (.number 4) := by
  have hi := NameRules.idempotent_replace "b" "d" .all
  -- The sheet before the number is typed is evaluated, the rest follows from what a call does.
  obtain ⟨part, hpart, hreplay, ha, hd⟩ : ∃ part : Sheet, Reachable (.of (.replace [("b", "d")]) .all) "v" part ∧
      replay (.empty (.of (.replace [("b", "d")]) .all) "v") [("a", "=b+b"), ("b", "=c")] = .ok part ∧
      part.contentsAt "a" = .formula ⟨[.var "d", .operator .add, .var "d"], rfl⟩ ∧
      part.contentsAt "d" = .formula ⟨[.var "c"], rfl⟩ := by
    refine ⟨_, (Reachable.empty.set "a" "=b+b").set "b" "=c", ?_, ?_, ?_⟩
    · cbv
    · cbv
    · cbv
  have hname : (NameRules.of (.replace [("b", "d")]) .all).admit? "c" = some "c" := by decide
  have hname' : (NameRules.of (.replace [("b", "d")]) .all).admit? "a" = some "a" := by decide
  have htyped : Contents.classify? (.of (.replace [("b", "d")]) .all) "2" = .ok (.number 2) :=
    Contents.classify?_of_readFinite? (by simp) (by decide +kernel)
  have h := hpart.set "c" "2"
  have hcontents := hpart.sound.contentsAt_set_of_reads_eq hname htyped rfl
  have hnumber : (part.set "c" "2").2.valueAt "c" = .number 2 := h.valueAt_number hi (by rw [hcontents, if_pos rfl])
  have hread : (part.set "c" "2").2.valueAt "d" = .number 2 := by
    rw [h.valueAt_formula hi ((hcontents "d").trans hd) (by simp [Formula.mem_names]) hnumber]
    decide +kernel
  have hsum : (part.set "c" "2").2.valueAt "a" = .number 4 := by
    rw [h.valueAt_formula hi ((hcontents "a").trans ha) (by simp [Formula.mem_names]) hread]
    decide +kernel
  have hvalue : (part.set "c" "2").2.markSaved.value "a" = .ok (.number 4) := by
    change (part.set "c" "2").2.value "a" = _
    rw [value, h.sound.resolve_eq hname', Except.map, hsum]
  have hok : restore ⟨⟨[("a", "=b+b"), ("b", "=c"), ("c", "2")], by decide⟩, "v"⟩ (.of (.replace [("b", "d")]) .all) "v" =
      .ok (part.set "c" "2").2.markSaved := by
    obtain ⟨order, horder⟩ := hpart.sound.exists_order_of_reads_eq (rfl : (Contents.number 2).reads = ∅) "c"
    refine restore_eq_ok_iff.mpr ⟨rfl, _, replay_append_eq_ok_iff.mpr ⟨part, hreplay, ?_⟩, rfl⟩
    exact replay_cons_eq_ok_iff.mpr ⟨⟨order, by rw [hpart.sound.set_eq hname htyped horder]⟩, rfl⟩
  have hdistinct : ((⟨⟨[("a", "=b+b"), ("b", "=c"), ("c", "2")], by decide⟩, "v"⟩ : Snapshot).cells.entries.map fun e =>
      (NameRules.of (.replace [("b", "d")]) .all).normalize e.1).Nodup := by decide
  obtain ⟨hrestored, horders⟩ := restore_order_irrelevant hi rfl hdistinct
  obtain ⟨halike, hsame⟩ := horders ⟨⟨[("c", "2"), ("b", "=c"), ("a", "=b+b")], by decide⟩, "v"⟩ rfl (by decide)
  obtain ⟨sheet', hok'⟩ := halike.mpr ⟨_, hok⟩
  refine ⟨_, _, _, _, sheet', hi, rfl, rfl, hrestored.mp ⟨_, hok⟩, hok, hok', hvalue, ?_⟩
  rw [← ((hsame _ _ hok hok').2.2 "a").2.1, hvalue]

end Snapshot

end Spreadsheet
