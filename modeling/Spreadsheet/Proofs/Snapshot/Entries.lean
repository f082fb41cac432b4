import Spreadsheet.Proofs.Sheet.State
import Spreadsheet.Snapshot.Basic

/-!
# Entries typed one after the other

A replay types the entries of a snapshot into a sheet. If none is refused, each has an admitted name and a form that stands for some
contents (`Snapshot.accepted_of_replay`), and under every name the sheet has at the end what the last entry for that name stands for
(`Snapshot.classify?_of_mem_lastEntries`), or what it had before, without such an entry (`Snapshot.contentsAt_replay_of_forall_ne`).
So the last entries alone decide the contents (`Snapshot.contentsAt_eq_of_lastEntries`).

What the entries read and the sheet depends on before may lie in one relation that closes no cycle. Then the dependencies lie in it
at every moment, and no entry is refused, in whatever order they come (`Snapshot.exists_replay`).
-/

namespace Spreadsheet

variable {rules : NameRules} {version : String}

namespace Sheet

variable {sheet : Sheet}

/-- A text that is not refused has an admitted name and stands for contents, which are put under that name and no other. -/
theorem Sound.of_set_eq_ok (h : sheet.Sound rules version) {name typed : String} {order : List String}
    (hok : (sheet.set name typed).1 = .ok order) :
    ∃ contents, rules.admit? name = some (rules.normalize name) ∧ Contents.classify? rules typed = .ok contents ∧
      ∀ t, (sheet.set name typed).2.contentsAt t = if t = rules.normalize name then contents else sheet.contentsAt t := by
  rcases h.set_cases name typed with ⟨e, hset⟩ | ⟨normalized, contents, order', hname, htyped, horder, -⟩
  · rw [hset] at hok
    cases hok
  · obtain rfl : rules.normalize name = normalized := (NameRules.admit?_eq_some hname).1
    exact ⟨contents, hname, htyped, h.contentsAt_set hname htyped horder⟩

end Sheet

namespace Snapshot

open Sheet

variable {part restored : Sheet} {entries : List (String × String)}

theorem replay_append_eq_ok_iff {before after : List (String × String)} :
    replay part (before ++ after) = .ok restored ↔
      ∃ between, replay part before = .ok between ∧ replay between after = .ok restored := by
  induction before generalizing part with
  | nil => simp [replay]
  | cons e before ih =>
    obtain ⟨name, form⟩ := e
    rw [List.cons_append, replay_cons_eq_ok_iff, ih]
    simp only [replay_cons_eq_ok_iff, and_assoc, exists_and_left]

/-- Entries typed into a sound sheet leave a sound sheet. -/
theorem sound_of_replay (h : part.Sound rules version) (hok : replay part entries = .ok restored) : restored.Sound rules version :=
  replay_preserves (fun _ name typed h => h.set name typed) h hok

/-- Entries typed into a reachable sheet leave a reachable sheet. -/
theorem reachable_of_replay (h : Reachable rules version part) (hok : replay part entries = .ok restored) :
    Reachable rules version restored :=
  replay_preserves (fun _ name typed h => h.set name typed) h hok

/-! ## The contents after a replay -/

/-- Entries that are replayed have admitted names and forms that stand for contents. -/
theorem accepted_of_replay (h : part.Sound rules version) (hok : replay part entries = .ok restored) :
    ∀ e ∈ entries, rules.admit? e.1 = some (rules.normalize e.1) ∧ ∃ contents, Contents.classify? rules e.2 = .ok contents := by
  induction entries generalizing part with
  | nil => exact fun e he => by cases he
  | cons e entries ih =>
    obtain ⟨⟨order, hset⟩, hrest⟩ := replay_cons_eq_ok_iff.mp hok
    obtain ⟨contents, hname, hform, -⟩ := h.of_set_eq_ok hset
    exact List.forall_mem_cons.mpr ⟨⟨hname, contents, hform⟩, ih (h.set e.1 e.2) hrest⟩

/-- A name that no entry is for keeps its contents. -/
theorem contentsAt_replay_of_forall_ne (h : part.Sound rules version) (hok : replay part entries = .ok restored) {t : String}
    (ht : ∀ e ∈ entries, rules.normalize e.1 ≠ t) : restored.contentsAt t = part.contentsAt t := by
  induction entries generalizing part with
  | nil =>
    cases hok
    rfl
  | cons e entries ih =>
    obtain ⟨⟨order, hset⟩, hrest⟩ := replay_cons_eq_ok_iff.mp hok
    obtain ⟨he, hentries⟩ := List.forall_mem_cons.mp ht
    obtain ⟨contents, -, -, hcontents⟩ := h.of_set_eq_ok hset
    rw [ih (h.set e.1 e.2) hrest hentries, hcontents, if_neg fun heq => he heq.symm]

/-! ## The last entries -/

/-- Of the entries for each normalized name the last one, in the order in which these come. -/
def lastEntries (rules : NameRules) : List (String × String) → List (String × String)
  | [] => []
  | e :: entries =>
    if ∃ later ∈ entries, rules.normalize later.1 = rules.normalize e.1 then lastEntries rules entries
    else e :: lastEntries rules entries

theorem lastEntries_sublist (rules : NameRules) (entries : List (String × String)) :
    (lastEntries rules entries).Sublist entries := by
  induction entries with
  | nil => exact .slnil
  | cons e entries ih =>
    rw [lastEntries]
    split
    · exact ih.cons e
    · exact ih.cons_cons e

/-- The last entry for a name has none for that name behind it. -/
theorem exists_append_of_mem_lastEntries {e : String × String} (he : e ∈ lastEntries rules entries) :
    ∃ before after, entries = before ++ e :: after ∧ ∀ later ∈ after, rules.normalize later.1 ≠ rules.normalize e.1 := by
  induction entries with
  | nil => cases he
  | cons first entries ih =>
    rw [lastEntries] at he
    split at he
    · obtain ⟨before, after, rfl, hlast⟩ := ih he
      exact ⟨first :: before, after, rfl, hlast⟩
    · next hnone =>
      rcases List.mem_cons.mp he with rfl | he
      · exact ⟨[], entries, rfl, fun later hlater heq => hnone ⟨later, hlater, heq⟩⟩
      · obtain ⟨before, after, rfl, hlast⟩ := ih he
        exact ⟨first :: before, after, rfl, hlast⟩

/-- Where there is an entry for a name, there is a last one. -/
theorem exists_mem_lastEntries {e : String × String} (he : e ∈ entries) :
    ∃ last ∈ lastEntries rules entries, rules.normalize last.1 = rules.normalize e.1 := by
  induction entries generalizing e with
  | nil => cases he
  | cons first entries ih =>
    rw [lastEntries]
    split
    · next hlater =>
      rcases List.mem_cons.mp he with rfl | he
      · obtain ⟨later, hlater, heq⟩ := hlater
        rw [← heq]
        exact ih hlater
      · exact ih he
    · rcases List.mem_cons.mp he with rfl | he
      · exact ⟨e, List.mem_cons_self, rfl⟩
      · obtain ⟨last, hlast, heq⟩ := ih he
        exact ⟨last, List.mem_cons_of_mem first hlast, heq⟩

theorem nodup_lastEntries (rules : NameRules) (entries : List (String × String)) :
    ((lastEntries rules entries).map fun e => rules.normalize e.1).Nodup := by
  induction entries with
  | nil => exact List.nodup_nil
  | cons e entries ih =>
    rw [lastEntries]
    split
    · exact ih
    · next hnone =>
      rw [List.map_cons, List.nodup_cons]
      refine ⟨fun hmem => ?_, ih⟩
      obtain ⟨later, hlater, heq⟩ := List.mem_map.mp hmem
      exact hnone ⟨later, (lastEntries_sublist rules entries).subset hlater, heq⟩

/-- Where every name has one entry, all entries are the last ones. -/
theorem lastEntries_eq_self (hdistinct : (entries.map fun e => rules.normalize e.1).Nodup) : lastEntries rules entries = entries := by
  induction entries with
  | nil => rfl
  | cons e entries ih =>
    rw [List.map_cons, List.nodup_cons] at hdistinct
    have hnone : ¬∃ later ∈ entries, rules.normalize later.1 = rules.normalize e.1 :=
      fun ⟨later, hlater, heq⟩ => hdistinct.1 (List.mem_map.mpr ⟨later, hlater, heq⟩)
    rw [lastEntries, if_neg hnone, ih hdistinct.2]

/-- The last entry for a name decides what is under it. -/
theorem classify?_of_mem_lastEntries (h : part.Sound rules version) (hok : replay part entries = .ok restored)
    {e : String × String} (he : e ∈ lastEntries rules entries) :
    Contents.classify? rules e.2 = .ok (restored.contentsAt (rules.normalize e.1)) := by
  obtain ⟨before, after, rfl, hlast⟩ := exists_append_of_mem_lastEntries he
  obtain ⟨between, hbefore, hfrom⟩ := replay_append_eq_ok_iff.mp hok
  obtain ⟨⟨order, hset⟩, hafter⟩ := replay_cons_eq_ok_iff.mp hfrom
  have hbetween := sound_of_replay h hbefore
  obtain ⟨contents, -, hform, hcontents⟩ := hbetween.of_set_eq_ok hset
  rw [contentsAt_replay_of_forall_ne (hbetween.set e.1 e.2) hafter hlast, hcontents, if_pos rfl, hform]

/-- Where every name has one entry, that entry decides what is under it. -/
theorem classify?_of_mem (h : part.Sound rules version) (hok : replay part entries = .ok restored)
    (hdistinct : (entries.map fun e => rules.normalize e.1).Nodup) {e : String × String} (he : e ∈ entries) :
    Contents.classify? rules e.2 = .ok (restored.contentsAt (rules.normalize e.1)) := by
  rw [← lastEntries_eq_self hdistinct] at he
  exact classify?_of_mem_lastEntries h hok he

/-- Entries that are the same but for the order, once each name has but its last one, leave the same contents. -/
theorem contentsAt_eq_of_lastEntries {entries' : List (String × String)} {restored' : Sheet} (h : part.Sound rules version)
    (hperm : (lastEntries rules entries').Perm (lastEntries rules entries)) (hok : replay part entries = .ok restored)
    (hok' : replay part entries' = .ok restored') (t : String) : restored.contentsAt t = restored'.contentsAt t := by
  by_cases ht : ∃ last ∈ lastEntries rules entries, rules.normalize last.1 = t
  · obtain ⟨last, hlast, rfl⟩ := ht
    have hform := classify?_of_mem_lastEntries h hok hlast
    have hform' := classify?_of_mem_lastEntries h hok' (hperm.mem_iff.mpr hlast)
    exact Except.ok.inj (hform.symm.trans hform')
  · have hnone : ∀ e ∈ entries, rules.normalize e.1 ≠ t := by
      rintro e he rfl
      exact ht (exists_mem_lastEntries he)
    have hnone' : ∀ e ∈ entries', rules.normalize e.1 ≠ t := by
      rintro e he rfl
      obtain ⟨last, hlast, heq⟩ := exists_mem_lastEntries he
      exact ht ⟨last, hperm.mem_iff.mp hlast, heq⟩
    rw [contentsAt_replay_of_forall_ne h hok hnone, contentsAt_replay_of_forall_ne h hok' hnone']

/-! ## Entries that are not refused -/

/-- Entries with admitted names and forms that stand for contents are not refused if what they read, and what the sheet depends on
before, lies in a relation that closes no cycle. -/
theorem exists_replay (h : part.Sound rules version) {r : String → String → Prop} (hr : WellFounded r)
    (hsub : ∀ s t, part.dependencies.Holds s t → r s t)
    (hentries : ∀ e ∈ entries, ∃ contents, rules.admit? e.1 = some (rules.normalize e.1) ∧
      Contents.classify? rules e.2 = .ok contents ∧ ∀ s ∈ contents.reads, r s (rules.normalize e.1)) :
    ∃ restored, replay part entries = .ok restored := by
  induction entries generalizing part with
  | nil => exact ⟨part, rfl⟩
  | cons e entries ih =>
    obtain ⟨⟨contents, hname, hform, hreads⟩, hentries⟩ := List.forall_mem_cons.mp hentries
    have hrelinked : ∀ s t, (part.relink (rules.normalize e.1) contents.reads).dependencies.Holds s t → r s t := by
      intro s t hst
      rw [h.holds_relink] at hst
      split at hst
      · next ht =>
        rw [ht]
        exact hreads s hst
      · exact hsub s t hst
    obtain ⟨order, horder⟩ := h.exists_order hr hrelinked
    have hset := h.set_eq hname hform horder
    have hnext : ∀ s t, (part.set e.1 e.2).2.dependencies.Holds s t → r s t := by
      rw [hset, recalculate_dependencies]
      exact hrelinked
    obtain ⟨restored, hok⟩ := ih (h.set e.1 e.2) hnext hentries
    exact ⟨restored, replay_cons_eq_ok_iff.mpr ⟨⟨order, by rw [hset]⟩, hok⟩⟩

end Snapshot

end Spreadsheet
