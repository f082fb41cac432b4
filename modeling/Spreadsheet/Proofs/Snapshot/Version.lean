import Spreadsheet.Proofs.Json.Passed
import Spreadsheet.Snapshot.File

/-!
# The version that is read alone

Whether a stored sheet has the version that is expected can be asked without restoring it. The reader of the version alone goes through
the same members, passes over the cells, and meets the version in the same state as the reader of the whole snapshot
(`Snapshot.members_version`). So for a text that is an object it is the version that the whole snapshot has, and the one that loading
compares with the one expected (`StoredFile.savedVersion_agrees`). A snapshot that is written as an array has no such version to read.
-/

namespace Spreadsheet

open Json (Reader expect skipBlank)

namespace Snapshot

theorem passable_form : formReader.Passable := by
  have hmember : ∀ form k, (formMember form k).Passable := by
    intro form k
    unfold formMember
    split
    · exact Reader.passable_string.once form
    · exact Reader.passable_skip.map _
  exact ((Reader.passable_object hmember none).filterMap id).orElse Reader.passable_string.single

theorem passable_cells : cellsReader.Passable := Reader.passable_object (fun _ _ => passable_form.map _) _

/-- A member that the reader of snapshots takes up is taken up by the reader of the version, with the same rest. -/
theorem partsMember_version {parts parts' : Parts} {k : String} {s rest : List Char}
    (h : (partsMember parts k).read s = some (parts', rest)) : (versionMember parts.version k).read s = some (parts'.version, rest) := by
  unfold partsMember at h
  split at h
  · -- The cells are passed over, and leave the version as it was.
    have hskip := ((passable_cells.once parts.cells).map fun cells => { parts with cells }) _ _ _ h
    obtain ⟨⟨cells, rest'⟩, -, hcells⟩ := Option.bind_eq_some_iff.mp h
    cases hcells
    change (Reader.skip.read s).bind _ = _
    rw [hskip.skip]
    rfl
  · obtain ⟨⟨version, rest'⟩, hversion, he⟩ := Option.bind_eq_some_iff.mp h
    cases he
    exact hversion
  · next hcells hversion =>
    obtain ⟨⟨u, rest'⟩, hskip, he⟩ := Option.bind_eq_some_iff.mp h
    cases he
    unfold versionMember
    split
    · exact absurd rfl hversion
    · change (Reader.skip.read s).bind _ = _
      rw [hskip]
      rfl

/-- Members that the reader of snapshots goes through are gone through by the reader of the version, up to the same place. -/
theorem members_version {parts parts' : Parts} {s rest : List Char} (h : Reader.members partsMember parts s = some (parts', rest)) :
    Reader.members versionMember parts.version s = some (parts'.version, rest) := by
  have hmember : ∀ {parts parts' : Parts} {s rest : List Char}, (Reader.member (partsMember parts)).read s = some (parts', rest) →
      (Reader.member (versionMember parts.version)).read s = some (parts'.version, rest) := by
    intro parts parts' s rest h
    obtain ⟨⟨k, mid⟩, hk, hv⟩ := Option.bind_eq_some_iff.mp h
    exact Option.bind_eq_some_iff.mpr ⟨(k, mid), hk, partsMember_version hv⟩
  fun_induction Reader.members partsMember parts s with
  | case1 => cases h
  | case2 parts s parts₁ s₁ h₁ s₂ h₂ ih =>
    rw [Reader.members]
    split
    · next hnone => cases (hmember h₁).symm.trans hnone
    · next hsome =>
      cases (hmember h₁).symm.trans hsome
      split
      · next hcomma =>
        cases h₂.symm.trans hcomma
        exact ih h
      · next hcomma => cases h₂.symm.trans hcomma
  | case3 parts s parts₁ s₁ h₁ h₂ =>
    obtain ⟨s₃, h₃, he⟩ := Option.map_eq_some_iff.mp h
    cases he
    rw [Reader.members]
    split
    · next hnone => cases (hmember h₁).symm.trans hnone
    · next hsome =>
      cases (hmember h₁).symm.trans hsome
      split
      · next hcomma => cases h₂.symm.trans hcomma
      · rw [h₃, Option.map_some]

theorem Parts.version_eq {parts : Parts} {snapshot : Snapshot} (h : parts.snapshot? = some snapshot) :
    parts.version = some snapshot.version := by
  unfold Parts.snapshot? at h
  split at h
  · cases h
    rfl
  · cases h

/-- A snapshot that begins as an object is read as one: no array begins there. -/
theorem exists_parts_of_reader {s rest : List Char} {snapshot : Snapshot} (hobject : (skipBlank s).head? = some '\x7b')
    (h : reader.read s = some (snapshot, rest)) :
    ∃ parts, (Reader.object partsMember ⟨none, none⟩).read s = some (parts, rest) ∧ parts.snapshot? = some snapshot := by
  obtain ⟨inner, hinner⟩ := List.head?_eq_some_iff.mp hobject
  have hread : ((Reader.object partsMember ⟨none, none⟩).filterMap Parts.snapshot?).read s = some (snapshot, rest) := by
    simp only [reader, Reader.orElse] at h
    split at h
    · next hr =>
      rw [hr]
      exact h
    · obtain ⟨⟨cells, version⟩, hpair, -⟩ := Option.bind_eq_some_iff.mp h
      obtain ⟨s₁, hopen, -⟩ := Option.bind_eq_some_iff.mp hpair
      rw [Json.expect_eq_none_of_ne hinner (by decide)] at hopen
      cases hopen
  obtain ⟨⟨parts, rest'⟩, hparts, hsnapshot⟩ := Option.bind_eq_some_iff.mp hread
  obtain ⟨snapshot', hmet, he⟩ := Option.map_eq_some_iff.mp hsnapshot
  cases he
  exact ⟨parts, hparts, hmet⟩

/-- An object that is read as a snapshot has its version read alone, up to the same place. -/
theorem versionReader_of_reader {s rest : List Char} {snapshot : Snapshot} (hobject : (skipBlank s).head? = some '\x7b')
    (h : reader.read s = some (snapshot, rest)) : versionReader.read s = some (snapshot.version, rest) := by
  obtain ⟨parts, hparts, hsnapshot⟩ := exists_parts_of_reader hobject h
  obtain ⟨s₁, hopen, hmembers⟩ := Option.bind_eq_some_iff.mp hparts
  have hobject' : (Reader.object versionMember none).read s = some (parts.version, rest) := by
    refine Option.bind_eq_some_iff.mpr ⟨s₁, hopen, ?_⟩
    split at hmembers
    · cases hmembers
      rfl
    · exact members_version hmembers
  have hfirst : ((Reader.object versionMember none).filterMap id).read s = some (snapshot.version, rest) :=
    Option.bind_eq_some_iff.mpr ⟨_, hobject', by rw [Parts.version_eq hsnapshot]; rfl⟩
  simp only [versionReader, Reader.orElse, hfirst]

/-- A replay never complains about a version. -/
theorem replay_ne_versionMismatch {sheet : Sheet} {entries : List (String × String)} (expected found : String) :
    replay sheet entries ≠ .error (.versionMismatch expected found) := by
  induction entries generalizing sheet with
  | nil => exact fun h => by cases h
  | cons e entries ih =>
    rw [replay]
    split
    · exact ih
    · exact fun h => by cases h

/-- A snapshot is refused for its version exactly if it is not the one expected, and both are named. -/
theorem restore_eq_versionMismatch_iff {snapshot : Snapshot} {rules : NameRules} {version expected found : String} :
    snapshot.restore rules version = .error (.versionMismatch expected found) ↔
      snapshot.version ≠ version ∧ expected = version ∧ found = snapshot.version := by
  unfold restore
  split
  · next hv =>
    have hreplay := @replay_ne_versionMismatch (.empty rules version) snapshot.cells.entries expected found
    cases hr : replay (.empty rules version) snapshot.cells.entries with
    | ok sheet => simp [Except.map, hv]
    | error e =>
      rw [hr] at hreplay
      simpa [Except.map, hv] using hreplay
  · next hv => simp [hv, eq_comm]

end Snapshot

namespace StoredFile

/-- Where a file holds an object that is read as a snapshot, its version is read alone without fail, and it is the version that loading
compares with the one expected: it is restored if they are the same, and refused with both named if they are not. -/
theorem savedVersion_agrees {file : StoredFile} {text : String} {snapshot : Snapshot} (hfile : file.text = .ok text)
    (hobject : (skipBlank text.toList).head? = some '\x7b') (h : Snapshot.ofText? text = some snapshot) :
    ∃ version, file.savedVersion = .ok version ∧ snapshot.version = version ∧
      ∀ rules expected, file.load rules expected = snapshot.restore rules expected ∧
        ∀ wanted found, file.load rules expected = .error (.versionMismatch wanted found) ↔
          version ≠ expected ∧ wanted = expected ∧ found = version := by
  have hload : ∀ rules expected, file.load rules expected = snapshot.restore rules expected := by
    intro rules expected
    simp only [load, hfile, Sheet.ofText, bind, Except.bind, h]
  refine ⟨snapshot.version, ?_, rfl, fun rules expected => ⟨hload rules expected, fun wanted found => ?_⟩⟩
  · have hversion : Snapshot.versionOfText? text = some snapshot.version := by
      simp only [Snapshot.ofText?, Reader.readAll] at h
      split at h
      · next found rest hr =>
        split at h
        · next hend =>
          cases h
          simp only [Snapshot.versionOfText?, Reader.readAll, Snapshot.versionReader_of_reader hobject hr, hend, if_true]
        · cases h
      · cases h
    simp only [savedVersion, hfile, hversion, bind, Except.bind]
  · rw [hload, Snapshot.restore_eq_versionMismatch_iff]

/-- A snapshot with its members the other way round, an escape in a key, and a key of its own over half a surrogate pair and a number
too large for a double. -/
def reordered : String :=
  " \x7b\"more\" : [\"\\ud800\", 1e999], \"\\u0056ersion\":\"2.0\", \"cells\":\x7b\"A1\":\x7b\"stringForm\":\"=B1+1\"\x7d\x7d\x7d\n"

/-- The reordered text is read as a snapshot, and its version alone is the one that loading compares. -/
theorem savedVersion_agrees_reordered :
    (skipBlank reordered.toList).head? = some '\x7b' ∧ ∃ snapshot, Snapshot.ofText? reordered = some snapshot ∧
      (StoredFile.ofText reordered).savedVersion = .ok "2.0" ∧ snapshot.version = "2.0" ∧ ∀ rules expected,
        (StoredFile.ofText reordered).load rules expected = snapshot.restore rules expected := by
  have hobject : (skipBlank reordered.toList).head? = some '\x7b' := by decide +kernel
  have hread : (Snapshot.ofText? reordered).map Snapshot.version = some "2.0" := by decide +kernel
  obtain ⟨snapshot, h, hname⟩ := Option.map_eq_some_iff.mp hread
  obtain ⟨version, hsaved, hversion, hload⟩ := savedVersion_agrees (StoredFile.text_ofText reordered) hobject h
  obtain rfl : "2.0" = version := hname.symm.trans hversion
  exact ⟨hobject, snapshot, h, hsaved, hversion, fun rules expected => (hload rules expected).1⟩

end StoredFile

end Spreadsheet
