import Spreadsheet.Proofs.Sheet.Current
import Spreadsheet.Snapshot.File

/-!
# Requests

A sheet in use is asked to take new contents, to be saved, to count as saved, and to tell what it holds. It answers each request
and is afterwards the sheet that answers the next one (`Sheet.run`). Sheets that are restored from a snapshot are sheets in use too
(`Sheet.inUse_of_restore`). Only new contents change more than the mark that a sheet was changed, so every sheet in use is sound
(`Sheet.InUse.sound`), and under idempotent rules its values are current (`Sheet.InUse.current`).

A call that is refused, for whatever reason, leaves no trace: its own answer apart, all that is asked later is answered as if the
call had not been made (`Sheet.refusal_leaves_no_trace`).
-/

namespace Spreadsheet

/-- A question to a sheet that changes nothing. -/
inductive Query where
  | contents (name : String)
  | value (name : String)
  | directDependents (name : String)
  | evaluate (formula : String)
  | nonempty
  | text
  | version
  | changed

/-- What is asked of a sheet in use. A place to save to may refuse to store anything. -/
inductive Request where
  | set (name typed : String)
  | markSaved
  | save (refused : Bool)
  | query (query : Query)

/-- What a sheet answers. -/
inductive Answer where
  | order (outcome : Except SheetError (List String))
  | saved (outcome : Except RestoreError StoredFile)
  | contents (outcome : Except SheetError Contents)
  | value (outcome : Except SheetError Value)
  | dependents (outcome : Except SheetError Names)
  | evaluated (outcome : Except Fault (Except EvalError Float))
  | cells (cells : List (String × Cell))
  | text (text : String)
  | mark (changed : Bool)
  | done

/-- The answer of a sheet to a question. -/
def Query.answer (sheet : Sheet) : Query → Answer
  | contents name => .contents (sheet.contents name)
  | value name => .value (sheet.value name)
  | directDependents name => .dependents (sheet.directDependents name)
  | evaluate formula => .evaluated (sheet.evaluate formula)
  | nonempty => .cells sheet.nonempty
  | text => .text sheet.text
  | version => .text sheet.version
  | changed => .mark sheet.changed

namespace Sheet

/-- The answer of a sheet to a request, and the sheet as it then is. -/
def perform (sheet : Sheet) : Request → Answer × Sheet
  | .set name typed => ((sheet.set name typed).map Answer.order id)
  | .markSaved => (.done, sheet.markSaved)
  | .save refused => ((sheet.save refused).map Answer.saved id)
  | .query query => (query.answer sheet, sheet)

/-- The answers of a sheet to requests one after the other, and the sheet as it then is. -/
def run (sheet : Sheet) : List Request → List Answer × Sheet
  | [] => ([], sheet)
  | request :: requests =>
    let (answer, sheet) := sheet.perform request
    let (answers, sheet) := sheet.run requests
    (answer :: answers, sheet)

/-- A sheet that was made without cells and has since answered requests. -/
def InUse (rules : NameRules) (version : String) (sheet : Sheet) : Prop :=
  ∃ requests, ((empty rules version).run requests).2 = sheet

variable {rules : NameRules} {version : String} {sheet : Sheet}

theorem run_append (sheet : Sheet) (requests later : List Request) :
    (sheet.run (requests ++ later)).2 = ((sheet.run requests).2.run later).2 := by
  induction requests generalizing sheet with
  | nil => rfl
  | cons request requests ih => exact ih (sheet.perform request).2

/-- A sheet in use stays one. -/
theorem InUse.perform (h : InUse rules version sheet) (request : Request) : InUse rules version (sheet.perform request).2 := by
  obtain ⟨requests, rfl⟩ := h
  exact ⟨requests ++ [request], run_append _ _ _⟩

/-- A sheet that was only given contents is a sheet in use. -/
theorem Reachable.inUse (h : Reachable rules version sheet) : InUse rules version sheet := by
  induction h with
  | empty => exact ⟨[], rfl⟩
  | set _ name typed ih => exact ih.perform (.set name typed)

/-- String forms that are typed into a sheet in use leave a sheet in use. -/
theorem InUse.replay (h : InUse rules version sheet) {entries : List (String × String)} {restored : Sheet}
    (hok : Snapshot.replay sheet entries = .ok restored) : InUse rules version restored :=
  Snapshot.replay_preserves (fun _ name typed h => h.perform (.set name typed)) h hok

/-- A sheet that is restored from a snapshot is a sheet in use. -/
theorem inUse_of_restore {snapshot : Snapshot} {restored : Sheet} (hok : snapshot.restore rules version = .ok restored) :
    InUse rules version restored := by
  obtain ⟨-, replayed, hreplay, rfl⟩ := Snapshot.restore_eq_ok_iff.mp hok
  have h : InUse rules version (.empty rules version) := ⟨[], rfl⟩
  exact (h.replay hreplay).perform .markSaved

/-- That a sheet counts as saved says nothing about its cells. -/
theorem Sound.markSaved (h : sheet.Sound rules version) : sheet.markSaved.Sound rules version :=
  h.transfer rfl rfl rfl fun _ => rfl

/-- A request keeps a sheet sound. -/
theorem Sound.perform (h : sheet.Sound rules version) (request : Request) : (sheet.perform request).2.Sound rules version := by
  cases request with
  | set name typed => exact h.set name typed
  | markSaved => exact h.markSaved
  | save refused =>
    cases refused with
    | true => exact h
    | false => exact h.markSaved
  | query query => exact h

/-- Requests keep a sheet sound. -/
theorem Sound.run (h : sheet.Sound rules version) (requests : List Request) : (sheet.run requests).2.Sound rules version := by
  induction requests generalizing sheet with
  | nil => exact h
  | cons request requests ih => exact ih (h.perform request)

/-- Every sheet in use is sound. -/
theorem InUse.sound (h : InUse rules version sheet) : sheet.Sound rules version := by
  obtain ⟨requests, rfl⟩ := h
  exact (sound_empty rules version).run requests

/-- What holds of a sheet without cells holds of every sheet in use, if new contents keep it and it is not about the mark. -/
theorem InUse.preserves {p : Sheet → Prop} (hempty : p (.empty rules version))
    (hset : ∀ sheet name typed, sheet.Sound rules version → p sheet → p (sheet.set name typed).2)
    (hsaved : ∀ sheet, p sheet → p sheet.markSaved) (h : InUse rules version sheet) : p sheet := by
  obtain ⟨requests, rfl⟩ := h
  have hrun : ∀ (requests : List Request) (sheet : Sheet), sheet.Sound rules version → p sheet → p (sheet.run requests).2 := by
    intro requests
    induction requests with
    | nil => exact fun _ _ h => h
    | cons request requests ih =>
      intro sheet hs h
      refine ih _ (hs.perform request) ?_
      cases request with
      | set name typed => exact hset sheet name typed hs h
      | markSaved => exact hsaved sheet h
      | save refused =>
        cases refused with
        | true => exact h
        | false => exact hsaved sheet h
      | query query => exact h
  exact hrun requests _ (sound_empty rules version) hempty

/-- Under idempotent rules every value of a sheet in use is current. -/
theorem InUse.current (hi : rules.Idempotent) (h : InUse rules version sheet) (name : String) : sheet.Current name := by
  have hall : sheet.CurrentBut [] :=
    h.preserves (p := fun sheet => sheet.CurrentBut []) (currentBut_empty rules version)
      (fun _ name typed hs hc => hc.set hi hs name typed) (fun _ hc => hc)
  exact hall name List.not_mem_nil

/-- A call that is refused changes nothing. -/
theorem Sound.set_eq_self (h : sheet.Sound rules version) {name typed : String} {e : SheetError}
    (he : (sheet.set name typed).1 = .error e) : sheet.set name typed = (.error e, sheet) := by
  rcases h.set_cases name typed with ⟨e', hset⟩ | ⟨_, _, order, -, -, -, hset⟩
  · rw [hset] at he ⊢
    cases he
    rfl
  · rw [hset] at he
    cases he

/-- A refused call of a sheet in use, be it for the name, the text or a cycle, leaves the cells with their contents and values, the
dependencies in both directions with their count and nothing empty among them, the mark and the version as they were. Whatever is
asked afterwards, the refusal itself is all that tells the call from none. -/
theorem refusal_leaves_no_trace (h : InUse rules version sheet) {name typed : String} {e : SheetError}
    (he : (sheet.set name typed).1 = .error e) :
    (sheet.set name typed).2.cells = sheet.cells ∧
    (sheet.set name typed).2.dependencies = sheet.dependencies ∧ (sheet.set name typed).2.dependencies.Consistent ∧
    (sheet.set name typed).2.changed = sheet.changed ∧ (sheet.set name typed).2.version = sheet.version ∧
    (sheet.set name typed).2.rules = sheet.rules ∧
    ∀ later, sheet.run (.set name typed :: later) = (.order (.error e) :: (sheet.run later).1, (sheet.run later).2) := by
  have hset := h.sound.set_eq_self he
  have hperform : sheet.perform (.set name typed) = (.order (.error e), sheet) := by
    rw [perform, hset]
    rfl
  rw [hset]
  refine ⟨rfl, rfl, h.sound.consistent, rfl, rfl, rfl, fun later => ?_⟩
  rw [run, hperform]

set_option maxRecDepth 10000 in
/-- A saved cell is to read itself beside a name that it reads already. The links are put back, and the sheet still counts as saved. -/
theorem refusal_leaves_no_trace_selfReference :
    ∃ sheet : Sheet, InUse .any "v" sheet ∧ (sheet.set "a" "=a+c").1 = .error (.circularDependency ⟨["a", "a"]⟩) ∧
      sheet.changed = false ∧ (sheet.set "a" "=a+c").2.changed = false ∧
      sheet.dependencies.dependents.pairs = [("b", "a"), ("c", "a")] ∧
      (sheet.set "a" "=a+c").2.dependencies.dependents.pairs = [("b", "a"), ("c", "a")] ∧
      (sheet.set "a" "=a+c").2.dependencies.size = 2 := by
  have hrefused : ((((Sheet.empty .any "v").set "a" "=b+c").2.markSaved).set "a" "=a+c").1 =
      .error (.circularDependency ⟨["a", "a"]⟩) := by cbv
  have hpairs : (((Sheet.empty .any "v").set "a" "=b+c").2.markSaved).dependencies.dependents.pairs =
      [("b", "a"), ("c", "a")] := by cbv
  have hsize : (((Sheet.empty .any "v").set "a" "=b+c").2.markSaved).dependencies.size = 2 := by cbv
  have h : InUse .any "v" ((Sheet.empty .any "v").set "a" "=b+c").2.markSaved := ⟨[.set "a" "=b+c", .markSaved], rfl⟩
  obtain ⟨-, hdependencies, -, hchanged, -⟩ := refusal_leaves_no_trace h hrefused
  refine ⟨_, h, hrefused, rfl, hchanged, hpairs, ?_, ?_⟩
  · rw [hdependencies, hpairs]
  · rw [hdependencies, hsize]

end Sheet

end Spreadsheet
