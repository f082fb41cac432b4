import Spreadsheet.Snapshot.Text

/-!
# Stored snapshots

A stored file is its bytes, or nothing if there is none. A file is a text if it is there and its bytes are UTF-8. Saving turns a
sheet into the bytes to store, and only a sheet that could be stored counts as saved.
-/

namespace Spreadsheet

/-- What is stored in one place: bytes, or nothing. -/
abbrev StoredFile := Option ByteArray

namespace StoredFile

/-- The file that holds a text. -/
def ofText (text : String) : StoredFile := some text.toUTF8

/-- The text that a file holds. -/
def text (file : StoredFile) : Except RestoreError String :=
  match file.bind String.fromUTF8? with
  | some text => .ok text
  | none => .error .io

/-- The sheet that a file keeps. -/
def load (file : StoredFile) (rules : NameRules) (version : String) : Except RestoreError Sheet := do
  let text ← file.text
  Sheet.ofText text rules version

/-- The version of the sheet that a file keeps. -/
def savedVersion (file : StoredFile) : Except RestoreError String := do
  let text ← file.text
  match Snapshot.versionOfText? text with
  | some version => .ok version
  | none => .error .json

end StoredFile

/-- A sheet saved to a place that may refuse to store anything: what is then stored there, and the sheet as it then is. -/
def Sheet.save (sheet : Sheet) (refused : Bool) : Except RestoreError StoredFile × Sheet :=
  if refused then (.error .io, sheet) else (.ok (StoredFile.ofText sheet.text), sheet.markSaved)

/-- A stored text is read back. -/
theorem StoredFile.text_ofText (text : String) : (ofText text).text = .ok text := by
  have h : String.fromUTF8? text.toByteArray = some text := by
    simp only [String.fromUTF8?, text.isValidUTF8, dite_true]
    rfl
  simp [ofText, StoredFile.text, h]

end Spreadsheet
