import Spreadsheet.Json.Skip
import Spreadsheet.Snapshot.Basic

/-!
# Snapshots as text

A snapshot is written as one JSON object: the cells by name, each an object that holds its string form, and the version. Reading
takes more than writing gives: members in any order, further members of any kind, and an array of the values in place of an
object with known keys. A known key may come only once; of a cell's name the first place and the last string form are kept. The
version can be read on its own, all else being passed over.
-/

namespace Spreadsheet

open Json (Reader)

namespace Snapshot

/-- A snapshot as JSON. -/
def toJson (snapshot : Snapshot) : List Char :=
  Json.writeObject
    [("cells", Json.writeObject (snapshot.cells.entries.map fun e =>
      (e.1, Json.writeObject [("stringForm", Json.quote e.2)]))),
    ("Version", Json.quote snapshot.version)]

/-- The text of a snapshot. -/
def text (snapshot : Snapshot) : String := String.ofList snapshot.toJson

/-- The string form of a saved cell, if it was met. -/
def formMember (form : Option String) : String → Reader (Option String)
  | "stringForm" => Reader.once form .string
  | _ => Reader.skip.map fun _ => form

/-- The reader of a saved cell. -/
def formReader : Reader String := ((Reader.object formMember none).filterMap id).orElse (Reader.single .string)

/-- The reader of saved cells. -/
def cellsReader : Reader SavedCells := Reader.object (fun cells name => formReader.map (cells.insert name)) .empty

/-- What was met of a snapshot. -/
structure Parts where
  cells : Option SavedCells
  version : Option String

/-- The snapshot of parts that were all met. -/
def Parts.snapshot? (parts : Parts) : Option Snapshot :=
  match parts with
  | ⟨some cells, some version⟩ => some ⟨cells, version⟩
  | _ => none

/-- The reader of a member of a snapshot. -/
def partsMember (parts : Parts) : String → Reader Parts
  | "cells" => (Reader.once parts.cells cellsReader).map fun cells => { parts with cells }
  | "Version" => (Reader.once parts.version .string).map fun version => { parts with version }
  | _ => Reader.skip.map fun _ => parts

/-- The reader of snapshots. -/
def reader : Reader Snapshot :=
  ((Reader.object partsMember ⟨none, none⟩).filterMap Parts.snapshot?).orElse
    ((Reader.pair cellsReader .string).map fun (cells, version) => ⟨cells, version⟩)

/-- The snapshot that a text is. -/
def ofText? (text : String) : Option Snapshot := reader.readAll text

/-- The version of a snapshot, if it was met. -/
def versionMember (version : Option String) : String → Reader (Option String)
  | "Version" => Reader.once version .string
  | _ => Reader.skip.map fun _ => version

/-- The reader of a version alone. -/
def versionReader : Reader String :=
  ((Reader.object versionMember none).filterMap id).orElse (Reader.single .string)

/-- The version in the text of a snapshot. -/
def versionOfText? (text : String) : Option String := versionReader.readAll text

end Snapshot

namespace Sheet

/-- A sheet as text: the text of its snapshot. -/
def text (sheet : Sheet) : String := (Snapshot.ofSheet sheet).text

/-- The sheet that a text keeps. -/
def ofText (text : String) (rules : NameRules) (version : String) : Except RestoreError Sheet :=
  match Snapshot.ofText? text with
  | some snapshot => snapshot.restore rules version
  | none => .error .json

end Sheet

end Spreadsheet
