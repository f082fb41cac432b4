import Spreadsheet.Text.HiddenTable
import Spreadsheet.Text.CharSet

/-!
# Quoted text in messages

A message that quotes a text puts it between double quotes and makes every character of it visible: quotes, backslashes and the
common control characters by an escape of their own, whatever else does not show by its code point.
-/

namespace Spreadsheet.Text

/-- A character as it stands between quotes. -/
def visible (c : Char) : List Char :=
  match c with
  | '\x00' => ['\\', '0']
  | '\t' => ['\\', 't']
  | '\r' => ['\\', 'r']
  | '\n' => ['\\', 'n']
  | '"' => ['\\', '"']
  | '\\' => ['\\', '\\']
  | c => if inside hiddenEdges c.toNat then ['\\', 'u', '\x7b'] ++ Nat.toDigits 16 c.toNat ++ ['\x7d'] else [c]

/-- A text between double quotes with every character visible. -/
def quoted (s : String) : String := String.ofList ('"' :: s.toList.flatMap visible ++ ['"'])

end Spreadsheet.Text
