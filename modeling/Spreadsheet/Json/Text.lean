/-!
# Strings in JSON text

How a text is written between quotes, and how the characters of a string are read. Written strings escape what has to be
escaped and nothing else. Read strings may escape anything; code points above U+FFFF are then two surrogates, and a surrogate on
its own is no character. Where a string is only passed over (`passCharacter?`) surrogates are not looked at.
-/

namespace Spreadsheet.Json

/-! ## Writing -/

/-- A character as it is written in a string. -/
def escape (c : Char) : List Char :=
  match c with
  | '"' => ['\\', '"']
  | '\\' => ['\\', '\\']
  | '\x08' => ['\\', 'b']
  | '\x0c' => ['\\', 'f']
  | '\n' => ['\\', 'n']
  | '\r' => ['\\', 'r']
  | '\t' => ['\\', 't']
  | c =>
    if c.toNat < 0x20 then ['\\', 'u', '0', '0', Nat.digitChar (c.toNat / 16), Nat.digitChar (c.toNat % 16)] else [c]

/-- A text written as a JSON string. -/
def quote (s : String) : List Char := '"' :: s.toList.flatMap escape ++ ['"']

/-- Members written as a JSON object, in order and without blanks. -/
def writeObject (members : List (String × List Char)) : List Char :=
  '\x7b' :: [','].intercalate (members.map fun m => quote m.1 ++ ':' :: m.2) ++ ['\x7d']

/-! ## Reading -/

/-- The value of a hexadecimal digit. -/
def hexDigit? (c : Char) : Option Nat :=
  if '0' ≤ c ∧ c ≤ '9' then some (c.toNat - '0'.toNat)
  else if 'a' ≤ c ∧ c ≤ 'f' then some (c.toNat - 'a'.toNat + 10)
  else if 'A' ≤ c ∧ c ≤ 'F' then some (c.toNat - 'A'.toNat + 10)
  else none

/-- Four hexadecimal digits at the front of a text, and the rest. -/
def hex4? : List Char → Option (Nat × List Char)
  | a :: b :: c :: d :: s =>
    match hexDigit? a, hexDigit? b, hexDigit? c, hexDigit? d with
    | some a, some b, some c, some d => some (((a * 16 + b) * 16 + c) * 16 + d, s)
    | _, _, _, _ => none
  | _ => none

/-- The character that a letter after a backslash stands for. -/
def shortEscape? : Char → Option Char
  | '"' => some '"'
  | '\\' => some '\\'
  | '/' => some '/'
  | 'b' => some '\x08'
  | 'f' => some '\x0c'
  | 'n' => some '\n'
  | 'r' => some '\r'
  | 't' => some '\t'
  | _ => none

/-- The second half of an escaped pair of surrogates, and the rest. -/
def lowSurrogate? : List Char → Option (Nat × List Char)
  | '\\' :: 'u' :: s => (hex4? s).filter fun r => 0xdc00 ≤ r.1 && r.1 ≤ 0xdfff
  | _ => none

/-- The character written as a code point in hexadecimal, and the rest: one unit, or a pair of surrogates. -/
def codePoint? (s : List Char) : Option (Char × List Char) :=
  match hex4? s with
  | none => none
  | some (high, rest) =>
    if high < 0xd800 ∨ 0xdfff < high then some (Char.ofNat high, rest)
    else if high ≤ 0xdbff then
      (lowSurrogate? rest).map fun r => (Char.ofNat (0x10000 + (high - 0xd800) * 0x400 + (r.1 - 0xdc00)), r.2)
    else none

/-- Whether a character stands for itself in a string. -/
def standsForItself (c : Char) : Bool := 0x20 ≤ c.toNat && c != '"' && c != '\\'

/-- The next character of a string, and the rest. -/
def character? : List Char → Option (Char × List Char)
  | [] => none
  | '\\' :: 'u' :: s => codePoint? s
  | '\\' :: c :: s => (shortEscape? c).map fun e => (e, s)
  | c :: s => if standsForItself c then some (c, s) else none

/-- What follows the next character of a string that is only passed over. -/
def passCharacter? : List Char → Option (List Char)
  | [] => none
  | '\\' :: 'u' :: s => (hex4? s).map Prod.snd
  | '\\' :: c :: s => (shortEscape? c).map fun _ => s
  | c :: s => if standsForItself c then some s else none

theorem hex4?_shorter {s rest : List Char} {n : Nat} (h : hex4? s = some (n, rest)) : rest.length < s.length := by
  unfold hex4? at h
  split at h
  · split at h
    · simp only [Option.some.injEq, Prod.mk.injEq] at h
      simp only [List.length_cons, ← h.2]
      omega
    · cases h
  · cases h

theorem lowSurrogate?_shorter {s rest : List Char} {n : Nat} (h : lowSurrogate? s = some (n, rest)) :
    rest.length < s.length := by
  unfold lowSurrogate? at h
  split at h
  · have := hex4?_shorter (Option.filter_eq_some_iff.mp h).1
    simp only [List.length_cons]
    omega
  · cases h

theorem codePoint?_shorter {s rest : List Char} {c : Char} (h : codePoint? s = some (c, rest)) :
    rest.length < s.length := by
  unfold codePoint? at h
  split at h
  · cases h
  · next high mid hm =>
    have h₁ := hex4?_shorter hm
    split at h
    · simp only [Option.some.injEq, Prod.mk.injEq] at h
      simpa [← h.2] using h₁
    · split at h
      · obtain ⟨⟨n, r⟩, hr, he⟩ := Option.map_eq_some_iff.mp h
        have h₂ := lowSurrogate?_shorter hr
        simp only [Prod.mk.injEq] at he
        rw [← he.2]
        exact Nat.lt_trans h₂ h₁
      · cases h

theorem character?_shorter {s rest : List Char} {c : Char} (h : character? s = some (c, rest)) :
    rest.length < s.length := by
  unfold character? at h
  split at h
  · cases h
  · have := codePoint?_shorter h
    simp only [List.length_cons]
    omega
  · obtain ⟨e, -, he⟩ := Option.map_eq_some_iff.mp h
    simp only [Prod.mk.injEq] at he
    simp only [List.length_cons, ← he.2]
    omega
  · split at h
    · simp only [Option.some.injEq, Prod.mk.injEq] at h
      simp [← h.2]
    · cases h

theorem passCharacter?_shorter {s rest : List Char} (h : passCharacter? s = some rest) : rest.length < s.length := by
  unfold passCharacter? at h
  split at h
  · cases h
  · obtain ⟨⟨n, r⟩, hr, rfl⟩ := Option.map_eq_some_iff.mp h
    have := hex4?_shorter hr
    simp only [List.length_cons]
    omega
  · obtain ⟨e, -, rfl⟩ := Option.map_eq_some_iff.mp h
    simp only [List.length_cons]
    omega
  · split at h
    · cases h
      simp
    · cases h

/-- A string after its opening quote and the characters already read, last first: the whole string, and what follows it. -/
def readString (seen : List Char) (s : List Char) : Option (List Char × List Char) :=
  match s with
  | '"' :: rest => some (seen.reverse, rest)
  | s =>
    match _h : character? s with
    | none => none
    | some (c, rest) => readString (c :: seen) rest
termination_by s.length
decreasing_by exact character?_shorter _h

/-- What follows a string that is only passed over, after its opening quote. -/
def passString (s : List Char) : Option (List Char) :=
  match s with
  | '"' :: rest => some rest
  | s =>
    match _h : passCharacter? s with
    | none => none
    | some rest => passString rest
termination_by s.length
decreasing_by exact passCharacter?_shorter _h

theorem readString_shorter {seen s text rest : List Char} (h : readString seen s = some (text, rest)) :
    rest.length < s.length := by
  fun_induction readString seen s with
  | case1 seen rest' =>
    simp only [Option.some.injEq, Prod.mk.injEq] at h
    simp [← h.2]
  | case2 => cases h
  | case3 seen s _ c mid hc ih => exact Nat.lt_trans (ih h) (character?_shorter hc)

theorem passString_shorter {s rest : List Char} (h : passString s = some rest) : rest.length < s.length := by
  fun_induction passString s with
  | case1 rest' =>
    cases h
    simp
  | case2 => cases h
  | case3 s _ mid hc ih => exact Nat.lt_trans (ih h) (passCharacter?_shorter hc)

end Spreadsheet.Json
