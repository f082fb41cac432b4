import Spreadsheet.Json.Reader

/-!
# Passing over JSON values

A value that nobody asks for is passed over: it has to be well formed, but it may be nested to any depth, its numbers may have
any size and its strings any surrogates. The brackets that are open are kept in a list, so depth costs no more than length.
-/

namespace Spreadsheet.Json

/-- A bracket that is open. -/
inductive Bracket where
  | object
  | array
deriving DecidableEq, Repr

/-- What may come next. -/
inductive Place where
  /-- A value. -/
  | value
  /-- A value, or the end of an array without one. -/
  | first
  /-- A key with its colon. -/
  | key
  /-- A key with its colon, or the end of an object without one. -/
  | firstKey
  /-- What follows a value. -/
  | after
deriving DecidableEq, Repr

/-- A place in a value: what may come next, and the brackets that are open, innermost first. -/
structure Position where
  place : Place
  brackets : List Bracket
deriving DecidableEq, Repr

/-- The words of JSON. -/
def words : List (List Char) := [['t', 'r', 'u', 'e'], ['f', 'a', 'l', 's', 'e'], ['n', 'u', 'l', 'l']]

/-- What follows a string, number or word, given what stands there after blanks. -/
def passScalar (s : List Char) : Option (List Char) :=
  match s with
  | '"' :: rest => passString rest
  | s =>
    match Numeral.read? s with
    | some (_, rest) => some rest
    | none => (words.find? fun w => w.isPrefixOf s).map fun w => s.drop w.length

/-- What follows a key and its colon. -/
def passKey (s : List Char) : Option (List Char) := (expect '"' s).bind fun s => (passString s).bind (expect ':')

namespace Position

/-- A value passed over, or entered if it has brackets. -/
def passValue (brackets : List Bracket) (s : List Char) : Option (Position × List Char) :=
  match expect '\x7b' s with
  | some rest => some (⟨.firstKey, .object :: brackets⟩, rest)
  | none =>
    match expect '[' s with
    | some rest => some (⟨.first, .array :: brackets⟩, rest)
    | none => (passScalar (skipBlank s)).map fun rest => (⟨.after, brackets⟩, rest)

/-- One step on: a bracket, a scalar, a key or a comma. -/
def step (p : Position) (s : List Char) : Option (Position × List Char) :=
  match p.place, p.brackets with
  | .value, brackets => passValue brackets s
  | .first, brackets =>
    match expect ']' s with
    | some rest => some (⟨.after, brackets.tail⟩, rest)
    | none => passValue brackets s
  | .key, brackets => (passKey s).map fun rest => (⟨.value, brackets⟩, rest)
  | .firstKey, brackets =>
    match expect '\x7d' s with
    | some rest => some (⟨.after, brackets.tail⟩, rest)
    | none => (passKey s).map fun rest => (⟨.value, brackets⟩, rest)
  | .after, [] => none
  | .after, .array :: brackets =>
    match expect ',' s with
    | some rest => some (⟨.value, .array :: brackets⟩, rest)
    | none => (expect ']' s).map fun rest => (⟨.after, brackets⟩, rest)
  | .after, .object :: brackets =>
    match expect ',' s with
    | some rest => some (⟨.key, .object :: brackets⟩, rest)
    | none => (expect '\x7d' s).map fun rest => (⟨.after, brackets⟩, rest)

end Position

theorem passScalar_shorter {s rest : List Char} (h : passScalar s = some rest) : rest.length < s.length := by
  unfold passScalar at h
  split at h
  · have := passString_shorter h
    simp only [List.length_cons]
    omega
  · split at h
    · next hn =>
      cases h
      exact Numeral.read?_shorter hn
    · obtain ⟨w, hw, rfl⟩ := Option.map_eq_some_iff.mp h
      obtain ⟨hf, -⟩ := List.find?_eq_some_iff_append.mp hw
      have hp := (List.isPrefixOf_iff_prefix.mp hf).length_le
      have hm : w ∈ words := List.mem_of_find?_eq_some hw
      have hpos : 0 < w.length := by
        simp only [words, List.mem_cons, List.not_mem_nil, or_false] at hm
        rcases hm with rfl | rfl | rfl <;> decide
      rw [List.length_drop]
      omega

theorem passKey_shorter {s rest : List Char} (h : passKey s = some rest) : rest.length < s.length := by
  obtain ⟨s₁, h₁, h⟩ := Option.bind_eq_some_iff.mp h
  obtain ⟨s₂, h₂, h₃⟩ := Option.bind_eq_some_iff.mp h
  exact Nat.lt_trans (expect_shorter h₃) (Nat.lt_trans (passString_shorter h₂) (expect_shorter h₁))

namespace Position

theorem passValue_shorter {brackets : List Bracket} {s rest : List Char} {p : Position}
    (h : passValue brackets s = some (p, rest)) : rest.length < s.length := by
  unfold passValue at h
  split at h
  · next he =>
    simp only [Option.some.injEq, Prod.mk.injEq] at h
    exact h.2 ▸ expect_shorter he
  · split at h
    · next he =>
      simp only [Option.some.injEq, Prod.mk.injEq] at h
      exact h.2 ▸ expect_shorter he
    · obtain ⟨r, hr, he⟩ := Option.map_eq_some_iff.mp h
      simp only [Prod.mk.injEq] at he
      exact he.2 ▸ Nat.lt_of_lt_of_le (passScalar_shorter hr) (length_skipBlank_le s)

theorem step_shorter {p q : Position} {s rest : List Char} (h : p.step s = some (q, rest)) : rest.length < s.length := by
  unfold step at h
  split at h
  · exact passValue_shorter h
  · split at h
    · next he =>
      simp only [Option.some.injEq, Prod.mk.injEq] at h
      exact h.2 ▸ expect_shorter he
    · exact passValue_shorter h
  · obtain ⟨r, hr, he⟩ := Option.map_eq_some_iff.mp h
    simp only [Prod.mk.injEq] at he
    exact he.2 ▸ passKey_shorter hr
  · split at h
    · next he =>
      simp only [Option.some.injEq, Prod.mk.injEq] at h
      exact h.2 ▸ expect_shorter he
    · obtain ⟨r, hr, he⟩ := Option.map_eq_some_iff.mp h
      simp only [Prod.mk.injEq] at he
      exact he.2 ▸ passKey_shorter hr
  · cases h
  · split at h
    · next he =>
      simp only [Option.some.injEq, Prod.mk.injEq] at h
      exact h.2 ▸ expect_shorter he
    · obtain ⟨r, hr, he⟩ := Option.map_eq_some_iff.mp h
      simp only [Prod.mk.injEq] at he
      exact he.2 ▸ expect_shorter hr
  · split at h
    · next he =>
      simp only [Option.some.injEq, Prod.mk.injEq] at h
      exact h.2 ▸ expect_shorter he
    · obtain ⟨r, hr, he⟩ := Option.map_eq_some_iff.mp h
      simp only [Prod.mk.injEq] at he
      exact he.2 ▸ expect_shorter hr

/-- What follows the value that a place lies in. -/
def finish (p : Position) (s : List Char) : Option (List Char) :=
  if p = ⟨.after, []⟩ then some s
  else
    match _h : p.step s with
    | none => none
    | some (q, rest) => finish q rest
termination_by s.length
decreasing_by exact step_shorter _h

theorem length_finish_le {p : Position} {s rest : List Char} (h : p.finish s = some rest) : rest.length ≤ s.length := by
  fun_induction finish p s with
  | case1 s =>
    cases h
    exact Nat.le_refl _
  | case2 => cases h
  | case3 p s hp q mid hq ih => exact Nat.le_trans (ih h) (Nat.le_of_lt (step_shorter hq))

theorem finish_value_shorter {brackets : List Bracket} {s rest : List Char}
    (h : (⟨.value, brackets⟩ : Position).finish s = some rest) : rest.length < s.length := by
  unfold finish at h
  split at h
  · next hp => cases hp
  · split at h
    · cases h
    · next hq => exact Nat.lt_of_le_of_lt (length_finish_le h) (step_shorter hq)

end Position

/-- A reader that passes over a value. -/
def Reader.skip : Reader Unit where
  read s := ((⟨.value, []⟩ : Position).finish s).map fun rest => ((), rest)
  shorter h := by
    obtain ⟨r, hr, he⟩ := Option.map_eq_some_iff.mp h
    simp only [Prod.mk.injEq, true_and] at he
    exact he ▸ Position.finish_value_shorter hr

end Spreadsheet.Json
