import Spreadsheet.Json.Text
import Spreadsheet.Json.Number

/-!
# Reading JSON text

A reader takes one value off the front of a text and leaves the rest; what it leaves is shorter, so that readers can be put
together to loop. Reading is strict: only spaces, tabs and line ends may stand between tokens, no comma may be left over, and
after the outermost value nothing may follow. There is one way to fail.
-/

namespace Spreadsheet.Json

/-- The characters that may stand between tokens. -/
def isBlank (c : Char) : Bool := c == ' ' || c == '\t' || c == '\n' || c == '\r'

/-- A text without the blanks in front of it. -/
def skipBlank (s : List Char) : List Char := s.dropWhile isBlank

theorem length_skipBlank_le (s : List Char) : (skipBlank s).length ≤ s.length := (List.dropWhile_sublist _).length_le

/-- What follows a character, blanks in front of it left aside. -/
def expect (c : Char) (s : List Char) : Option (List Char) :=
  match skipBlank s with
  | [] => none
  | d :: rest => if d = c then some rest else none

theorem expect_shorter {c : Char} {s rest : List Char} (h : expect c s = some rest) : rest.length < s.length := by
  have hle := length_skipBlank_le s
  unfold expect at h
  split at h
  · cases h
  · next hs =>
    split at h
    · cases h
      rw [hs] at hle
      exact hle
    · cases h

/-- A reader of values of a type. -/
structure Reader (α : Type) where
  read : List Char → Option (α × List Char)
  shorter : ∀ {s : List Char} {a : α} {rest : List Char}, read s = some (a, rest) → rest.length < s.length

namespace Reader

variable {α β σ : Type}

/-- A reader that always fails. -/
def fail : Reader α := ⟨fun _ => none, fun h => by cases h⟩

/-- What is read, changed by a function that may refuse it. -/
def filterMap (f : α → Option β) (r : Reader α) : Reader β where
  read s := (r.read s).bind fun (a, rest) => (f a).map fun b => (b, rest)
  shorter h := by
    obtain ⟨⟨a, rest⟩, hr, hb⟩ := Option.bind_eq_some_iff.mp h
    obtain ⟨b, -, he⟩ := Option.map_eq_some_iff.mp hb
    simp only [Prod.mk.injEq] at he
    rw [← he.2]
    exact r.shorter hr

/-- What is read, changed by a function. -/
def map (f : α → β) (r : Reader α) : Reader β := r.filterMap fun a => some (f a)

/-- What the first reader reads, or else the second. -/
def orElse (r₁ r₂ : Reader α) : Reader α where
  read s :=
    match r₁.read s with
    | some result => some result
    | none => r₂.read s
  shorter h := by
    split at h
    · next hr =>
      cases h
      exact r₁.shorter hr
    · exact r₂.shorter h

/-- A string. -/
def string : Reader String where
  read s := ((expect '"' s).bind (readString [])).map fun (text, rest) => (String.ofList text, rest)
  shorter h := by
    obtain ⟨⟨text, rest⟩, hs, he⟩ := Option.map_eq_some_iff.mp h
    obtain ⟨mid, hm, ht⟩ := Option.bind_eq_some_iff.mp hs
    simp only [Prod.mk.injEq] at he
    rw [← he.2]
    exact Nat.lt_trans (readString_shorter ht) (expect_shorter hm)

/-- A number, unless it is too large for a double. -/
def number : Reader Float where
  read s := (Numeral.read? (skipBlank s)).bind fun (n, rest) => n.value?.map fun x => (x, rest)
  shorter {s} _ _ h := by
    obtain ⟨⟨n, rest⟩, hn, hx⟩ := Option.bind_eq_some_iff.mp h
    obtain ⟨x, -, he⟩ := Option.map_eq_some_iff.mp hx
    simp only [Prod.mk.injEq] at he
    rw [← he.2]
    exact Nat.lt_of_lt_of_le (Numeral.read?_shorter hn) (length_skipBlank_le s)

/-- One of the words of JSON. -/
def word (w : List Char) (hw : w ≠ []) : Reader Unit where
  read s := if w.isPrefixOf (skipBlank s) then some ((), (skipBlank s).drop w.length) else none
  shorter {s} _ _ h := by
    have hle := length_skipBlank_le s
    have hpos := List.length_pos_iff.mpr hw
    split at h
    · next hp =>
      have := (List.isPrefixOf_iff_prefix.mp hp).length_le
      simp only [Option.some.injEq, Prod.mk.injEq, true_and] at h
      rw [← h, List.length_drop]
      omega
    · cases h

/-- The word `null`. -/
def null : Reader Unit := word ['n', 'u', 'l', 'l'] (by simp)

/-- An array of one value. -/
def single (r : Reader α) : Reader α where
  read s :=
    (expect '[' s).bind fun s => (r.read s).bind fun (a, s) => (expect ']' s).map fun rest => (a, rest)
  shorter h := by
    obtain ⟨s₁, h₁, h⟩ := Option.bind_eq_some_iff.mp h
    obtain ⟨⟨a, s₂⟩, h₂, h⟩ := Option.bind_eq_some_iff.mp h
    obtain ⟨s₃, h₃, he⟩ := Option.map_eq_some_iff.mp h
    simp only [Prod.mk.injEq] at he
    rw [← he.2]
    exact Nat.lt_trans (expect_shorter h₃) (Nat.lt_trans (r.shorter h₂) (expect_shorter h₁))

/-- An array of two values. -/
def pair (r₁ : Reader α) (r₂ : Reader β) : Reader (α × β) where
  read s :=
    (expect '[' s).bind fun s => (r₁.read s).bind fun (a, s) => (expect ',' s).bind fun s =>
      (r₂.read s).bind fun (b, s) => (expect ']' s).map fun rest => ((a, b), rest)
  shorter h := by
    obtain ⟨s₁, h₁, h⟩ := Option.bind_eq_some_iff.mp h
    obtain ⟨⟨a, s₂⟩, h₂, h⟩ := Option.bind_eq_some_iff.mp h
    obtain ⟨s₃, h₃, h⟩ := Option.bind_eq_some_iff.mp h
    obtain ⟨⟨b, s₄⟩, h₄, h⟩ := Option.bind_eq_some_iff.mp h
    obtain ⟨s₅, h₅, he⟩ := Option.map_eq_some_iff.mp h
    simp only [Prod.mk.injEq] at he
    rw [← he.2]
    exact Nat.lt_trans (expect_shorter h₅) (Nat.lt_trans (r₂.shorter h₄) (Nat.lt_trans (expect_shorter h₃)
      (Nat.lt_trans (r₁.shorter h₂) (expect_shorter h₁))))

/-- A key and the colon after it. -/
def key : Reader String where
  read s := (string.read s).bind fun (k, s) => (expect ':' s).map fun rest => (k, rest)
  shorter h := by
    obtain ⟨⟨k, s₁⟩, h₁, h⟩ := Option.bind_eq_some_iff.mp h
    obtain ⟨s₂, h₂, he⟩ := Option.map_eq_some_iff.mp h
    simp only [Prod.mk.injEq] at he
    rw [← he.2]
    exact Nat.lt_trans (expect_shorter h₂) (string.shorter h₁)

/-- A key with its value, which the key chooses the reader of. -/
def member (value : String → Reader α) : Reader α where
  read s := (key.read s).bind fun (k, s) => (value k).read s
  shorter h := by
    obtain ⟨⟨k, s₁⟩, h₁, h₂⟩ := Option.bind_eq_some_iff.mp h
    exact Nat.lt_trans ((value k).shorter h₂) (key.shorter h₁)

/-- An object of one member, which the key chooses the reader of. -/
def variant (value : String → Reader α) : Reader α where
  read s := (expect '\x7b' s).bind fun s => ((member value).read s).bind fun (a, s) =>
    (expect '\x7d' s).map fun rest => (a, rest)
  shorter h := by
    obtain ⟨s₁, h₁, h⟩ := Option.bind_eq_some_iff.mp h
    obtain ⟨⟨a, s₂⟩, h₂, h⟩ := Option.bind_eq_some_iff.mp h
    obtain ⟨s₃, h₃, he⟩ := Option.map_eq_some_iff.mp h
    simp only [Prod.mk.injEq] at he
    rw [← he.2]
    exact Nat.lt_trans (expect_shorter h₃) (Nat.lt_trans ((member value).shorter h₂) (expect_shorter h₁))

/-- The members of an object after its opening brace, of which there is at least one. Each is taken up into a state, and its key
and that state choose its reader. -/
def members (value : σ → String → Reader σ) (state : σ) (s : List Char) : Option (σ × List Char) :=
  match _h : (member (value state)).read s with
  | none => none
  | some (state, s₁) =>
    match _h₁ : expect ',' s₁ with
    | some s₂ => members value state s₂
    | none => (expect '\x7d' s₁).map fun rest => (state, rest)
termination_by s.length
decreasing_by exact Nat.lt_trans (expect_shorter _h₁) ((member (value _)).shorter _h)

theorem members_shorter {value : σ → String → Reader σ} {state state' : σ} {s rest : List Char}
    (h : members value state s = some (state', rest)) : rest.length < s.length := by
  fun_induction members value state s with
  | case1 => cases h
  | case2 state s state₁ s₁ h₁ s₂ h₂ ih =>
    exact Nat.lt_trans (ih h) (Nat.lt_trans (expect_shorter h₂) ((member (value state)).shorter h₁))
  | case3 state s state₁ s₁ h₁ h₂ =>
    obtain ⟨s₃, h₃, he⟩ := Option.map_eq_some_iff.mp h
    simp only [Prod.mk.injEq] at he
    rw [← he.2]
    exact Nat.lt_trans (expect_shorter h₃) ((member (value state)).shorter h₁)

/-- An object, its members taken up into a state one after the other. -/
def object (value : σ → String → Reader σ) (state : σ) : Reader σ where
  read s := (expect '\x7b' s).bind fun s =>
    match expect '\x7d' s with
    | some rest => some (state, rest)
    | none => members value state s
  shorter h := by
    obtain ⟨s₁, h₁, h⟩ := Option.bind_eq_some_iff.mp h
    split at h
    · next hc =>
      simp only [Option.some.injEq, Prod.mk.injEq] at h
      rw [← h.2]
      exact Nat.lt_trans (expect_shorter hc) (expect_shorter h₁)
    · exact Nat.lt_trans (members_shorter h) (expect_shorter h₁)

/-- A member that may come once: it is read if it was not yet. -/
def once (seen : Option α) (r : Reader α) : Reader (Option α) :=
  match seen with
  | some _ => fail
  | none => r.map some

/-- The value that a whole text is. -/
def readAll (r : Reader α) (text : String) : Option α :=
  match r.read text.toList with
  | some (a, rest) => if (skipBlank rest).isEmpty then some a else none
  | none => none

end Reader

end Spreadsheet.Json
