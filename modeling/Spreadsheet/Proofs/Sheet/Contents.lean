import Spreadsheet.Cell
import Spreadsheet.Proofs.Formula.Dialogue
import Spreadsheet.Proofs.Formula.Printing

/-!
# Contents and their texts

What a typed text stands for is a formula, a number or the text itself (`Contents.classify?_cases`). The string form of contents
that came from a text stands for the same contents: a formula begins with `=`, a number is spelt without blanks and begins with a
digit or a minus sign, and a text is its own string form (`Contents.classify?_stringForm`). What contents show depends on the
names they read alone (`Contents.value_congr`).
-/

namespace Spreadsheet

/-- A plain text is digits and points. -/
theorem Number.Plain.isDigit_or_eq {s : List Char} (h : Plain s) : ∀ c ∈ s, c.isDigit = true ∨ c = '.' := by
  intro c hc
  cases h with
  | whole hne hd => exact Or.inl (hd c hc)
  | pointed hne hd hf =>
    rcases List.mem_append.mp hc with hc | hc
    · exact Or.inl (hd c hc)
    · rcases List.mem_cons.mp hc with rfl | hc
      · exact Or.inr rfl
      · exact Or.inl (hf c hc)

/-- Only a number gives formulas a number. -/
theorem Value.number?_eq_some_iff {value : Value} {x : Float} : value.number? = some x ↔ value = .number x := by
  cases value <;> simp [number?]

/-- The plain spelling of a finite number has no blanks and does not begin as a formula does. -/
theorem Number.text_plain_chars {x : Float} (h : x.isFinite = true) :
    (∀ c ∈ (Spelling.plain.text x).toList, Text.isBlank c = false) ∧
      ∀ rest, (Spelling.plain.text x).toList ≠ '=' :: rest := by
  obtain ⟨s, htext, hplain, -⟩ := text_plain h
  rw [htext]
  have hblank : ∀ c, c.isDigit = true → Text.isBlank c = false := by
    intro c hc
    by_contra hb
    have hstop := (PrintingAux.stops_of_isBlank (Bool.not_eq_false _ ▸ hb)).1
    rw [PrintingAux.isNameContinue_of_isDigit hc] at hstop
    cases hstop
  refine ⟨?_, ?_⟩
  · intro c hc
    rcases List.mem_append.mp hc with hc | hc
    · split at hc
      · rw [List.mem_singleton.mp hc]
        rfl
      · cases hc
    · rcases hplain.isDigit_or_eq c hc with hd | rfl
      · exact hblank c hd
      · rfl
  · intro rest heq
    obtain ⟨c, t, rfl, hc⟩ := hplain.exists_digit
    split at heq
    · cases heq
    · cases heq
      cases hc

namespace Contents

variable {rules : NameRules} {lookup lookup' : Lookup}

/-- Only empty text is no contents. -/
theorem isEmpty_iff {contents : Contents} : contents.isEmpty = true ↔ contents = .empty := by
  cases contents with
  | text t => simp [isEmpty, empty]
  | number value => simp [isEmpty, empty]
  | formula f => simp [isEmpty, empty]

/-- The ways in which a text is classified. -/
theorem classify?_cases {typed : String} {contents : Contents} (h : classify? rules typed = .ok contents) :
    (∃ rest f, typed.toList = '=' :: rest ∧ Formula.ofTokens? rules (Token.scan rest) = .ok f ∧ contents = .formula f) ∨
    ((∀ rest, typed.toList ≠ '=' :: rest) ∧
      ((∃ value, Number.readFinite? (Text.trim typed.toList) = some value ∧ contents = .number value) ∨
        (Number.readFinite? (Text.trim typed.toList) = none ∧ contents = .text typed))) := by
  unfold classify? at h
  split at h
  · next rest hr =>
    cases hf : Formula.ofTokens? rules (Token.scan rest) with
    | error fault =>
      rw [hf] at h
      cases h
    | ok f =>
      rw [hf] at h
      cases h
      exact Or.inl ⟨rest, f, hr, hf, rfl⟩
  · next hr =>
    refine Or.inr ⟨hr, ?_⟩
    split at h
    · next value hv =>
      cases h
      exact Or.inl ⟨value, hv, rfl⟩
    · next hv =>
      cases h
      exact Or.inr ⟨hv, rfl⟩

/-- A text that is read as a finite number stands for the number, unless it begins as a formula does. -/
theorem classify?_of_readFinite? {typed : String} {value : Float} (htyped : ∀ rest, typed.toList ≠ '=' :: rest)
    (hread : Number.readFinite? (Text.trim typed.toList) = some value) : classify? rules typed = .ok (.number value) := by
  rw [classify?]
  split
  · next rest heq => exact absurd heq (htyped rest)
  · rw [hread]

/-- The string form of what a text stands for stands for the same contents. -/
theorem classify?_stringForm (hi : rules.Idempotent) {typed : String} {contents : Contents}
    (h : classify? rules typed = .ok contents) : classify? rules contents.stringForm = .ok contents := by
  rcases classify?_cases h with ⟨rest, f, -, hf, rfl⟩ | ⟨-, ⟨value, hv, rfl⟩ | ⟨-, rfl⟩⟩
  · have hchars : (stringForm (.formula f)).toList = '=' :: f.canonical.toList := by
      rw [stringForm, String.toList_append]
      rfl
    rw [classify?, hchars]
    simp only [Formula.ofTokens?_scan_canonical hi hf]
    rfl
  · have hfinite : value.isFinite = true := (Option.filter_eq_some_iff.mp hv).2
    obtain ⟨hblank, hformula⟩ := Number.text_plain_chars hfinite
    rw [stringForm]
    refine classify?_of_readFinite? hformula ?_
    rw [Text.trim_eq_self _ hblank, Number.readFinite?_text hfinite]
  · exact h

/-- A formula that a text stands for is made of tokens of the text. -/
theorem exists_ofTokens?_of_classify? {typed : String} {f : Formula} (h : classify? rules typed = .ok (.formula f)) :
    ∃ ts, Formula.ofTokens? rules ts = .ok f := by
  rcases classify?_cases h with ⟨rest, f', -, hf, heq⟩ | ⟨-, ⟨value, -, heq⟩ | ⟨-, heq⟩⟩
  · cases heq
    exact ⟨_, hf⟩
  · cases heq
  · cases heq

/-- Under idempotent rules the names that contents read are normalized already. -/
theorem normalize_of_mem_reads (hi : rules.Idempotent) {typed : String} {contents : Contents}
    (hc : classify? rules typed = .ok contents) {name : String} (hn : name ∈ contents.reads) : rules.normalize name = name := by
  obtain ⟨f, rfl, hn⟩ := mem_reads.mp hn
  obtain ⟨ts, hf⟩ := exists_ofTokens?_of_classify? hc
  exact Formula.normalize_of_mem_names hi hf hn

/-- What contents show depends on the names they read, and on nothing else that can be looked up. -/
theorem value_congr (hi : rules.Idempotent) {typed : String} {contents : Contents} (hc : classify? rules typed = .ok contents)
    (h : ∀ name ∈ contents.reads, lookup name = lookup' name) : contents.value rules lookup = contents.value rules lookup' := by
  cases contents with
  | text t => rfl
  | number value => rfl
  | formula f =>
    have heval : f.evaluate rules lookup = f.evaluate rules lookup' := by
      refine Formula.evaluate_congr ?_
      intro name hn
      rw [normalize_of_mem_reads hi hc hn]
      exact h name hn
    rw [value, value, heval]

end Contents

end Spreadsheet
