import Spreadsheet.Json.Skip

/-!
# What is read could be passed over

A reader that asks for a value and one that passes over it end at the same place. Passing over goes on in the same way whatever brackets
are open around a value (`Position.finish_within`), so that a value is passed over wherever it stands (`Passed`). A string of characters
is one of escapes, whether or not the escapes are looked at as surrogates, and so it is passed over; what is put together of passable
readers is passable again (`Reader.Passable`).
-/

namespace Spreadsheet.Json

/-! ## What is expected -/

theorem expect_eq_some_iff {c : Char} {s rest : List Char} : expect c s = some rest ↔ skipBlank s = c :: rest := by
  unfold expect
  split
  · next h => simp [h]
  · next d rest' h =>
    rw [h]
    split
    · next hd => simp [hd]
    · next hd => simp [hd]

/-- Another character that stands there is not the one expected. -/
theorem expect_eq_none_of_ne {c d : Char} {s rest : List Char} (h : skipBlank s = d :: rest) (hne : d ≠ c) : expect c s = none := by
  rw [expect, h]
  exact if_neg hne

/-! ## Strings -/

/-- The escape of a code point is passed over in one step or, if it is a pair of surrogates, in two. -/
theorem hex4?_of_codePoint? {s rest : List Char} {c : Char} (h : codePoint? s = some (c, rest)) :
    (∃ n, hex4? s = some (n, rest)) ∨
      ∃ n mid low, hex4? s = some (n, '\\' :: 'u' :: mid) ∧ hex4? mid = some (low, rest) := by
  unfold codePoint? at h
  split at h
  · cases h
  · next high mid hhigh =>
    split at h
    · simp only [Option.some.injEq, Prod.mk.injEq] at h
      exact Or.inl ⟨high, h.2 ▸ hhigh⟩
    · split at h
      · obtain ⟨⟨low, rest'⟩, hlow, he⟩ := Option.map_eq_some_iff.mp h
        simp only [Prod.mk.injEq] at he
        rw [he.2] at hlow
        unfold lowSurrogate? at hlow
        split at hlow
        · exact Or.inr ⟨high, _, low, hhigh, (Option.filter_eq_some_iff.mp hlow).1⟩
        · cases hlow
      · cases h

/-- A string goes on after what is passed over of it. -/
theorem passString_of_passCharacter? {s rest : List Char} (hs : s.head? ≠ some '"') (h : passCharacter? s = some rest) :
    passString s = passString rest := by
  rw [passString]
  · split
    · next hnone =>
      rw [h] at hnone
      cases hnone
    · next hsome =>
      rw [h] at hsome
      cases hsome
      rfl
  · rintro rest' rfl
    exact hs rfl

/-- A character that is read is passed over. -/
theorem passString_of_character? {s rest : List Char} {c : Char} (hs : s.head? ≠ some '"') (h : character? s = some (c, rest)) :
    passString s = passString rest := by
  unfold character? at h
  split at h
  · cases h
  · next s =>
    rcases hex4?_of_codePoint? h with ⟨n, hn⟩ | ⟨n, mid, low, hn, hlow⟩
    · exact passString_of_passCharacter? hs (by rw [passCharacter?, hn]; rfl)
    · have hhigh : passCharacter? ('\\' :: 'u' :: s) = some ('\\' :: 'u' :: mid) := by
        rw [passCharacter?, hn]
        rfl
      rw [passString_of_passCharacter? hs hhigh]
      exact passString_of_passCharacter? (by simp) (by rw [passCharacter?, hlow]; rfl)
  · next d s hu =>
    obtain ⟨e, he, heq⟩ := Option.map_eq_some_iff.mp h
    cases heq
    refine passString_of_passCharacter? hs ?_
    rw [passCharacter?, he]
    · rfl
    · exact hu
  · next d s hescape hunicode =>
    split at h
    · next hself =>
      cases h
      refine passString_of_passCharacter? hs ?_
      rw [passCharacter?, if_pos hself]
      · exact hescape
      · exact hunicode
    · cases h

/-- A string that is read is passed over. -/
theorem passString_of_readString {seen s text rest : List Char} (h : readString seen s = some (text, rest)) :
    passString s = some rest := by
  fun_induction readString seen s with
  | case1 seen rest' =>
    cases h
    rw [passString]
  | case2 => cases h
  | case3 seen s hquote c mid hc ih =>
    have hs : s.head? ≠ some '"' := by
      cases s with
      | nil => simp
      | cons d s =>
        intro hd
        cases hd
        exact hquote s rfl
    rw [passString_of_character? hs hc]
    exact ih h

/-! ## Values -/

namespace Position

/-- What a place says of the brackets that are open: the first value belongs to an array, a key to an object. -/
def Fits : Position → Prop
  | ⟨.first, brackets⟩ => ∃ outer, brackets = .array :: outer
  | ⟨.key, brackets⟩ | ⟨.firstKey, brackets⟩ => ∃ outer, brackets = .object :: outer
  | ⟨.value, _⟩ | ⟨.after, _⟩ => True

/-- The same place with more brackets open around it. -/
def within (outer : List Bracket) (p : Position) : Position := ⟨p.place, p.brackets ++ outer⟩

theorem finish_after_nil (s : List Char) : (⟨.after, []⟩ : Position).finish s = some s := by
  rw [finish, if_pos rfl]

/-- One step on is on the way to what follows. -/
theorem finish_of_step {p q : Position} {s rest : List Char} (hp : p ≠ ⟨.after, []⟩) (h : p.step s = some (q, rest)) :
    p.finish s = q.finish rest := by
  rw [finish, if_neg hp]
  split
  · next hnone =>
    rw [h] at hnone
    cases hnone
  · next hsome =>
    rw [h] at hsome
    cases hsome
    rfl

/-- Nothing follows where no step can be taken. -/
theorem finish_of_stuck {p : Position} {s : List Char} (hp : p ≠ ⟨.after, []⟩) (h : p.step s = none) : p.finish s = none := by
  rw [finish, if_neg hp]
  split
  · rfl
  · next hsome =>
    rw [h] at hsome
    cases hsome

/-- Places with the same next step have the same end. -/
theorem finish_congr {p q : Position} {s : List Char} (hp : p ≠ ⟨.after, []⟩) (hq : q ≠ ⟨.after, []⟩) (h : p.step s = q.step s) :
    p.finish s = q.finish s := by
  cases hstep : q.step s with
  | none => rw [finish_of_stuck hp (h.trans hstep), finish_of_stuck hq hstep]
  | some r => rw [finish_of_step hp (h.trans hstep), finish_of_step hq hstep]

/-- What leads to one place leads to that place with more brackets around it. -/
theorem map_within {p q : Position} {o : Option (List Char)} {rest : List Char} (hp : p.Fits)
    (h : o.map (fun rest => (p, rest)) = some (q, rest)) (outer : List Bracket) :
    o.map (fun rest => (p.within outer, rest)) = some (q.within outer, rest) ∧ q.Fits := by
  obtain ⟨r, rfl, he⟩ := Option.map_eq_some_iff.mp h
  cases he
  exact ⟨rfl, hp⟩

/-- A value is passed over or entered whatever brackets are open around it. -/
theorem passValue_within {brackets : List Bracket} {s rest : List Char} {q : Position} (h : passValue brackets s = some (q, rest))
    (outer : List Bracket) : passValue (brackets ++ outer) s = some (q.within outer, rest) ∧ q.Fits := by
  unfold passValue at h ⊢
  split at h
  · cases h
    exact ⟨rfl, brackets, rfl⟩
  · split at h
    · cases h
      exact ⟨rfl, brackets, rfl⟩
    · exact map_within (p := ⟨.after, brackets⟩) trivial h outer

/-- A step is the same step whatever brackets are open around it, and leads to a place that fits again. -/
theorem step_within {p q : Position} {s rest : List Char} (hp : p.Fits) (h : p.step s = some (q, rest)) (outer : List Bracket) :
    (p.within outer).step s = some (q.within outer, rest) ∧ q.Fits := by
  obtain ⟨place, brackets⟩ := p
  cases place with
  | value => exact passValue_within h outer
  | first =>
    obtain ⟨brackets, rfl⟩ := hp
    simp only [step, within, List.cons_append] at h ⊢
    split at h
    · cases h
      exact ⟨rfl, trivial⟩
    · exact passValue_within h outer
  | key =>
    obtain ⟨brackets, rfl⟩ := hp
    exact map_within (p := ⟨.value, .object :: brackets⟩) trivial h outer
  | firstKey =>
    obtain ⟨brackets, rfl⟩ := hp
    simp only [step, within, List.cons_append] at h ⊢
    split at h
    · cases h
      exact ⟨rfl, trivial⟩
    · exact map_within (p := ⟨.value, .object :: brackets⟩) trivial h outer
  | after =>
    cases brackets with
    | nil => cases h
    | cons bracket brackets =>
      cases bracket with
      | array =>
        simp only [step, within, List.cons_append] at h ⊢
        split at h
        · cases h
          exact ⟨rfl, trivial⟩
        · exact map_within (p := ⟨.after, brackets⟩) trivial h outer
      | object =>
        simp only [step, within, List.cons_append] at h ⊢
        split at h
        · cases h
          exact ⟨rfl, brackets, rfl⟩
        · exact map_within (p := ⟨.after, brackets⟩) trivial h outer

/-- What follows the value that a place lies in is reached in the same way with brackets open around the value, and then the value is
behind. -/
theorem finish_within {p : Position} {s rest : List Char} (hp : p.Fits) (h : p.finish s = some rest) (outer : List Bracket) :
    (p.within outer).finish s = (⟨.after, outer⟩ : Position).finish rest := by
  fun_induction finish p s with
  | case1 s =>
    cases h
    rfl
  | case2 => cases h
  | case3 p s hne q mid hq ih =>
    obtain ⟨hstep, hfits⟩ := step_within hp hq outer
    have hne' : p.within outer ≠ ⟨.after, []⟩ := by
      intro heq
      cases p
      simp only [within, mk.injEq, List.append_eq_nil_iff] at heq
      exact hne (by rw [heq.1, heq.2.1])
    rw [finish_of_step hne' hstep]
    exact ih hfits h

end Position

/-- A value at the front of a text is passed over, up to a rest, whatever brackets are open around it. -/
def Passed (s rest : List Char) : Prop :=
  ∀ brackets, (⟨.value, brackets⟩ : Position).finish s = (⟨.after, brackets⟩ : Position).finish rest

theorem Passed.skip {s rest : List Char} (h : Passed s rest) : Reader.skip.read s = some ((), rest) := by
  change ((⟨.value, []⟩ : Position).finish s).map _ = _
  rw [h [], Position.finish_after_nil]
  rfl

/-- A scalar is passed over in one step. -/
theorem passed_of_passScalar {s rest : List Char} (hobject : expect '\x7b' s = none) (harray : expect '[' s = none)
    (h : passScalar (skipBlank s) = some rest) : Passed s rest := by
  intro brackets
  refine Position.finish_of_step (by simp) ?_
  simp only [Position.step, Position.passValue, hobject, harray, h, Option.map_some]

namespace Reader

variable {α β σ : Type}

/-- What a reader reads, wherever it stands, is passed over up to where the reader ends. -/
def Passable (r : Reader α) : Prop := ∀ s a rest, r.read s = some (a, rest) → Passed s rest

theorem passable_skip : skip.Passable := by
  intro s a rest h brackets
  obtain ⟨r, hr, he⟩ := Option.map_eq_some_iff.mp h
  cases he
  exact Position.finish_within (p := ⟨.value, []⟩) trivial hr brackets

theorem passable_fail : (fail : Reader α).Passable := fun _ _ _ h => by cases h

theorem Passable.filterMap {r : Reader α} (h : r.Passable) (f : α → Option β) : (r.filterMap f).Passable := by
  intro s b rest hread
  obtain ⟨⟨a, rest'⟩, hr, hb⟩ := Option.bind_eq_some_iff.mp hread
  obtain ⟨b', -, he⟩ := Option.map_eq_some_iff.mp hb
  cases he
  exact h _ _ _ hr

theorem Passable.map {r : Reader α} (h : r.Passable) (f : α → β) : (r.map f).Passable := h.filterMap _

theorem Passable.orElse {r r' : Reader α} (h : r.Passable) (h' : r'.Passable) : (r.orElse r').Passable := by
  intro s a rest hread
  simp only [Reader.orElse] at hread
  split at hread
  · next hr =>
    cases hread
    exact h _ _ _ hr
  · exact h' _ _ _ hread

theorem Passable.once {r : Reader α} (h : r.Passable) (seen : Option α) : (once seen r).Passable := by
  cases seen with
  | none => exact h.map some
  | some a => exact passable_fail

/-- What a string is read from: a quote, and characters up to another. -/
theorem exists_quote_of_string {s rest : List Char} {k : String} (h : string.read s = some (k, rest)) :
    ∃ mid, skipBlank s = '"' :: mid ∧ passString mid = some rest := by
  obtain ⟨⟨text, rest'⟩, hs, he⟩ := Option.map_eq_some_iff.mp h
  obtain ⟨mid, hm, ht⟩ := Option.bind_eq_some_iff.mp hs
  cases he
  exact ⟨mid, expect_eq_some_iff.mp hm, passString_of_readString ht⟩

theorem passable_string : string.Passable := by
  intro s k rest h
  obtain ⟨mid, hquote, hpass⟩ := exists_quote_of_string h
  refine passed_of_passScalar (expect_eq_none_of_ne hquote (by decide)) (expect_eq_none_of_ne hquote (by decide)) ?_
  rw [hquote]
  exact hpass

/-- A key that is read is passed over. -/
theorem passKey_of_key {s rest : List Char} {k : String} (h : key.read s = some (k, rest)) : passKey s = some rest := by
  obtain ⟨⟨k', mid⟩, hk, hcolon⟩ := Option.bind_eq_some_iff.mp h
  obtain ⟨rest', hrest, he⟩ := Option.map_eq_some_iff.mp hcolon
  cases he
  obtain ⟨inner, hquote, hpass⟩ := exists_quote_of_string hk
  rw [passKey, expect_eq_some_iff.mpr hquote, Option.bind_some, hpass, Option.bind_some, hrest]

/-- Where a value is passed over, no bracket closes. -/
theorem expect_close_of_passed {s rest : List Char} (h : Passed s rest) : expect ']' s = none := by
  cases hclose : expect ']' s with
  | none => rfl
  | some r =>
    exfalso
    have hs := expect_eq_some_iff.mp hclose
    have hstep : (⟨.value, []⟩ : Position).step s = none := by
      simp only [Position.step, Position.passValue, expect_eq_none_of_ne hs (c := '\x7b') (by decide),
        expect_eq_none_of_ne hs (c := '[') (by decide), hs]
      rfl
    have hfinish := h []
    rw [Position.finish_after_nil, Position.finish_of_stuck (by simp) hstep] at hfinish
    cases hfinish

theorem Passable.single {r : Reader α} (h : r.Passable) : (single r).Passable := by
  intro s a rest hread brackets
  obtain ⟨s₁, h₁, hread⟩ := Option.bind_eq_some_iff.mp hread
  obtain ⟨⟨a', s₂⟩, h₂, hread⟩ := Option.bind_eq_some_iff.mp hread
  obtain ⟨s₃, h₃, he⟩ := Option.map_eq_some_iff.mp hread
  cases he
  have hopen := expect_eq_some_iff.mp h₁
  have hpassed := h _ _ _ h₂
  have hcomma : expect ',' s₂ = none := expect_eq_none_of_ne (expect_eq_some_iff.mp h₃) (by decide)
  have hobject : expect '\x7b' s = none := expect_eq_none_of_ne hopen (by decide)
  calc (⟨.value, brackets⟩ : Position).finish s
      = (⟨.first, .array :: brackets⟩ : Position).finish s₁ :=
        Position.finish_of_step (by simp) (by simp only [Position.step, Position.passValue, hobject, h₁])
    _ = (⟨.value, .array :: brackets⟩ : Position).finish s₁ :=
        Position.finish_congr (by simp) (by simp) (by simp only [Position.step, expect_close_of_passed hpassed])
    _ = (⟨.after, .array :: brackets⟩ : Position).finish s₂ := hpassed _
    _ = (⟨.after, brackets⟩ : Position).finish rest :=
        Position.finish_of_step (by simp) (by simp only [Position.step, hcomma, h₃, Option.map_some])

/-- Members whose values are passable are passed over, one key and value after the other. -/
theorem passed_members {value : σ → String → Reader σ} (hvalue : ∀ state k, (value state k).Passable) {state final : σ}
    {s rest : List Char} (h : members value state s = some (final, rest)) (brackets : List Bracket) :
    (⟨.key, .object :: brackets⟩ : Position).finish s = (⟨.after, brackets⟩ : Position).finish rest := by
  have hmember : ∀ {state state' : σ} {s rest : List Char}, (member (value state)).read s = some (state', rest) →
      (⟨.key, .object :: brackets⟩ : Position).finish s = (⟨.after, .object :: brackets⟩ : Position).finish rest := by
    intro state state' s rest h
    obtain ⟨⟨k, mid⟩, hk, hv⟩ := Option.bind_eq_some_iff.mp h
    have hstep : (⟨.key, .object :: brackets⟩ : Position).step s = some (⟨.value, .object :: brackets⟩, mid) := by
      simp only [Position.step, passKey_of_key hk, Option.map_some]
    rw [Position.finish_of_step (by simp) hstep]
    exact hvalue state k _ _ _ hv _
  fun_induction members value state s with
  | case1 => cases h
  | case2 state s state₁ s₁ h₁ s₂ h₂ ih =>
    have hstep : (⟨.after, .object :: brackets⟩ : Position).step s₁ = some (⟨.key, .object :: brackets⟩, s₂) := by
      simp only [Position.step, h₂]
    rw [hmember h₁, Position.finish_of_step (by simp) hstep]
    exact ih h
  | case3 state s state₁ s₁ h₁ h₂ =>
    obtain ⟨s₃, h₃, he⟩ := Option.map_eq_some_iff.mp h
    cases he
    rw [hmember h₁]
    exact Position.finish_of_step (by simp) (by simp only [Position.step, h₂, h₃, Option.map_some])

theorem passable_object {value : σ → String → Reader σ} (hvalue : ∀ state k, (value state k).Passable) (state : σ) :
    (object value state).Passable := by
  intro s final rest hread brackets
  obtain ⟨s₁, h₁, hread⟩ := Option.bind_eq_some_iff.mp hread
  have hstep : (⟨.value, brackets⟩ : Position).step s = some (⟨.firstKey, .object :: brackets⟩, s₁) := by
    simp only [Position.step, Position.passValue, h₁]
  rw [Position.finish_of_step (by simp) hstep]
  split at hread
  · next hclose =>
    cases hread
    exact Position.finish_of_step (by simp) (by simp only [Position.step, hclose, List.tail_cons])
  · next hclose =>
    rw [← passed_members hvalue hread brackets]
    exact Position.finish_congr (by simp) (by simp) (by simp only [Position.step, hclose])

end Reader

end Spreadsheet.Json
