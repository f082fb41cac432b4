import Spreadsheet.Formula.Basic

/-!
# The names of a formula

Every variable of a formula stands under its normalized name, which the rules admit (`Formula.admits_of_mem_tokens`). Under
idempotent rules that name is normalized for good (`Formula.normalize_of_mem_names`), and the tokens of a formula, taken for the
tokens of a text, make that formula again (`Formula.ofTokens?_tokens`). Which rules a sequence of tokens is held against matters
to its names only (`firstFault?_of_any`).
-/

namespace Spreadsheet

variable {rules : NameRules}

/-- Tokens without a fault have no name that is not admitted. -/
theorem nameFault?_of_faultFrom? {p : Progress} {ts : List Token} (h : faultFrom? rules p ts = none) :
    ∀ t ∈ ts, Progress.nameFault? rules t = none := by
  induction ts generalizing p with
  | nil => exact fun t ht => by cases ht
  | cons t ts ih =>
    obtain ⟨hf, hrest⟩ := faultFrom?_cons_eq_none_iff.mp h
    exact List.forall_mem_cons.mpr ⟨(Progress.fault?_eq_none_iff.mp hf).2.2, ih hrest⟩

theorem nameFault?_of_firstFault? {ts : List Token} (h : firstFault? rules ts = none) :
    ∀ t ∈ ts, Progress.nameFault? rules t = none :=
  nameFault?_of_faultFrom? (firstFault?_eq_none_iff.mp h).2.2.2

/-- Tokens without a fault when all names are accepted have none under rules that admit their names. -/
theorem faultFrom?_of_any {p : Progress} {ts : List Token} (h : faultFrom? .any p ts = none)
    (hn : ∀ t ∈ ts, Progress.nameFault? rules t = none) : faultFrom? rules p ts = none := by
  induction ts generalizing p with
  | nil => exact h
  | cons t ts ih =>
    obtain ⟨hf, hrest⟩ := faultFrom?_cons_eq_none_iff.mp h
    obtain ⟨hname, hnames⟩ := List.forall_mem_cons.mp hn
    obtain ⟨hparen, hadjacency, -⟩ := Progress.fault?_eq_none_iff.mp hf
    exact faultFrom?_cons_eq_none_iff.mpr ⟨Progress.fault?_eq_none_iff.mpr ⟨hparen, hadjacency, hname⟩, ih hrest hnames⟩

theorem firstFault?_of_any {ts : List Token} (h : firstFault? .any ts = none)
    (hn : ∀ t ∈ ts, Progress.nameFault? rules t = none) : firstFault? rules ts = none := by
  rw [firstFault?_eq_none_iff] at h ⊢
  obtain ⟨hlegal, hstart, hend, hfrom⟩ := h
  exact ⟨hlegal, hstart, hend, faultFrom?_of_any hfrom hn⟩

/-- No variable has a fault if the rules admit all names. -/
theorem Progress.nameFault?_eq_none_iff {t : Token} :
    nameFault? rules t = none ↔ ∀ name, t = .var name → rules.admits (rules.normalize name) = true := by
  cases t <;> simp [nameFault?, Token.name?]

namespace Formula

/-- A variable of a formula has the normalized name of a variable of the tokens. -/
theorem exists_var_of_mem_tokens {ts : List Token} {f : Formula} (h : ofTokens? rules ts = .ok f) {name : String}
    (hn : .var name ∈ f.tokens) : ∃ written, .var written ∈ ts ∧ rules.normalize written = name := by
  rw [(ofTokens?_eq_ok h).2, List.mem_map] at hn
  obtain ⟨t, ht, heq⟩ := hn
  cases t with
  | var written =>
    cases heq
    exact ⟨written, ht, rfl⟩
  | number value => cases heq
  | operator op => cases heq
  | openParen => cases heq
  | closeParen => cases heq
  | illegal text => cases heq

/-- A variable of a formula has a name that is admitted as it is. -/
theorem admits_of_mem_tokens {ts : List Token} {f : Formula} (h : ofTokens? rules ts = .ok f) {name : String}
    (hn : .var name ∈ f.tokens) : rules.admits name = true := by
  obtain ⟨written, hwritten, rfl⟩ := exists_var_of_mem_tokens h hn
  exact Progress.nameFault?_eq_none_iff.mp (nameFault?_of_firstFault? (ofTokens?_eq_ok h).1 _ hwritten) written rfl

/-- Under idempotent rules the names of a formula are normalized already. -/
theorem normalize_of_mem_names (hi : rules.Idempotent) {ts : List Token} {f : Formula} (h : ofTokens? rules ts = .ok f)
    {name : String} (hn : name ∈ f.names) : rules.normalize name = name := by
  obtain ⟨written, -, rfl⟩ := exists_var_of_mem_tokens h (mem_names.mp hn)
  exact hi written

/-- Under idempotent rules the tokens of a formula are normalized already. -/
theorem mapName_of_mem_tokens (hi : rules.Idempotent) {ts : List Token} {f : Formula} (h : ofTokens? rules ts = .ok f) {t : Token}
    (ht : t ∈ f.tokens) : t.mapName rules.normalize = t := by
  cases t with
  | var name => rw [Token.mapName, normalize_of_mem_names hi h (mem_names.mpr ht)]
  | number value => rfl
  | operator op => rfl
  | openParen => rfl
  | closeParen => rfl
  | illegal text => rfl

/-- Under idempotent rules the tokens of a formula have no names that are not admitted. -/
theorem nameFault?_of_mem_tokens (hi : rules.Idempotent) {ts : List Token} {f : Formula} (h : ofTokens? rules ts = .ok f) {t : Token}
    (ht : t ∈ f.tokens) : Progress.nameFault? rules t = none := by
  refine Progress.nameFault?_eq_none_iff.mpr fun name hname => ?_
  subst hname
  rw [normalize_of_mem_names hi h (mem_names.mpr ht)]
  exact admits_of_mem_tokens h ht

/-- Tokens make a formula exactly if no fault is found in them. -/
theorem exists_ofTokens?_iff {ts : List Token} : (∃ f, ofTokens? rules ts = .ok f) ↔ firstFault? rules ts = none := by
  constructor
  · rintro ⟨f, h⟩
    exact (ofTokens?_eq_ok h).1
  · intro h
    unfold ofTokens?
    split
    · next fault hfault => cases h.symm.trans hfault
    · exact ⟨_, rfl⟩

/-- Normalized tokens without a fault make a formula of these tokens. -/
theorem exists_ofTokens? {ts : List Token} (hfault : firstFault? rules ts = none)
    (hnormal : ∀ t ∈ ts, t.mapName rules.normalize = t) : ∃ f, ofTokens? rules ts = .ok f ∧ f.tokens = ts := by
  obtain ⟨f, hf⟩ := exists_ofTokens?_iff.mpr hfault
  refine ⟨f, hf, ?_⟩
  rw [(ofTokens?_eq_ok hf).2, List.map_congr_left hnormal, List.map_id']

/-- Under idempotent rules the tokens of a formula make that formula again. -/
theorem ofTokens?_tokens (hi : rules.Idempotent) {ts : List Token} {f : Formula}
    (h : ofTokens? rules ts = .ok f) : ofTokens? rules f.tokens = .ok f := by
  have hfault := firstFault?_of_any f.faultless fun _ ht => nameFault?_of_mem_tokens hi h ht
  obtain ⟨f', hf', htokens⟩ := exists_ofTokens? hfault fun _ ht => mapName_of_mem_tokens hi h ht
  rw [hf', ext htokens]

end Formula

end Spreadsheet
