import Spreadsheet.Number.Numeral
import Spreadsheet.Proofs.Number.ReadBack

/-!
# The form of numerals

A numeral is a mantissa, digits with at most one point, and perhaps an exponent, a mark with a sign or none and at least one digit.
These forms are given here as relations between a text and its parts (`Mantissa`, `Exponent`, `Numeral`), apart from how texts are cut.
What is cut off as a numeral is of the form, and nothing longer at the front of the text is (`longest_spanNumeral`): a longer mantissa
would have to go on after the last digit or the only point, and an exponent after a shorter mantissa would have to start with a digit
or a point. A numeral is read as the decimal of its parts, if its mantissa has a digit at all (`Numeral.decimal?_eq`).
-/

namespace Spreadsheet.Number

/-- A mantissa and its digits before and after the point: digits, or a point with perhaps digits around it. -/
inductive Mantissa : List Char → List Char → List Char → Prop where
  | whole {digits : List Char} (hne : digits ≠ []) (hd : ∀ c ∈ digits, c.isDigit = true) : Mantissa digits digits []
  | pointed {digits fraction : List Char} (hd : ∀ c ∈ digits, c.isDigit = true) (hf : ∀ c ∈ fraction, c.isDigit = true) :
      Mantissa (digits ++ '.' :: fraction) digits fraction

/-- What may follow a mantissa, and the power of ten that it stands for: nothing, or a mark, a sign or none, and digits. -/
inductive Exponent : List Char → Int → Prop where
  | absent : Exponent [] 0
  | written {mark : Char} {sign digits : List Char} (hm : mark = 'e' ∨ mark = 'E') (hs : sign = [] ∨ sign = ['+'] ∨ sign = ['-'])
      (hne : digits ≠ []) (hd : ∀ c ∈ digits, c.isDigit = true) : Exponent (mark :: (sign ++ digits)) (signedValue sign digits)

/-- A numeral with the digits before and after its point and its power of ten. -/
inductive Numeral : List Char → List Char → List Char → Int → Prop where
  | intro {mantissa rest digits fraction : List Char} {exponent : Int} (hm : Mantissa mantissa digits fraction)
      (he : Exponent rest exponent) : Numeral (mantissa ++ rest) digits fraction exponent

/-- A text that is a numeral as a whole. -/
def IsNumeral (s : List Char) : Prop := ∃ digits fraction exponent, Numeral s digits fraction exponent

/-- The longest beginning of a text that has a property. -/
structure LongestPrefix (p : List Char → Prop) (l s : List Char) : Prop where
  holds : p l
  isPrefix : l <+: s
  longest : ∀ l', p l' → l' <+: s → l'.length ≤ l.length

/-- A text has at most one longest beginning with a property. -/
theorem LongestPrefix.unique {p : List Char → Prop} {l l' s : List Char} (h : LongestPrefix p l s) (h' : LongestPrefix p l' s) :
    l = l' := by
  have hle := h'.longest l h.holds h.isPrefix
  have hge := h.longest l' h'.holds h'.isPrefix
  exact (List.prefix_of_prefix_length_le h.isPrefix h'.isPrefix hle).eq_of_length (Nat.le_antisymm hle hge)

/-- What stands at the front of a text and consists of characters of a kind is taken with all of that kind. -/
theorem prefix_takeWhile {p : Char → Bool} {l s : List Char} (hl : ∀ c ∈ l, p c = true) (h : l <+: s) : l <+: s.takeWhile p := by
  obtain ⟨t, rfl⟩ := h
  rw [List.takeWhile_append_of_pos hl]
  exact List.prefix_append l _

/-! ## Mantissas -/

theorem Mantissa.isDigit_or_eq {s digits fraction : List Char} (h : Mantissa s digits fraction) :
    ∀ c ∈ s, c.isDigit = true ∨ c = '.' := by
  cases h with
  | whole hne hd => exact fun c hc => Or.inl (hd c hc)
  | pointed hd hf =>
    intro c hc
    rcases List.mem_append.mp hc with hc | hc
    · exact Or.inl (hd c hc)
    · rcases List.mem_cons.mp hc with rfl | hc
      · exact Or.inr rfl
      · exact Or.inl (hf c hc)

/-- What is cut off as a mantissa is one, if it is anything. -/
theorem mantissa_spanMantissa {s : List Char} (h : (spanMantissa s).1 ≠ []) :
    ∃ digits fraction, Mantissa (spanMantissa s).1 digits fraction := by
  have htake : ∀ t : List Char, ∀ c ∈ t.takeWhile Char.isDigit, c.isDigit = true := fun t c hc => List.mem_takeWhile_imp hc
  unfold spanMantissa at h ⊢
  split
  · exact ⟨_, _, .pointed (htake s) (htake _)⟩
  · next hpoint =>
    refine ⟨_, _, .whole ?_ (htake s)⟩
    split at h
    · next heq => exact absurd heq (hpoint _)
    · exact h

/-- Every mantissa at the front of a text is within the one that is cut off. -/
theorem Mantissa.prefix_spanMantissa {m s digits fraction : List Char} (h : Mantissa m digits fraction) (hs : m <+: s) :
    m <+: (spanMantissa s).1 := by
  cases h with
  | whole hne hd =>
    have hdigits := prefix_takeWhile hd hs
    unfold spanMantissa
    split
    · exact hdigits.trans (List.prefix_append _ _)
    · exact hdigits
  | pointed hd hf =>
    obtain ⟨t, rfl⟩ := hs
    have htake : (digits ++ '.' :: (fraction ++ t)).takeWhile Char.isDigit = digits :=
      ReadBackAux.takeWhile_append_of_head hd (by simp)
    have hdrop : (digits ++ '.' :: (fraction ++ t)).dropWhile Char.isDigit = '.' :: (fraction ++ t) :=
      ReadBackAux.dropWhile_append_of_head hd (by simp)
    rw [List.append_assoc, List.cons_append, spanMantissa, hdrop, htake]
    exact (List.prefix_append_right_inj _).mpr ((List.prefix_cons_inj '.').mpr (prefix_takeWhile hf (List.prefix_append fraction t)))

/-! ## Exponents -/

theorem isExponentMark_iff {c : Char} : isExponentMark c = true ↔ c = 'e' ∨ c = 'E' := by
  simp [isExponentMark]

/-- What is cut off as an exponent is one. -/
theorem exponent_spanExponent (s : List Char) : ∃ n, Exponent (spanExponent s).1 n := by
  unfold spanExponent
  split
  · exact ⟨0, .absent⟩
  · next c t =>
    split
    · next h =>
      have hsign : (spanSign t).1 = [] ∨ (spanSign t).1 = ['+'] ∨ (spanSign t).1 = ['-'] := by
        unfold spanSign
        split <;> simp
      exact ⟨_, .written (isExponentMark_iff.mp h.1) hsign h.2 fun d hd => List.mem_takeWhile_imp hd⟩
    · exact ⟨0, .absent⟩

/-- A sign before digits is cut off from them. -/
theorem spanSign_append_digits {sign digits : List Char} (hs : sign = [] ∨ sign = ['+'] ∨ sign = ['-']) (hne : digits ≠ [])
    (hd : ∀ c ∈ digits, c.isDigit = true) (t : List Char) : spanSign (sign ++ (digits ++ t)) = (sign, digits ++ t) := by
  rcases hs with rfl | rfl | rfl
  · cases digits with
    | nil => exact absurd rfl hne
    | cons c digits => exact spanSign_of_digit (hd c List.mem_cons_self)
  · rfl
  · rfl

/-- No exponent at the front of a text is longer than the one that is cut off. -/
theorem Exponent.length_le_spanExponent {e s : List Char} {n : Int} (h : Exponent e n) (hs : e <+: s) :
    e.length ≤ (spanExponent s).1.length := by
  cases h with
  | absent => exact Nat.zero_le _
  | @written mark sign digits hm hsign hne hd =>
    obtain ⟨t, rfl⟩ := hs
    have hdigits := prefix_takeWhile hd (List.prefix_append digits t)
    have hnext : (digits ++ t).takeWhile Char.isDigit ≠ [] := fun hnil => hne (List.prefix_nil.mp (hnil ▸ hdigits))
    have hcut := spanSign_append_digits hsign hne hd t
    rw [List.cons_append, List.append_assoc, spanExponent, hcut, if_pos ⟨isExponentMark_iff.mpr hm, hnext⟩]
    have hle := hdigits.length_le
    simp only [spanDigits, List.cons_append, List.length_cons, List.length_append]
    omega

/-- An exponent is read as its value. -/
theorem Exponent.exponent?_eq {e : List Char} {n : Int} (h : Exponent e n) : exponent? e = some n := by
  cases h with
  | absent => rfl
  | @written mark sign digits hm hsign hne hd =>
    have hcut := spanSign_append_digits hsign hne hd []
    rw [List.append_nil] at hcut
    have hall : digits.all Char.isDigit = true := List.all_eq_true.mpr hd
    simp only [exponent?, hcut, isExponentMark_iff.mpr hm, hne, hall, ne_eq, not_false_eq_true, and_self, if_true]

/-- An exponent starts neither with a digit nor with a point. -/
theorem Exponent.head_ne {e : List Char} {n : Int} (h : Exponent e n) : ∀ c ∈ e.head?, c.isDigit = false ∧ c ≠ '.' := by
  cases h with
  | absent => exact fun c hc => by cases hc
  | written hm hsign hne hd =>
    intro c hc
    cases hc
    rcases hm with rfl | rfl <;> decide

/-! ## Numerals -/

/-- A numeral begins with a digit or a point. -/
theorem Numeral.exists_head {s digits fraction : List Char} {n : Int} (h : Numeral s digits fraction n) :
    ∃ c t, s = c :: t ∧ (c.isDigit = true ∨ c = '.') := by
  obtain ⟨hm, he⟩ := h
  rename_i mantissa rest
  cases hm with
  | whole hne hd =>
    obtain ⟨c, t, rfl⟩ := List.exists_cons_of_ne_nil hne
    exact ⟨c, t ++ rest, rfl, Or.inl (hd c List.mem_cons_self)⟩
  | pointed hd hf =>
    cases digits with
    | nil => exact ⟨'.', fraction ++ rest, rfl, Or.inr rfl⟩
    | cons c t => exact ⟨c, t ++ '.' :: fraction ++ rest, rfl, Or.inl (hd c List.mem_cons_self)⟩

/-- What is cut off as a numeral is one and the longest at the front of the text, if there is a mantissa at all. -/
theorem longest_spanNumeral {s : List Char} (h : (spanMantissa s).1 ≠ []) : LongestPrefix IsNumeral (spanNumeral s).1 s := by
  obtain ⟨digits, fraction, hmantissa⟩ := mantissa_spanMantissa h
  obtain ⟨n, hexponent⟩ := exponent_spanExponent (spanMantissa s).2
  refine ⟨⟨digits, fraction, n, .intro hmantissa hexponent⟩, ⟨(spanNumeral s).2, spanNumeral_append s⟩, ?_⟩
  rintro _ ⟨digits', fraction', n', hm, he⟩ hs
  rename_i m e
  obtain ⟨more, hmore⟩ := hm.prefix_spanMantissa ((List.prefix_append m e).trans hs)
  rw [← spanMantissa_append s, ← hmore, List.append_assoc, List.prefix_append_right_inj] at hs
  have hlength : m.length + more.length = (spanMantissa s).1.length := by rw [← hmore, List.length_append]
  simp only [spanNumeral, List.length_append]
  cases more with
  | nil =>
    rw [List.nil_append] at hs
    rw [List.length_nil] at hlength
    have hle := he.length_le_spanExponent hs
    omega
  | cons c more =>
    -- The mantissa goes on with a digit or a point, so what follows the shorter one is no exponent.
    cases e with
    | nil =>
      rw [List.length_nil]
      omega
    | cons d e =>
      rw [List.cons_append, List.cons_prefix_cons] at hs
      obtain ⟨rfl, -⟩ := hs
      have hc := hmantissa.isDigit_or_eq d (by rw [← hmore]; simp)
      have hd := he.head_ne d rfl
      rw [hd.1] at hc
      exact absurd (hc.resolve_left Bool.false_ne_true) hd.2

/-- A numeral writes the decimal of its parts, and none if its mantissa has no digit. -/
theorem Numeral.decimal?_eq {s digits fraction : List Char} {n : Int} (h : Numeral s digits fraction n) :
    decimal? s = if digits = [] ∧ fraction = [] then none else some (.ofParts digits fraction n) := by
  obtain ⟨hm, he⟩ := h
  rename_i mantissa rest
  have hexponent := he.exponent?_eq
  have hstop : ∀ c ∈ rest.head?, c.isDigit = false := fun c hc => (he.head_ne c hc).1
  cases hm with
  | whole hne hd =>
    have htake := ReadBackAux.takeWhile_append_of_head hd hstop
    have hdrop := ReadBackAux.dropWhile_append_of_head hd hstop
    unfold decimal?
    split
    · next heq =>
      rw [hdrop] at heq
      exact absurd rfl (he.head_ne '.' (by rw [heq]; rfl)).2
    · rw [htake, hdrop, hexponent, if_neg hne, if_neg (fun h => hne h.1)]
      rfl
  | pointed hd hf =>
    have htake : (digits ++ '.' :: (fraction ++ rest)).takeWhile Char.isDigit = digits :=
      ReadBackAux.takeWhile_append_of_head hd (by simp)
    have hdrop : (digits ++ '.' :: (fraction ++ rest)).dropWhile Char.isDigit = '.' :: (fraction ++ rest) :=
      ReadBackAux.dropWhile_append_of_head hd (by simp)
    have htake' := ReadBackAux.takeWhile_append_of_head hf hstop
    have hdrop' := ReadBackAux.dropWhile_append_of_head hf hstop
    rw [List.append_assoc, List.cons_append, decimal?, hdrop, htake]
    simp only [htake', hdrop', hexponent, Option.map_some]

/-- A numeral is read as the double nearest to the decimal of its parts, and not at all if its mantissa has no digit. -/
theorem Numeral.read?_eq {s digits fraction : List Char} {n : Int} (h : Numeral s digits fraction n) :
    read? s = if digits = [] ∧ fraction = [] then none else some (ofMagnitude false (Decimal.ofParts digits fraction n).toBits) := by
  have hdecimal := h.decimal?_eq
  obtain ⟨c, t, rfl, hc⟩ := h.exists_head
  have hsign : spanSign (c :: t) = ([], c :: t) := by
    rcases hc with hc | rfl
    · exact spanSign_of_digit hc
    · rfl
  have hmagnitude : readMagnitude? (c :: t) = (decimal? (c :: t)).map Decimal.toBits := by
    rcases hc with hc | rfl
    · exact readMagnitude?_of_digit hc
    · exact readMagnitude?_of_ne (by decide) (by decide) t
  rw [read?, hsign]
  dsimp only
  rw [hmagnitude, hdecimal]
  split <;> rfl

end Spreadsheet.Number
