import Spreadsheet.Proofs.Json.Number
import Spreadsheet.Proofs.Number.Form

/-!
# Numerals as they are written

A text that writes a numeral is read as that numeral, up to the first character that cannot go on with it (`Numeral.Writes`,
`Numeral.Writes.read?_append`). A finite double is written as the numeral of its shortest decimal (`Numeral.ofFloat`,
`Numeral.writes_ofFloat`), with the zero that a whole number has after its point counted among the digits
(`Numeral.decimal_ofFloat`). So the double nearest to what is written is always the double that was written
(`Numeral.toBits_ofFloat`), whether or not the numeral is one that is read exactly.
-/

namespace Spreadsheet.Json

open Number

namespace Numeral

/-! ## Written numerals -/

/-- A text that writes a numeral: a whole part without a needless zero in front, a fraction with its point if there is any, and an
exponent or none. -/
structure Writes (s : List Char) (n : Numeral) : Prop where
  whole_ne : n.whole ≠ []
  whole_digits : ∀ c ∈ n.whole, c.isDigit = true
  whole_zero : n.whole.head? = some '0' → n.whole = ['0']
  fraction_digits : ∀ c ∈ n.fraction, c.isDigit = true
  parts : ∃ e, Exponent e n.exponent ∧ s = (if n.negative then ['-'] else []) ++ (n.whole ++
    ((if n.fraction = [] then [] else '.' :: n.fraction) ++ e))

/-- What may follow a numeral without going on with it. -/
def Ends (rest : List Char) : Prop := ∀ c ∈ rest.head?, c.isDigit = false ∧ c ≠ '.' ∧ isExponentMark c = false

theorem spanWhole_append_of_head {whole rest : List Char} (hne : whole ≠ []) (hd : ∀ c ∈ whole, c.isDigit = true)
    (hzero : whole.head? = some '0' → whole = ['0']) (hr : ∀ c ∈ rest.head?, c.isDigit = false) :
    spanWhole (whole ++ rest) = (whole, rest) := by
  unfold spanWhole
  split
  · next t heq =>
    cases whole with
    | nil => exact absurd rfl hne
    | cons c whole =>
      cases heq
      cases hzero rfl
      rfl
  · exact Prod.ext (ReadBackAux.takeWhile_append_of_head hd hr) (ReadBackAux.dropWhile_append_of_head hd hr)

theorem spanFraction_append_of_head {fraction rest : List Char} (hd : ∀ c ∈ fraction, c.isDigit = true)
    (hr : ∀ c ∈ rest.head?, c.isDigit = false ∧ c ≠ '.') :
    spanFraction ((if fraction = [] then [] else '.' :: fraction) ++ rest) = (fraction, rest) := by
  have hdigit : ∀ c ∈ rest.head?, c.isDigit = false := fun c hc => (hr c hc).1
  split
  · next hnil =>
    subst hnil
    rw [List.nil_append]
    unfold spanFraction
    split
    · exact absurd rfl (hr '.' rfl).2
    · rfl
  · next hne =>
    have htake := ReadBackAux.takeWhile_append_of_head hd hdigit
    have hdrop := ReadBackAux.dropWhile_append_of_head hd hdigit
    rw [List.cons_append, spanFraction, spanDigits, htake, hdrop, if_neg hne]

theorem spanExponent_append_of_head {e rest : List Char} {k : Int} (h : Exponent e k) (hr : Ends rest) :
    spanExponent (e ++ rest) = (e, rest) := by
  cases h with
  | absent =>
    cases rest with
    | nil => rfl
    | cons c t =>
      have hmark := (hr c rfl).2.2
      rw [List.nil_append, spanExponent, hmark, if_neg (fun h => Bool.false_ne_true h.1)]
  | @written mark sign digits hm hsign hne hd =>
    have hdigit : ∀ c ∈ rest.head?, c.isDigit = false := fun c hc => (hr c hc).1
    have htake := ReadBackAux.takeWhile_append_of_head hd hdigit
    have hdrop := ReadBackAux.dropWhile_append_of_head hd hdigit
    rw [List.cons_append, List.append_assoc, spanExponent, spanSign_append_digits hsign hne hd rest]
    simp only [spanDigits, htake, hdrop, isExponentMark_iff.mpr hm, ne_eq, hne, not_false_eq_true, and_self, if_true, List.cons_append]

theorem spanMinus_append (negative : Bool) {s : List Char} (h : ∀ c ∈ s.head?, c.isDigit = true) :
    spanMinus ((if negative then ['-'] else []) ++ s) = (negative, s) := by
  cases negative
  · rw [if_neg Bool.false_ne_true, List.nil_append]
    unfold spanMinus
    split
    · exact absurd (h '-' rfl) (by decide)
    · rfl
  · rfl

/-- A numeral is read from its text. -/
theorem Writes.read?_append {s rest : List Char} {n : Numeral} (h : Writes s n) (hr : Ends rest) :
    read? (s ++ rest) = some (n, rest) := by
  obtain ⟨hne, hd, hzero, hf, e, he, rfl⟩ := h
  have hexponent := spanExponent_append_of_head he hr
  have hends : ∀ c ∈ (e ++ rest).head?, c.isDigit = false ∧ c ≠ '.' := by
    cases e with
    | nil => exact fun c hc => ⟨(hr c hc).1, (hr c hc).2.1⟩
    | cons d e => exact he.head_ne
  have hfraction := spanFraction_append_of_head hf hends
  have hpoint : ∀ c ∈ ((if n.fraction = [] then [] else '.' :: n.fraction) ++ (e ++ rest)).head?, c.isDigit = false := by
    split
    · exact fun c hc => (hends c hc).1
    · rintro c ⟨⟩
      rfl
  have hwhole := spanWhole_append_of_head hne hd hzero hpoint
  have hhead : ∀ t, ∀ c ∈ (n.whole ++ t).head?, c.isDigit = true := by
    obtain ⟨d, whole, hcons⟩ := List.exists_cons_of_ne_nil hne
    intro t c hc
    rw [hcons] at hc
    cases hc
    exact hd d (by rw [hcons]; exact List.mem_cons_self)
  rw [List.append_assoc, List.append_assoc, List.append_assoc, read?]
  simp only [spanMinus_append n.negative (hhead _), hwhole, hfraction, hexponent, if_neg hne, he.exponent?_eq]
  rfl

/-- A written numeral begins with a minus sign or a digit. -/
theorem Writes.exists_head {s : List Char} {n : Numeral} (h : Writes s n) : ∃ c t, s = c :: t ∧ (c = '-' ∨ c.isDigit = true) := by
  obtain ⟨hne, hd, -, -, e, -, rfl⟩ := h
  obtain ⟨c, whole, hcons⟩ := List.exists_cons_of_ne_nil hne
  split
  · exact ⟨'-', _, rfl, Or.inl rfl⟩
  · rw [hcons]
    exact ⟨c, _, rfl, Or.inr (hd c (by rw [hcons]; exact List.mem_cons_self))⟩

/-! ## Spelt doubles -/

/-- The numeral that digits are written as without an exponent, the last one at place `exponent`. -/
def positional (negative : Bool) (digits : List Char) (exponent : Int) : Numeral :=
  let places := (-exponent).toNat
  if 0 ≤ exponent then ⟨negative, digits ++ List.replicate exponent.toNat '0', ['0'], 0⟩
  else if places < digits.length then ⟨negative, digits.take (digits.length - places), digits.drop (digits.length - places), 0⟩
  else ⟨negative, ['0'], List.replicate (places - digits.length) '0' ++ digits, 0⟩

/-- The numeral that a finite double is written as. -/
def ofFloat (x : Float) : Numeral :=
  let d := shortest .even (magnitude x)
  let digits := Nat.toDigits 10 d.digits
  if Spelling.json.positional d.leadingPlace then positional (isNegative x) digits d.exponent
  else ⟨isNegative x, digits.take 1, digits.drop 1, d.leadingPlace⟩

/-- Only the digits of zero begin with a zero. -/
theorem eq_zero_of_head?_toDigits {n : Nat} (h : (Nat.toDigits 10 n).head? = some '0') : n = 0 := by
  induction n using Nat.strongRecOn with
  | _ n ih =>
    by_cases hsmall : n < 10
    · rw [Nat.toDigits_of_lt_base hsmall] at h
      have hdigit : ∀ m < 10, Nat.digitChar m = '0' → m = 0 := by decide
      exact hdigit n hsmall (Option.some.inj h)
    · have hsplit := Nat.toDigits_of_base_le (b := 10) (by decide) (Nat.le_of_not_lt hsmall)
      rw [hsplit, List.head?_append_of_ne_nil _ Nat.toDigits_ne_nil] at h
      have hzero := ih (n / 10) (by omega) h
      omega

/-- The shortest decimal of nothing has no power of ten. -/
theorem exponent_shortest {tie : Tie} {bits : Nat} (hbits : bits < infinityBits) (h : (shortest tie bits).digits = 0) :
    shortest tie bits = ⟨0, 0⟩ := by
  have hzero : bits = 0 := by
    rw [← toBits_shortest tie hbits, Decimal.toBits, if_pos h]
  subst hzero
  have hexact : (Binary.ofBits 0).exact = ⟨0, 0⟩ := by decide
  rw [shortest, hexact]
  change Decimal.withoutTrailingZeros ⟨0, 0⟩ = _
  rw [Decimal.withoutTrailingZeros, dif_neg (by simp)]

theorem writes_positional (negative : Bool) {n : Nat} {exponent : Int} (h : n = 0 → exponent = 0) :
    Writes ((if negative then ['-'] else []) ++ Spelling.positionalText true (Nat.toDigits 10 n) exponent)
      (positional negative (Nat.toDigits 10 n) exponent) := by
  have hall : ∀ c ∈ Nat.toDigits 10 n, c.isDigit = true := ReadBackAux.isDigit_toDigits
  have hne : Nat.toDigits 10 n ≠ [] := Nat.toDigits_ne_nil
  unfold positional Spelling.positionalText
  dsimp only
  by_cases he : 0 ≤ exponent
  · rw [if_pos he, if_pos he]
    refine ⟨List.append_ne_nil_of_left_ne_nil hne _, List.forall_mem_append.mpr ⟨hall, ReadBackAux.isDigit_zeros _⟩, ?_, ?_, [],
      .absent, ?_⟩
    · intro hhead
      rw [List.head?_append_of_ne_nil _ hne] at hhead
      have hzero := eq_zero_of_head?_toDigits hhead
      subst hzero
      rw [h rfl]
      rfl
    · exact List.forall_mem_singleton.mpr rfl
    · simp
  · rw [if_neg he, if_neg he]
    by_cases hp : (-exponent).toNat < (Nat.toDigits 10 n).length
    · rw [if_pos hp, if_pos hp]
      have hdrop : (Nat.toDigits 10 n).drop ((Nat.toDigits 10 n).length - (-exponent).toNat) ≠ [] := by
        rw [← List.length_pos_iff, List.length_drop]
        omega
      refine ⟨?_, fun c hc => hall c (List.mem_of_mem_take hc), ?_, fun c hc => hall c (List.mem_of_mem_drop hc), [], .absent, ?_⟩
      · rw [← List.length_pos_iff, List.length_take]
        omega
      · intro hhead
        rw [List.head?_take, if_neg (by omega)] at hhead
        have hzero := h (eq_zero_of_head?_toDigits hhead)
        omega
      · rw [if_neg hdrop, List.append_nil]
    · rw [if_neg hp, if_neg hp]
      have hfraction : List.replicate ((-exponent).toNat - (Nat.toDigits 10 n).length) '0' ++ Nat.toDigits 10 n ≠ [] :=
        List.append_ne_nil_of_right_ne_nil _ hne
      refine ⟨List.cons_ne_nil _ _, List.forall_mem_singleton.mpr rfl, fun _ => rfl,
        List.forall_mem_append.mpr ⟨ReadBackAux.isDigit_zeros _, hall⟩, [], .absent, ?_⟩
      rw [if_neg hfraction]
      simp

/-- The exponent that is written for a power of ten stands for it. -/
theorem exponent_written (place : Int) :
    Exponent ('e' :: (if place < 0 then '-' else '+') :: Nat.toDigits 10 place.natAbs) place := by
  have hvalue : Nat.ofDigitChars 10 (Nat.toDigits 10 place.natAbs) 0 = place.natAbs := Nat.ofDigitChars_ten_toDigits
  have hdigits : ∀ c ∈ Nat.toDigits 10 place.natAbs, c.isDigit = true := ReadBackAux.isDigit_toDigits
  split
  · next hneg =>
    have h : Exponent ('e' :: (['-'] ++ Nat.toDigits 10 place.natAbs)) (signedValue ['-'] (Nat.toDigits 10 place.natAbs)) :=
      .written (Or.inl rfl) (Or.inr (Or.inr rfl)) Nat.toDigits_ne_nil hdigits
    rwa [signedValue, if_pos rfl, hvalue, show -(place.natAbs : Int) = place by omega] at h
  · next hpos =>
    have h : Exponent ('e' :: (['+'] ++ Nat.toDigits 10 place.natAbs)) (signedValue ['+'] (Nat.toDigits 10 place.natAbs)) :=
      .written (Or.inl rfl) (Or.inr (Or.inl rfl)) Nat.toDigits_ne_nil hdigits
    rwa [signedValue, if_neg (by decide), hvalue, show (place.natAbs : Int) = place by omega] at h

theorem writes_scientific (negative : Bool) {n : Nat} {place : Int} (h : n ≠ 0) :
    Writes ((if negative then ['-'] else []) ++ Spelling.exponentText (Nat.toDigits 10 n) place)
      ⟨negative, (Nat.toDigits 10 n).take 1, (Nat.toDigits 10 n).drop 1, place⟩ := by
  have hall : ∀ c ∈ Nat.toDigits 10 n, c.isDigit = true := ReadBackAux.isDigit_toDigits
  have hlength := List.length_pos_iff.mpr (Nat.toDigits_ne_nil (n := n) (b := 10))
  refine ⟨?_, fun c hc => hall c (List.mem_of_mem_take hc), ?_, fun c hc => hall c (List.mem_of_mem_drop hc), _,
    exponent_written place, ?_⟩
  · rw [← List.length_pos_iff, List.length_take]
    omega
  · intro hhead
    rw [List.head?_take, if_neg (by decide)] at hhead
    exact absurd (eq_zero_of_head?_toDigits hhead) h
  · have hpoint : (Nat.toDigits 10 n).length ≤ 1 ↔ (Nat.toDigits 10 n).drop 1 = [] := List.drop_eq_nil_iff.symm
    simp only [Spelling.exponentText, hpoint, List.append_assoc]

/-- A finite double is written as its numeral. -/
theorem writes_ofFloat {x : Float} (h : x.isFinite = true) : Writes (Spelling.json.text x).toList (ofFloat x) := by
  have hfinite := (isFinite_iff x).mp h
  have htext : (Spelling.json.text x).toList = (if isNegative x then ['-'] else []) ++ Spelling.json.magnitudeText (magnitude x) := by
    rw [Spelling.text, if_neg (by omega), if_neg (by omega), String.toList_ofList]
  have hmagnitude : Spelling.json.magnitudeText (magnitude x) =
      if Spelling.json.positional (shortest .even (magnitude x)).leadingPlace then
        Spelling.positionalText true (Nat.toDigits 10 (shortest .even (magnitude x)).digits) (shortest .even (magnitude x)).exponent
      else Spelling.exponentText (Nat.toDigits 10 (shortest .even (magnitude x)).digits) (shortest .even (magnitude x)).leadingPlace :=
    rfl
  have hzero := @exponent_shortest .even _ hfinite
  rw [htext, hmagnitude, ofFloat]
  generalize shortest .even (magnitude x) = d at hzero ⊢
  by_cases hpositional : Spelling.json.positional d.leadingPlace = true
  · rw [if_pos hpositional, if_pos hpositional]
    exact writes_positional (isNegative x) fun hd => congrArg Decimal.exponent (hzero hd)
  · rw [if_neg hpositional, if_neg hpositional]
    refine writes_scientific (isNegative x) fun hd => hpositional ?_
    rw [hzero hd]
    decide

theorem decimal_positional (negative : Bool) (n : Nat) (exponent : Int) :
    (positional negative (Nat.toDigits 10 n) exponent).decimal =
      if 0 ≤ exponent then ⟨n * 10 ^ (exponent.toNat + 1), -1⟩ else ⟨n, exponent⟩ := by
  have hvalue : Nat.ofDigitChars 10 (Nat.toDigits 10 n) 0 = n := Nat.ofDigitChars_ten_toDigits
  have hlength := List.length_pos_iff.mpr (Nat.toDigits_ne_nil (n := n) (b := 10))
  unfold positional
  dsimp only
  by_cases he : 0 ≤ exponent
  · rw [if_pos he, if_pos he]
    have hdigits :
        Nat.ofDigitChars 10 (Nat.toDigits 10 n ++ List.replicate exponent.toNat '0' ++ ['0']) 0 = n * 10 ^ (exponent.toNat + 1) := by
      rw [List.append_assoc, ← List.replicate_succ', Nat.ofDigitChars_append, Nat.ofDigitChars_replicate_zero, hvalue, Nat.mul_comm]
    rw [decimal, Decimal.ofParts, hdigits]
    rfl
  · rw [if_neg he, if_neg he]
    by_cases hp : (-exponent).toNat < (Nat.toDigits 10 n).length
    · have hexponent : 0 - (((Nat.toDigits 10 n).drop ((Nat.toDigits 10 n).length - (-exponent).toNat)).length : Int) = exponent := by
        rw [List.length_drop]
        omega
      rw [if_pos hp, decimal, Decimal.ofParts, List.take_append_drop, hvalue, hexponent]
    · have hexponent :
          0 - ((List.replicate ((-exponent).toNat - (Nat.toDigits 10 n).length) '0' ++ Nat.toDigits 10 n).length : Int) = exponent := by
        rw [List.length_append, List.length_replicate]
        omega
      rw [if_neg hp, decimal, Decimal.ofParts, List.singleton_append, ReadBackAux.ofDigitChars_zeros, hvalue, hexponent]

/-- The numeral of a double writes its shortest decimal; a whole number that is written without an exponent has a zero after its point. -/
theorem decimal_ofFloat (x : Float) :
    (ofFloat x).decimal =
      if Spelling.json.positional (shortest .even (magnitude x)).leadingPlace ∧ 0 ≤ (shortest .even (magnitude x)).exponent then
        ⟨(shortest .even (magnitude x)).digits * 10 ^ ((shortest .even (magnitude x)).exponent.toNat + 1), -1⟩
      else shortest .even (magnitude x) := by
  rw [ofFloat]
  generalize shortest .even (magnitude x) = d
  by_cases hpositional : Spelling.json.positional d.leadingPlace = true
  · rw [if_pos hpositional, decimal_positional]
    split
    · next he => rw [if_pos ⟨hpositional, he⟩]
    · next he => rw [if_neg (fun h => he h.2)]
  · have hvalue : Nat.ofDigitChars 10 (Nat.toDigits 10 d.digits) 0 = d.digits := Nat.ofDigitChars_ten_toDigits
    have hlength := List.length_pos_iff.mpr (Nat.toDigits_ne_nil (n := d.digits) (b := 10))
    have hexponent : d.leadingPlace - (((Nat.toDigits 10 d.digits).drop 1).length : Int) = d.exponent := by
      rw [Decimal.leadingPlace, List.length_drop]
      omega
    rw [if_neg hpositional, if_neg (fun h => hpositional h.1), decimal, Decimal.ofParts, List.take_append_drop, hvalue, hexponent]

theorem negative_ofFloat (x : Float) : (ofFloat x).negative = isNegative x := by
  rw [ofFloat]
  split
  · unfold positional
    dsimp only
    split
    · rfl
    · split <;> rfl
  · rfl

/-- Read with correct rounding, the text of a finite double is that double. -/
theorem toBits_ofFloat {x : Float} (h : x.isFinite = true) : (ofFloat x).decimal.toBits = magnitude x := by
  have hshortest := toBits_shortest .even ((isFinite_iff x).mp h)
  rw [decimal_ofFloat]
  split
  · next hwhole =>
    refine (Decimal.toBits_congr ?_).trans hshortest
    obtain ⟨k, hk⟩ := Int.eq_ofNat_of_zero_le hwhole.2
    rw [Decimal.value, Decimal.value, hk, Int.toNat_natCast, zpow_natCast, zpow_neg_one]
    push_cast
    rw [pow_succ]
    field_simp
  · exact hshortest

end Numeral

end Spreadsheet.Json
