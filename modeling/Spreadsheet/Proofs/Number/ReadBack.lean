import Spreadsheet.Number.Numeral
import Spreadsheet.Number.Spelling
import Spreadsheet.Proofs.Number.Double
import Spreadsheet.Proofs.Number.Nearest

/-!
# Spelt numbers read back

The shortest decimal of a finite double has that double for its nearest one: the exact decimal has, every cut is tested, and
zeros at the end count for nothing (`toBits_shortest`). Written out without an exponent, a decimal is digits with perhaps a point
among them (`Plain`), and is read as a decimal of the same value. So the plain spelling of a finite double is read as that double,
its sign included (`readFinite?_text`).
-/

namespace Spreadsheet.Number

/-! ## Decimals by their values -/

theorem tens_pos (n : Nat) : 0 < tens n := Nat.pow_pos (by decide)

theorem cast_tens (n : Nat) : (tens n : ℚ) = 10 ^ n := by
  change ((10 ^ n : ℕ) : ℚ) = 10 ^ n
  push_cast
  rfl

namespace Decimal

/-- The quotient that is rounded is the value of the decimal. -/
theorem quotient_eq_value (d : Decimal) :
    ((d.digits * tens d.exponent.toNat : ℕ) : ℚ) / (tens (-d.exponent).toNat : ℕ) = d.value := by
  rw [value, zpow_eq_div 10, Nat.cast_mul, cast_tens, cast_tens, mul_div_assoc]

/-- What is settled from the exponent alone is what rounding would give. -/
theorem toBits_eq_nearestBits (d : Decimal) :
    d.toBits = nearestBits (d.digits * tens d.exponent.toNat) (tens (-d.exponent).toNat) := by
  unfold toBits
  split
  · next hzero =>
    rw [hzero, Nat.zero_mul]
    rfl
  · next hzero =>
    have hlow : (2 : ℚ) ^ d.digits.log2 ≤ d.digits := by exact_mod_cast Nat.log2_self_le hzero
    have hhigh : (d.digits : ℚ) < 2 ^ (d.digits.log2 + 1) := by exact_mod_cast Nat.lt_log2_self
    split
    · next h =>
      obtain ⟨n, hn⟩ := Int.eq_ofNat_of_zero_le h.1
      refine (nearestBits_of_overflow (tens_pos _) ?_).symm
      rw [quotient_eq_value, value, hn, zpow_natCast]
      have hlog : 1024 ≤ d.digits.log2 + 3 * n := by omega
      calc (2 : ℚ) ^ (1024 : ℤ) = 2 ^ 1024 := zpow_ofNat 2 1024
        _ ≤ 2 ^ (d.digits.log2 + 3 * n) := pow_le_pow_right₀ (by norm_num) hlog
        _ = 2 ^ d.digits.log2 * 8 ^ n := by
          rw [pow_add, pow_mul]
          norm_num
        _ ≤ d.digits * 10 ^ n :=
          mul_le_mul hlow (pow_le_pow_left₀ (by norm_num) (by norm_num) n) (by positivity) (by positivity)
    · split
      · next h =>
        obtain ⟨n, hn⟩ := Int.eq_ofNat_of_zero_le (Int.neg_nonneg_of_nonpos (Int.le_of_lt h.1))
        have hexp : d.exponent = -(n : ℤ) := by omega
        refine (nearestBits_of_underflow (tens_pos _) ?_).symm
        rw [quotient_eq_value, value, hexp, zpow_neg, zpow_natCast]
        have hlog : ((d.digits.log2 + 1 : ℕ) : ℤ) + -((3 * n : ℕ) : ℤ) ≤ -1075 := by
          push_cast
          omega
        calc (d.digits : ℚ) * (10 ^ n)⁻¹ < 2 ^ (d.digits.log2 + 1) * (8 ^ n)⁻¹ := by
              refine mul_lt_mul hhigh ?_ (by positivity) (by positivity)
              exact inv_anti₀ (by positivity) (pow_le_pow_left₀ (by norm_num) (by norm_num) n)
          _ = 2 ^ (((d.digits.log2 + 1 : ℕ) : ℤ) + -((3 * n : ℕ) : ℤ)) := by
            rw [zpow_add₀ two_ne_zero, zpow_neg, zpow_natCast, zpow_natCast, pow_mul]
            norm_num
          _ ≤ 2 ^ (-1075 : ℤ) := zpow_le_zpow_right₀ (by norm_num) hlog
      · rfl

/-- Decimals of the same value have the same nearest double. -/
theorem toBits_congr {d d' : Decimal} (h : d.value = d'.value) : d.toBits = d'.toBits := by
  rw [toBits_eq_nearestBits, toBits_eq_nearestBits]
  refine nearestBits_congr (tens_pos _) (tens_pos _) ?_
  rw [quotient_eq_value, quotient_eq_value, h]

/-- A decimal of no more than 53 bits is a double. -/
theorem toBits_of_fits {d : Decimal} {m : Nat} {t : ℤ} (hm : m < 2 ^ 53) (ht : -1074 ≤ t) (ht' : t ≤ 970)
    (h : d.value = m * (2 : ℚ) ^ t) : d.toBits < infinityBits ∧ (Binary.ofBits d.toBits).value = d.value := by
  rw [toBits_eq_nearestBits]
  rw [← quotient_eq_value] at h ⊢
  exact nearestBits_of_fits (tens_pos _) hm ht ht' h

theorem value_withoutTrailingZeros (d : Decimal) : d.withoutTrailingZeros.value = d.value := by
  fun_induction withoutTrailingZeros d with
  | case1 d h ih =>
    have hdigits : (d.digits : ℚ) = (d.digits / 10 : ℕ) * 10 := by
      have hnat : d.digits = d.digits / 10 * 10 := by omega
      exact_mod_cast hnat
    rw [ih, value, value, hdigits, zpow_add₀ (by norm_num), zpow_one]
    ring
  | case2 d h => rfl

end Decimal

/-- The exact decimal of a double is the number that the double stands for. -/
theorem Binary.value_exact (b : Binary) : b.exact.value = b.value := by
  unfold exact
  split
  · next h =>
    simp only [Decimal.value, value, zpow_zero, mul_one]
    rcases h with hpos | hzero
    · have hneg : (-b.exponent).toNat = 0 := by omega
      rw [Nat.shiftLeft_eq, zpow_eq_div 2, hneg, pow_zero, div_one]
      push_cast
      rfl
    · rw [hzero, Nat.zero_shiftLeft, Nat.cast_zero, zero_mul]
  · next h =>
    have hneg : b.exponent < 0 := by
      rw [not_or, not_le] at h
      exact h.1
    obtain ⟨n, hn⟩ := Int.eq_ofNat_of_zero_le (Int.neg_nonneg_of_nonpos (Int.le_of_lt hneg))
    have hexp : b.exponent = -(n : ℤ) := by omega
    simp only [Decimal.value, value]
    rw [hn, Int.toNat_natCast, hexp, zpow_neg, zpow_neg, zpow_natCast, zpow_natCast, show (10 : ℚ) = 5 * 2 by norm_num, mul_pow]
    change ((b.significand * 5 ^ n : ℕ) : ℚ) * _ = _
    push_cast
    field_simp

/-- The shortest decimal of a finite double has that double for its nearest one. -/
theorem toBits_shortest (tie : Tie) {bits : Nat} (h : bits < infinityBits) : (shortest tie bits).toBits = bits := by
  have hexact : (Binary.ofBits bits).exact.toBits = bits := by
    rw [Decimal.toBits_eq_nearestBits]
    refine nearestBits_value h (tens_pos _) ?_
    rw [Decimal.quotient_eq_value, Binary.value_exact]
  have haccepts := @Decimal.accepts_shorten tie (fun d => d.toBits == bits) _ (beq_iff_eq.mpr hexact)
  rw [shortest, Decimal.toBits_congr (Decimal.value_withoutTrailingZeros _)]
  exact beq_iff_eq.mp (haccepts _)

/-! ## Texts without an exponent -/

/-- Digits, and perhaps a point with more digits after it. -/
inductive Plain : List Char → Prop where
  | whole {digits : List Char} (hne : digits ≠ []) (hd : ∀ c ∈ digits, c.isDigit = true) : Plain digits
  | pointed {digits fraction : List Char} (hne : digits ≠ []) (hd : ∀ c ∈ digits, c.isDigit = true)
      (hf : ∀ c ∈ fraction, c.isDigit = true) : Plain (digits ++ '.' :: fraction)

namespace ReadBackAux

variable {p : Char → Bool} {s rest : List Char}

/-- Characters are taken up to the first that does not belong to them. -/
theorem takeWhile_append_of_head (hs : ∀ c ∈ s, p c = true) (hr : ∀ c ∈ rest.head?, p c = false) : (s ++ rest).takeWhile p = s := by
  rw [List.takeWhile_append_of_pos hs]
  cases rest with
  | nil => simp
  | cons c rest => simp [hr c rfl]

theorem dropWhile_append_of_head (hs : ∀ c ∈ s, p c = true) (hr : ∀ c ∈ rest.head?, p c = false) : (s ++ rest).dropWhile p = rest := by
  rw [List.dropWhile_append_of_pos hs]
  cases rest with
  | nil => rfl
  | cons c rest => simp [hr c rfl]

/-- The value of digits is not changed by zeros in front of them. -/
theorem ofDigitChars_zeros (n : Nat) (ds : List Char) :
    Nat.ofDigitChars 10 ('0' :: (List.replicate n '0' ++ ds)) 0 = Nat.ofDigitChars 10 ds 0 := by
  rw [← List.cons_append, ← List.replicate_succ, Nat.ofDigitChars_append, Nat.ofDigitChars_replicate_zero, Nat.mul_zero]

theorem isDigit_toDigits {n : Nat} : ∀ c ∈ Nat.toDigits 10 n, c.isDigit = true :=
  fun _ hc => Nat.isDigit_of_mem_toDigits (by decide) (by decide) hc

theorem isDigit_zeros (n : Nat) : ∀ c ∈ List.replicate n '0', c.isDigit = true := by
  intro c hc
  rw [List.eq_of_mem_replicate hc]
  rfl

end ReadBackAux

open ReadBackAux

/-- Digits alone are a whole number. -/
theorem decimal?_whole {digits : List Char} (hne : digits ≠ []) (hd : ∀ c ∈ digits, c.isDigit = true) :
    decimal? digits = some (.ofParts digits [] 0) := by
  have htake : digits.takeWhile Char.isDigit = digits := List.takeWhile_eq_self_iff.mpr hd
  have hdrop : digits.dropWhile Char.isDigit = [] := List.dropWhile_eq_nil_iff.mpr hd
  simp only [decimal?, htake, hdrop, hne, if_false]
  rfl

/-- Digits on both sides of a point are read as these parts. -/
theorem decimal?_pointed {digits fraction : List Char} (hne : digits ≠ []) (hd : ∀ c ∈ digits, c.isDigit = true)
    (hf : ∀ c ∈ fraction, c.isDigit = true) : decimal? (digits ++ '.' :: fraction) = some (.ofParts digits fraction 0) := by
  have htake : (digits ++ '.' :: fraction).takeWhile Char.isDigit = digits := takeWhile_append_of_head hd (by simp)
  have hdrop : (digits ++ '.' :: fraction).dropWhile Char.isDigit = '.' :: fraction := dropWhile_append_of_head hd (by simp)
  have htakeFraction : fraction.takeWhile Char.isDigit = fraction := List.takeWhile_eq_self_iff.mpr hf
  have hdropFraction : fraction.dropWhile Char.isDigit = [] := List.dropWhile_eq_nil_iff.mpr hf
  simp only [decimal?, htake, hdrop, htakeFraction, hdropFraction, hne, false_and, if_false]
  rfl

/-- A decimal that is written out without an exponent is read as a decimal of the same value. -/
theorem decimal?_positionalText (n : Nat) (e : ℤ) :
    Plain (Spelling.positionalText false (Nat.toDigits 10 n) e) ∧
      ∃ d, decimal? (Spelling.positionalText false (Nat.toDigits 10 n) e) = some d ∧ d.value = Decimal.value ⟨n, e⟩ := by
  have hall : ∀ c ∈ Nat.toDigits 10 n, c.isDigit = true := isDigit_toDigits
  have hne : Nat.toDigits 10 n ≠ [] := Nat.toDigits_ne_nil
  have hvalue : Nat.ofDigitChars 10 (Nat.toDigits 10 n) 0 = n := Nat.ofDigitChars_ten_toDigits
  unfold Spelling.positionalText
  dsimp only
  by_cases he : 0 ≤ e
  · rw [if_pos he, if_neg Bool.false_ne_true, List.append_nil]
    have hdigits : ∀ c ∈ Nat.toDigits 10 n ++ List.replicate e.toNat '0', c.isDigit = true :=
      List.forall_mem_append.mpr ⟨hall, isDigit_zeros _⟩
    have hnil : Nat.toDigits 10 n ++ List.replicate e.toNat '0' ≠ [] := List.append_ne_nil_of_left_ne_nil hne _
    refine ⟨.whole hnil hdigits, _, decimal?_whole hnil hdigits, ?_⟩
    obtain ⟨k, rfl⟩ := Int.eq_ofNat_of_zero_le he
    simp only [Decimal.ofParts, Decimal.value, List.append_nil, Nat.ofDigitChars_append, Nat.ofDigitChars_replicate_zero, hvalue,
      Int.toNat_natCast, List.length_nil, Nat.cast_zero, sub_zero, zpow_zero, mul_one, zpow_natCast]
    push_cast
    ring
  · rw [if_neg he]
    by_cases hp : (-e).toNat < (Nat.toDigits 10 n).length
    · rw [if_pos hp]
      have hwhole : ∀ c ∈ (Nat.toDigits 10 n).take ((Nat.toDigits 10 n).length - (-e).toNat), c.isDigit = true :=
        fun c hc => hall c (List.mem_of_mem_take hc)
      have hfraction : ∀ c ∈ (Nat.toDigits 10 n).drop ((Nat.toDigits 10 n).length - (-e).toNat), c.isDigit = true :=
        fun c hc => hall c (List.mem_of_mem_drop hc)
      have hnil : (Nat.toDigits 10 n).take ((Nat.toDigits 10 n).length - (-e).toNat) ≠ [] := by
        rw [← List.length_pos_iff, List.length_take]
        omega
      refine ⟨.pointed hnil hwhole hfraction, _, decimal?_pointed hnil hwhole hfraction, ?_⟩
      have hexponent : 0 - (((Nat.toDigits 10 n).drop ((Nat.toDigits 10 n).length - (-e).toNat)).length : ℤ) = e := by
        rw [List.length_drop]
        omega
      rw [Decimal.ofParts, List.take_append_drop, hvalue, hexponent]
    · rw [if_neg hp, List.cons_append, List.cons_append]
      have hzero : ∀ c ∈ ['0'], c.isDigit = true := List.forall_mem_singleton.mpr rfl
      have hfraction : ∀ c ∈ List.replicate ((-e).toNat - (Nat.toDigits 10 n).length) '0' ++ Nat.toDigits 10 n, c.isDigit = true :=
        List.forall_mem_append.mpr ⟨isDigit_zeros _, hall⟩
      have hnil : ['0'] ≠ [] := List.cons_ne_nil _ _
      refine ⟨.pointed hnil hzero hfraction, _, decimal?_pointed hnil hzero hfraction, ?_⟩
      have hexponent :
          0 - ((List.replicate ((-e).toNat - (Nat.toDigits 10 n).length) '0' ++ Nat.toDigits 10 n).length : ℤ) = e := by
        rw [List.length_append, List.length_replicate]
        omega
      rw [Decimal.ofParts, List.singleton_append, ofDigitChars_zeros, hvalue, hexponent]

/-! ## The plain spelling -/

/-- A plain text begins with a digit. -/
theorem Plain.exists_digit {s : List Char} (h : Plain s) : ∃ c t, s = c :: t ∧ c.isDigit = true := by
  have hfirst : ∀ digits : List Char, digits ≠ [] → (∀ c ∈ digits, c.isDigit = true) →
      ∀ rest, ∃ c t, digits ++ rest = c :: t ∧ c.isDigit = true := by
    intro digits hne hd rest
    cases digits with
    | nil => exact absurd rfl hne
    | cons c t => exact ⟨c, t ++ rest, rfl, hd c List.mem_cons_self⟩
  cases h with
  | whole hne hd =>
    have h := hfirst s hne hd []
    rwa [List.append_nil] at h
  | pointed hne hd hf => exact hfirst _ hne hd _

/-- A text that begins with neither of their letters is none of the words for infinity and for what is not a number. -/
theorem readMagnitude?_of_ne {c : Char} (hi : c.toLower ≠ 'i') (hn : c.toLower ≠ 'n') (t : List Char) :
    readMagnitude? (c :: t) = (decimal? (c :: t)).map Decimal.toBits := by
  have hword : ∀ (d : Char) (w : List Char), c.toLower ≠ d → String.ofList ((c :: t).map Char.toLower) ≠ String.ofList (d :: w) := by
    intro d w hd h
    have hlist := String.ofList_injective h
    rw [List.map_cons] at hlist
    exact hd (List.cons.inj hlist).1
  have hinf : String.ofList ((c :: t).map Char.toLower) ≠ "inf" := hword 'i' ['n', 'f'] hi
  have hinfinity : String.ofList ((c :: t).map Char.toLower) ≠ "infinity" := hword 'i' ['n', 'f', 'i', 'n', 'i', 't', 'y'] hi
  have hnan : String.ofList ((c :: t).map Char.toLower) ≠ "nan" := hword 'n' ['a', 'n'] hn
  rw [readMagnitude?, if_neg (not_or.mpr ⟨hinf, hinfinity⟩), if_neg hnan]

/-- A digit has no case. -/
theorem toLower_of_isDigit {c : Char} (hc : c.isDigit = true) : c.toLower = c := by
  unfold Char.toLower
  split
  · next hupper =>
    simp only [Char.isDigit, Bool.and_eq_true, decide_eq_true_eq] at hc
    have hle := UInt32.le_trans hupper.1 hc.2
    exact absurd hle (by decide)
  · rfl

/-- A text that begins with a digit is none of the words for infinity and for what is not a number. -/
theorem readMagnitude?_of_digit {c : Char} {t : List Char} (hc : c.isDigit = true) :
    readMagnitude? (c :: t) = (decimal? (c :: t)).map Decimal.toBits := by
  have hne : ∀ d : Char, d.isDigit = false → c.toLower ≠ d := by
    intro d hd h
    rw [toLower_of_isDigit hc] at h
    rw [← h, hc] at hd
    cases hd
  exact readMagnitude?_of_ne (hne 'i' rfl) (hne 'n' rfl) t

/-- A digit is no sign. -/
theorem spanSign_of_digit {c : Char} {t : List Char} (hc : c.isDigit = true) : spanSign (c :: t) = ([], c :: t) := by
  unfold spanSign
  split
  · next heq =>
    cases heq
    cases hc
  · next heq =>
    cases heq
    cases hc
  · rfl

/-- The plain spelling of a finite double: a sign if it is negative, and a plain text that is read as its magnitude. -/
theorem text_plain {x : Float} (h : x.isFinite = true) :
    ∃ s, (Spelling.plain.text x).toList = (if isNegative x then ['-'] else []) ++ s ∧ Plain s ∧
      readMagnitude? s = some (magnitude x) := by
  have hfinite := (isFinite_iff x).mp h
  obtain ⟨hplain, d, hread, hvalue⟩ :=
    decimal?_positionalText (shortest .up (magnitude x)).digits (shortest .up (magnitude x)).exponent
  refine ⟨_, ?_, hplain, ?_⟩
  · rw [Spelling.text, if_neg (by omega), if_neg (by omega), String.toList_ofList]
    rfl
  · obtain ⟨c, t, heq, hc⟩ := hplain.exists_digit
    have hbits : d.toBits = magnitude x := by
      rw [Decimal.toBits_congr hvalue]
      exact toBits_shortest .up hfinite
    rw [heq] at hread ⊢
    rw [readMagnitude?_of_digit hc, hread, Option.map_some, hbits]

/-- The plain spelling of a finite double is read as that double. -/
theorem readFinite?_text {x : Float} (h : x.isFinite = true) : readFinite? (Spelling.plain.text x).toList = some x := by
  obtain ⟨s, htext, hplain, hread⟩ := text_plain h
  have hsign : read? (Spelling.plain.text x).toList = some (ofMagnitude (isNegative x) (magnitude x)) := by
    rw [htext]
    by_cases hn : isNegative x = true
    · rw [if_pos hn, hn]
      change (readMagnitude? s).map (ofMagnitude (decide (['-'] = ['-']))) = _
      rw [hread]
      rfl
    · obtain ⟨c, t, rfl, hc⟩ := hplain.exists_digit
      rw [if_neg hn, List.nil_append, read?, spanSign_of_digit hc]
      change (readMagnitude? (c :: t)).map (ofMagnitude (decide ([] = ['-']))) = _
      rw [hread, Bool.eq_false_iff.mpr hn]
      rfl
  rw [readFinite?, hsign, ofMagnitude_magnitude, Option.filter_some, if_pos h]

/-- A magnitude that is read is finite, or that of an infinity, or the one for what is not a number. -/
theorem readMagnitude?_cases {s : List Char} {bits : Nat} (h : readMagnitude? s = some bits) :
    bits < infinityBits ∨ bits = infinityBits ∨ bits = nanBits := by
  unfold readMagnitude? at h
  dsimp only at h
  split at h
  · cases h
    exact Or.inr (Or.inl rfl)
  · split at h
    · cases h
      exact Or.inr (Or.inr rfl)
    · obtain ⟨d, -, rfl⟩ := Option.map_eq_some_iff.mp h
      rcases Nat.lt_or_eq_of_le d.toBits_le with hlt | heq
      · exact Or.inl hlt
      · exact Or.inr (Or.inl heq)

/-- A finite number that is read without a minus sign is not negative. -/
theorem isNegative_of_readFinite? {c : Char} {t : List Char} {x : Float} (hc : c ≠ '-') (h : readFinite? (c :: t) = some x) :
    x.isFinite = true ∧ isNegative x = false := by
  obtain ⟨hread, hfinite⟩ := Option.filter_eq_some_iff.mp h
  have hsign : (spanSign (c :: t)).1 ≠ ['-'] := by
    unfold spanSign
    split
    · simp
    · next heq =>
      cases heq
      exact absurd rfl hc
    · simp
  have hsplit : read? (c :: t) = (readMagnitude? (spanSign (c :: t)).2).map (ofMagnitude (decide ((spanSign (c :: t)).1 = ['-']))) :=
    rfl
  rw [hsplit, decide_eq_false hsign] at hread
  obtain ⟨bits, hbits, hx⟩ := Option.map_eq_some_iff.mp hread
  subst hx
  refine ⟨hfinite, ?_⟩
  rcases readMagnitude?_cases hbits with hlt | rfl | rfl
  · exact isNegative_ofMagnitude false hlt
  · exact absurd hfinite (by decide)
  · exact absurd hfinite (by decide)

end Spreadsheet.Number
