import Spreadsheet.Proofs.Formula.Grammar
import Spreadsheet.Proofs.Formula.Names
import Spreadsheet.Proofs.Number.ReadBack

/-!
# Printed formulas are read back

A token is printable if it is a symbol, a name or a finite number that is not negative, as all tokens of a text are once they are
found without fault. The text of a printable token is one lexeme when what follows cannot be taken into it (`Token.lexeme_text`).
Two operands never meet in a formula, so its tokens may be printed with any blanks between them, or none: each ends where it
should (`Token.scan_printed`). So the canonical text of a formula is scanned as its tokens (`Formula.scan_canonical`), canonical texts
tell formulas apart as their tokens do (`Formula.beq_iff_tokens_eq`), and under idempotent rules a canonical text is read as the same
formula (`Formula.ofTokens?_scan_canonical`).
-/

namespace Spreadsheet

open Number (Plain spanMantissa spanExponent spanNumeral)
open Number.ReadBackAux (takeWhile_append_of_head dropWhile_append_of_head)

namespace PrintingAux

/-- Neither a name nor a number goes on with what follows. -/
def Stops (rest : List Char) : Prop := ∀ c ∈ rest.head?, isNameContinue c = false ∧ c ≠ '.'

theorem isNameContinue_of_isDigit {c : Char} (h : c.isDigit = true) : isNameContinue c = true := by
  simp [isNameContinue, Char.isAlphanum, h]

/-- What ends a name ends the digits of a number. -/
theorem Stops.isDigit {rest : List Char} (h : Stops rest) : ∀ c ∈ rest.head?, c.isDigit = false := by
  intro c hc
  by_contra hd
  have hcontinue := isNameContinue_of_isDigit (Bool.not_eq_false _ ▸ hd)
  rw [(h c hc).1] at hcontinue
  cases hcontinue

/-- What ends a name is no mark of an exponent. -/
theorem Stops.spanExponent {rest : List Char} (h : Stops rest) : spanExponent rest = ([], rest) := by
  cases rest with
  | nil => rfl
  | cons c t =>
    have hmark : Number.isExponentMark c = false := by
      by_contra hm
      have hc := (h c rfl).1
      simp only [Number.isExponentMark, Bool.not_eq_false, Bool.or_eq_true, beq_iff_eq] at hm
      rcases hm with rfl | rfl <;> cases hc
    simp [Number.spanExponent, hmark]

/-- A plain text is taken whole as a mantissa. -/
theorem spanMantissa_plain {s rest : List Char} (h : Plain s) (hr : Stops rest) : spanMantissa (s ++ rest) = (s, rest) := by
  cases h with
  | whole hne hd =>
    have htake := takeWhile_append_of_head hd hr.isDigit
    have hdrop := dropWhile_append_of_head hd hr.isDigit
    unfold Number.spanMantissa
    split
    · next rest' heq =>
      rw [hdrop] at heq
      exact absurd rfl (hr '.' (by rw [heq]; rfl)).2
    · rw [htake, hdrop]
  | @pointed digits fraction hne hd hf =>
    have htake : (digits ++ '.' :: (fraction ++ rest)).takeWhile Char.isDigit = digits := takeWhile_append_of_head hd (by simp)
    have hdrop : (digits ++ '.' :: (fraction ++ rest)).dropWhile Char.isDigit = '.' :: (fraction ++ rest) :=
      dropWhile_append_of_head hd (by simp)
    rw [List.append_assoc, List.cons_append]
    unfold Number.spanMantissa
    rw [hdrop, htake]
    simp only [takeWhile_append_of_head hf hr.isDigit, dropWhile_append_of_head hf hr.isDigit]

/-- A plain text is one numeral. -/
theorem spanNumeral_plain {s rest : List Char} (h : Plain s) (hr : Stops rest) : spanNumeral (s ++ rest) = (s, rest) := by
  rw [Number.spanNumeral, spanMantissa_plain h hr, hr.spanExponent, List.append_nil]

theorem not_isNumeralStart_of_isNameStart {c : Char} (h : isNameStart c = true) : isNumeralStart c = false := by
  by_contra hn
  simp only [isNumeralStart, Bool.not_eq_false, Bool.or_eq_true, beq_iff_eq] at hn
  rcases hn with hd | rfl
  · simp only [isNameStart, Char.isAlpha, Char.isUpper, Char.isLower, Char.isDigit, Bool.or_eq_true, Bool.and_eq_true,
      decide_eq_true_eq, beq_iff_eq] at h hd
    rcases h with (h | h) | rfl
    · exact absurd (UInt32.le_trans h.1 hd.2) (by decide)
    · exact absurd (UInt32.le_trans h.1 hd.2) (by decide)
    · exact absurd hd.2 (by decide)
  · cases h

/-- A blank is part of no name and of no number. -/
theorem stops_of_isBlank {c : Char} (h : Text.isBlank c = true) : isNameContinue c = false ∧ c ≠ '.' := by
  refine ⟨?_, ?_⟩
  · by_contra hn
    simp only [Bool.not_eq_false, isNameContinue, Char.isAlphanum, Char.isAlpha, Char.isUpper, Char.isLower, Char.isDigit,
      Bool.or_eq_true, Bool.and_eq_true, decide_eq_true_eq, beq_iff_eq, UInt32.le_iff_toNat_le] at hn
    simp only [Text.isBlank, Bool.or_eq_true, Bool.and_eq_true, decide_eq_true_eq, beq_iff_eq, Char.toNat] at h
    rcases hn with ((hn | hn) | hn) | rfl
    · have h1 : 65 ≤ c.val.toNat := hn.1
      have h2 : c.val.toNat ≤ 90 := hn.2
      omega
    · have h1 : 97 ≤ c.val.toNat := hn.1
      have h2 : c.val.toNat ≤ 122 := hn.2
      omega
    · have h1 : 48 ≤ c.val.toNat := hn.1
      have h2 : c.val.toNat ≤ 57 := hn.2
      omega
    · revert h
      decide
  · rintro rfl
    cases h

end PrintingAux

open PrintingAux

namespace Token

/-- Tokens that a text can hold without fault. -/
def Printable : Token → Prop
  | number value => value.isFinite = true ∧ Number.isNegative value = false
  | var name => isName name = true
  | illegal _ => False
  | _ => True

/-- The text of a number in a formula is plain. -/
theorem plain_text_number {value : Float} (h : (number value).Printable) : Plain (number value).text.toList := by
  obtain ⟨s, htext, hplain, -⟩ := Number.text_plain h.1
  rw [h.2, if_neg Bool.false_ne_true, List.nil_append] at htext
  rw [text, htext]
  exact hplain

/-- A name is a character that can start one and others that can go on with it. -/
theorem exists_chars_name {name : String} (h : isName name = true) :
    ∃ c s, name.toList = c :: s ∧ isNameStart c = true ∧ ∀ d ∈ s, isNameContinue d = true := by
  rw [isName] at h
  cases hc : name.toList with
  | nil =>
    rw [hc] at h
    cases h
  | cons c s =>
    rw [hc, spellsName, Bool.and_eq_true, List.all_eq_true] at h
    exact ⟨c, s, rfl, h.1, h.2⟩

/-- The text of a printable token begins with no blank, and what is no operand with nothing that an operand could go on with. -/
theorem exists_head_text {t : Token} (h : t.Printable) :
    ∃ c s, t.text.toList = c :: s ∧ Text.isBlank c = false ∧ (t.isOperand = false → isNameContinue c = false ∧ c ≠ '.') := by
  have hblank : ∀ c, isNameContinue c = true → Text.isBlank c = false := by
    intro c hc
    by_contra hb
    rw [(stops_of_isBlank (Bool.not_eq_false _ ▸ hb)).1] at hc
    cases hc
  cases t with
  | number value =>
    obtain ⟨c, s, heq, hc⟩ := (plain_text_number h).exists_digit
    exact ⟨c, s, heq, hblank c (isNameContinue_of_isDigit hc), fun hop => by cases hop⟩
  | var name =>
    obtain ⟨c, s, heq, hc, -⟩ := exists_chars_name h
    exact ⟨c, s, heq, hblank c (isNameContinue_of_isNameStart hc), fun hop => by cases hop⟩
  | operator op => cases op <;> exact ⟨_, [], rfl, by decide, fun _ => by decide⟩
  | openParen => exact ⟨'(', [], rfl, by decide, fun _ => by decide⟩
  | closeParen => exact ⟨')', [], rfl, by decide, fun _ => by decide⟩
  | illegal text => exact h.elim

/-- The text of a printable token is cut off whole where what follows cannot be taken into it. -/
theorem spanLexeme_text {t : Token} (h : t.Printable) {rest : List Char} (hr : t.isOperand = true → Stops rest) :
    spanLexeme (t.text.toList ++ rest) = (t.text.toList, rest) := by
  cases t with
  | number value =>
    have hplain := plain_text_number h
    have hspan := spanNumeral_plain hplain (hr rfl)
    obtain ⟨c, s, heq, hc⟩ := hplain.exists_digit
    have hstart : isNumeralStart c = true := by simp [isNumeralStart, hc]
    rw [heq] at hspan ⊢
    rw [List.cons_append] at hspan ⊢
    rw [spanLexeme, if_pos hstart, hspan]
  | var name =>
    obtain ⟨c, s, heq, hc, hs⟩ := exists_chars_name h
    have hstop : ∀ d ∈ rest.head?, isNameContinue d = false := fun d hd => (hr rfl d hd).1
    have hnumeral : ¬isNumeralStart c = true := by simp [not_isNumeralStart_of_isNameStart hc]
    change spanLexeme (name.toList ++ rest) = (name.toList, rest)
    rw [heq, List.cons_append, spanLexeme, if_neg hnumeral, if_pos hc, takeWhile_append_of_head hs hstop,
      dropWhile_append_of_head hs hstop]
  | operator op => cases op <;> rfl
  | openParen => rfl
  | closeParen => rfl
  | illegal text => exact h.elim

/-- The text of a printable token is the lexeme of that token. -/
theorem ofLexeme_text {t : Token} (h : t.Printable) : ofLexeme t.text.toList = t := by
  cases t with
  | number value =>
    have hread := Number.readFinite?_text h.1
    obtain ⟨c, s, heq, hc⟩ := (plain_text_number h).exists_digit
    have hstart : isNumeralStart c = true := by simp [isNumeralStart, hc]
    rw [text] at heq ⊢
    rw [heq] at hread ⊢
    simp only [ofLexeme, hstart, if_true, hread]
  | var name =>
    obtain ⟨c, s, heq, hc, -⟩ := exists_chars_name h
    have hnumeral : ¬isNumeralStart c = true := by simp [not_isNumeralStart_of_isNameStart hc]
    have hwhole : String.ofList (c :: s) = name := by rw [← heq, String.ofList_toList]
    change ofLexeme name.toList = var name
    rw [heq, ofLexeme, if_neg hnumeral, if_pos hc, hwhole]
  | operator op => cases op <;> rfl
  | openParen => rfl
  | closeParen => rfl
  | illegal text => exact h.elim

end Token

/-! ## Blanks between lexemes -/

theorem lexemes_blank {w : List Char} (hw : ∀ c ∈ w, Text.isBlank c = true) : lexemes w = [] := by
  have hdrop : w.dropWhile Text.isBlank = [] := List.dropWhile_eq_nil_iff.mpr hw
  unfold lexemes
  split
  · rfl
  · next heq =>
    rw [hdrop] at heq
    cases heq

/-- After blanks the next lexeme is cut off. -/
theorem lexemes_append {w l rest : List Char} (hw : ∀ c ∈ w, Text.isBlank c = true) (hl : ∀ c ∈ l.head?, Text.isBlank c = false)
    (hne : l ≠ []) (hspan : spanLexeme (l ++ rest) = (l, rest)) : lexemes (w ++ (l ++ rest)) = l :: lexemes rest := by
  cases l with
  | nil => exact absurd rfl hne
  | cons c s =>
    have hdrop : (w ++ (c :: s ++ rest)).dropWhile Text.isBlank = c :: s ++ rest := dropWhile_append_of_head hw hl
    rw [lexemes]
    split
    · next heq =>
      rw [hdrop] at heq
      cases heq
    · next c' t' heq =>
      rw [hdrop] at heq
      rw [← heq, hspan]

namespace Token

/-- Tokens printed one after the other, each with what stands before it, and what stands at the end. -/
def printed (last : List Char) : List (List Char × Token) → List Char
  | [] => last
  | (gap, t) :: ts => gap ++ (t.text.toList ++ printed last ts)

/-- Tokens without two operands beside one another. -/
def Separated (ts : List Token) : Prop := ts.IsChain fun a b => a.isOperand = true → b.isOperand = false

/-- What is printed after an operand is not taken into it. -/
theorem stops_printed {last : List Char} (hlast : ∀ c ∈ last, Text.isBlank c = true) {ts : List (List Char × Token)}
    (hgaps : ∀ p ∈ ts, ∀ c ∈ p.1, Text.isBlank c = true) (hp : ∀ p ∈ ts, p.2.Printable)
    (hfirst : ∀ t ∈ (ts.map Prod.snd).head?, t.isOperand = false) : Stops (printed last ts) := by
  have hgap : ∀ gap rest : List Char, (∀ c ∈ gap, Text.isBlank c = true) → Stops rest → Stops (gap ++ rest) := by
    intro gap rest hblank hrest
    cases gap with
    | nil => exact hrest
    | cons c gap =>
      intro d hd
      cases hd
      exact stops_of_isBlank (hblank c List.mem_cons_self)
  cases ts with
  | nil =>
    have hnil : Stops [] := fun c hc => by cases hc
    have h := hgap last [] hlast hnil
    rwa [List.append_nil] at h
  | cons p ts =>
    obtain ⟨gap, t⟩ := p
    refine hgap gap _ (hgaps _ List.mem_cons_self) ?_
    obtain ⟨c, s, heq, -, hstop⟩ := exists_head_text (hp _ List.mem_cons_self)
    rw [heq]
    intro d hd
    cases hd
    exact hstop (hfirst t rfl)

/-- Printable tokens are scanned from their texts, whatever blanks stand before, between and after them. -/
theorem scan_printed {last : List Char} (hlast : ∀ c ∈ last, Text.isBlank c = true) {ts : List (List Char × Token)}
    (hgaps : ∀ p ∈ ts, ∀ c ∈ p.1, Text.isBlank c = true) (hp : ∀ p ∈ ts, p.2.Printable) (hs : Separated (ts.map Prod.snd)) :
    scan (printed last ts) = ts.map Prod.snd := by
  induction ts with
  | nil =>
    rw [printed, scan, lexemes_blank hlast]
    rfl
  | cons p ts ih =>
    obtain ⟨gap, t⟩ := p
    have hgaps' : ∀ p ∈ ts, ∀ c ∈ p.1, Text.isBlank c = true := fun p hm => hgaps p (List.mem_cons_of_mem _ hm)
    have hp' : ∀ p ∈ ts, p.2.Printable := fun p hm => hp p (List.mem_cons_of_mem _ hm)
    have ht : t.Printable := hp _ List.mem_cons_self
    have hstop : t.isOperand = true → Stops (printed last ts) := by
      intro hop
      refine stops_printed hlast hgaps' hp' ?_
      intro t' ht'
      exact (List.isChain_cons.mp hs).1 t' ht' hop
    have hrest : scan (printed last ts) = ts.map Prod.snd := ih hgaps' hp' hs.tail
    obtain ⟨c, s, heq, hblank, -⟩ := exists_head_text ht
    have hlexemes : lexemes (printed last ((gap, t) :: ts)) = t.text.toList :: lexemes (printed last ts) := by
      refine lexemes_append (hgaps _ List.mem_cons_self) ?_ ?_ (spanLexeme_text ht hstop)
      · rw [heq]
        intro d hd
        cases hd
        exact hblank
      · rw [heq]
        exact List.cons_ne_nil c s
    rw [scan] at hrest ⊢
    rw [hlexemes, List.map_cons, ofLexeme_text ht, hrest, List.map_cons]

/-- What a text without illegal tokens holds are tokens that can be printed, as far as its names are well formed. -/
theorem printable_of_mem_scan {s : List Char} {t : Token} (ht : t ∈ scan s) (hi : t.illegal? = none)
    (hn : ∀ name, t = var name → isName name = true) : t.Printable := by
  obtain ⟨lexeme, -, rfl⟩ := List.mem_map.mp ht
  cases hl : ofLexeme lexeme with
  | number value =>
    obtain ⟨c, s, rfl, hstart, hread⟩ := readFinite?_of_ofLexeme hl
    have hne : c ≠ '-' := by
      rintro rfl
      exact absurd hstart (by decide)
    exact Number.isNegative_of_readFinite? hne hread
  | var name => exact hn name hl
  | illegal text =>
    rw [hl] at hi
    cases hi
  | operator op => trivial
  | openParen => trivial
  | closeParen => trivial

end Token

/-! ## Formulas -/

/-- Where tokens are taken up in the language with a counter, no two operands meet. -/
theorem separated_of_language (ts : List Token) :
    (∀ depth, AfterOperand depth ts → Token.Separated ts ∧ ∀ t ∈ ts.head?, t.isOperand = false) ∧
      ∀ depth, BeforeOperand depth ts → Token.Separated ts := by
  induction ts with
  | nil => exact ⟨fun depth _ => ⟨List.isChain_nil, fun t ht => by cases ht⟩, fun depth _ => List.isChain_nil⟩
  | cons t ts ih =>
    obtain ⟨ihAfter, ihBefore⟩ := ih
    refine ⟨fun depth h => ?_, fun depth h => ?_⟩
    · cases h with
      | close h =>
        refine ⟨List.isChain_cons.mpr ⟨fun t' _ hop => (by cases hop), (ihAfter _ h).1⟩, ?_⟩
        intro t' ht'
        cases ht'
        rfl
      | operator op h =>
        refine ⟨List.isChain_cons.mpr ⟨fun t' _ hop => (by cases hop), ihBefore _ h⟩, ?_⟩
        intro t' ht'
        cases ht'
        rfl
    · cases h with
      | number value h => exact List.isChain_cons.mpr ⟨fun t' ht' _ => (ihAfter _ h).2 t' ht', (ihAfter _ h).1⟩
      | var name h => exact List.isChain_cons.mpr ⟨fun t' ht' _ => (ihAfter _ h).2 t' ht', (ihAfter _ h).1⟩
      | openParen h => exact List.isChain_cons.mpr ⟨fun t' _ hop => (by cases hop), ihBefore _ h⟩

/-- No two operands meet in a formula. -/
theorem Formula.separated (f : Formula) : Token.Separated f.tokens :=
  (separated_of_language f.tokens).2 0 (beforeOperand_of_firstFault? f.faultless)

namespace Formula

/-- All tokens of a formula that was read from a text can be printed. -/
theorem printable {rules : NameRules} {s : List Char} {f : Formula} (h : ofTokens? rules (Token.scan s) = .ok f) :
    ∀ t ∈ f.tokens, t.Printable := by
  obtain ⟨hfault, htokens⟩ := ofTokens?_eq_ok h
  intro t ht
  have hname : ∀ name, t = .var name → isName name = true := by
    rintro name rfl
    have hadmits := admits_of_mem_tokens h ht
    rw [NameRules.admits, Bool.and_eq_true] at hadmits
    exact hadmits.1
  rw [htokens, List.mem_map] at ht
  obtain ⟨t', ht', rfl⟩ := ht
  have hlegal := (firstFault?_eq_none_iff.mp hfault).1 t' ht'
  cases t' with
  | var written => exact hname _ rfl
  | number value => exact Token.printable_of_mem_scan ht' hlegal fun name heq => by cases heq
  | operator op => trivial
  | openParen => trivial
  | closeParen => trivial
  | illegal text => cases hlegal

/-- The tokens of a formula are scanned from their texts, whatever blanks stand before, between and after them. -/
theorem scan_printed {rules : NameRules} {s : List Char} {f : Formula} (h : ofTokens? rules (Token.scan s) = .ok f)
    {ts : List (List Char × Token)} (hts : ts.map Prod.snd = f.tokens) (hgaps : ∀ p ∈ ts, ∀ c ∈ p.1, Text.isBlank c = true)
    {last : List Char} (hlast : ∀ c ∈ last, Text.isBlank c = true) : Token.scan (Token.printed last ts) = f.tokens := by
  have hp : ∀ p ∈ ts, p.2.Printable := by
    intro p hp
    refine printable h p.2 ?_
    rw [← hts]
    exact List.mem_map_of_mem hp
  have hs : Token.Separated (ts.map Prod.snd) := by
    rw [hts]
    exact f.separated
  rw [Token.scan_printed hlast hgaps hp hs, hts]

/-- The canonical text of a formula are its tokens, printed without blanks. -/
theorem toList_canonical (f : Formula) : f.canonical.toList = Token.printed [] (f.tokens.map fun t => ([], t)) := by
  rw [canonical, String.toList_join, List.flatMap_map]
  induction f.tokens with
  | nil => rfl
  | cons t ts ih => rw [List.flatMap_cons, ih]; rfl

/-- The canonical text of a formula is scanned as its tokens. -/
theorem scan_canonical {rules : NameRules} {s : List Char} {f : Formula} (h : ofTokens? rules (Token.scan s) = .ok f) :
    Token.scan f.canonical.toList = f.tokens := by
  have hts : (f.tokens.map fun t => (([] : List Char), t)).map Prod.snd = f.tokens := by
    rw [List.map_map]
    exact List.map_id _
  rw [toList_canonical]
  refine scan_printed h hts ?_ fun c hc => by cases hc
  intro p hp c hc
  obtain ⟨t, -, rfl⟩ := List.mem_map.mp hp
  cases hc

/-- Under idempotent rules the canonical text of a formula is read as that formula. -/
theorem ofTokens?_scan_canonical {rules : NameRules} (hi : rules.Idempotent) {s : List Char} {f : Formula}
    (h : ofTokens? rules (Token.scan s) = .ok f) : ofTokens? rules (Token.scan f.canonical.toList) = .ok f := by
  rw [scan_canonical h]
  exact ofTokens?_tokens hi h

/-- Formulas that were read under whatever rules compare as equal if and only if they have the same tokens. -/
theorem beq_iff_tokens_eq {rules rules' : NameRules} {s s' : List Char} {f g : Formula}
    (hf : ofTokens? rules (Token.scan s) = .ok f) (hg : ofTokens? rules' (Token.scan s') = .ok g) :
    (f == g) = true ↔ f.tokens = g.tokens := by
  change (f.canonical == g.canonical) = true ↔ f.tokens = g.tokens
  rw [beq_iff_eq]
  constructor
  · intro h
    rw [← scan_canonical hf, ← scan_canonical hg, h]
  · intro h
    rw [ext h]

/-- Printing is undone by scanning: the texts of the tokens of a formula, with any blanks before, between and after them, are scanned
as these tokens, and the canonical text of the formula is the case without blanks. So formulas, whatever the rules that each was read
under, compare as equal if and only if they have the same tokens; and under idempotent rules the canonical text of a formula is read
as the same formula. -/
theorem printing_undone {rules : NameRules} {text : String} {f : Formula} (h : parse? rules text = .ok f) :
    (∀ (ts : List (List Char × Token)) (last : List Char), ts.map Prod.snd = f.tokens →
      (∀ p ∈ ts, ∀ c ∈ p.1, Text.isBlank c = true) → (∀ c ∈ last, Text.isBlank c = true) →
      Token.scan (Token.printed last ts) = f.tokens) ∧
    f.canonical.toList = Token.printed [] (f.tokens.map fun t => ([], t)) ∧
    (∀ (rules' : NameRules) (text' : String) (g : Formula), parse? rules' text' = .ok g →
      ((f == g) = true ↔ f.tokens = g.tokens)) ∧
    (rules.Idempotent → ∃ g, parse? rules f.canonical = .ok g ∧ g.tokens = f.tokens ∧ g.canonical = f.canonical) :=
  ⟨fun _ _ hts hgaps hlast => scan_printed h hts hgaps hlast, f.toList_canonical, fun _ _ _ hg => beq_iff_tokens_eq h hg,
    fun hi => ⟨f, ofTokens?_scan_canonical hi h, rfl, rfl⟩⟩

set_option maxRecDepth 10000 in
/-- Two spellings of a division of zero by `e1`, one with blanks, compare as equal; the letter that could go on with a number stands in
its own token again, and a wide blank between the tokens counts for nothing. -/
theorem printing_undone_exponentLike :
    ∃ f g : Formula, parse? .any "0.00/e1" = .ok f ∧ parse? .any " 0e5 / e1" = .ok g ∧ (f == g) = true ∧
      Token.scan (Token.printed [' '] [([], .number 0), (['\u3000'], .operator .divide), (['\t', ' '], .var "e1")]) = f.tokens ∧
      ∃ k, parse? .any f.canonical = .ok k ∧ k.tokens = f.tokens := by
  have hf : parse? .any "0.00/e1" = .ok ⟨[.number 0, .operator .divide, .var "e1"], by decide⟩ := by cbv
  have hg : parse? .any " 0e5 / e1" = .ok ⟨[.number 0, .operator .divide, .var "e1"], by decide⟩ := by cbv
  obtain ⟨hscan, -, hcompare, hagain⟩ := printing_undone hf
  obtain ⟨k, hk, htokens, -⟩ := hagain NameRules.any_idempotent
  refine ⟨_, _, hf, hg, (hcompare _ _ _ hg).mpr rfl, hscan _ _ rfl ?_ ?_, k, hk, htokens⟩
  · simp [Text.isBlank]
  · simp [Text.isBlank]

end Formula

end Spreadsheet
