import Spreadsheet.Proofs.Formula.Printing
import Spreadsheet.Proofs.Number.Form

/-!
# The partition of a text

What a text is cut into is described without a scanner (`Partition`): blanks, a lexeme, blanks, a lexeme and so on, where each lexeme is
a symbol, the longest name or the longest numeral at the front of what is left, or a character that starts none of them, and decides a
token of its own (`Token.Cut`). Such a partition exists for every text, there is no other, and the tokens of the text are those of its
lexemes (`Token.scan_partitions`).
-/

namespace Spreadsheet

open Number (Numeral IsNumeral LongestPrefix Decimal ofMagnitude)
open PrintingAux (isNameContinue_of_isDigit not_isNumeralStart_of_isNameStart stops_of_isBlank)

namespace Token

/-- A lexeme at the front of a text, and its token. A numeral makes a number if its mantissa has a digit and the number is finite. -/
inductive Cut : List Char → List Char → Token → Prop where
  | operator (op : Operator) (rest : List Char) : Cut (op.symbol :: rest) [op.symbol] (operator op)
  | openParen (rest : List Char) : Cut ('(' :: rest) ['('] openParen
  | closeParen (rest : List Char) : Cut (')' :: rest) [')'] closeParen
  | name {s l : List Char} (h : LongestPrefix (fun l => spellsName l = true) l s) : Cut s l (var (String.ofList l))
  | number {s l digits fraction : List Char} {exponent : Int} {value : Float} (h : LongestPrefix IsNumeral l s)
      (hl : Numeral l digits fraction exponent) (hd : ¬(digits = [] ∧ fraction = []))
      (hv : value = ofMagnitude false (Decimal.ofParts digits fraction exponent).toBits) (hf : value.isFinite = true) :
      Cut s l (number value)
  | noNumber {s l digits fraction : List Char} {exponent : Int} (h : LongestPrefix IsNumeral l s)
      (hl : Numeral l digits fraction exponent)
      (hn : (digits = [] ∧ fraction = []) ∨ (ofMagnitude false (Decimal.ofParts digits fraction exponent).toBits).isFinite = false) :
      Cut s l (illegal (String.ofList l))
  | other {c : Char} (hblank : Text.isBlank c = false) (hnumeral : isNumeralStart c = false) (hname : isNameStart c = false)
      (hsymbol : ofSymbol? c = none) (rest : List Char) : Cut (c :: rest) [c] (illegal (String.ofList [c]))

end Token

/-- A text cut up: blanks in front of each lexeme and at the end, and for each lexeme its token. -/
inductive Partition : List Char → List (List Char × Token) → Prop where
  | blank {w : List Char} (hw : ∀ c ∈ w, Text.isBlank c = true) : Partition w []
  | lexeme {w l rest : List Char} {t : Token} {cuts : List (List Char × Token)} (hw : ∀ c ∈ w, Text.isBlank c = true)
      (hl : Token.Cut (l ++ rest) l t) (hrest : Partition rest cuts) : Partition (w ++ (l ++ rest)) ((l, t) :: cuts)

/-! ## Lexemes -/

/-- What starts a numeral or a name is no blank. -/
theorem isBlank_of_starts {c : Char} (h : isNumeralStart c = true ∨ isNameStart c = true) : Text.isBlank c = false := by
  by_contra hb
  obtain ⟨hcontinue, hpoint⟩ := stops_of_isBlank (Bool.not_eq_false _ ▸ hb)
  have hnever : isNameContinue c ≠ true := by rw [hcontinue]; exact Bool.false_ne_true
  rcases h with h | h
  · rw [isNumeralStart, Bool.or_eq_true, beq_iff_eq] at h
    exact h.elim (fun hd => hnever (isNameContinue_of_isDigit hd)) hpoint
  · exact hnever (isNameContinue_of_isNameStart h)

/-- A name at the front of a text is taken with all that goes on with it. -/
theorem longest_name {c : Char} (h : isNameStart c = true) (s : List Char) :
    LongestPrefix (fun l => spellsName l = true) (c :: s.takeWhile isNameContinue) (c :: s) := by
  refine ⟨?_, (List.prefix_cons_inj c).mpr (List.takeWhile_prefix _), ?_⟩
  · rw [spellsName, h, Bool.true_and, List.all_eq_true]
    exact fun d hd => List.mem_takeWhile_imp hd
  · intro l hl hs
    cases l with
    | nil => exact Nat.zero_le _
    | cons d l =>
      rw [spellsName, Bool.and_eq_true, List.all_eq_true] at hl
      have hle := (Number.prefix_takeWhile hl.2 (List.cons_prefix_cons.mp hs).2).length_le
      rw [List.length_cons, List.length_cons]
      omega

namespace Token

/-- A character that makes a token by itself is a symbol: no blank, and no start of a numeral or a name. -/
theorem cut_of_ofSymbol? {c : Char} {t : Token} (h : ofSymbol? c = some t) (rest : List Char) :
    Cut (c :: rest) [c] t ∧ Text.isBlank c = false ∧ isNumeralStart c = false ∧ isNameStart c = false := by
  unfold ofSymbol? at h
  split at h
  · cases h; exact ⟨.operator .add rest, rfl, rfl, rfl⟩
  · cases h; exact ⟨.operator .subtract rest, rfl, rfl, rfl⟩
  · cases h; exact ⟨.operator .multiply rest, rfl, rfl, rfl⟩
  · cases h; exact ⟨.operator .divide rest, rfl, rfl, rfl⟩
  · cases h; exact ⟨.openParen rest, rfl, rfl, rfl⟩
  · cases h; exact ⟨.closeParen rest, rfl, rfl, rfl⟩
  · cases h

/-- A numeral begins as one. -/
theorem exists_isNumeralStart {l digits fraction : List Char} {n : Int} (h : Numeral l digits fraction n) :
    ∃ c t, l = c :: t ∧ isNumeralStart c = true := by
  obtain ⟨c, t, rfl, hc⟩ := h.exists_head
  refine ⟨c, t, rfl, ?_⟩
  rw [isNumeralStart, Bool.or_eq_true, beq_iff_eq]
  exact hc

/-- The token of a numeral: a number if its mantissa has a digit and the number is finite. -/
theorem ofLexeme_numeral {l digits fraction : List Char} {n : Int} (h : Numeral l digits fraction n) :
    ofLexeme l =
      if ¬(digits = [] ∧ fraction = []) ∧ (ofMagnitude false (Decimal.ofParts digits fraction n).toBits).isFinite = true then
        number (ofMagnitude false (Decimal.ofParts digits fraction n).toBits)
      else illegal (String.ofList l) := by
  have hread := h.read?_eq
  obtain ⟨c, t, rfl, hc⟩ := exists_isNumeralStart h
  rw [ofLexeme, if_pos hc, Number.readFinite?, hread]
  by_cases hd : digits = [] ∧ fraction = []
  · rw [if_pos hd, Option.filter_none, if_neg (fun h => h.1 hd)]
  · by_cases hf : (ofMagnitude false (Decimal.ofParts digits fraction n).toBits).isFinite = true
    · rw [if_neg hd, Option.filter_some, if_pos hf, if_pos ⟨hd, hf⟩]
    · rw [if_neg hd, Option.filter_some, if_neg hf, if_neg (fun h => hf h.2)]

/-- The lexeme that is cut off at a character that is no blank is the one described, with its token. -/
theorem cut_spanLexeme {c : Char} (hc : Text.isBlank c = false) (s : List Char) :
    Cut (c :: s) (spanLexeme (c :: s)).1 (ofLexeme (spanLexeme (c :: s)).1) := by
  rw [spanLexeme]
  split
  · next hnumeral =>
    have hlongest := Number.longest_spanNumeral (spanMantissa_ne_nil hnumeral s)
    obtain ⟨digits, fraction, n, hl⟩ := hlongest.holds
    rw [ofLexeme_numeral hl]
    split
    · next h => exact .number hlongest hl h.1 rfl h.2
    · next h =>
      refine .noNumber hlongest hl ?_
      rw [not_and_or, not_not, Bool.not_eq_true] at h
      exact h
  · next hnumeral =>
    rw [Bool.not_eq_true] at hnumeral
    split
    · next hname =>
      rw [ofLexeme, hnumeral, if_neg Bool.false_ne_true, if_pos hname]
      exact .name (longest_name hname s)
    · next hname =>
      rw [Bool.not_eq_true] at hname
      rw [ofLexeme, hnumeral, hname, if_neg Bool.false_ne_true, if_neg Bool.false_ne_true]
      cases hsymbol : ofSymbol? c with
      | some t => exact (cut_of_ofSymbol? hsymbol s).1
      | none => exact .other hc hnumeral hname hsymbol s

/-- A longest numeral at the front of a text is the lexeme that is cut off there. -/
theorem spanLexeme_of_numeral {s l : List Char} (h : LongestPrefix IsNumeral l s) :
    ∃ c t, s = c :: t ∧ Text.isBlank c = false ∧ (spanLexeme s).1 = l := by
  obtain ⟨digits, fraction, n, hl⟩ := h.holds
  obtain ⟨c, t, rfl, hc⟩ := exists_isNumeralStart hl
  obtain ⟨rest, rfl⟩ := h.isPrefix
  refine ⟨c, t ++ rest, rfl, isBlank_of_starts (Or.inl hc), ?_⟩
  rw [List.cons_append] at h ⊢
  rw [spanLexeme, if_pos hc]
  exact (Number.longest_spanNumeral (spanMantissa_ne_nil hc _)).unique h

/-- What is described as a lexeme is what is cut off, and its token is the one that is made of it. -/
theorem Cut.eq_spanLexeme {s l : List Char} {t : Token} (h : Cut s l t) :
    ∃ c rest, s = c :: rest ∧ Text.isBlank c = false ∧ (spanLexeme s).1 = l ∧ ofLexeme l = t := by
  have hsymbol : ∀ (c : Char) (t : Token) (rest : List Char), ofSymbol? c = some t →
      ∃ d rest', c :: rest = d :: rest' ∧ Text.isBlank d = false ∧ (spanLexeme (c :: rest)).1 = [c] ∧ ofLexeme [c] = t := by
    intro c t rest h
    obtain ⟨-, hblank, hnumeral, hname⟩ := cut_of_ofSymbol? h rest
    refine ⟨c, rest, rfl, hblank, ?_, ?_⟩
    · simp only [spanLexeme, hnumeral, hname, Bool.false_eq_true, if_false]
    · simp only [ofLexeme, hnumeral, hname, h, Bool.false_eq_true, if_false, Option.getD_some]
  cases h with
  | operator op rest => cases op <;> exact hsymbol _ _ rest rfl
  | openParen rest => exact hsymbol '(' _ rest rfl
  | closeParen rest => exact hsymbol ')' _ rest rfl
  | name h =>
    have hspells := h.holds
    obtain ⟨rest, rfl⟩ := h.isPrefix
    cases l with
    | nil => cases hspells
    | cons c l =>
      rw [spellsName, Bool.and_eq_true] at hspells
      have hnumeral := not_isNumeralStart_of_isNameStart hspells.1
      refine ⟨c, l ++ rest, rfl, isBlank_of_starts (Or.inr hspells.1), ?_, ?_⟩
      · rw [List.cons_append] at h ⊢
        rw [spanLexeme, hnumeral, if_neg Bool.false_ne_true, if_pos hspells.1]
        exact (longest_name hspells.1 _).unique h
      · rw [ofLexeme, hnumeral, if_neg Bool.false_ne_true, if_pos hspells.1]
  | number h hl hd hv hf =>
    obtain ⟨c, rest, hs, hblank, hspan⟩ := spanLexeme_of_numeral h
    refine ⟨c, rest, hs, hblank, hspan, ?_⟩
    rw [hv] at hf ⊢
    rw [ofLexeme_numeral hl, if_pos ⟨hd, hf⟩]
  | noNumber h hl hn =>
    obtain ⟨c, rest, hs, hblank, hspan⟩ := spanLexeme_of_numeral h
    refine ⟨c, rest, hs, hblank, hspan, ?_⟩
    rw [ofLexeme_numeral hl, if_neg]
    rintro ⟨hd, hf⟩
    rcases hn with hn | hn
    · exact hd hn
    · rw [hf] at hn
      cases hn
  | @other c hblank hnumeral hname hsymbol rest =>
    refine ⟨c, rest, rfl, hblank, ?_, ?_⟩
    · simp only [spanLexeme, hnumeral, hname, Bool.false_eq_true, if_false]
    · simp only [ofLexeme, hnumeral, hname, hsymbol, Bool.false_eq_true, if_false, Option.getD_none]

end Token

/-! ## Texts -/

/-- The lexemes of a text with their tokens. -/
def cuts (s : List Char) : List (List Char × Token) := (lexemes s).map fun l => (l, Token.ofLexeme l)

/-- Blanks are passed over, and the lexeme after them is cut off before what is left. -/
theorem cuts_append {w l rest : List Char} (hw : ∀ c ∈ w, Text.isBlank c = true) {t : Token} (hl : Token.Cut (l ++ rest) l t) :
    cuts (w ++ (l ++ rest)) = (l, t) :: cuts rest := by
  obtain ⟨c, s, hs, hblank, hspan, rfl⟩ := hl.eq_spanLexeme
  have hrest : (spanLexeme (l ++ rest)).2 = rest := by
    have happend := spanLexeme_append (l ++ rest)
    rw [hspan] at happend
    exact List.append_cancel_left happend
  have hne : l ≠ [] := by
    have hcut := spanLexeme_ne_nil c s
    rw [← hs, hspan] at hcut
    exact hcut
  have hhead : ∀ d ∈ l.head?, Text.isBlank d = false := by
    obtain ⟨d, l, rfl⟩ := List.exists_cons_of_ne_nil hne
    cases hs
    intro e he
    cases he
    exact hblank
  rw [cuts, lexemes_append hw hhead hne (Prod.ext hspan hrest), List.map_cons]
  rfl

/-- The lexemes of a text and their tokens are a partition of it. -/
theorem partition_cuts (s : List Char) : Partition s (cuts s) := by
  have hblanks : ∀ c ∈ s.takeWhile Text.isBlank, Text.isBlank c = true := fun c hc => List.mem_takeWhile_imp hc
  have hsplit := List.takeWhile_append_dropWhile (p := Text.isBlank) (l := s)
  cases hdrop : s.dropWhile Text.isBlank with
  | nil =>
    have hall := List.dropWhile_eq_nil_iff.mp hdrop
    rw [cuts, lexemes_blank hall]
    exact .blank hall
  | cons c t =>
    have hc : Text.isBlank c = false := by
      have hhead := List.head?_dropWhile_not Text.isBlank s
      rw [hdrop] at hhead
      simpa using hhead
    have hcut := Token.cut_spanLexeme hc t
    have hlexeme := spanLexeme_append (c :: t)
    have hshorter := length_spanLexeme_lt c t
    have hle := (List.dropWhile_sublist (p := Text.isBlank) (l := s)).length_le
    nth_rewrite 1 [← hlexeme] at hcut
    rw [← hsplit, hdrop, ← hlexeme, cuts_append hblanks hcut]
    exact .lexeme hblanks hcut (partition_cuts _)
termination_by s.length
decreasing_by
  rw [hdrop] at hle
  exact Nat.lt_of_lt_of_le hshorter hle

/-- The tokens of a text are those of its lexemes. -/
theorem map_snd_cuts (s : List Char) : (cuts s).map Prod.snd = Token.scan s := by
  rw [cuts, List.map_map]
  rfl

/-- Each lexeme of a partition stands where it was cut off. -/
theorem Partition.exists_cut {s : List Char} {cs : List (List Char × Token)} (h : Partition s cs) :
    ∀ p ∈ cs, ∃ rest, Token.Cut (p.1 ++ rest) p.1 p.2 := by
  induction h with
  | blank hw => exact fun p hp => by cases hp
  | @lexeme w l rest t cs hw hl hrest ih => exact List.forall_mem_cons.mpr ⟨⟨rest, hl⟩, ih⟩

namespace Token

/-- Every text has one partition into blanks and lexemes, and its tokens are those of the lexemes. Nothing but blanks is left out, each
lexeme is as long as it can be, and it decides its token alone. -/
theorem scan_partitions (s : List Char) :
    ∃ cuts, scan s = cuts.map Prod.snd ∧ ∀ other, Partition s other ↔ other = cuts := by
  refine ⟨cuts s, (map_snd_cuts s).symm, fun other => ⟨fun h => ?_, ?_⟩⟩
  · induction h with
    | blank hw => rw [cuts, lexemes_blank hw, List.map_nil]
    | lexeme hw hl hrest ih => rw [cuts_append hw hl, ih]
  · rintro rfl
    exact partition_cuts s

/-- A mark with a sign but no digit is no exponent, a second point starts another numeral, and a point alone is illegal. -/
example : lexemes ['1', '.', '5', '.', 'e', '2', 'e', '+', ' ', '.'] = [['1', '.', '5'], ['.', 'e', '2'], ['e'], ['+'], ['.']] := by cbv

/-! ## Names -/

/-- The lexeme of a variable is a well-formed name. -/
theorem Cut.isName {s l : List Char} {name : String} (h : Cut s l (var name)) : isName name = true := by
  cases h with
  | name h =>
    rw [Spreadsheet.isName, String.toList_ofList]
    exact h.holds

/-- A variable that is found in a text has a well-formed name. -/
theorem isName_of_mem_scan {s : List Char} {name : String} (h : var name ∈ scan s) : isName name = true := by
  rw [← map_snd_cuts, List.mem_map] at h
  obtain ⟨⟨l, t⟩, hmem, rfl⟩ := h
  obtain ⟨rest, hcut⟩ := (partition_cuts s).exists_cut _ hmem
  exact hcut.isName

/-- A well-formed name is scanned as the variable of that name. -/
theorem scan_of_isName {name : String} (h : isName name = true) : scan name.toList = [var name] := by
  have hscan : scan (printed [] [([], var name)]) = [var name] :=
    scan_printed (fun c hc => by cases hc) (by simp) (by simpa [Printable] using h) (List.isChain_singleton _)
  simpa [printed, text] using hscan

/-- The well-formed names are the texts that are scanned as one variable, which is then that text. -/
theorem isName_iff_scan {name : String} : isName name = true ↔ scan name.toList = [var name] := by
  refine ⟨scan_of_isName, fun h => isName_of_mem_scan (s := name.toList) ?_⟩
  rw [h]
  exact List.mem_singleton_self _

end Token

end Spreadsheet
