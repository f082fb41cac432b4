import Spreadsheet.Json.Value
import Spreadsheet.Proofs.Json.Spelling
import Spreadsheet.Proofs.Json.Written

/-!
# Values that are shipped as JSON

The JSON text of a text or an error is read as that value, whatever characters it carries. The text of a finite number denotes that
number, but it is read quickly: what comes out is what its numeral is read as (`Value.shipped`, `Value.ofJson?_jsonText`). That is the
number itself where the numeral is one that is read exactly (`Value.Exact`), and may be a neighbour of it elsewhere. What is no finite
number is written as `null` and not read.
-/

namespace Spreadsheet

open Json (Reader Numeral)

/-! ## Errors -/

/-- A bare name is no object, and an object no name. -/
theorem Json.Reader.string_read_object (s : List Char) : Reader.string.read ('\x7b' :: s) = none := by
  simp only [Reader.string]
  rw [Reader.expect_cons_ne rfl (by decide)]
  rfl

theorem EvalError.takes_reader (e : EvalError) : EvalError.reader.Takes e.toJson e := by
  have hcarried : ∀ {k : String} {s : String} {e : EvalError}, (carried k).Takes (Json.quote s) e →
      EvalError.reader.Takes (Json.writeObject [(k, Json.quote s)]) e := by
    intro k s e h
    refine h.variant.orElse_of_none fun rest => ?_
    simp only [Reader.filterMap]
    rw [Json.writeObject, List.append_assoc, List.cons_append, Json.Reader.string_read_object]
    rfl
  cases e with
  | divideByZero => exact ((Reader.takes_string "DivideByZero").filterMap (f := ofBareName?) rfl).orElse _
  | overflow => exact ((Reader.takes_string "Overflow").filterMap (f := ofBareName?) rfl).orElse _
  | undefinedVariable name => exact hcarried ((Reader.takes_string name).map _)
  | malformed reason => exact hcarried ((Reader.takes_string reason).map _)

/-! ## Numbers -/

/-- A number is read from its text as far as its numeral has a value. -/
theorem Json.Reader.number_read_text {x : Float} (h : x.isFinite = true) {rest : List Char} (hr : Numeral.Ends rest) :
    Reader.number.read ((Number.Spelling.json.text x).toList ++ rest) = (Numeral.ofFloat x).value?.map fun y => (y, rest) := by
  have hwrites := Numeral.writes_ofFloat h
  have hread := hwrites.read?_append hr
  obtain ⟨c, t, hcons, hc⟩ := hwrites.exists_head
  have hblank : Json.isBlank c = false := by
    rw [Bool.eq_false_iff]
    intro hblank
    simp only [Json.isBlank, Bool.or_eq_true, beq_iff_eq] at hblank
    rcases hblank with ((rfl | rfl) | rfl) | rfl <;> simp at hc
  have hskip : Json.skipBlank ((Number.Spelling.json.text x).toList ++ rest) = (Number.Spelling.json.text x).toList ++ rest := by
    rw [hcons, List.cons_append, Json.skipBlank, List.dropWhile_cons_of_neg (by rw [hblank]; exact Bool.false_ne_true)]
  change (Numeral.read? (Json.skipBlank _)).bind _ = _
  rw [hskip, hread, Option.bind_some]

namespace Value

/-- What becomes of a value that is shipped as JSON: a number is read quickly from the digits that are written for it, and what JSON
cannot say is lost. -/
def shipped : Value → Option Value
  | number x => if x.isFinite then (Numeral.ofFloat x).value?.map number else none
  | v => some v

theorem number_read {x : Float} {rest : List Char} (hr : Numeral.Ends rest) :
    (held "Number").read ((Number.Spelling.json.text x).toList ++ rest) = (number x).shipped.map fun v => (v, rest) := by
  change (Reader.number.read _).bind _ = _
  rw [shipped]
  split
  · next hfinite =>
    rw [Json.Reader.number_read_text hfinite hr]
    cases (Numeral.ofFloat x).value? <;> rfl
  · next hfinite =>
    have htext : Number.Spelling.json.text x = "null" := by
      rw [Number.isFinite_iff, not_lt] at hfinite
      unfold Number.Spelling.text
      split
      · rfl
      · split
        · exact ite_self _
        · omega
    rw [htext]
    rfl

/-- A value whose JSON text is read without error: a text, an error, or a finite number whose numeral is read so. -/
def Exact : Value → Prop
  | number x => x.isFinite = true ∧ (Numeral.ofFloat x).Exact
  | _ => True

instance : DecidablePred Exact
  | number _ => inferInstanceAs (Decidable (_ ∧ _))
  | text _ => inferInstanceAs (Decidable True)
  | error _ => inferInstanceAs (Decidable True)

/-- The JSON text of a value is read as what the value becomes. -/
theorem ofJson?_jsonText (v : Value) : ofJson? v.jsonText = v.shipped := by
  have hread : ∀ rest, (Reader.variant held).read (v.toJson ++ rest) = v.shipped.map fun v => (v, rest) := by
    cases v with
    | text t =>
      have htext : (held "Text").Takes (Json.quote t) (text t) := (Reader.takes_string t).map text
      exact htext.variant
    | error e =>
      have herror : (held "Error").Takes e.toJson (error e) := e.takes_reader.map error
      exact herror.variant
    | number x =>
      refine Reader.read_variant fun rest => number_read ?_
      rintro c ⟨⟩
      decide
  have hwhole := hread []
  rw [List.append_nil] at hwhole
  rw [ofJson?, Reader.readAll, jsonText, String.toList_ofList, hwhole]
  cases v.shipped <;> rfl

/-- The numeral of a finite number denotes that number. -/
theorem ofMagnitude_ofFloat {x : Float} (h : x.isFinite = true) :
    Number.ofMagnitude (Numeral.ofFloat x).negative (Numeral.ofFloat x).decimal.toBits = x := by
  rw [Numeral.toBits_ofFloat h, Numeral.negative_ofFloat, Number.ofMagnitude_magnitude]

theorem Exact.shipped_eq {v : Value} (h : v.Exact) : v.shipped = some v := by
  cases v with
  | text t => rfl
  | error e => rfl
  | number x =>
    obtain ⟨hfinite, hexact⟩ := h
    rw [shipped, if_pos hfinite, hexact.value?_eq, ofMagnitude_ofFloat hfinite, Option.map_some]

/-- The JSON text of a value is read as what becomes of it: of a text and an error they themselves, of a finite number what its numeral
is quickly read as. That numeral is written for the number, and the double nearest to it is the number, but only an exact numeral is sure
to be read as that double. -/
theorem jsonText_read_back (v : Value) :
    ofJson? v.jsonText = v.shipped ∧ (v.Exact → ofJson? v.jsonText = some v) ∧
      ∀ x, v = number x → x.isFinite = true → Numeral.Writes (Number.Spelling.json.text x).toList (Numeral.ofFloat x) ∧
        Number.ofMagnitude (Numeral.ofFloat x).negative (Numeral.ofFloat x).decimal.toBits = x := by
  refine ⟨ofJson?_jsonText v, fun h => ?_, fun x _ hfinite => ⟨Numeral.writes_ofFloat hfinite, ofMagnitude_ofFloat hfinite⟩⟩
  rw [ofJson?_jsonText, h.shipped_eq]

/-- The seventeen digits of the sum of 0.1 and 0.2 are a double, so the sum is read back; so is an error whose text has to be escaped. -/
theorem jsonText_read_back_exact :
    (number 0.30000000000000004).Exact ∧ ofJson? (number 0.30000000000000004).jsonText = some (number 0.30000000000000004) ∧
      Numeral.Writes (Number.Spelling.json.text 0.30000000000000004).toList (Numeral.ofFloat 0.30000000000000004) ∧
      ofJson? (error (.malformed "\"\n")).jsonText = some (error (.malformed "\"\n")) := by
  have hexact : (number 0.30000000000000004).Exact := by decide +kernel
  obtain ⟨-, hread, hwrites⟩ := jsonText_read_back (number 0.30000000000000004)
  exact ⟨hexact, hread hexact, (hwrites _ rfl hexact.1).1, (jsonText_read_back _).2.1 trivial⟩

/-- The greatest whole number below `2 ^ 53` is read back as the one before it: with the zero after its point its digits are no double
any more. -/
theorem jsonText_read_back_false :
    ¬∀ v : Value, (∀ x, v = number x → x.isFinite = true) → ofJson? v.jsonText = some v := by
  intro hall
  have hfinite : (9007199254740991 : Float).isFinite = true := by decide +kernel
  have hsame := hall (number 9007199254740991) fun x hx => by
    cases hx
    exact hfinite
  have hshipped : (number 9007199254740991).shipped = some (number 9007199254740990) := by decide +kernel
  rw [ofJson?_jsonText, hshipped] at hsame
  exact absurd hsame (by decide +kernel)

end Value

end Spreadsheet
