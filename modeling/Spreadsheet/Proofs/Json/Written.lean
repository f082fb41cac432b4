import Spreadsheet.Json.Reader

/-!
# Written JSON is read back

A text is taken by a reader as a value if the reader reads that value off its front whatever comes after it
(`Json.Reader.Takes`). The characters of a string are taken one by one, each from its escape, and so a written string is taken as
the string. The members of a written object are taken one after the other, through the states that they lead to
(`Json.Reader.Accumulates`). Nothing that is written has blanks, so none have to be skipped.
-/

namespace Spreadsheet.Json

/-! ## Strings -/

/-- A written hexadecimal digit has its value. -/
theorem hexDigit?_digitChar : ∀ n, n < 16 → hexDigit? (Nat.digitChar n) = some n := by
  decide

/-- A character is read from its escape. -/
theorem character?_escape (c : Char) (rest : List Char) : character? (escape c ++ rest) = some (c, rest) := by
  unfold escape
  split
  · rfl
  · rfl
  · rfl
  · rfl
  · rfl
  · rfl
  · rfl
  · next _ hquote hbackslash _ _ _ _ _ =>
    split
    · next hcontrol =>
      have hhigh := hexDigit?_digitChar (c.toNat / 16) (by omega)
      have hlow := hexDigit?_digitChar (c.toNat % 16) (by omega)
      have hzero : hexDigit? '0' = some 0 := rfl
      have hvalue : ((0 * 16 + 0) * 16 + c.toNat / 16) * 16 + c.toNat % 16 = c.toNat := by omega
      have hsmall : c.toNat < 0xd800 ∨ 0xdfff < c.toNat := Or.inl (by omega)
      change codePoint? ('0' :: '0' :: _ :: _ :: rest) = _
      simp only [codePoint?, hex4?, hzero, hhigh, hlow, hvalue, hsmall, if_true, Char.ofNat_toNat]
    · next hprintable =>
      have hself : standsForItself c = true := by
        have hq : c ≠ '"' := hquote
        have hb : c ≠ '\\' := hbackslash
        simp only [standsForItself, Bool.and_eq_true, decide_eq_true_eq, bne_iff_ne, ne_eq]
        exact ⟨⟨by omega, hq⟩, hb⟩
      rw [List.singleton_append]
      unfold character?
      split
      · next heq => cases heq
      · next heq =>
        cases heq
        exact absurd rfl hbackslash
      · next heq =>
        cases heq
        exact absurd rfl hbackslash
      · next heq =>
        cases heq
        rw [if_pos hself]

/-- An escape never starts with the quote that ends a string. -/
theorem head?_escape (c : Char) : (escape c).head? ≠ some '"' := by
  unfold escape
  split
  · decide
  · decide
  · decide
  · decide
  · decide
  · decide
  · decide
  · next _ hquote _ _ _ _ _ _ =>
    split
    · rw [List.head?_cons]
      decide
    · intro h
      exact hquote (by simpa using h)

/-- A string is read from the escapes of its characters. -/
theorem readString_escape (seen cs rest : List Char) :
    readString seen (cs.flatMap escape ++ '"' :: rest) = some (seen.reverse ++ cs, rest) := by
  induction cs generalizing seen with
  | nil => rw [List.flatMap_nil, List.nil_append, List.append_nil, readString]
  | cons c cs ih =>
    have hread := character?_escape c (cs.flatMap escape ++ '"' :: rest)
    have hhead := head?_escape c
    rw [List.flatMap_cons, List.append_assoc]
    unfold readString
    split
    · next rest' heq =>
      exfalso
      cases he : escape c with
      | nil =>
        -- An empty escape would be read as a character of what follows, but nothing is shorter than itself.
        rw [he] at hread
        exact absurd (character?_shorter hread) (Nat.lt_irrefl _)
      | cons d ds =>
        rw [he, List.cons_append] at heq
        cases heq
        exact hhead (by rw [he]; rfl)
    · split
      · next hnone =>
        rw [hread] at hnone
        cases hnone
      · next c' rest' hsome =>
        rw [hread] at hsome
        cases hsome
        rw [ih, List.reverse_cons, List.append_assoc, List.singleton_append]

namespace Reader

variable {α β σ : Type}

/-- A reader reads a value off the front of anything that starts with a text. -/
def Takes (r : Reader α) (text : List Char) (a : α) : Prop := ∀ rest, r.read (text ++ rest) = some (a, rest)

/-- A character that is no blank is there where it is expected. -/
theorem expect_cons {c : Char} (hc : isBlank c = false) (rest : List Char) : expect c (c :: rest) = some rest := by
  simp [expect, skipBlank, hc]

/-- Another character is not the one expected. -/
theorem expect_cons_ne {c d : Char} (hd : isBlank d = false) (hne : d ≠ c) (rest : List Char) : expect c (d :: rest) = none := by
  simp [expect, skipBlank, hd, hne]

theorem takes_string (s : String) : string.Takes (quote s) s := by
  intro rest
  have hread : readString [] (s.toList.flatMap escape ++ '"' :: rest) = some (s.toList, rest) := readString_escape [] s.toList rest
  change ((expect '"' _).bind (readString [])).map _ = _
  rw [quote, List.append_assoc, List.cons_append, expect_cons rfl, List.singleton_append, Option.bind_some, hread, Option.map_some]
  exact congrArg (fun t => some (t, rest)) String.ofList_toList

theorem Takes.filterMap {r : Reader α} {text : List Char} {a : α} (h : r.Takes text a) {f : α → Option β} {b : β}
    (hf : f a = some b) : (r.filterMap f).Takes text b := by
  intro rest
  refine Option.bind_eq_some_iff.mpr ⟨(a, rest), h rest, ?_⟩
  exact Option.map_eq_some_iff.mpr ⟨b, hf, rfl⟩

theorem Takes.map {r : Reader α} {text : List Char} {a : α} (h : r.Takes text a) (f : α → β) : (r.map f).Takes text (f a) :=
  h.filterMap rfl

theorem Takes.orElse {r : Reader α} {text : List Char} {a : α} (h : r.Takes text a) (r' : Reader α) :
    (r.orElse r').Takes text a := by
  intro rest
  simp only [Reader.orElse, h rest]

/-- What the first of two readers never reads is left to the second. -/
theorem Takes.orElse_of_none {r r' : Reader α} {text : List Char} {a : α} (h : r'.Takes text a)
    (hnone : ∀ rest, r.read (text ++ rest) = none) : (r.orElse r').Takes text a := by
  intro rest
  simp only [Reader.orElse, hnone rest]
  exact h rest

/-- A member that was not yet met is read. -/
theorem Takes.once {r : Reader α} {text : List Char} {a : α} (h : r.Takes text a) : (once none r).Takes text (some a) :=
  h.map some

/-- What stands after a key is read as the key says. -/
theorem read_member (value : String → Reader α) (k : String) (s : List Char) :
    (member value).read (quote k ++ ':' :: s) = (value k).read s := by
  have hkey : key.read (quote k ++ ':' :: s) = some (k, s) := by
    change (string.read _).bind _ = _
    rw [takes_string k, Option.bind_some]
    change (expect ':' _).map _ = _
    rw [expect_cons rfl, Option.map_some]
  change (key.read _).bind _ = _
  rw [hkey, Option.bind_some]

theorem Takes.member {value : String → Reader α} {k : String} {text : List Char} {a : α} (h : (value k).Takes text a) :
    (member value).Takes (quote k ++ ':' :: text) a := by
  intro rest
  rw [List.append_assoc, List.cons_append, read_member]
  exact h rest

/-- An object of one member is read as what is read, or not, before its closing brace. -/
theorem read_variant {value : String → Reader α} {k : String} {text : List Char} {o : Option α}
    (h : ∀ rest, (value k).read (text ++ '\x7d' :: rest) = o.map fun a => (a, '\x7d' :: rest)) (rest : List Char) :
    (variant value).read (writeObject [(k, text)] ++ rest) = o.map fun a => (a, rest) := by
  simp only [variant]
  rw [writeObject, List.map_singleton, List.intercalate_singleton, List.append_assoc, List.cons_append, expect_cons rfl, Option.bind_some,
    List.append_assoc, List.singleton_append, List.cons_append, read_member, h]
  cases o with
  | none => rfl
  | some a => rw [Option.map_some, Option.bind_some, expect_cons rfl, Option.map_some, Option.map_some]

theorem Takes.variant {value : String → Reader α} {k : String} {text : List Char} {a : α} (h : (value k).Takes text a) :
    (variant value).Takes (writeObject [(k, text)]) a := read_variant (o := some a) fun _ => h _

/-! ## Objects -/

/-- Members that are taken one after the other lead from one state to another. -/
def Accumulates (value : σ → String → Reader σ) : σ → List (String × List Char) → σ → Prop
  | state, [], final => state = final
  | state, m :: ms, final => ∃ mid, (value state m.1).Takes m.2 mid ∧ Accumulates value mid ms final

theorem members_written {value : σ → String → Reader σ} {state final : σ} {m : String × List Char} {ms : List (String × List Char)}
    (h : Accumulates value state (m :: ms) final) (rest : List Char) :
    members value state ([','].intercalate ((m :: ms).map fun m => quote m.1 ++ ':' :: m.2) ++ '\x7d' :: rest) =
      some (final, rest) := by
  induction ms generalizing state m with
  | nil =>
    obtain ⟨mid, hm, rfl⟩ := h
    have hread := hm.member ('\x7d' :: rest)
    rw [List.map_singleton, List.intercalate_singleton]
    unfold members
    split
    · next hnone =>
      rw [hread] at hnone
      cases hnone
    · next state' s' hsome =>
      rw [hread] at hsome
      cases hsome
      split
      · next s'' hcomma =>
        rw [expect_cons_ne rfl (by decide)] at hcomma
        cases hcomma
      · rw [expect_cons rfl, Option.map_some]
  | cons m' ms ih =>
    obtain ⟨mid, hm, hrest⟩ := h
    have hread := hm.member
      (',' :: ([','].intercalate ((m' :: ms).map fun m => quote m.1 ++ ':' :: m.2) ++ '\x7d' :: rest))
    have hsplit : [','].intercalate ((m :: m' :: ms).map fun m => quote m.1 ++ ':' :: m.2) ++ '\x7d' :: rest =
        (quote m.1 ++ ':' :: m.2) ++
          (',' :: ([','].intercalate ((m' :: ms).map fun m => quote m.1 ++ ':' :: m.2) ++ '\x7d' :: rest)) := by
      simp [List.intercalate]
    rw [hsplit]
    unfold members
    split
    · next hnone =>
      rw [hread] at hnone
      cases hnone
    · next state' s' hsome =>
      rw [hread] at hsome
      cases hsome
      split
      · next s'' hcomma =>
        rw [expect_cons rfl] at hcomma
        cases hcomma
        exact ih hrest
      · next hcomma =>
        rw [expect_cons rfl] at hcomma
        cases hcomma

/-- A written object is taken as the state that its members lead to. -/
theorem takes_object {value : σ → String → Reader σ} {state final : σ} {ms : List (String × List Char)}
    (h : Accumulates value state ms final) : (object value state).Takes (writeObject ms) final := by
  intro rest
  simp only [object]
  rw [writeObject, List.append_assoc, List.cons_append, expect_cons rfl, Option.bind_some, List.singleton_append]
  cases ms with
  | nil =>
    obtain rfl : state = final := h
    rw [List.map_nil, List.intercalate_nil, List.nil_append, expect_cons rfl]
  | cons m ms =>
    have hfirst : ∃ s, [','].intercalate ((m :: ms).map fun m => quote m.1 ++ ':' :: m.2) ++ '\x7d' :: rest = '"' :: s := by
      cases ms <;> simp [List.intercalate, quote]
    have hmembers := members_written h rest
    obtain ⟨s, hs⟩ := hfirst
    rw [hs] at hmembers ⊢
    rw [expect_cons_ne rfl (by decide)]
    exact hmembers

/-- A text that a reader takes is, as a whole, the value it is taken as. -/
theorem Takes.readAll {r : Reader α} {text : List Char} {a : α} (h : r.Takes text a) : r.readAll (String.ofList text) = some a := by
  have hread := h []
  rw [List.append_nil] at hread
  rw [Reader.readAll, String.toList_ofList, hread]
  rfl

end Reader

end Spreadsheet.Json
