import Spreadsheet.Proofs.Formula.Derivation
import Spreadsheet.Proofs.Formula.Lexemes
import Spreadsheet.Proofs.Sheet.Request

/-!
# Every cell can be referred to

Names of cells are checked character by character, variables are cut out of a text, and both know the same names
(`Token.isName_iff_scan`). A name that is normalized and admitted is a formula by itself, with itself as the only variable
(`Formula.exists_parse?_name`). Under idempotent rules the names of cells are of that kind, so a formula can read any cell of a sheet in
use by writing its name (`Sheet.names_are_variables`).
-/

namespace Spreadsheet

variable {rules : NameRules}

namespace Formula

/-- One variable with an admitted name has no fault. -/
theorem firstFault?_var {name : String} (h : rules.admits (rules.normalize name) = true) : firstFault? rules [.var name] = none := by
  refine firstFault?_eq_none_iff_beforeOperand.mpr ⟨.var name .done, fun t ht => ?_⟩
  cases List.mem_singleton.mp ht
  exact Progress.nameFault?_eq_none_iff.mpr fun name' h' => by cases h'; exact h

/-- A name that is normalized and admitted is the text of a formula with that name as its only variable. -/
theorem exists_parse?_name {name : String} (hn : rules.normalize name = name) (ha : rules.admits name = true) :
    ∃ f, parse? rules name = .ok f ∧ f.tokens = [.var name] := by
  have hscan : Token.scan name.toList = [.var name] := Token.scan_of_isName (Bool.and_eq_true_iff.mp ha).1
  have hfault : firstFault? rules [.var name] = none := firstFault?_var (by rw [hn]; exact ha)
  have hnormal : ∀ t ∈ [Token.var name], t.mapName rules.normalize = t := by
    intro t ht
    cases List.mem_singleton.mp ht
    rw [Token.mapName, hn]
  rw [parse?, hscan]
  exact exists_ofTokens? hfault hnormal

end Formula

namespace Sheet

/-- The well-formed names are the texts that are scanned as one variable of that name. So under idempotent rules the name of every cell
of a sheet in use, typed after `=`, is a formula, and the only variable of that formula is the name. -/
theorem names_are_variables :
    (∀ name : String, isName name = true ↔ Token.scan name.toList = [.var name]) ∧
    ∀ (rules : NameRules) (version : String) (sheet : Sheet), rules.Idempotent → InUse rules version sheet →
      ∀ name ∈ sheet.cells, ∃ f, Formula.parse? rules name = .ok f ∧
        Contents.classify? rules ("=" ++ name) = .ok (.formula f) ∧ ∀ other, other ∈ f.names ↔ other = name := by
  refine ⟨fun name => Token.isName_iff_scan, fun rules version sheet hi h name hname => ?_⟩
  obtain ⟨hnormal, hadmits⟩ := NameRules.admit?_eq_some (h.sound.admit?_of_mem_cells hi hname)
  obtain ⟨f, hparse, htokens⟩ := Formula.exists_parse?_name hnormal hadmits
  refine ⟨f, hparse, ?_, fun other => ?_⟩
  · rw [Formula.parse?] at hparse
    rw [Contents.classify?, String.toList_append]
    change (Formula.ofTokens? rules (Token.scan name.toList)).map Contents.formula = _
    rw [hparse]
    rfl
  · rw [Formula.mem_names, htokens, List.mem_singleton, Token.var.injEq]

set_option maxRecDepth 10000 in
/-- A blank in front makes a name that is not well formed, although a variable is found in it. Under rules that replace `b` by `a`, what
is typed into `b` is stored under `a`, and `=a` reads it. -/
theorem names_are_variables_renamed :
    Token.scan " a".toList = [.var "a"] ∧ isName " a" = false ∧
    ∃ (rules : NameRules) (sheet : Sheet), rules.Idempotent ∧ InUse rules "v" sheet ∧ "a" ∈ sheet.cells ∧
      ∃ f, Contents.classify? rules "=a" = .ok (.formula f) ∧ ∀ other, other ∈ f.names ↔ other = "a" := by
  have hscan : Token.scan " a".toList = [.var "a"] := by cbv
  have hname : isName " a" = false := by
    rw [Bool.eq_false_iff, ne_eq, names_are_variables.1 " a", hscan]
    decide
  have hi := NameRules.idempotent_replace "b" "a" .all
  have h : InUse (.of (.replace [("b", "a")]) .all) "v" ((Sheet.empty (.of (.replace [("b", "a")]) .all) "v").set "b" "=c").2 :=
    ⟨[.set "b" "=c"], rfl⟩
  have hcell : ((Sheet.empty (.of (.replace [("b", "a")]) .all) "v").set "b" "=c").2.cells["a"]?.isSome = true := by cbv
  have hmem := Std.ExtTreeMap.mem_iff_isSome_getElem?.mpr hcell
  obtain ⟨f, -, hf, hnames⟩ := names_are_variables.2 _ _ _ hi h "a" hmem
  exact ⟨hscan, hname, _, _, hi, h, hmem, f, hf, hnames⟩

end Sheet

end Spreadsheet
