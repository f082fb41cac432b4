import Spreadsheet.Proofs.Dependency.Cycle
import Spreadsheet.Proofs.Sheet.Request

/-!
# Contents that close a cycle

Admitted contents are refused for one reason only: they are a formula, and it reads the cell itself or what depends on the cell,
directly or not, before the call (`Sheet.cycle_refused_exactly`). What the cell read before counts for nothing, since these links
are gone when the order is looked for. The cycle that is reported is the path along which the formula would have read its own
value.
-/

namespace Spreadsheet.Sheet

variable {rules : NameRules} {version : String} {sheet : Sheet}

/-- Admitted contents are refused with the cycle that the new links close, if they close one. -/
theorem Sound.set_eq_circularDependency_iff (h : sheet.Sound rules version) {name typed normalized : String} {contents : Contents}
    (hname : rules.admit? name = some normalized) (htyped : Contents.classify? rules typed = .ok contents) {cycle : Cycle} :
    (sheet.set name typed).1 = .error (.circularDependency cycle) ↔
      (sheet.dependencies.replaceDependees normalized contents.reads.toList).recalculationOrder normalized = .error cycle := by
  change _ ↔ (sheet.relink normalized contents.reads).dependencies.recalculationOrder normalized = .error cycle
  cases horder : (sheet.relink normalized contents.reads).dependencies.recalculationOrder normalized with
  | ok order => simp [h.set_eq hname htyped horder]
  | error cycle' => simp [Sheet.set, h.resolve_eq hname, h.rules_eq, htyped, place, horder, Except.mapError]

/-- Contents typed into a cell of a sheet in use, under a name and a text that are fine in themselves, are refused for a cycle if
and only if they are a formula with a variable that is the cell itself or depends on it, directly or not, before the call. The path
that is then reported begins and ends with the cell and goes through other names once each; each step but the last goes to a cell
that depended on the one before it before the call, and the last one from a variable of the formula to the cell. -/
theorem cycle_refused_exactly (h : InUse rules version sheet) {name typed normalized : String} {contents : Contents}
    (hname : rules.admit? name = some normalized) (htyped : Contents.classify? rules typed = .ok contents) :
    ((∃ cycle, (sheet.set name typed).1 = .error (.circularDependency cycle)) ↔
      ∃ f, contents = .formula f ∧ ∃ v ∈ f.names, v = normalized ∨ Relation.TransGen sheet.dependencies.Holds normalized v) ∧
    ∀ cycle, (sheet.set name typed).1 = .error (.circularDependency cycle) →
      ∃ f others, contents = .formula f ∧ cycle.path = normalized :: others ++ [normalized] ∧ (normalized :: others).Nodup ∧
        (normalized :: others).IsChain sheet.dependencies.Holds ∧
        (normalized :: others).getLast (List.cons_ne_nil normalized others) ∈ f.names := by
  have hconsistent := h.sound.consistent
  have hacyclic := h.sound.acyclic
  simp only [h.sound.set_eq_circularDependency_iff hname htyped]
  constructor
  · rw [hconsistent.recalculationOrder_replaceDependees_error_iff hacyclic]
    simp only [Std.ExtTreeSet.mem_toList, Contents.mem_reads, Dependencies.Reaches, Relation.reflTransGen_iff_eq_or_transGen]
    constructor
    · rintro ⟨v, ⟨f, hf, hv⟩, hreach⟩
      exact ⟨f, hf, v, hv, hreach⟩
    · rintro ⟨f, hf, v, hv, hreach⟩
      exact ⟨v, ⟨f, hf, hv⟩, hreach⟩
  · intro cycle hcycle
    obtain ⟨others, hpath, hnodup, hlinked, hlast⟩ := hconsistent.path_of_replaceDependees hacyclic hcycle
    obtain ⟨f, hf, hv⟩ := Contents.mem_reads.mp (Std.ExtTreeSet.mem_toList.mp hlast)
    exact ⟨f, others, hf, hpath, hnodup, hlinked, hv⟩

set_option maxRecDepth 10000 in
/-- A cell that reads `e` is to read `c`, which depends on it through `b`: the new formula is refused, and the path leads from the cell
through `b` and `c` back to it. -/
theorem cycle_refused_exactly_overwritten :
    ∃ (sheet : Sheet) (f : Formula), InUse .any "v" sheet ∧ NameRules.any.admit? "a" = some "a" ∧
      Contents.classify? .any "=c+d" = .ok (.formula f) ∧ "c" ∈ f.names ∧ Relation.TransGen sheet.dependencies.Holds "a" "c" ∧
      (∃ cycle, (sheet.set "a" "=c+d").1 = .error (.circularDependency cycle)) ∧
      (sheet.set "a" "=c+d").1 = .error (.circularDependency ⟨["a", "b", "c", "a"]⟩) ∧
      sheet.dependencies.Holds "a" "b" ∧ sheet.dependencies.Holds "b" "c" := by
  have hname : NameRules.any.admit? "a" = some "a" := rfl
  have htyped : Contents.classify? .any "=c+d" =
      .ok (.formula ⟨[.var "c", .operator .add, .var "d"], by decide⟩) := by cbv
  have hset : (((((Sheet.empty .any "v").set "a" "=e").2.set "b" "=a").2.set "c" "=b").2.set "a" "=c+d").1 =
      .error (.circularDependency ⟨["a", "b", "c", "a"]⟩) := by cbv
  have h : InUse .any "v" ((((Sheet.empty .any "v").set "a" "=e").2.set "b" "=a").2.set "c" "=b").2 :=
    ⟨[.set "a" "=e", .set "b" "=a", .set "c" "=b"], rfl⟩
  -- The links are read off the path that is reported.
  obtain ⟨_, others, -, hpath, -, hlinked, -⟩ := (cycle_refused_exactly h hname htyped).2 _ hset
  obtain rfl : ["b", "c"] = others := List.append_cancel_right (List.cons.inj hpath).2
  have hab := (List.isChain_cons_cons.mp hlinked).1
  have hbc := (List.isChain_cons_cons.mp (List.isChain_cons_cons.mp hlinked).2).1
  have hread : "c" ∈ Formula.names ⟨[.var "c", .operator .add, .var "d"], by decide⟩ :=
    Formula.mem_names.mpr List.mem_cons_self
  have hreach := Relation.TransGen.tail (.single hab) hbc
  have hrefused := (cycle_refused_exactly h hname htyped).1.mpr ⟨_, rfl, "c", hread, Or.inr hreach⟩
  exact ⟨_, _, h, hname, htyped, hread, hreach, hrefused, hset, hab, hbc⟩

end Spreadsheet.Sheet
