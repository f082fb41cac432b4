import Spreadsheet.Proofs.Dependency.Cycle
import Spreadsheet.Proofs.Dependency.Operations

/-!
# Orders of recalculation

From every name, and for any dependencies that operations make, the walk either finds an order or reports a cycle. An order begins
with the name, lists what is reached from it and nothing else, and puts each name before all that depends on it
(`Dependencies.recalculationOrder_lists_reached`). A cycle is reported exactly if one can be reached, be it far from the name; what
is reported is the inner end of the path the walk is on, and it is a cycle (`Dependencies.cycle_reported_exactly`).
-/

namespace Spreadsheet.Dependencies

variable {g : Dependencies} {name : String}

/-- The order of recalculation from a name begins with the name, lists the names that are reached from it along the dependents and no
others, each once, and has all that depends on a listed name later in the list. -/
theorem recalculationOrder_lists_reached (h : g.Made) {order : List String} (hok : g.recalculationOrder name = .ok order) :
    order.head? = some name ∧ order.Nodup ∧ (∀ t, t ∈ order ↔ g.Reaches name t) ∧
      ∀ s t, g.Holds s t → s ∈ order → t ∈ order ∧ order.idxOf s < order.idxOf t := by
  obtain ⟨harr, hhead⟩ := arranged_of_recalculationOrder h.consistent hok
  refine ⟨hhead, harr.nodup, fun t => mem_of_recalculationOrder h.consistent hok, ?_⟩
  intro s t hst hs
  exact ⟨harr.closed hs hst, harr.idxOf_lt hs hst⟩

set_option maxRecDepth 10000 in
/-- What `b`, `c` and `d` read is `a`, and `d` reads `b` and `c` too: `d` comes last, although it is met first by way of `b`, and what
`a` reads itself is not listed. -/
theorem recalculationOrder_lists_reached_diamond :
    ∃ g : Dependencies, g.Made ∧ g.recalculationOrder "a" = .ok ["a", "c", "b", "d"] ∧ g.Holds "c" "d" ∧
      ["a", "c", "b", "d"].idxOf "c" < ["a", "c", "b", "d"].idxOf "d" ∧ g.Reaches "a" "d" ∧
      g.Holds "z" "a" ∧ ¬g.Reaches "a" "z" := by
  let ops : List Operation := [.replaceDependees "d" ["c", "b", "a"], .add "a" "c", .add "a" "b", .add "z" "a"]
  have hmade : (ops.foldl Operation.perform empty).Made := ⟨ops, rfl⟩
  have hok : (ops.foldl Operation.perform empty).recalculationOrder "a" = .ok ["a", "c", "b", "d"] := by cbv
  have hcd : (ops.foldl Operation.perform empty).Holds "c" "d" := by
    simp [ops, Operation.perform, holds_add, replaceDependees]
  have hza : (ops.foldl Operation.perform empty).Holds "z" "a" := by
    simp [ops, Operation.perform, holds_add]
  obtain ⟨-, -, hmem, hlater⟩ := recalculationOrder_lists_reached hmade hok
  exact ⟨_, hmade, hok, hcd, (hlater "c" "d" hcd (by decide)).2, (hmem "d").mp (by decide), hza,
    fun hreach => absurd ((hmem "z").mpr hreach) (by decide)⟩

/-- There is no order of recalculation from a name exactly if some name depends on itself, by one step or more, that is the name or
is reached from it. What is reported then begins and ends with one name that is reached, goes through other names once each, and
every step of it leads to a name that depends on the one before. It is cut out of the path that the walk is on, of which it is all
from the name met again inwards: that name does stand on the path. -/
theorem cycle_reported_exactly (h : g.Made) (name : String) :
    ((∃ cycle, g.recalculationOrder name = .error cycle) ↔ ∃ t, g.Reaches name t ∧ g.Cyclic t) ∧
    ∀ cycle, g.recalculationOrder name = .error cycle →
      ∃ first others, cycle.path = first :: others ++ [first] ∧ (first :: others).Nodup ∧ cycle.path.IsChain g.Holds ∧
        g.Reaches name first ∧
        ∃ w outer, (Walk.start g name).Leads g w ∧ w.step g = .closed cycle ∧
          (w.path.map Frame.name).reverse = outer ++ first :: others ∧ first ∉ outer := by
  refine ⟨recalculationOrder_error_iff h.consistent, fun cycle hcycle => ?_⟩
  obtain ⟨w, hleads, hclosed⟩ := Walk.exists_closed_of_run hcycle
  have hinv := (Walk.inv_start h.consistent name).leads hleads
  obtain ⟨first, others, hpath, hcircle, -, outer, houter⟩ := hinv.circle hclosed
  have hon : first ∈ w.path.map Frame.name := by
    rw [← List.mem_reverse, houter]
    exact List.mem_append_right outer List.mem_cons_self
  have hnodup : (outer ++ first :: others).Nodup := houter ▸ List.nodup_reverse.mpr hinv.nodup
  have hfirst : first ∉ outer := fun hmem => List.disjoint_of_nodup_append hnodup hmem List.mem_cons_self
  exact ⟨first, others, hpath, hcircle.nodup, hpath ▸ hcircle.isChain, hinv.reached first (Or.inr hon), w, outer, hleads,
    hclosed, houter, hfirst⟩

set_option maxRecDepth 10000 in
/-- A circle of `b`, `c` and `d` that does not come back to the start, which the walk meets after it has finished another name. -/
theorem cycle_reported_exactly_elsewhere :
    ∃ g : Dependencies, g.Made ∧ g.recalculationOrder "a" = .error ⟨["b", "c", "d", "b"]⟩ ∧
      (∃ t, g.Reaches "a" t ∧ g.Cyclic t) ∧ g.Reaches "a" "b" ∧ g.Holds "b" "c" ∧ g.Holds "c" "d" ∧ g.Holds "d" "b" := by
  let ops : List Operation := [.add "a" "b", .add "a" "aa", .add "b" "c", .add "c" "d", .add "d" "b", .add "d" "e"]
  have hmade : (ops.foldl Operation.perform empty).Made := ⟨ops, rfl⟩
  have hcycle : (ops.foldl Operation.perform empty).recalculationOrder "a" = .error ⟨["b", "c", "d", "b"]⟩ := by cbv
  obtain ⟨hiff, hreport⟩ := cycle_reported_exactly hmade "a"
  obtain ⟨first, others, hpath, -, hchain, hreach, -⟩ := hreport _ hcycle
  obtain rfl : "b" = first := (List.cons.inj hpath).1
  obtain ⟨hbc, hcd, hdb⟩ : _ ∧ _ ∧ _ := by simpa using hchain
  exact ⟨_, hmade, hcycle, hiff.mp ⟨_, hcycle⟩, hreach, hbc, hcd, hdb⟩

end Spreadsheet.Dependencies
