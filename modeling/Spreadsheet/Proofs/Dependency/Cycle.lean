import Spreadsheet.Proofs.Dependency.Walk

/-!
# The cycle that a walk reports

A walk that finds no order reports the part of its path from the name that is met again inwards to the name it is met from. That
part is a circle: no name comes twice, each name depends on the one before it, and the first on the last (`Walk.Inv.circle`). The
start of the walk is the outermost name of its path, so it is the first name of the circle or not in it.

Where the dependees of one name have been replaced and nothing depended on itself before, every circle goes through that name, for
a circle elsewhere would have been there before. So the walk from that name fails exactly if one of the new dependees was reached
from it (`Dependencies.Consistent.recalculationOrder_replaceDependees_error_iff`), and what it then reports begins and ends with
that name and was a path before (`Dependencies.Consistent.path_of_replaceDependees`).
-/

namespace Spreadsheet

namespace Dependencies

/-- Names, a first one and others, that close a circle: none comes twice, each depends on the one before it, and the first depends
on the last. -/
structure Circle (g : Dependencies) (first : String) (others : List String) : Prop where
  nodup : (first :: others).Nodup
  linked : (first :: others).IsChain g.Holds
  closed : g.Holds ((first :: others).getLast (List.cons_ne_nil first others)) first

/-- Gone round once, a circle is a chain that comes back to its first name. -/
theorem Circle.isChain {g : Dependencies} {first : String} {others : List String} (h : g.Circle first others) :
    (first :: others ++ [first]).IsChain g.Holds := by
  rw [List.isChain_append]
  refine ⟨h.linked, List.isChain_singleton first, fun r hr x hx => ?_⟩
  obtain rfl := Option.some.inj hx
  rw [List.getLast?_eq_some_getLast (List.cons_ne_nil first others)] at hr
  obtain rfl := Option.some.inj hr
  exact h.closed

end Dependencies

namespace Walk

open Dependencies

/-- The names of a path end with the start of the walk. -/
theorem Inv.getLast?_names {g : Dependencies} {start : String} {w : Walk} (h : w.Inv g start) (hne : w.path ≠ []) :
    (w.path.map Frame.name).getLast? = some start := by
  rw [List.getLast?_map]
  exact h.rooted.resolve_right fun hr => hne hr.1

/-- The cycle that a name on a path closes is the part of the path from there inwards, and the name again. -/
theorem cycleAt_eq {path : List Frame} {name : String} {within outer : List String}
    (hnames : path.map Frame.name = within ++ name :: outer) (hnew : name ∉ within) :
    cycleAt path name = ⟨name :: within.reverse ++ [name]⟩ := by
  have hwithin : (within ++ name :: outer).takeWhile (· != name) = within := by
    rw [List.takeWhile_append_of_pos]
    · simp
    · intro t ht
      have hne : t ≠ name := by
        rintro rfl
        exact hnew ht
      simpa using hne
  rw [cycleAt, hnames, hwithin]

/-- What a walk reports is a circle at the inner end of its path, and the start of the walk is at most its first name. -/
theorem Inv.circle {g : Dependencies} {start : String} {w : Walk} {cycle : Cycle} (h : w.Inv g start)
    (hs : w.step g = .closed cycle) :
    ∃ first others, cycle.path = first :: others ++ [first] ∧ g.Circle first others ∧ start ∉ others ∧
      ∃ outer, (w.path.map Frame.name).reverse = outer ++ first :: others := by
  obtain ⟨f, path, next, hp, hon, hstep, rfl⟩ := h.exists_of_closed hs
  obtain ⟨within, outer, hnames, hnew⟩ := List.eq_append_cons_of_mem hon
  have hinner : w.path.map Frame.name = within ++ [next] ++ outer := by simp [hnames]
  have hnodup : (within ++ [next] ++ outer).Nodup := hinner ▸ h.nodup
  have hreverse : next :: within.reverse = (within ++ [next]).reverse := by simp
  refine ⟨next, within.reverse, by rw [cycleAt_eq hnames hnew], ⟨?_, ?_, ?_⟩, ?_, outer.reverse, by simp [hnames]⟩
  · rw [hreverse, List.nodup_reverse]
    exact hnodup.of_append_left
  · have hlinked : (w.path.map Frame.name).IsChain fun inner outer => g.Holds outer inner :=
      (List.isChain_map Frame.name).mpr h.linked
    rw [hinner] at hlinked
    rw [hreverse, List.isChain_reverse]
    exact hlinked.left_of_append
  · -- The last name of the circle is the innermost one of the path.
    have hlast : (next :: within.reverse).getLast? = some f.name := by
      rw [hreverse, List.getLast?_reverse, ← List.head?_append_of_ne_nil _ (by simp), ← hinner, hp]
      rfl
    rw [List.getLast?_eq_some_getLast (List.cons_ne_nil _ _), Option.some.injEq] at hlast
    rw [hlast]
    exact hstep
  · intro hstart
    have hroot : (within ++ next :: outer).getLast? = some start := by
      rw [← hnames]
      exact h.getLast?_names (by simp [hp])
    rw [List.getLast?_append_of_ne_nil _ (List.cons_ne_nil next outer)] at hroot
    rw [List.append_assoc] at hnodup
    exact List.disjoint_of_nodup_append hnodup (List.mem_reverse.mp hstart) (List.mem_of_getLast? hroot)

/-- One walk becomes another in any number of steps. -/
def Leads (g : Dependencies) : Walk → Walk → Prop := Relation.ReflTransGen fun w w' => w.step g = .next w'

/-- What holds of a walk holds after any number of steps. -/
theorem Inv.leads {g : Dependencies} {start : String} {w w' : Walk} (h : w.Inv g start) (hl : w.Leads g w') :
    w'.Inv g start := by
  induction hl with
  | refl => exact h
  | tail _ hs ih => exact ih.step hs

/-- A walk that finds no order comes to a step that closes a cycle. -/
theorem exists_closed_of_run {g : Dependencies} {w : Walk} {cycle : Cycle} (hrun : w.run g = .error cycle) :
    ∃ w', w.Leads g w' ∧ w'.step g = .closed cycle := by
  fun_induction Walk.run g w with
  | case1 w w' hs ih =>
    obtain ⟨w'', hl, hclosed⟩ := ih hrun
    exact ⟨w'', hl.head hs, hclosed⟩
  | case2 w order hs => cases hrun
  | case3 w cycle' hs =>
    cases hrun
    exact ⟨w, Relation.ReflTransGen.refl, hs⟩

/-- A walk that finds no order reports a circle, and its start is at most the first name of it. -/
theorem Inv.run_circle {g : Dependencies} {start : String} {w : Walk} {cycle : Cycle} (h : w.Inv g start)
    (hrun : w.run g = .error cycle) :
    ∃ first others, cycle.path = first :: others ++ [first] ∧ g.Circle first others ∧ start ∉ others := by
  obtain ⟨w', hl, hs⟩ := exists_closed_of_run hrun
  obtain ⟨first, others, hpath, hcircle, hstart, -⟩ := (h.leads hl).circle hs
  exact ⟨first, others, hpath, hcircle, hstart⟩

end Walk

namespace Dependencies

variable {g : Dependencies} {t : String} {ss : List String} {cycle : Cycle}

/-- Without infinite descent there is no circle. -/
theorem not_circle_of_wellFounded (hw : WellFounded g.Holds) {first : String} {others : List String} : ¬g.Circle first others :=
  fun h => hw.asymmetricₙ (List.cons_ne_nil first others) h.linked h.closed

/-- New dependees of a name make no new links onto other names. -/
theorem Consistent.isChain_of_replaceDependees (hg : g.Consistent) {first : String} {others : List String} (ht : t ∉ others)
    (h : (first :: others).IsChain (g.replaceDependees t ss).Holds) : (first :: others).IsChain g.Holds := by
  refine h.imp_of_mem_tail_imp fun r x _ hx hrx => ?_
  have hne : x ≠ t := by
    rintro rfl
    exact ht hx
  rw [hg.holds_replaceDependees, if_neg hne] at hrx
  exact hrx

/-- What is reported when new dependees of a name close a circle: it begins and ends with that name, it was a path before, and it
ends in one of the new dependees. -/
theorem Consistent.path_of_replaceDependees (hg : g.Consistent) (hw : WellFounded g.Holds)
    (h : (g.replaceDependees t ss).recalculationOrder t = .error cycle) :
    ∃ others, cycle.path = t :: others ++ [t] ∧ (t :: others).Nodup ∧ (t :: others).IsChain g.Holds ∧
      (t :: others).getLast (List.cons_ne_nil t others) ∈ ss := by
  obtain ⟨first, others, hpath, hcircle, ht⟩ := (Walk.inv_start (hg.replaceDependees t ss) t).run_circle h
  have hlinked : (first :: others).IsChain g.Holds := hg.isChain_of_replaceDependees ht hcircle.linked
  have hclosed := hcircle.closed
  rw [hg.holds_replaceDependees] at hclosed
  by_cases hfirst : first = t
  · subst hfirst
    rw [if_pos rfl] at hclosed
    exact ⟨others, hpath, hcircle.nodup, hlinked, hclosed⟩
  · -- A circle that does not go through the name would have been there before.
    rw [if_neg hfirst] at hclosed
    exact absurd ⟨hcircle.nodup, hlinked, hclosed⟩ (not_circle_of_wellFounded hw)

/-- What was reached from a name is reached from it whatever its new dependees: no path comes back to the name. -/
theorem Consistent.reaches_replaceDependees (hg : g.Consistent) (hw : WellFounded g.Holds) {s : String} (h : g.Reaches t s) :
    (g.replaceDependees t ss).Reaches t s := by
  induction h with
  | refl => exact Relation.ReflTransGen.refl
  | @tail r x hr hrx ih =>
    refine ih.tail ?_
    have hne : x ≠ t := by
      rintro rfl
      exact not_cyclic_of_wellFounded hw x (Relation.TransGen.tail' hr hrx)
    rw [hg.holds_replaceDependees, if_neg hne]
    exact hrx

/-- New dependees of a name allow no order of recalculation exactly if one of them was reached from the name before. -/
theorem Consistent.recalculationOrder_replaceDependees_error_iff (hg : g.Consistent) (hw : WellFounded g.Holds) :
    (∃ cycle, (g.replaceDependees t ss).recalculationOrder t = .error cycle) ↔ ∃ s ∈ ss, g.Reaches t s := by
  constructor
  · rintro ⟨cycle, h⟩
    obtain ⟨others, -, -, hlinked, hlast⟩ := hg.path_of_replaceDependees hw h
    exact ⟨_, hlast, List.relationReflTransGen_of_exists_isChain_cons others hlinked rfl⟩
  · rintro ⟨s, hs, hreach⟩
    have hst : (g.replaceDependees t ss).Holds s t := by
      rw [hg.holds_replaceDependees, if_pos rfl]
      exact hs
    refine (recalculationOrder_error_iff (hg.replaceDependees t ss)).mpr ⟨t, Relation.ReflTransGen.refl, ?_⟩
    exact Relation.TransGen.tail' (hg.reaches_replaceDependees hw hreach) hst

end Dependencies

end Spreadsheet
