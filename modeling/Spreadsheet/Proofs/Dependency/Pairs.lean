import Mathlib
import Spreadsheet.Dependency.Basic

/-!
# Dependencies as a set of pairs

Statements about `Links` and `Dependencies` through one view, the pairs that hold. Each operation is said to do one thing to the
pairs, and to keep the two listings and the count in agreement (`Dependencies.Consistent`). Consistent dependencies are the same
as soon as the same pairs hold (`Dependencies.Consistent.ext`): putting the old links of a name back restores everything. What is
counted down is always there to be counted (`Dependencies.Consistent.size_remove`, `Dependencies.Consistent.size_dropDependees`).
What is said of dependees holds of dependents with the two listings exchanged (`Dependencies.swap`).
-/

namespace Spreadsheet

/-- The names of a set are listed once each. -/
theorem Names.nodup_toList (names : Names) : names.toList.Nodup :=
  names.distinct_toList.imp fun hab he => hab (by rw [he]; exact Std.ReflCmp.compare_self)

namespace Links

/-- The pairs of a listing are the pairs that hold. -/
theorem mem_pairs {l : Links} {s t : String} : (s, t) ∈ l.pairs ↔ t ∈ l.targets s := by
  simp only [pairs, List.mem_flatMap, List.mem_map, Prod.mk.injEq, Std.ExtTreeSet.mem_toList]
  constructor
  · rintro ⟨⟨r, ts⟩, hr, x, hx, rfl, rfl⟩
    rw [Std.ExtTreeMap.mem_toList_iff_getElem?_eq_some] at hr
    rw [targets, hr]
    exact hx
  · intro h
    unfold targets at h
    cases hs : l[s]? with
    | none => simp [hs] at h
    | some ts =>
      rw [hs] at h
      exact ⟨(s, ts), Std.ExtTreeMap.mem_toList_iff_getElem?_eq_some.mpr hs, t, h, rfl, rfl⟩

/-- No pair is listed twice. -/
theorem nodup_pairs (l : Links) : l.pairs.Nodup := by
  unfold pairs
  rw [List.nodup_flatMap]
  constructor
  · rintro ⟨s, ts⟩ -
    exact (Names.nodup_toList ts).map fun a b h => (Prod.mk.inj h).2
  · refine l.distinct_keys_toList.imp ?_
    intro a b hab
    rw [Function.onFun, List.disjoint_left]
    intro p hp hp'
    obtain ⟨x, -, rfl⟩ := List.mem_map.mp hp
    obtain ⟨y, -, hy⟩ := List.mem_map.mp hp'
    rw [Prod.mk.injEq] at hy
    exact hab (by rw [hy.1]; exact Std.ReflCmp.compare_self)

/-- The number of pairs is read off any list that holds each of them once. -/
theorem length_pairs_eq {l : Links} {ps : List (String × String)} (hn : ps.Nodup)
    (h : ∀ s t, (s, t) ∈ ps ↔ t ∈ l.targets s) : l.pairs.length = ps.length := by
  refine List.Perm.length_eq ((List.perm_ext_iff_of_nodup l.nodup_pairs hn).mpr ?_)
  rintro ⟨s, t⟩
  rw [mem_pairs, h]

theorem Pruned.add {l : Links} (h : l.Pruned) (s t : String) : (l.add s t).Pruned := by
  intro r ts hr
  rw [Links.add, Std.ExtTreeMap.getElem?_insert] at hr
  split at hr
  · cases hr
    simp
  · exact h r ts hr

theorem Pruned.erase {l : Links} (h : l.Pruned) (s : String) : Pruned (Std.ExtTreeMap.erase l s) := by
  intro r ts hr
  rw [Std.ExtTreeMap.getElem?_erase] at hr
  split at hr
  · cases hr
  · exact h r ts hr

theorem Pruned.remove {l : Links} (h : l.Pruned) (s t : String) : (l.remove s t).Pruned := by
  unfold Links.remove
  split
  · exact h.erase s
  · next hne =>
    intro r ts hr
    rw [Std.ExtTreeMap.getElem?_insert] at hr
    split at hr
    · cases hr
      intro he
      exact hne (Std.ExtTreeSet.isEmpty_iff.mpr he)
    · exact h r ts hr

/-- A listed name has a related one. -/
theorem Pruned.mem_iff {l : Links} (h : l.Pruned) {s : String} : s ∈ l ↔ ∃ t, t ∈ l.targets s := by
  rw [Std.ExtTreeMap.mem_iff_isSome_getElem?, Option.isSome_iff_exists]
  constructor
  · rintro ⟨ts, hs⟩
    by_contra hno
    refine h s ts hs (Std.ExtTreeSet.ext_mem fun t => ?_)
    constructor
    · intro ht
      exact absurd ⟨t, by rw [targets, hs]; exact ht⟩ hno
    · intro ht
      simp at ht
  · rintro ⟨t, ht⟩
    unfold targets at ht
    cases hs : l[s]? with
    | none => simp [hs] at ht
    | some ts => exact ⟨ts, rfl⟩

/-- Two listings without empty entries are equal if the same pairs hold. -/
theorem Pruned.ext {l m : Links} (hl : l.Pruned) (hm : m.Pruned) (h : ∀ s t, t ∈ l.targets s ↔ t ∈ m.targets s) : l = m := by
  have ht : ∀ s, l.targets s = m.targets s := fun s => Std.ExtTreeSet.ext_mem fun t => h s t
  have hmem : ∀ s, s ∈ l ↔ s ∈ m := by
    intro s
    rw [hl.mem_iff, hm.mem_iff]
    simp only [h]
  refine Std.ExtTreeMap.ext_getElem? ?_
  intro s
  have hs := ht s
  have hiff := hmem s
  unfold targets at hs
  rw [Std.ExtTreeMap.mem_iff_isSome_getElem?, Std.ExtTreeMap.mem_iff_isSome_getElem?] at hiff
  cases hls : l[s]? with
  | none =>
    cases hms : m[s]? with
    | none => rfl
    | some ts => simp [hls, hms] at hiff
  | some ts =>
    cases hms : m[s]? with
    | none => simp [hls, hms] at hiff
    | some ts' =>
      rw [hls, hms] at hs
      simpa using hs

/-- With a pair that is there one pair is taken away, and otherwise none. -/
theorem length_pairs_remove (l : Links) (s t : String) :
    (l.remove s t).pairs.length + (if t ∈ l.targets s then 1 else 0) = l.pairs.length := by
  split
  · next ht =>
    have hlen : l.pairs.length = ((s, t) :: (l.remove s t).pairs).length := by
      refine length_pairs_eq ?_ ?_
      · rw [List.nodup_cons, mem_pairs, mem_targets_remove]
        exact ⟨fun h => h.1 ⟨rfl, rfl⟩, nodup_pairs _⟩
      · intro r x
        rw [List.mem_cons, mem_pairs, mem_targets_remove, Prod.mk.injEq]
        by_cases hp : r = s ∧ x = t
        · obtain ⟨rfl, rfl⟩ := hp
          simp [ht]
        · have hp' : ¬(s = r ∧ t = x) := fun h => hp ⟨h.1.symm, h.2.symm⟩
          simp [hp, hp']
    rw [hlen, List.length_cons]
  · next ht =>
    refine (length_pairs_eq (nodup_pairs _) ?_).symm
    intro r x
    rw [mem_pairs, mem_targets_remove]
    refine and_iff_right_of_imp ?_
    rintro hx ⟨rfl, rfl⟩
    exact ht hx

/-- One name taken away from what each name of a set is related to. -/
theorem mem_targets_foldl_remove {l : Links} {t : String} {ss : List String} {r x : String} :
    x ∈ (ss.foldl (fun l s => l.remove s t) l).targets r ↔ ¬(r ∈ ss ∧ x = t) ∧ x ∈ l.targets r := by
  induction ss generalizing l with
  | nil => simp
  | cons s ss ih =>
    rw [List.foldl_cons, ih, mem_targets_remove, List.mem_cons]
    constructor
    · rintro ⟨h₁, h₂, h₃⟩
      refine ⟨?_, h₃⟩
      rintro ⟨rfl | hr, rfl⟩
      · exact h₂ ⟨rfl, rfl⟩
      · exact h₁ ⟨hr, rfl⟩
    · rintro ⟨h₁, h₂⟩
      exact ⟨fun h => h₁ ⟨Or.inr h.1, h.2⟩, fun h => h₁ ⟨Or.inl h.1.symm, h.2.symm⟩, h₂⟩

theorem Pruned.foldl_remove {l : Links} (h : l.Pruned) (t : String) (ss : List String) :
    (ss.foldl (fun l s => l.remove s t) l).Pruned := by
  induction ss generalizing l with
  | nil => exact h
  | cons s ss ih => exact ih (h.remove s t)

end Links

namespace Dependencies

/-- The dependees of a name are those that it depends on. -/
theorem Consistent.mem_dependeesOf {g : Dependencies} (h : g.Consistent) {s t : String} : s ∈ g.dependeesOf t ↔ g.Holds s t :=
  (h.both_ways s t).symm

/-- A name depends on something exactly if it is listed with its dependees. -/
theorem Consistent.mem_dependees {g : Dependencies} (h : g.Consistent) {t : String} : t ∈ g.dependees ↔ ∃ s, g.Holds s t := by
  rw [h.dependees_pruned.mem_iff]
  exact exists_congr fun s => h.mem_dependeesOf

/-- Consistent dependencies are the same if the same pairs hold. -/
theorem Consistent.ext {g g' : Dependencies} (h : g.Consistent) (h' : g'.Consistent) (hh : ∀ s t, g.Holds s t ↔ g'.Holds s t) :
    g = g' := by
  have hdependents : g.dependents = g'.dependents := h.dependents_pruned.ext h'.dependents_pruned hh
  have hdependees : g.dependees = g'.dependees := by
    refine h.dependees_pruned.ext h'.dependees_pruned ?_
    intro t s
    rw [← h.both_ways, ← h'.both_ways]
    exact hh s t
  have hsize : g.size = g'.size := by rw [h.size_eq, h'.size_eq, hdependents]
  cases g
  cases g'
  simp only at hdependents hdependees hsize
  rw [hdependents, hdependees, hsize]

theorem Consistent.add {g : Dependencies} (h : g.Consistent) (s t : String) : (g.add s t).Consistent := by
  unfold Dependencies.add
  split
  · exact h
  · next hnew =>
    refine ⟨?_, h.dependents_pruned.add s t, h.dependees_pruned.add t s, ?_⟩
    · intro r x
      rw [Links.mem_targets_add, Links.mem_targets_add, h.both_ways, and_comm]
    · have hlen : (g.dependents.add s t).pairs.length = ((s, t) :: g.dependents.pairs).length := by
        refine Links.length_pairs_eq ?_ ?_
        · rw [List.nodup_cons, Links.mem_pairs]
          exact ⟨hnew, g.dependents.nodup_pairs⟩
        · intro r x
          rw [List.mem_cons, Links.mem_pairs, Links.mem_targets_add, Prod.mk.injEq, eq_comm (a := r), eq_comm (a := x)]
      rw [hlen, List.length_cons, h.size_eq]

/-- What holds when all that a name depends on is dropped. -/
theorem Consistent.holds_dropDependees {g : Dependencies} (h : g.Consistent) {t r x : String} :
    (g.dropDependees t).Holds r x ↔ x ≠ t ∧ g.Holds r x := by
  simp only [Holds, dropDependees, dependentsOf, Std.ExtTreeSet.foldl_eq_foldl_toList, Links.mem_targets_foldl_remove,
    Std.ExtTreeSet.mem_toList]
  constructor
  · rintro ⟨hn, hx⟩
    refine ⟨?_, hx⟩
    rintro rfl
    exact hn ⟨h.mem_dependeesOf.mpr hx, rfl⟩
  · rintro ⟨hn, hx⟩
    exact ⟨fun hr => hn hr.2, hx⟩

/-- With the dependees of a name as many pairs are dropped, and no others. -/
theorem Consistent.length_pairs_dropDependees {g : Dependencies} (h : g.Consistent) (t : String) :
    g.dependents.pairs.length = (g.dropDependees t).dependents.pairs.length + (g.dependeesOf t).size := by
  have hlen : g.dependents.pairs.length =
      ((g.dropDependees t).dependents.pairs ++ (g.dependeesOf t).toList.map fun s => (s, t)).length := by
    refine Links.length_pairs_eq ?_ ?_
    · rw [List.nodup_append]
      refine ⟨Links.nodup_pairs _, (Names.nodup_toList _).map fun a b hab => (Prod.mk.inj hab).1, ?_⟩
      rintro ⟨r, x⟩ hp q hq rfl
      obtain ⟨s, -, hs⟩ := List.mem_map.mp hq
      rw [Prod.mk.injEq] at hs
      exact (h.holds_dropDependees.mp (Links.mem_pairs.mp hp)).1 hs.2.symm
    · intro r x
      rw [List.mem_append, Links.mem_pairs, List.mem_map]
      change (g.dropDependees t).Holds r x ∨ _ ↔ g.Holds r x
      rw [h.holds_dropDependees]
      constructor
      · rintro (hx | ⟨s, hs, he⟩)
        · exact hx.2
        · rw [Prod.mk.injEq] at he
          rw [← he.1, ← he.2]
          exact h.mem_dependeesOf.mp (Std.ExtTreeSet.mem_toList.mp hs)
      · intro hx
        by_cases hxt : x = t
        · subst hxt
          exact Or.inr ⟨r, Std.ExtTreeSet.mem_toList.mpr (h.mem_dependeesOf.mpr hx), rfl⟩
        · exact Or.inl ⟨hxt, hx⟩
  rw [hlen, List.length_append, List.length_map, Std.ExtTreeSet.length_toList]

/-- As many pairs as a name has dependees are counted down when these are dropped, and there are that many. -/
theorem Consistent.size_dropDependees {g : Dependencies} (h : g.Consistent) (t : String) :
    (g.dropDependees t).size + (g.dependeesOf t).size = g.size := by
  have hlen := h.length_pairs_dropDependees t
  have hsize := h.size_eq
  change g.size - (g.dependeesOf t).size + (g.dependeesOf t).size = g.size
  omega

theorem Consistent.dropDependees {g : Dependencies} (h : g.Consistent) (t : String) : (g.dropDependees t).Consistent where
  both_ways r x := by
    change (g.dropDependees t).Holds r x ↔ _
    rw [h.holds_dropDependees, Dependencies.dropDependees, Links.mem_targets_erase, ← h.both_ways]
    exact and_congr_left fun _ => ne_comm
  dependents_pruned := by
    rw [Dependencies.dropDependees, Std.ExtTreeSet.foldl_eq_foldl_toList]
    exact h.dependents_pruned.foldl_remove t _
  dependees_pruned := h.dependees_pruned.erase t
  size_eq := by
    have hlen := h.length_pairs_dropDependees t
    have hcount := h.size_dropDependees t
    have hsize := h.size_eq
    omega

/-- What holds when pairs are added one after the other. -/
theorem holds_foldl_add {α : Type} {g : Dependencies} (pair : α → String × String) {as : List α} {r x : String} :
    (as.foldl (fun g a => g.add (pair a).1 (pair a).2) g).Holds r x ↔ (∃ a ∈ as, pair a = (r, x)) ∨ g.Holds r x := by
  induction as generalizing g with
  | nil => simp
  | cons a as ih =>
    rw [List.foldl_cons, ih, holds_add, List.exists_mem_cons_iff, ← Prod.mk.injEq, Prod.mk.eta, or_left_comm, or_assoc]

theorem Consistent.foldl_add {α : Type} {g : Dependencies} (h : g.Consistent) (pair : α → String × String) (as : List α) :
    (as.foldl (fun g a => g.add (pair a).1 (pair a).2) g).Consistent := by
  induction as generalizing g with
  | nil => exact h
  | cons a as ih => exact ih (h.add _ _)

/-- What holds when the dependees of a name are replaced: the name depends on the new ones, all else stays. -/
theorem Consistent.holds_replaceDependees {g : Dependencies} (h : g.Consistent) {t : String} {ss : List String} {r x : String} :
    (g.replaceDependees t ss).Holds r x ↔ if x = t then r ∈ ss else g.Holds r x := by
  rw [Dependencies.replaceDependees, holds_foldl_add fun s => (s, t), h.holds_dropDependees]
  by_cases hx : x = t
  · simp [hx]
  · simp [hx, Ne.symm hx]

theorem Consistent.replaceDependees {g : Dependencies} (h : g.Consistent) (t : String) (ss : List String) :
    (g.replaceDependees t ss).Consistent :=
  (h.dropDependees t).foldl_add (fun s => (s, t)) ss

/-- Dependees that are put back restore the dependencies as they were. -/
theorem Consistent.replaceDependees_undo {g : Dependencies} (h : g.Consistent) (t : String) (ss : List String) :
    (g.replaceDependees t ss).replaceDependees t (g.dependeesOf t).toList = g := by
  have h' := h.replaceDependees t ss
  refine (h'.replaceDependees t _).ext h ?_
  intro r x
  rw [h'.holds_replaceDependees, h.holds_replaceDependees, Std.ExtTreeSet.mem_toList, h.mem_dependeesOf]
  by_cases hx : x = t <;> simp [hx]

/-- A pair that is removed is counted down if it was there, and only then. -/
theorem Consistent.size_remove {g : Dependencies} (h : g.Consistent) (s t : String) :
    (g.remove s t).size + (if g.Holds s t then 1 else 0) = g.size := by
  have hlen := g.dependents.length_pairs_remove s t
  have hsize := h.size_eq
  have hcount : (g.remove s t).size = if g.Holds s t then g.size - 1 else g.size :=
    if_congr (by rw [h.mem_dependeesOf, or_self]) rfl rfl
  change _ + (if g.Holds s t then 1 else 0) = _ at hlen
  rw [hcount]
  by_cases hst : g.Holds s t
  · rw [if_pos hst] at hlen ⊢
    rw [if_pos hst]
    omega
  · rw [if_neg hst, if_neg hst]
    rfl

theorem Consistent.remove {g : Dependencies} (h : g.Consistent) (s t : String) : (g.remove s t).Consistent where
  both_ways r x := by
    simp only [Dependencies.remove, Links.mem_targets_remove, h.both_ways, and_comm]
  dependents_pruned := h.dependents_pruned.remove s t
  dependees_pruned := h.dependees_pruned.remove t s
  size_eq := by
    have hlen := g.dependents.length_pairs_remove s t
    have hcount := h.size_remove s t
    have hsize := h.size_eq
    change _ + (if g.Holds s t then 1 else 0) = _ at hlen
    change _ = (g.dependents.remove s t).pairs.length
    omega

/-! ## From the other side -/

/-- The dependencies with what is read and what reads exchanged. -/
def swap (g : Dependencies) : Dependencies := ⟨g.dependees, g.dependents, g.size⟩

theorem Consistent.swap {g : Dependencies} (h : g.Consistent) : g.swap.Consistent where
  both_ways s t := (h.both_ways t s).symm
  dependents_pruned := h.dependees_pruned
  dependees_pruned := h.dependents_pruned
  size_eq := by
    have hlen : g.dependents.pairs.length = (g.dependees.pairs.map Prod.swap).length := by
      refine Links.length_pairs_eq (g.dependees.nodup_pairs.map Prod.swap_injective) ?_
      intro s t
      rw [List.mem_map_swap, Links.mem_pairs, h.both_ways]
    rw [List.length_map] at hlen
    exact h.size_eq.trans hlen

theorem holds_dropDependents {g : Dependencies} {s r x : String} : (g.dropDependents s).Holds r x ↔ s ≠ r ∧ g.Holds r x :=
  Links.mem_targets_erase

/-- As many pairs as a name has dependents are counted down when these are dropped, and there are that many. -/
theorem Consistent.size_dropDependents {g : Dependencies} (h : g.Consistent) (s : String) :
    (g.dropDependents s).size + (g.dependentsOf s).size = g.size :=
  h.swap.size_dropDependees s

theorem Consistent.dropDependents {g : Dependencies} (h : g.Consistent) (s : String) : (g.dropDependents s).Consistent :=
  (h.swap.dropDependees s).swap

/-- What holds when the dependents of a name are replaced: the new ones depend on the name, all else stays. -/
theorem holds_replaceDependents {g : Dependencies} {s : String} {ts : List String} {r x : String} :
    (g.replaceDependents s ts).Holds r x ↔ if r = s then x ∈ ts else g.Holds r x := by
  rw [Dependencies.replaceDependents, holds_foldl_add fun t => (s, t), holds_dropDependents]
  by_cases hr : s = r
  · simp [hr]
  · simp [hr, Ne.symm hr]

theorem Consistent.replaceDependents {g : Dependencies} (h : g.Consistent) (s : String) (ts : List String) :
    (g.replaceDependents s ts).Consistent :=
  (h.dropDependents s).foldl_add (fun t => (s, t)) ts

end Dependencies

end Spreadsheet
