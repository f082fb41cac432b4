import Spreadsheet.Proofs.Dependency.Pairs

/-!
# Dependencies are a set of pairs

Dependencies are made from none by adding and removing pairs, by replacing what a name reads or what reads it, and by clearing them
(`Dependencies.Operation`). To whoever asks they are nothing but a set of pairs: every operation does to the two listings and the
count what its namesake does to a plain set (`Dependencies.Represents.perform`), and so after any operations every question is
answered as that set answers it (`Dependencies.represents_pairs`). A count that has to go down is never too small to.
-/

namespace Spreadsheet.Dependencies

/-- What can be done to dependencies. -/
inductive Operation where
  | add (s t : String)
  | remove (s t : String)
  | replaceDependents (s : String) (ts : List String)
  | replaceDependees (t : String) (ss : List String)
  | clear

namespace Operation

/-- The dependencies after an operation. -/
def perform (g : Dependencies) : Operation → Dependencies
  | add s t => g.add s t
  | remove s t => g.remove s t
  | replaceDependents s ts => g.replaceDependents s ts
  | replaceDependees t ss => g.replaceDependees t ss
  | clear => .empty

/-- What an operation does to a plain set of pairs. -/
def act (pairs : Finset (String × String)) : Operation → Finset (String × String)
  | add s t => insert (s, t) pairs
  | remove s t => pairs.erase (s, t)
  | replaceDependents s ts => pairs.filter (fun p => p.1 ≠ s) ∪ (ts.map fun t => (s, t)).toFinset
  | replaceDependees t ss => pairs.filter (fun p => p.2 ≠ t) ∪ (ss.map fun s => (s, t)).toFinset
  | clear => ∅

end Operation

/-- Dependencies list a set of pairs from both sides, list no name for nothing, and count its pairs. -/
structure Represents (g : Dependencies) (pairs : Finset (String × String)) : Prop where
  mem_dependents : ∀ s t, t ∈ g.dependents.targets s ↔ (s, t) ∈ pairs
  mem_dependees : ∀ s t, s ∈ g.dependees.targets t ↔ (s, t) ∈ pairs
  dependents_pruned : g.dependents.Pruned
  dependees_pruned : g.dependees.Pruned
  size_eq : g.size = pairs.card

variable {g : Dependencies} {pairs : Finset (String × String)}

/-- A listing of a set of pairs has as many pairs as the set. -/
theorem length_pairs_eq_card {l : Links} (h : ∀ s t, t ∈ l.targets s ↔ (s, t) ∈ pairs) : l.pairs.length = pairs.card := by
  rw [Links.length_pairs_eq pairs.nodup_toList fun s t => by rw [Finset.mem_toList, h], Finset.length_toList]

/-- Consistent dependencies represent the pairs that hold. -/
theorem Consistent.represents (h : g.Consistent) (hp : ∀ s t, g.Holds s t ↔ (s, t) ∈ pairs) : g.Represents pairs where
  mem_dependents := hp
  mem_dependees s t := (h.both_ways s t).symm.trans (hp s t)
  dependents_pruned := h.dependents_pruned
  dependees_pruned := h.dependees_pruned
  size_eq := h.size_eq.trans (length_pairs_eq_card hp)

/-- Dependencies that represent a set are consistent. -/
theorem Represents.consistent (h : g.Represents pairs) : g.Consistent where
  both_ways s t := (h.mem_dependents s t).trans (h.mem_dependees s t).symm
  dependents_pruned := h.dependents_pruned
  dependees_pruned := h.dependees_pruned
  size_eq := h.size_eq.trans (length_pairs_eq_card h.mem_dependents).symm

theorem represents_empty : empty.Represents ∅ :=
  consistent_empty.represents fun s t => by simp [not_holds_empty]

/-- Every operation keeps dependencies consistent. -/
theorem Consistent.perform (h : g.Consistent) (op : Operation) : (op.perform g).Consistent := by
  cases op with
  | add s t => exact h.add s t
  | remove s t => exact h.remove s t
  | replaceDependents s ts => exact h.replaceDependents s ts
  | replaceDependees t ss => exact h.replaceDependees t ss
  | clear => exact consistent_empty

/-- Every operation does to the pairs that hold what it does to a plain set. -/
theorem Represents.perform (h : g.Represents pairs) (op : Operation) : (op.perform g).Represents (op.act pairs) := by
  refine (h.consistent.perform op).represents fun r x => ?_
  have hg : g.Holds r x ↔ (r, x) ∈ pairs := h.mem_dependents r x
  cases op with
  | add s t =>
    change (g.add s t).Holds r x ↔ (r, x) ∈ insert (s, t) pairs
    rw [holds_add, Finset.mem_insert, hg, Prod.mk.injEq, eq_comm (a := s), eq_comm (a := t)]
  | remove s t =>
    change (g.remove s t).Holds r x ↔ (r, x) ∈ pairs.erase (s, t)
    rw [holds_remove, Finset.mem_erase, hg, ne_eq, Prod.mk.injEq, eq_comm (a := s), eq_comm (a := t)]
  | replaceDependents s ts =>
    change (g.replaceDependents s ts).Holds r x ↔ (r, x) ∈ pairs.filter _ ∪ _
    rw [holds_replaceDependents, hg, Finset.mem_union, Finset.mem_filter, List.mem_toFinset, List.mem_map]
    by_cases hr : r = s
    · simp [hr]
    · simp [hr, Ne.symm hr]
  | replaceDependees t ss =>
    change (g.replaceDependees t ss).Holds r x ↔ (r, x) ∈ pairs.filter _ ∪ _
    rw [h.consistent.holds_replaceDependees, hg, Finset.mem_union, Finset.mem_filter, List.mem_toFinset, List.mem_map]
    by_cases hx : x = t
    · simp [hx]
    · simp [hx, Ne.symm hx]
  | clear =>
    change empty.Holds r x ↔ (r, x) ∈ ∅
    simp [not_holds_empty]

/-- So do operations one after the other. -/
theorem Represents.foldl (h : g.Represents pairs) (ops : List Operation) :
    (ops.foldl Operation.perform g).Represents (ops.foldl Operation.act pairs) := by
  induction ops generalizing g pairs with
  | nil => exact h
  | cons op ops ih => exact ih (h.perform op)

/-! ## What is counted down, and what is answered -/

/-- What is counted down is there to be counted: added back, it gives the count that there was. -/
structure CountsDown (g : Dependencies) : Prop where
  remove : ∀ s t, (g.remove s t).size + (if g.Holds s t then 1 else 0) = g.size
  dropDependents : ∀ s, (g.dropDependents s).size + (g.dependentsOf s).size = g.size
  dropDependees : ∀ t, (g.dropDependees t).size + (g.dependeesOf t).size = g.size

theorem Consistent.countsDown (h : g.Consistent) : g.CountsDown where
  remove := h.size_remove
  dropDependents := h.size_dropDependents
  dropDependees := h.size_dropDependees

/-- Every question is answered as a plain set of pairs answers it. -/
structure AnswersAs (g : Dependencies) (pairs : Finset (String × String)) : Prop where
  mem_dependentsOf : ∀ s t, t ∈ g.dependentsOf s ↔ (s, t) ∈ pairs
  mem_dependeesOf : ∀ s t, s ∈ g.dependeesOf t ↔ (s, t) ∈ pairs
  dependentsOf_once : ∀ s, (g.dependentsOf s).toList.Nodup
  dependeeCount_eq : ∀ t, g.dependeeCount t = (pairs.filter fun p => p.2 = t).card
  hasDependents_iff : ∀ s, g.hasDependents s = true ↔ ∃ t, (s, t) ∈ pairs
  hasDependees_iff : ∀ t, g.hasDependees t = true ↔ ∃ s, (s, t) ∈ pairs
  size_eq : g.size = pairs.card
  isEmpty_iff : g.isEmpty = true ↔ pairs = ∅

/-- The dependees of a name are as many as the pairs that it is the second of. -/
theorem Represents.dependeeCount_eq (h : g.Represents pairs) (t : String) :
    g.dependeeCount t = (pairs.filter fun p => p.2 = t).card := by
  have hset : ((g.dependeesOf t).toList.map fun s => (s, t)).toFinset = pairs.filter fun p => p.2 = t := by
    ext ⟨r, x⟩
    rw [List.mem_toFinset, List.mem_map, Finset.mem_filter, ← h.mem_dependees]
    constructor
    · rintro ⟨s, hs, heq⟩
      cases heq
      exact ⟨Std.ExtTreeSet.mem_toList.mp hs, rfl⟩
    · rintro ⟨hr, rfl⟩
      exact ⟨r, Std.ExtTreeSet.mem_toList.mpr hr, rfl⟩
  have hnodup : ((g.dependeesOf t).toList.map fun s => (s, t)).Nodup :=
    (Names.nodup_toList _).map fun a b hab => (Prod.mk.inj hab).1
  rw [← hset, List.toFinset_card_of_nodup hnodup, List.length_map, Std.ExtTreeSet.length_toList]
  rfl

/-- Dependencies that represent a set answer as it does. -/
theorem Represents.answersAs (h : g.Represents pairs) : g.AnswersAs pairs where
  mem_dependentsOf := h.mem_dependents
  mem_dependeesOf := h.mem_dependees
  dependentsOf_once s := Names.nodup_toList _
  dependeeCount_eq := h.dependeeCount_eq
  hasDependents_iff s := by
    rw [hasDependents, Std.ExtTreeMap.contains_iff_mem, h.dependents_pruned.mem_iff]
    exact exists_congr fun t => h.mem_dependents s t
  hasDependees_iff t := by
    rw [hasDependees, Std.ExtTreeMap.contains_iff_mem, h.dependees_pruned.mem_iff]
    exact exists_congr fun s => h.mem_dependees s t
  size_eq := h.size_eq
  isEmpty_iff := by
    rw [isEmpty, beq_iff_eq, h.size_eq, Finset.card_eq_zero]

/-- After any operations on no pairs, the two listings, neither of which lists a name for nothing, and the count are those of the set
of pairs that the same operations make of the empty set. Whatever is asked is answered as that set answers it, and whichever
operation comes next, it counts down no more than there is. -/
theorem represents_pairs (ops : List Operation) :
    (ops.foldl Operation.perform empty).Represents (ops.foldl Operation.act ∅) ∧
      (ops.foldl Operation.perform empty).AnswersAs (ops.foldl Operation.act ∅) ∧
      (ops.foldl Operation.perform empty).CountsDown := by
  have h := represents_empty.foldl ops
  exact ⟨h, h.answersAs, h.consistent.countsDown⟩

/-! ## Dependencies that operations make -/

/-- Dependencies that operations bring about from none. -/
def Made (g : Dependencies) : Prop := ∃ ops : List Operation, ops.foldl Operation.perform empty = g

theorem Made.consistent (h : g.Made) : g.Consistent := by
  obtain ⟨ops, rfl⟩ := h
  exact (represents_empty.foldl ops).consistent

/-- Consistent dependencies are made by adding their pairs. -/
theorem Consistent.made (h : g.Consistent) : g.Made := by
  refine ⟨g.dependents.pairs.map fun p => .add p.1 p.2, ?_⟩
  rw [List.foldl_map]
  refine (consistent_empty.foldl_add id g.dependents.pairs).ext h fun s t => ?_
  rw [holds_foldl_add id, or_iff_left not_holds_empty]
  simp only [id_eq, exists_eq_right, Links.mem_pairs]
  rfl

/-- That the listings and the count agree is all there is to say of dependencies that operations make. -/
theorem made_iff_consistent : g.Made ↔ g.Consistent := ⟨Made.consistent, Consistent.made⟩

end Spreadsheet.Dependencies
