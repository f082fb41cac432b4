import Spreadsheet.Dependency.Links

/-!
# Dependencies

Which cell reads which, as a set of pairs: `(s, t)` says that `t` depends on `s`. The pairs are listed both ways, by what is
read (`dependents`) and by what reads (`dependees`), and counted. Every operation changes both listings and the count together.
Nothing is known here of cells; any names may be related, a name to itself too.
-/

namespace Spreadsheet

/-- A finite set of pairs of names, listed from both sides, with their number. -/
structure Dependencies where
  dependents : Links
  dependees : Links
  size : Nat

namespace Dependencies

/-- No pair. -/
def empty : Dependencies := ⟨∅, ∅, 0⟩

/-- Whether there is no pair. -/
def isEmpty (g : Dependencies) : Bool := g.size == 0

/-- The names that depend on a name. -/
def dependentsOf (g : Dependencies) (s : String) : Names := g.dependents.targets s

/-- The names that a name depends on. -/
def dependeesOf (g : Dependencies) (t : String) : Names := g.dependees.targets t

/-- How many names a name depends on. -/
def dependeeCount (g : Dependencies) (t : String) : Nat := (g.dependeesOf t).size

def hasDependents (g : Dependencies) (s : String) : Bool := g.dependents.contains s

def hasDependees (g : Dependencies) (t : String) : Bool := g.dependees.contains t

/-- Whether a pair is in the set. -/
def Holds (g : Dependencies) (s t : String) : Prop := t ∈ g.dependentsOf s

instance (g : Dependencies) (s t : String) : Decidable (g.Holds s t) := inferInstanceAs (Decidable (t ∈ g.dependentsOf s))

/-- One more pair; a pair that is there changes nothing. -/
def add (g : Dependencies) (s t : String) : Dependencies :=
  if g.Holds s t then g else ⟨g.dependents.add s t, g.dependees.add t s, g.size + 1⟩

/-- A pair taken away from both listings; it is counted down if either had it. -/
def remove (g : Dependencies) (s t : String) : Dependencies where
  dependents := g.dependents.remove s t
  dependees := g.dependees.remove t s
  size := if g.Holds s t ∨ s ∈ g.dependeesOf t then g.size - 1 else g.size

/-- Every pair `(s, _)` taken away. -/
def dropDependents (g : Dependencies) (s : String) : Dependencies where
  dependents := g.dependents.erase s
  dependees := (g.dependentsOf s).foldl (fun l t => l.remove t s) g.dependees
  size := g.size - (g.dependentsOf s).size

/-- Every pair `(_, t)` taken away. -/
def dropDependees (g : Dependencies) (t : String) : Dependencies where
  dependents := (g.dependeesOf t).foldl (fun l s => l.remove s t) g.dependents
  dependees := g.dependees.erase t
  size := g.size - (g.dependeesOf t).size

/-- The pairs `(s, _)` replaced by `(s, t)` for every `t` of a list. -/
def replaceDependents (g : Dependencies) (s : String) (ts : List String) : Dependencies :=
  ts.foldl (fun g t => g.add s t) (g.dropDependents s)

/-- The pairs `(_, t)` replaced by `(s, t)` for every `s` of a list. -/
def replaceDependees (g : Dependencies) (t : String) (ss : List String) : Dependencies :=
  ss.foldl (fun g s => g.add s t) (g.dropDependees t)

/-- Both listings are of one relation, neither lists a name for nothing, and the count is the number of pairs. -/
structure Consistent (g : Dependencies) : Prop where
  both_ways : ∀ s t, t ∈ g.dependents.targets s ↔ s ∈ g.dependees.targets t
  dependents_pruned : g.dependents.Pruned
  dependees_pruned : g.dependees.Pruned
  size_eq : g.size = g.dependents.pairs.length

theorem consistent_empty : empty.Consistent where
  both_ways s t := by simp [empty, Links.targets]
  dependents_pruned s ts h := by simp [empty] at h
  dependees_pruned s ts h := by simp [empty] at h
  size_eq := rfl

theorem not_holds_empty {s t : String} : ¬empty.Holds s t := Links.mem_targets_empty

/-- An added pair is in the set, beside those that were. -/
theorem holds_add {g : Dependencies} {s t r x : String} : (g.add s t).Holds r x ↔ (s = r ∧ t = x) ∨ g.Holds r x := by
  unfold add
  split
  · next h =>
    constructor
    · exact Or.inr
    · rintro (⟨rfl, rfl⟩ | hx)
      · exact h
      · exact hx
  · exact Links.mem_targets_add

/-- A removed pair is not in the set; the others stay. -/
theorem holds_remove {g : Dependencies} {s t r x : String} :
    (g.remove s t).Holds r x ↔ ¬(s = r ∧ t = x) ∧ g.Holds r x := Links.mem_targets_remove

end Dependencies

end Spreadsheet
