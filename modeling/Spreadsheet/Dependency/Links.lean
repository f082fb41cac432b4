import Spreadsheet.Name
import Std.Data.ExtTreeMap

/-!
# Links between names

A relation between names, listed by its first members: each is mapped to the set of names it is related to. A name that is
related to none is not listed, so two listings of one relation are equal.
-/

namespace Spreadsheet

/-- A relation between names, listed by its first members. -/
abbrev Links := Std.ExtTreeMap String Names

namespace Links

/-- The names that a name is related to. -/
def targets (l : Links) (s : String) : Names := l[s]?.getD ∅

/-- One more pair. -/
def add (l : Links) (s t : String) : Links := l.insert s ((l.targets s).insert t)

/-- A pair taken away, and with the last pair of a name the name itself. -/
def remove (l : Links) (s t : String) : Links :=
  if ((l.targets s).erase t).isEmpty then l.erase s else l.insert s ((l.targets s).erase t)

/-- The pairs of a relation, in ascending order. -/
def pairs (l : Links) : List (String × String) := l.toList.flatMap fun entry => entry.2.toList.map fun t => (entry.1, t)

/-- No listed name is without a related one. -/
def Pruned (l : Links) : Prop := ∀ (s : String) (ts : Names), l[s]? = some ts → ts ≠ ∅

theorem mem_targets_empty {s t : String} : t ∉ targets ∅ s := by simp [targets]

theorem mem_targets_add {l : Links} {s t r x : String} :
    x ∈ (l.add s t).targets r ↔ (s = r ∧ t = x) ∨ x ∈ l.targets r := by
  by_cases h : s = r
  · subst h
    simp [targets, add]
  · simp [targets, add, Std.ExtTreeMap.getElem?_insert, h]

theorem mem_targets_erase {l : Links} {s r x : String} : x ∈ targets (l.erase s) r ↔ s ≠ r ∧ x ∈ l.targets r := by
  by_cases h : s = r
  · subst h
    simp [targets]
  · simp [targets, Std.ExtTreeMap.getElem?_erase, h]

theorem mem_targets_remove {l : Links} {s t r x : String} :
    x ∈ (l.remove s t).targets r ↔ ¬(s = r ∧ t = x) ∧ x ∈ l.targets r := by
  unfold remove
  split
  · next he =>
    rw [mem_targets_erase]
    by_cases h : s = r
    · subst h
      have hx : x ∉ (l.targets s).erase t := by rw [Std.ExtTreeSet.isEmpty_iff.mp he]; simp
      simpa [Std.ExtTreeSet.mem_erase] using hx
    · simp [h]
  · by_cases h : s = r
    · subst h
      simp [targets]
    · simp [targets, Std.ExtTreeMap.getElem?_insert, h]

end Links

end Spreadsheet
