import Spreadsheet.Dependency.Basic

/-!
# The order of recalculation

After a cell has changed, it and all that depends on it, directly or not, are recalculated, each after what it reads. The order
is found by a walk along the dependents: names are entered in ascending order, and each is finished once all that depends on it
is finished; the order is that of finishing, the last first. A dependent that has been entered and not finished closes a cycle.

The walk keeps its path as a list of frames, so that a chain of any length is only a longer list. It ends since every step enters
a name that was still unseen, takes a name off what a frame has pending, or leaves a frame.
-/

namespace Spreadsheet

/-- Names each of which depends on the one before it; the first is the last. -/
structure Cycle where
  path : List String
deriving DecidableEq, Repr

/-- The message of a cycle. -/
def Cycle.message (c : Cycle) : String := "Circular reference detected: " ++ String.intercalate " -> " c.path

/-- A name on the path of a walk, with those of its dependents that are still to be looked at, in ascending order. -/
structure Frame where
  name : String
  pending : List String

/-- The state of a walk. -/
structure Walk where
  /-- What depends on something and has not been entered. -/
  unseen : Links
  /-- What has been finished. -/
  finished : Names
  /-- What has been finished, the last first. -/
  order : List String
  /-- The path, innermost name first. -/
  path : List Frame

/-- How a walk goes on. -/
inductive Walk.Step where
  | next (w : Walk)
  | complete (order : List String)
  | closed (cycle : Cycle)

namespace Walk

/-- The frame of a name that is entered. -/
def frame (g : Dependencies) (name : String) : Frame := ⟨name, (g.dependentsOf name).toList⟩

/-- A walk that has entered its first name. -/
def start (g : Dependencies) (name : String) : Walk := ⟨g.dependees.erase name, ∅, [], [frame g name]⟩

/-- The cycle that a name closes when it is met again: from its place on the path to the innermost name, and the name again. -/
def cycleAt (path : List Frame) (name : String) : Cycle :=
  ⟨name :: ((path.map Frame.name).takeWhile (· != name)).reverse ++ [name]⟩

/-- One step of a walk: the innermost name looks at its next dependent, or is finished. -/
def step (g : Dependencies) (w : Walk) : Step :=
  match w.path with
  | [] => .complete w.order
  | ⟨name, []⟩ :: path => .next { w with finished := w.finished.insert name, order := name :: w.order, path }
  | ⟨name, next :: pending⟩ :: path =>
    if next ∈ w.unseen then
      .next { w with unseen := w.unseen.erase next, path := frame g next :: ⟨name, pending⟩ :: path }
    else if next ∈ w.finished then .next { w with path := ⟨name, pending⟩ :: path }
    else .closed (cycleAt w.path next)

/-- What is left to do on a path: the names pending and the frames. -/
def load : List Frame → Nat
  | [] => 0
  | f :: path => f.pending.length + 1 + load path

/-- What a step does after which the walk goes on: the innermost name is finished, or it looks at its next dependent, and this is
entered if it is unseen and passed over if it is finished. -/
theorem step_next_cases {g : Dependencies} {w w' : Walk} (h : w.step g = .next w') :
    (∃ name path, w.path = ⟨name, []⟩ :: path ∧
      w' = { w with finished := w.finished.insert name, order := name :: w.order, path }) ∨
    (∃ name next pending path, w.path = ⟨name, next :: pending⟩ :: path ∧ next ∈ w.unseen ∧
      w' = { w with unseen := w.unseen.erase next, path := frame g next :: ⟨name, pending⟩ :: path }) ∨
    (∃ name next pending path, w.path = ⟨name, next :: pending⟩ :: path ∧ next ∉ w.unseen ∧ next ∈ w.finished ∧
      w' = { w with path := ⟨name, pending⟩ :: path }) := by
  unfold step at h
  split at h
  · cases h
  · next name path hp =>
    cases h
    exact Or.inl ⟨name, path, hp, rfl⟩
  · next name next pending path hp =>
    split at h
    · next hu =>
      cases h
      exact Or.inr (Or.inl ⟨name, next, pending, path, hp, hu, rfl⟩)
    · next hu =>
      split at h
      · next hf =>
        cases h
        exact Or.inr (Or.inr ⟨name, next, pending, path, hp, hu, hf, rfl⟩)
      · cases h

/-- Each step enters an unseen name or lessens what is left to do on the path. -/
theorem measure_step_lt {g : Dependencies} {w w' : Walk} (h : w.step g = .next w') :
    Prod.Lex (· < ·) (· < ·) (w'.unseen.size, load w'.path) (w.unseen.size, load w.path) := by
  rcases step_next_cases h with ⟨name, path, hp, rfl⟩ | ⟨name, next, pending, path, hp, hu, rfl⟩ |
    ⟨name, next, pending, path, hp, -, -, rfl⟩
  · refine Prod.Lex.right _ ?_
    simp [hp, load]
  · refine Prod.Lex.left _ _ ?_
    have hpos : 0 < w.unseen.size :=
      Nat.pos_of_ne_zero fun h0 => by simp [Std.ExtTreeMap.eq_empty_iff_size_eq_zero.mpr h0] at hu
    simp [Std.ExtTreeMap.size_erase, hu]
    omega
  · refine Prod.Lex.right _ ?_
    simp [hp, load]

/-- A walk carried to its end. -/
def run (g : Dependencies) (w : Walk) : Except Cycle (List String) :=
  match _h : w.step g with
  | .next w' => run g w'
  | .complete order => .ok order
  | .closed cycle => .error cycle
termination_by (w.unseen.size, load w.path)
decreasing_by exact measure_step_lt _h

end Walk

/-- A name and all that depends on it, in an order in which each name comes after those it depends on, or a cycle that makes such
an order impossible. -/
def Dependencies.recalculationOrder (g : Dependencies) (name : String) : Except Cycle (List String) :=
  (Walk.start g name).run g

end Spreadsheet
