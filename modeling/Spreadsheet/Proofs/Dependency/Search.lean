import Spreadsheet.Proofs.Dependency.Cycle
import Spreadsheet.Proofs.Dependency.Operations

/-!
# The walk is a recursive search

The depth-first search of a set of pairs, told recursively (`Search.visit`): a name is grey from when it is entered until all that
depends on it has been looked at, in ascending order, and then black; a grey name that is met again closes a cycle and ends the
search, a black one is passed over, and a white one is visited first. The order is that of finishing, backwards.

The walk does the same without recursion. What a call of the search still has to come back to is in the outer frames of the path,
and what it has still to look at is pending in the innermost one. So from a frame just entered the walk gets to where the frames
outside are left as they were and the names are finished that the search finishes, or it reports the cycle that the search reports
(`Search.agrees_visit`). Whatever the operations that made them, dependencies with the same pairs have the same order of
recalculation or report the same cycle (`Dependencies.recalculationOrder_eq_search`).

A search does not even look at all pairs, only at those of names that it reaches (`Search.visit_congr`). So links onto a name from
what it does not lead to have no part in its order of recalculation (`Dependencies.Consistent.recalculationOrder_of_replaceDependees`).
-/

namespace Spreadsheet

namespace Search

/-- How far a search has come with a name. -/
inductive Colour where
  | white
  | grey
  | black

/-- The names on the path are grey, the finished ones black, and all others white. -/
def colour (path finished : List String) (name : String) : Colour :=
  if name ∈ path then .grey else if name ∈ finished then .black else .white

/-- What depends on a name, in ascending order. -/
def dependents (pairs : Finset (String × String)) (name : String) : List String :=
  ((pairs.filter fun p => p.1 = name).image Prod.snd).sort (· ≤ ·)

/-- The cycle that a name on the path closes: the path from that name on, and the name again. -/
def cycleFrom (path : List String) (name : String) : Cycle := ⟨path.dropWhile (· != name) ++ [name]⟩

/-- The names that depend on something and are not on the path. -/
def offPath (pairs : Finset (String × String)) (path : List String) : Finset String := pairs.image Prod.snd \ path.toFinset

variable {pairs : Finset (String × String)} {path finished : List String} {s t name : String}

theorem mem_dependents : t ∈ dependents pairs s ↔ (s, t) ∈ pairs := by simp [dependents]

theorem not_mem_of_white (h : colour path finished name = .white) : name ∉ path ∧ name ∉ finished := by
  unfold colour at h
  split at h
  · cases h
  · next hpath =>
    split at h
    · cases h
    · next hfinished => exact ⟨hpath, hfinished⟩

/-- Visiting a name leaves fewer to visit. -/
theorem card_offPath_lt (hst : t ∈ dependents pairs s) (ht : t ∉ path) :
    (offPath pairs (path ++ [t])).card < (offPath pairs path).card := by
  refine Finset.card_lt_card (Finset.ssubset_iff_of_subset ?_ |>.mpr ⟨t, ?_, ?_⟩)
  · intro x hx
    simp only [offPath, Finset.mem_sdiff, List.mem_toFinset, List.mem_append, not_or] at hx ⊢
    exact ⟨hx.1, hx.2.1⟩
  · rw [offPath, Finset.mem_sdiff, Finset.mem_image, List.mem_toFinset]
    exact ⟨⟨(s, t), mem_dependents.mp hst, rfl⟩, ht⟩
  · simp [offPath]

/-- What is finished once a dependent of the last name on the path has been met: a grey one closes a cycle, a black one is passed
over, and a white one is visited. -/
def meet (path finished : List String) (name : String)
    (visit : colour path finished name = .white → Except Cycle (List String)) : Except Cycle (List String) :=
  match h : colour path finished name with
  | .grey => .error (cycleFrom path name)
  | .black => .ok finished
  | .white => visit h

/-- What is finished, in the order of finishing, once a white name has been visited: it is entered, its dependents are met one after
the other in ascending order, and it is finished. The path leads from the start of the search to the name that it is met from. -/
def visit (pairs : Finset (String × String)) (path finished : List String) (name : String) : Except Cycle (List String) := do
  let finished ← (dependents pairs name).attach.foldlM
    (fun finished next => meet (path ++ [name]) finished next.1 fun _h => visit pairs (path ++ [name]) finished next.1) finished
  return finished ++ [name]
termination_by (offPath pairs (path ++ [name])).card
decreasing_by exact card_offPath_lt next.2 (not_mem_of_white _h).1

/-- The order of recalculation from a name by a search: the last name finished comes first. -/
def order (pairs : Finset (String × String)) (name : String) : Except Cycle (List String) :=
  (visit pairs [] [] name).map List.reverse

theorem visit_eq (pairs : Finset (String × String)) (path finished : List String) (name : String) :
    visit pairs path finished name =
      ((dependents pairs name).foldlM
        (fun finished next => meet (path ++ [name]) finished next fun _ => visit pairs (path ++ [name]) finished next)
        finished).map (· ++ [name]) := by
  have hfold := List.foldlM_subtype (l := (dependents pairs name).attach) (x := finished)
    (f := fun finished next => meet (path ++ [name]) finished next.1 fun _ => visit pairs (path ++ [name]) finished next.1)
    (g := fun finished next => meet (path ++ [name]) finished next fun _ => visit pairs (path ++ [name]) finished next)
    fun _ _ _ => rfl
  rw [List.unattach_attach] at hfold
  rw [visit, hfold]
  rfl

/-- On a path without repetitions the walk reports the cycle that the search reports. -/
theorem cycleAt_eq_cycleFrom {frames : List Frame} (hpath : (frames.map Frame.name).reverse = path) (hn : path.Nodup)
    (hname : name ∈ path) : Walk.cycleAt frames name = cycleFrom path name := by
  obtain ⟨outer, within, rfl, hnew⟩ := List.eq_append_cons_of_mem hname
  have hnames : frames.map Frame.name = within.reverse ++ name :: outer.reverse := by
    rw [List.reverse_eq_iff.mp hpath]
    simp
  have hwithin : name ∉ within.reverse := by
    rw [List.mem_reverse]
    exact (List.nodup_cons.mp hn.of_append_right).1
  have hdrop : (outer ++ name :: within).dropWhile (· != name) = name :: within := by
    rw [List.dropWhile_append_of_pos]
    · simp
    · intro t ht
      have hne : t ≠ name := by
        rintro rfl
        exact hnew ht
      simpa using hne
  rw [Walk.cycleAt_eq hnames hwithin, cycleFrom, hdrop, List.reverse_reverse]

/-! ## The walk does what the search does -/

variable {g : Dependencies} {start next : String} {w w' : Walk} {outer : List Frame} {pending : List String}

/-- What depends on a name is listed by the walk as it is by the search. -/
theorem dependentsOf_toList (h : g.Represents pairs) (name : String) : (g.dependentsOf name).toList = dependents pairs name := by
  have hascending : (g.dependentsOf name).toList.Pairwise (· ≤ ·) :=
    (g.dependentsOf name).ordered_toList.imp fun hlt => le_of_lt (compareOfLessAndEq_eq_lt.mp hlt)
  have hnodup : (dependents pairs name).Nodup := Finset.sort_nodup _ _
  have hperm : (g.dependentsOf name).toList.Perm (dependents pairs name) := by
    refine (List.perm_ext_iff_of_nodup (Names.nodup_toList _) hnodup).mpr fun t => ?_
    rw [Std.ExtTreeSet.mem_toList, mem_dependents, ← h.mem_dependents]
    rfl
  exact hperm.eq_of_pairwise (fun _ _ _ _ => le_antisymm) hascending (Finset.pairwise_sort _ _)

/-- A walk with a frame that has just been entered, or is half done, gets to where a search gets to with its name: it reports the same
cycle, or it comes to be outside the frame, with the same names finished. -/
def Agrees (g : Dependencies) (start : String) (w : Walk) (outer : List Frame) : Except Cycle (List String) → Prop
  | .error cycle => w.run g = .error cycle
  | .ok finished => ∃ w' : Walk, w'.Inv g start ∧ w'.path = outer ∧ w'.order = finished.reverse ∧ w.run g = w'.run g

theorem Agrees.of_run {result : Except Cycle (List String)} (hrun : w.run g = w'.run g) (h : Agrees g start w' outer result) :
    Agrees g start w outer result := by
  cases result with
  | error cycle => exact hrun.trans h
  | ok finished =>
    obtain ⟨w'', hinv, hpath, horder, hrun'⟩ := h
    exact ⟨w'', hinv, hpath, horder, hrun.trans hrun'⟩

theorem run_eq (g : Dependencies) (w : Walk) :
    w.run g = match w.step g with
      | .next w' => w'.run g
      | .complete order => .ok order
      | .closed cycle => .error cycle := by
  rw [Walk.run]
  split
  · next hs => rw [hs]
  · next hs => rw [hs]
  · next hs => rw [hs]

theorem run_of_next (hs : w.step g = .next w') : w.run g = w'.run g := by rw [run_eq, hs]

/-- The marks of the walk are the colours of the search, so the walk goes on as the search does when it meets a name. -/
theorem step_eq (hinv : w.Inv g start) (hp : w.path = ⟨name, next :: pending⟩ :: outer)
    (hpath : (w.path.map Frame.name).reverse = path) (horder : w.order = finished.reverse) :
    w.step g = match colour path finished next with
      | .grey => .closed (cycleFrom path next)
      | .black => .next { w with path := ⟨name, pending⟩ :: outer }
      | .white => .next { w with unseen := w.unseen.erase next, path := Walk.frame g next :: ⟨name, pending⟩ :: outer } := by
  have hstep : g.Holds name next := hinv.pending ⟨name, next :: pending⟩ (hp ▸ List.mem_cons_self) next List.mem_cons_self
  have hon : next ∈ w.path.map Frame.name ↔ next ∈ path := by rw [← hpath, List.mem_reverse]
  have hfinished : next ∈ w.finished ↔ next ∈ finished := by rw [hinv.finished_iff, horder, List.mem_reverse]
  have hunseen : next ∈ w.unseen ↔ next ∉ finished ∧ next ∉ path := by
    rw [hinv.unseen_iff, ← hinv.finished_iff, hfinished, hon]
    exact and_iff_right ⟨name, hstep⟩
  have hnodup : path.Nodup := hpath ▸ List.nodup_reverse.mpr hinv.nodup
  have hnotboth : next ∈ path → next ∉ finished := by
    rw [← hon, ← hfinished, hinv.finished_iff]
    exact hinv.unfinished next
  rw [Walk.step, hp]
  simp only [← hp]
  by_cases hgrey : next ∈ path
  · simp [colour, hgrey, hunseen, hfinished, hnotboth hgrey, cycleAt_eq_cycleFrom hpath hnodup hgrey]
  · by_cases hblack : next ∈ finished
    · simp [colour, hgrey, hunseen, hfinished, hblack]
    · simp [colour, hgrey, hunseen, hblack]

/-- The dependents of a name are met one after the other as the walk looks at what is pending in the frame of the name. -/
theorem agrees_meet
    (ih : ∀ finished, ∀ next ∈ dependents pairs name, colour (path ++ [name]) finished next = .white →
      ∀ {w : Walk} {outer : List Frame}, w.Inv g start → w.path = Walk.frame g next :: outer →
        (outer.map Frame.name).reverse = path ++ [name] → w.order = finished.reverse →
          Agrees g start w outer (visit pairs (path ++ [name]) finished next))
    (hpending : ∀ next ∈ pending, next ∈ dependents pairs name) (hinv : w.Inv g start)
    (hp : w.path = ⟨name, pending⟩ :: outer) (hpath : (outer.map Frame.name).reverse = path) (horder : w.order = finished.reverse) :
    Agrees g start w outer
      ((pending.foldlM (fun finished next => meet (path ++ [name]) finished next fun _ => visit pairs (path ++ [name]) finished next)
        finished).map (· ++ [name])) := by
  have hwithin : ∀ pending, ((⟨name, pending⟩ :: outer).map Frame.name).reverse = path ++ [name] := by
    intro pending
    rw [List.map_cons, List.reverse_cons, hpath]
  induction pending generalizing w finished with
  | nil =>
    have hs : w.step g = .next { w with finished := w.finished.insert name, order := name :: w.order, path := outer } := by
      simp [Walk.step, hp]
    refine ⟨_, hinv.finish hp, rfl, ?_, run_of_next hs⟩
    rw [horder, List.reverse_append]
    rfl
  | cons next pending ihp =>
    obtain ⟨hnext, hpending⟩ := List.forall_mem_cons.mp hpending
    have hs := step_eq hinv hp (hp ▸ hwithin _) horder
    rw [List.foldlM_cons, meet]
    split
    · next hgrey =>
      rw [hgrey] at hs
      change w.run g = _
      rw [run_eq, hs]
    · next hblack =>
      rw [hblack] at hs
      exact Agrees.of_run (run_of_next hs) (ihp hpending (hinv.step hs) rfl horder)
    · next hwhite =>
      rw [hwhite] at hs
      refine Agrees.of_run (run_of_next hs) ?_
      have hvisit := ih finished next hnext hwhite (hinv.step hs) rfl (hwithin pending) horder
      revert hvisit
      cases visit pairs (path ++ [name]) finished next with
      | error cycle => exact id
      | ok finished' =>
        rintro ⟨w', hinv', hp', horder', hrun'⟩
        exact Agrees.of_run hrun' (ihp hpending hinv' hp' horder')

/-- A walk that has just entered a name gets to where the search gets to that visits it. -/
theorem agrees_visit (hr : g.Represents pairs) (hinv : w.Inv g start) (hp : w.path = Walk.frame g name :: outer)
    (hpath : (outer.map Frame.name).reverse = path) (horder : w.order = finished.reverse) :
    Agrees g start w outer (visit pairs path finished name) := by
  induction path, finished, name using visit.induct pairs generalizing w outer with
  | case1 path finished name ih =>
    rw [Walk.frame, dependentsOf_toList hr] at hp
    rw [visit_eq]
    refine agrees_meet ?_ (fun _ hnext => hnext) hinv hp hpath horder
    intro finished next hnext hwhite w outer hinv hp hpath horder
    exact ih finished ⟨next, hnext⟩ hwhite hinv hp hpath horder

/-- The order of recalculation that the walk finds, or the cycle it reports, is that of the search. -/
theorem recalculationOrder_eq_order (hr : g.Represents pairs) (name : String) : g.recalculationOrder name = order pairs name := by
  have hagrees : Agrees g name (Walk.start g name) [] (visit pairs [] [] name) :=
    agrees_visit hr (Walk.inv_start hr.consistent name) rfl rfl rfl
  rw [Dependencies.recalculationOrder, order]
  revert hagrees
  cases visit pairs [] [] name with
  | error cycle => exact id
  | ok finished =>
    rintro ⟨w, -, hp, horder, hrun⟩
    have hs : w.step g = .complete w.order := by simp [Walk.step, hp]
    rw [hrun, run_eq, hs, horder]
    rfl

/-! ## The search sees only what it reaches -/

/-- The visit of a name depends on what depends on the names that are reached from it, and on nothing else. -/
theorem visit_congr {pairs' : Finset (String × String)}
    (h : ∀ s, Relation.ReflTransGen (fun s t => (s, t) ∈ pairs) name s → dependents pairs s = dependents pairs' s) :
    visit pairs path finished name = visit pairs' path finished name := by
  induction path, finished, name using visit.induct pairs with
  | case1 path finished name ih =>
    have hmeet : ∀ finished, ∀ next ∈ dependents pairs name,
        (meet (path ++ [name]) finished next fun _ => visit pairs (path ++ [name]) finished next) =
          meet (path ++ [name]) finished next fun _ => visit pairs' (path ++ [name]) finished next := by
      intro finished next hnext
      unfold meet
      split
      · rfl
      · rfl
      · next hwhite => exact ih finished ⟨next, hnext⟩ hwhite fun s hs => h s (hs.head (mem_dependents.mp hnext))
    rw [visit_eq, visit_eq, ← h name Relation.ReflTransGen.refl, List.foldlM_eq_foldl, List.foldlM_eq_foldl]
    refine congrArg (Except.map (· ++ [name])) (List.foldl_ext _ _ _ ?_)
    intro sofar next hnext
    exact bind_congr fun finished => hmeet finished next hnext

end Search

namespace Dependencies

/-- The pairs of dependencies, as a set. -/
def pairSet (g : Dependencies) : Finset (String × String) := g.dependents.pairs.toFinset

theorem Consistent.represents_pairSet {g : Dependencies} (h : g.Consistent) : g.Represents g.pairSet :=
  h.represents fun s t => by rw [pairSet, List.mem_toFinset, Links.mem_pairs]; rfl

/-- Dependencies that agree on what depends on the names reached from a name have the same order of recalculation from it, or report
the same cycle. -/
theorem recalculationOrder_congr {g g' : Dependencies} (h : g.Consistent) (h' : g'.Consistent) {name : String}
    (hsame : ∀ s, g.Reaches name s → ∀ t, g.Holds s t ↔ g'.Holds s t) :
    g.recalculationOrder name = g'.recalculationOrder name := by
  have hr := h.represents_pairSet
  have hr' := h'.represents_pairSet
  rw [Search.recalculationOrder_eq_order hr, Search.recalculationOrder_eq_order hr', Search.order, Search.order,
    Search.visit_congr fun s hs => ?_]
  have hreach : g.Reaches name s := Relation.ReflTransGen.mono (fun _ _ hp => (hr.mem_dependents _ _).mpr hp) _ _ hs
  rw [← Search.dependentsOf_toList hr, ← Search.dependentsOf_toList hr']
  exact congrArg Std.ExtTreeSet.toList (Std.ExtTreeSet.ext_mem (hsame s hreach))

/-- Where nothing depends on itself, neither before nor after, new dependees of a name leave its order of recalculation as it was: no
link onto the name comes from what is reached from it. -/
theorem Consistent.recalculationOrder_of_replaceDependees {g : Dependencies} (h : g.Consistent) (hw : WellFounded g.Holds)
    {t : String} {ss : List String} {order : List String} (hok : (g.replaceDependees t ss).recalculationOrder t = .ok order) :
    g.recalculationOrder t = .ok order := by
  have hnew := h.replaceDependees t ss
  rw [← hok]
  refine recalculationOrder_congr h hnew fun s hs r => ?_
  by_cases hr : r = t
  · subst hr
    have hbefore : ¬g.Holds s r := fun hsr => not_cyclic_of_wellFounded hw r (Relation.TransGen.tail' hs hsr)
    have hafter : ¬(g.replaceDependees r ss).Holds s r := by
      intro hsr
      have hcyclic : (g.replaceDependees r ss).Cyclic r := Relation.TransGen.tail' (h.reaches_replaceDependees hw hs) hsr
      obtain ⟨cycle, hcycle⟩ := (recalculationOrder_error_iff hnew).mpr ⟨r, Relation.ReflTransGen.refl, hcyclic⟩
      cases hcycle.symm.trans hok
    exact iff_of_false hbefore hafter
  · rw [h.holds_replaceDependees, if_neg hr]

/-- From every name the walk gives what the recursive search of the pairs gives, the same order or the same cycle. So dependencies that
were made by other operations give the same as soon as the same pairs hold. -/
theorem recalculationOrder_eq_search {g : Dependencies} (h : g.Made) (name : String) :
    g.recalculationOrder name = Search.order g.pairSet name ∧
    ∀ g' : Dependencies, g'.Made → (∀ s t, g'.Holds s t ↔ g.Holds s t) →
      g'.recalculationOrder name = g.recalculationOrder name := by
  have hsearch := Search.recalculationOrder_eq_order h.consistent.represents_pairSet name
  refine ⟨hsearch, fun g' h' hsame => ?_⟩
  have hpairs : g'.Represents g.pairSet :=
    h'.consistent.represents fun s t => (hsame s t).trans (h.consistent.represents_pairSet.mem_dependents s t)
  rw [hsearch, Search.recalculationOrder_eq_order hpairs name]

set_option maxRecDepth 10000 in
/-- Two names that `a` leads to lead to one more. The names are met in ascending order, and so listed in descending order, however the
pairs came about. -/
theorem recalculationOrder_eq_search_readded :
    ∃ g g' : Dependencies, g.Made ∧ g'.Made ∧ (∀ s t, g'.Holds s t ↔ g.Holds s t) ∧
      Search.order g.pairSet "a" = .ok ["a", "c", "b", "d"] ∧ g'.recalculationOrder "a" = .ok ["a", "c", "b", "d"] := by
  let ops : List Operation := [.add "a" "b", .add "a" "c", .add "b" "d", .add "c" "d"]
  let ops' : List Operation :=
    [.replaceDependees "d" ["c", "b"], .add "a" "c", .add "a" "b", .remove "a" "c", .replaceDependees "c" ["a", "a"]]
  have hmade : (ops.foldl Operation.perform empty).Made := ⟨ops, rfl⟩
  have hmade' : (ops'.foldl Operation.perform empty).Made := ⟨ops', rfl⟩
  have hok : (ops.foldl Operation.perform empty).recalculationOrder "a" = .ok ["a", "c", "b", "d"] := by cbv
  have hpairs : (ops'.foldl Operation.perform empty).dependents.pairs = (ops.foldl Operation.perform empty).dependents.pairs := by
    cbv
  have hsame : ∀ s t, (ops'.foldl Operation.perform empty).Holds s t ↔ (ops.foldl Operation.perform empty).Holds s t := by
    intro s t
    change t ∈ Links.targets _ s ↔ t ∈ Links.targets _ s
    rw [← Links.mem_pairs, ← Links.mem_pairs, hpairs]
  obtain ⟨hsearch, hother⟩ := recalculationOrder_eq_search hmade "a"
  exact ⟨_, _, hmade, hmade', hsame, hsearch.symm.trans hok, (hother _ hmade' hsame).trans hok⟩

end Dependencies

end Spreadsheet
