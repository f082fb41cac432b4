import Spreadsheet.Dependency.Order
import Spreadsheet.Proofs.Dependency.Pairs

/-!
# The walk along the dependents

What the walk keeps from step to step (`Walk.Inv`), and what follows for a walk carried to its end: it gives an arranged list of
all that is reached from the start (`Dependencies.arranged_of_recalculationOrder`, `Dependencies.mem_of_recalculationOrder`), or
some reached name depends on itself (`Dependencies.cyclic_of_recalculationOrder`).

A list is arranged if each name stands before all that depends on it, and nothing that depends on a listed name is missing. An
arranged list has no cycle in it, so the names it lists can be evaluated, and reasoned about, from left to right.
-/

namespace Spreadsheet

namespace Dependencies

/-- A name is reached from another along the dependents in any number of steps. -/
def Reaches (g : Dependencies) : String → String → Prop := Relation.ReflTransGen g.Holds

/-- A name depends on itself, directly or not. -/
def Cyclic (g : Dependencies) (name : String) : Prop := Relation.TransGen g.Holds name name

/-- Each listed name comes once, and all that depends on it comes later in the list. -/
def Arranged (g : Dependencies) : List String → Prop
  | [] => True
  | name :: names => name ∉ names ∧ (∀ t, g.Holds name t → t ∈ names) ∧ g.Arranged names

/-- All that depends on a listed name is listed. -/
theorem Arranged.closed {g : Dependencies} {names : List String} (h : g.Arranged names) {s t : String} (hs : s ∈ names)
    (hst : g.Holds s t) : t ∈ names := by
  induction names with
  | nil => cases hs
  | cons name names ih =>
    obtain ⟨-, hdep, hrest⟩ := h
    rcases List.mem_cons.mp hs with rfl | hs
    · exact List.mem_cons_of_mem _ (hdep t hst)
    · exact List.mem_cons_of_mem _ (ih hrest hs)

/-- All that is reached from a listed name is listed. -/
theorem Arranged.closed_reaches {g : Dependencies} {names : List String} (h : g.Arranged names) {s t : String} (hs : s ∈ names)
    (hst : g.Reaches s t) : t ∈ names := by
  induction hst with
  | refl => exact hs
  | tail _ hst ih => exact h.closed ih hst

/-- What depends on a name after the first is not the first. -/
theorem Arranged.not_holds_head {g : Dependencies} {name : String} {names : List String} (h : g.Arranged (name :: names))
    {s : String} (hs : s ∈ name :: names) : ¬g.Holds s name := by
  obtain ⟨hnew, hdep, hrest⟩ := h
  intro hsn
  rcases List.mem_cons.mp hs with rfl | hs
  · exact hnew (hdep s hsn)
  · exact hnew (hrest.closed hs hsn)

theorem Arranged.nodup {g : Dependencies} {names : List String} (h : g.Arranged names) : names.Nodup := by
  induction names with
  | nil => exact List.nodup_nil
  | cons name names ih => exact List.nodup_cons.mpr ⟨h.1, ih h.2.2⟩

/-- What depends on a listed name stands later in the list. -/
theorem Arranged.idxOf_lt {g : Dependencies} {names : List String} (h : g.Arranged names) {s t : String} (hs : s ∈ names)
    (hst : g.Holds s t) : names.idxOf s < names.idxOf t := by
  induction names with
  | nil => cases hs
  | cons name names ih =>
    have ht : t ≠ name := by
      rintro rfl
      exact h.not_holds_head hs hst
    rw [List.idxOf_cons_ne names ht.symm]
    rcases List.mem_cons.mp hs with rfl | hmem
    · rw [List.idxOf_cons_self]
      exact Nat.succ_pos _
    · have hne : s ≠ name := by
        rintro rfl
        exact h.1 hmem
      rw [List.idxOf_cons_ne names hne.symm]
      exact Nat.succ_lt_succ (ih h.2.2 hmem)

/-- No listed name depends on itself. -/
theorem Arranged.not_cyclic {g : Dependencies} {names : List String} (h : g.Arranged names) {name : String} (hn : name ∈ names) :
    ¬g.Cyclic name := by
  have hlater : ∀ t, Relation.TransGen g.Holds name t → names.idxOf name < names.idxOf t := by
    intro t ht
    induction ht with
    | single hst => exact h.idxOf_lt hn hst
    | tail hr hst ih => exact ih.trans (h.idxOf_lt (h.closed_reaches hn hr.to_reflTransGen) hst)
  exact fun hc => lt_irrefl _ (hlater name hc)

/-- If there is no infinite descent outside an arranged list, there is none from inside it either. -/
theorem Arranged.acc {g : Dependencies} {names : List String} (h : g.Arranged names)
    (hout : ∀ s, s ∉ names → Acc g.Holds s) : ∀ t, Acc g.Holds t := by
  induction names with
  | nil => exact fun t => hout t List.not_mem_nil
  | cons name names ih =>
    have hname : Acc g.Holds name := by
      refine Acc.intro name fun s hs => hout s fun hmem => ?_
      exact h.not_holds_head hmem hs
    refine ih h.2.2 ?_
    intro s hs
    by_cases hsn : s = name
    · exact hsn ▸ hname
    · exact hout s fun hmem => hs ((List.mem_cons.mp hmem).resolve_left hsn)

/-- Without infinite descent no name depends on itself. -/
theorem not_cyclic_of_wellFounded {g : Dependencies} (h : WellFounded g.Holds) (name : String) : ¬g.Cyclic name := by
  intro hc
  exact h.transGen.irrefl.irrefl name hc

end Dependencies

namespace Walk

open Dependencies

/-- How far the frames of a path have come: what depends on the name of a frame is pending there, or finished, or is the name of
the next frame inwards. -/
def Looked (g : Dependencies) (order : List String) : Option String → List Frame → Prop
  | _, [] => True
  | inner, f :: path =>
    (∀ t, g.Holds f.name t → t ∈ f.pending ∨ t ∈ order ∨ inner = some t) ∧ Looked g order (some f.name) path

/-- What holds after every step of a walk: its order so far is arranged, its marks say what has been entered and finished, and its
path leads from the start inwards along the dependents. -/
structure Inv (g : Dependencies) (start : String) (w : Walk) : Prop where
  arranged : g.Arranged w.order
  finished_iff : ∀ t, t ∈ w.finished ↔ t ∈ w.order
  unseen_iff : ∀ t, t ∈ w.unseen ↔ (∃ s, g.Holds s t) ∧ t ∉ w.order ∧ t ∉ w.path.map Frame.name
  nodup : (w.path.map Frame.name).Nodup
  unfinished : ∀ t ∈ w.path.map Frame.name, t ∉ w.order
  looked : Looked g w.order none w.path
  pending : ∀ f ∈ w.path, ∀ t ∈ f.pending, g.Holds f.name t
  linked : w.path.IsChain fun inner outer => g.Holds outer.name inner.name
  reached : ∀ t, t ∈ w.order ∨ t ∈ w.path.map Frame.name → g.Reaches start t
  rooted : w.path.getLast?.map Frame.name = some start ∨ w.path = [] ∧ w.order.head? = some start

/-- More finished names do not undo what was looked at. -/
theorem Looked.mono {g : Dependencies} {order order' : List String} (hsub : ∀ t ∈ order, t ∈ order') {inner : Option String}
    {path : List Frame} (h : Looked g order inner path) : Looked g order' inner path := by
  induction path generalizing inner with
  | nil => trivial
  | cons f path ih =>
    refine ⟨fun t ht => ?_, ih h.2⟩
    rcases h.1 t ht with hp | ho | hi
    · exact Or.inl hp
    · exact Or.inr (Or.inl (hsub t ho))
    · exact Or.inr (Or.inr hi)

/-- The innermost name is finished. -/
theorem Looked.finish {g : Dependencies} {order : List String} {name : String} {path : List Frame}
    (h : Looked g order (some name) path) : Looked g (name :: order) none path := by
  cases path with
  | nil => trivial
  | cons f path =>
    refine ⟨fun t ht => ?_, h.2.mono fun t ht => List.mem_cons_of_mem _ ht⟩
    rcases h.1 t ht with hp | ho | hi
    · exact Or.inl hp
    · exact Or.inr (Or.inl (List.mem_cons_of_mem _ ho))
    · cases hi
      exact Or.inr (Or.inl List.mem_cons_self)

/-- A frame of a name pends all that depends on it. -/
theorem mem_pending_frame {g : Dependencies} {name t : String} : t ∈ (frame g name).pending ↔ g.Holds name t :=
  Std.ExtTreeSet.mem_toList

theorem inv_start {g : Dependencies} (hg : g.Consistent) (name : String) : (start g name).Inv g name where
  arranged := trivial
  finished_iff t := by simp [start]
  unseen_iff t := by
    change t ∈ g.dependees.erase name ↔ (∃ s, g.Holds s t) ∧ t ∉ [] ∧ t ∉ [name]
    rw [Std.ExtTreeMap.mem_erase, hg.mem_dependees, ne_eq, Std.LawfulEqCmp.compare_eq_iff_eq, List.mem_singleton, and_comm,
      eq_comm (a := name)]
    simp
  nodup := List.nodup_singleton name
  unfinished _ _ := List.not_mem_nil
  looked := ⟨fun _ ht => Or.inl (mem_pending_frame.mpr ht), trivial⟩
  pending f hf t ht := by
    obtain rfl := List.mem_singleton.mp hf
    exact mem_pending_frame.mp ht
  linked := List.isChain_singleton _
  reached t ht := by
    rcases ht with ht | ht
    · cases ht
    · obtain rfl := List.mem_singleton.mp ht
      exact Relation.ReflTransGen.refl
  rooted := Or.inl rfl

/-- A name with nothing pending is finished. -/
theorem Inv.finish {g : Dependencies} {start name : String} {w : Walk} {path : List Frame} (h : w.Inv g start)
    (hp : w.path = ⟨name, []⟩ :: path) :
    Inv g start { w with finished := w.finished.insert name, order := name :: w.order, path } := by
  obtain ⟨unseen, finished, order, path'⟩ := w
  obtain rfl : path' = ⟨name, []⟩ :: path := hp
  have hnodup := List.nodup_cons.mp h.nodup
  have hlooked := h.looked
  refine ⟨⟨h.unfinished _ List.mem_cons_self, ?_, h.arranged⟩, ?_, ?_, hnodup.2, ?_, hlooked.2.finish, ?_, ?_, ?_, ?_⟩
  · intro t ht
    rcases hlooked.1 t ht with hmem | hmem | hnone
    · cases hmem
    · exact hmem
    · cases hnone
  · intro t
    rw [Std.ExtTreeSet.mem_insert, List.mem_cons, Std.LawfulEqCmp.compare_eq_iff_eq, h.finished_iff, eq_comm]
  · intro t
    rw [h.unseen_iff]
    simp only [List.map_cons, List.mem_cons, not_or]
    exact ⟨fun ⟨hs, ho, hn, hm⟩ => ⟨hs, ⟨hn, ho⟩, hm⟩, fun ⟨hs, ⟨hn, ho⟩, hm⟩ => ⟨hs, ho, hn, hm⟩⟩
  · intro t ht hmem
    rcases List.mem_cons.mp hmem with rfl | hmem
    · exact hnodup.1 ht
    · exact h.unfinished t (List.mem_cons_of_mem _ ht) hmem
  · exact fun f hf => h.pending f (List.mem_cons_of_mem _ hf)
  · exact h.linked.tail
  · intro t ht
    refine h.reached t ?_
    simp only [List.mem_cons, List.map_cons] at ht ⊢
    rcases ht with (ht | ht) | ht
    · exact Or.inr (Or.inl ht)
    · exact Or.inl ht
    · exact Or.inr (Or.inr ht)
  · cases path with
    | nil =>
      rcases h.rooted with hr | hr
      · exact Or.inr ⟨rfl, hr⟩
      · exact absurd hr.1 (by simp)
    | cons f path =>
      rcases h.rooted with hr | hr
      · exact Or.inl (by simpa using hr)
      · exact absurd hr.1 (by simp)

/-- A dependent that has not been seen is entered. -/
theorem Inv.enter {g : Dependencies} {start name next : String} {w : Walk} {pending : List String} {path : List Frame}
    (h : w.Inv g start) (hp : w.path = ⟨name, next :: pending⟩ :: path) (hu : next ∈ w.unseen) :
    Inv g start { w with unseen := w.unseen.erase next, path := frame g next :: ⟨name, pending⟩ :: path } := by
  obtain ⟨unseen, finished, order, path'⟩ := w
  obtain rfl : path' = ⟨name, next :: pending⟩ :: path := hp
  obtain ⟨-, hnew, hoff⟩ := (h.unseen_iff next).mp hu
  have hstep : g.Holds name next := h.pending _ List.mem_cons_self next List.mem_cons_self
  refine ⟨h.arranged, h.finished_iff, ?_, List.nodup_cons.mpr ⟨hoff, h.nodup⟩, ?_, ?_, ?_, ?_, ?_, ?_⟩
  · intro t
    change t ∈ unseen.erase next ↔ _ ∧ _ ∧ t ∉ next :: name :: path.map Frame.name
    have ht := h.unseen_iff t
    rw [Std.ExtTreeMap.mem_erase, ht, List.mem_cons, not_or, ne_eq, Std.LawfulEqCmp.compare_eq_iff_eq, eq_comm (a := next)]
    exact ⟨fun ⟨hn, hs, ho, hm⟩ => ⟨hs, ho, hn, hm⟩, fun ⟨hs, ho, hn, hm⟩ => ⟨hn, hs, ho, hm⟩⟩
  · intro t ht
    rcases List.mem_cons.mp ht with rfl | ht
    · exact hnew
    · exact h.unfinished t ht
  · refine ⟨fun t ht => Or.inl (mem_pending_frame.mpr ht), fun t ht => ?_, h.looked.2⟩
    rcases h.looked.1 t ht with hmem | hmem | hnone
    · rcases List.mem_cons.mp hmem with rfl | hmem
      · exact Or.inr (Or.inr rfl)
      · exact Or.inl hmem
    · exact Or.inr (Or.inl hmem)
    · cases hnone
  · intro f hf t ht
    rcases List.mem_cons.mp hf with rfl | hf
    · exact mem_pending_frame.mp ht
    · rcases List.mem_cons.mp hf with rfl | hf
      · exact h.pending _ List.mem_cons_self t (List.mem_cons_of_mem _ ht)
      · exact h.pending f (List.mem_cons_of_mem _ hf) t ht
  · have hl := h.linked
    cases path with
    | nil => exact List.isChain_pair.mpr hstep
    | cons f path =>
      rw [List.isChain_cons_cons] at hl ⊢
      rw [List.isChain_cons_cons]
      exact ⟨hstep, hl⟩
  · intro t ht
    rcases ht with ht | ht
    · exact h.reached t (Or.inl ht)
    · rcases List.mem_cons.mp ht with rfl | ht
      · exact (h.reached name (Or.inr List.mem_cons_self)).tail hstep
      · exact h.reached t (Or.inr ht)
  · rcases h.rooted with hr | hr
    · refine Or.inl ?_
      rw [List.getLast?_cons_cons]
      cases path with
      | nil => exact hr
      | cons f path => simpa using hr
    · exact absurd hr.1 (by simp)

/-- A dependent that is finished is passed over. -/
theorem Inv.skip {g : Dependencies} {start name next : String} {w : Walk} {pending : List String} {path : List Frame}
    (h : w.Inv g start) (hp : w.path = ⟨name, next :: pending⟩ :: path) (hf : next ∈ w.finished) :
    Inv g start { w with path := ⟨name, pending⟩ :: path } := by
  obtain ⟨unseen, finished, order, path'⟩ := w
  obtain rfl : path' = ⟨name, next :: pending⟩ :: path := hp
  refine ⟨h.arranged, h.finished_iff, h.unseen_iff, h.nodup, h.unfinished, ⟨fun t ht => ?_, h.looked.2⟩, ?_, ?_, h.reached, ?_⟩
  · rcases h.looked.1 t ht with hmem | hmem | hnone
    · rcases List.mem_cons.mp hmem with rfl | hmem
      · exact Or.inr (Or.inl ((h.finished_iff t).mp hf))
      · exact Or.inl hmem
    · exact Or.inr (Or.inl hmem)
    · cases hnone
  · intro f hf t ht
    rcases List.mem_cons.mp hf with rfl | hf
    · exact h.pending _ List.mem_cons_self t (List.mem_cons_of_mem _ ht)
    · exact h.pending f (List.mem_cons_of_mem _ hf) t ht
  · have hl := h.linked
    cases path with
    | nil => exact List.isChain_singleton _
    | cons f path =>
      rw [List.isChain_cons_cons] at hl ⊢
      exact hl
  · rcases h.rooted with hr | hr
    · refine Or.inl ?_
      cases path with
      | nil => exact hr
      | cons f path => simpa using hr
    · exact absurd hr.1 (by simp)

/-- What holds of a walk holds after one more step. -/
theorem Inv.step {g : Dependencies} {start : String} {w w' : Walk} (h : w.Inv g start) (hs : w.step g = .next w') :
    w'.Inv g start := by
  rcases step_next_cases hs with ⟨name, path, hp, rfl⟩ | ⟨name, next, pending, path, hp, hu, rfl⟩ |
    ⟨name, next, pending, path, hp, -, hf, rfl⟩
  · exact h.finish hp
  · exact h.enter hp hu
  · exact h.skip hp hf

/-- The innermost name of a path is reached from every name on it. -/
theorem reaches_innermost {g : Dependencies} {f : Frame} {path : List Frame}
    (h : (f :: path).IsChain fun inner outer => g.Holds outer.name inner.name) {t : String}
    (ht : t ∈ (f :: path).map Frame.name) : g.Reaches t f.name := by
  induction path generalizing f with
  | nil =>
    obtain rfl := List.mem_singleton.mp ht
    exact Relation.ReflTransGen.refl
  | cons f' path ih =>
    rw [List.isChain_cons_cons] at h
    rcases List.mem_cons.mp ht with rfl | ht
    · exact Relation.ReflTransGen.refl
    · exact (ih h.2 ht).tail h.1

/-- A walk that meets a closed cycle has met a dependent of its innermost name on its path. -/
theorem Inv.exists_of_closed {g : Dependencies} {start : String} {w : Walk} {cycle : Cycle} (h : w.Inv g start)
    (hs : w.step g = .closed cycle) : ∃ f path next, w.path = f :: path ∧ next ∈ w.path.map Frame.name ∧ g.Holds f.name next ∧
      cycle = cycleAt w.path next := by
  unfold Walk.step at hs
  split at hs
  · cases hs
  · cases hs
  · next name next pending path hp =>
    split at hs
    · cases hs
    · next hu =>
      split at hs
      · cases hs
      · next hf =>
        cases hs
        have hstep : g.Holds name next := h.pending ⟨name, next :: pending⟩ (hp ▸ List.mem_cons_self) next List.mem_cons_self
        refine ⟨_, _, next, hp, ?_, hstep, rfl⟩
        by_contra hoff
        exact hu ((h.unseen_iff next).mpr ⟨⟨name, hstep⟩, fun ho => hf ((h.finished_iff next).mpr ho), hoff⟩)

/-- A dependent that has been entered and not finished depends on itself. -/
theorem Inv.closed {g : Dependencies} {start : String} {w : Walk} {cycle : Cycle} (h : w.Inv g start)
    (hs : w.step g = .closed cycle) : ∃ t, g.Reaches start t ∧ g.Cyclic t := by
  obtain ⟨f, path, next, hp, hon, hstep, -⟩ := h.exists_of_closed hs
  have hback : g.Reaches next f.name := by
    have hlinked := h.linked
    rw [hp] at hlinked hon
    exact reaches_innermost hlinked hon
  exact ⟨next, h.reached next (Or.inr hon), Relation.TransGen.tail' hback hstep⟩

/-- How a walk ends: with an arranged list that begins with the start and holds only what is reached from there, or since some
reached name depends on itself. -/
theorem Inv.run {g : Dependencies} {start : String} {w : Walk} (h : w.Inv g start) :
    (∃ order, w.run g = .ok order ∧ g.Arranged order ∧ order.head? = some start ∧ ∀ t ∈ order, g.Reaches start t) ∨
      ∃ cycle, w.run g = .error cycle ∧ ∃ t, g.Reaches start t ∧ g.Cyclic t := by
  fun_induction Walk.run g w with
  | case1 w w' hs ih => exact ih (h.step hs)
  | case2 w order hs =>
    refine Or.inl ⟨order, rfl, ?_⟩
    unfold Walk.step at hs
    split at hs
    · next hp =>
      cases hs
      refine ⟨h.arranged, ?_, fun t ht => h.reached t (Or.inl ht)⟩
      rcases h.rooted with hr | hr
      · simp [hp] at hr
      · exact hr.2
    · cases hs
    · split at hs
      · cases hs
      · split at hs <;> cases hs
  | case3 w cycle hs => exact Or.inr ⟨cycle, rfl, h.closed hs⟩

end Walk

namespace Dependencies

/-- An order of recalculation is arranged and begins with the name that has changed. -/
theorem arranged_of_recalculationOrder {g : Dependencies} (hg : g.Consistent) {name : String} {order : List String}
    (h : g.recalculationOrder name = .ok order) : g.Arranged order ∧ order.head? = some name := by
  rcases (Walk.inv_start hg name).run with ⟨order', hrun, harr, hhead, -⟩ | ⟨cycle, hrun, -⟩
  · cases h.symm.trans hrun
    exact ⟨harr, hhead⟩
  · cases h.symm.trans hrun

/-- The name that has changed is in its order of recalculation. -/
theorem start_mem_of_recalculationOrder {g : Dependencies} (hg : g.Consistent) {name : String} {order : List String}
    (h : g.recalculationOrder name = .ok order) : name ∈ order :=
  List.mem_of_mem_head? (arranged_of_recalculationOrder hg h).2

/-- An order of recalculation lists exactly what is reached from the name that has changed. -/
theorem mem_of_recalculationOrder {g : Dependencies} (hg : g.Consistent) {name : String} {order : List String}
    (h : g.recalculationOrder name = .ok order) {t : String} : t ∈ order ↔ g.Reaches name t := by
  obtain ⟨harr, -⟩ := arranged_of_recalculationOrder hg h
  refine ⟨fun ht => ?_, fun ht => harr.closed_reaches (start_mem_of_recalculationOrder hg h) ht⟩
  rcases (Walk.inv_start hg name).run with ⟨order', hrun, -, -, hreach⟩ | ⟨cycle, hrun, -⟩
  · cases h.symm.trans hrun
    exact hreach t ht
  · cases h.symm.trans hrun

/-- What an order of recalculation lists after the name that has changed depends on it, directly or not. -/
theorem exists_tail_of_recalculationOrder {g : Dependencies} (hg : g.Consistent) {name : String} {order : List String}
    (h : g.recalculationOrder name = .ok order) :
    ∃ others, order = name :: others ∧ ∀ t, t ∈ others ↔ Relation.TransGen g.Holds name t := by
  obtain ⟨harr, hhead⟩ := arranged_of_recalculationOrder hg h
  obtain ⟨others, rfl⟩ := List.head?_eq_some_iff.mp hhead
  refine ⟨others, rfl, fun t => ?_⟩
  have hmem : t ∈ name :: others ↔ g.Reaches name t := mem_of_recalculationOrder hg h
  rw [List.mem_cons, Reaches, Relation.reflTransGen_iff_eq_or_transGen] at hmem
  by_cases ht : t = name
  · subst ht
    exact iff_of_false harr.1 (harr.not_cyclic List.mem_cons_self)
  · rwa [or_iff_right ht, or_iff_right ht] at hmem

/-- Where no order is found, some name that is reached depends on itself. -/
theorem cyclic_of_recalculationOrder {g : Dependencies} (hg : g.Consistent) {name : String} {cycle : Cycle}
    (h : g.recalculationOrder name = .error cycle) : ∃ t, g.Reaches name t ∧ g.Cyclic t := by
  rcases (Walk.inv_start hg name).run with ⟨order, hrun, -⟩ | ⟨cycle', -, hcyc⟩
  · cases h.symm.trans hrun
  · exact hcyc

/-- No order is found exactly if some name that is reached depends on itself. -/
theorem recalculationOrder_error_iff {g : Dependencies} (hg : g.Consistent) {name : String} :
    (∃ cycle, g.recalculationOrder name = .error cycle) ↔ ∃ t, g.Reaches name t ∧ g.Cyclic t := by
  constructor
  · rintro ⟨cycle, h⟩
    exact cyclic_of_recalculationOrder hg h
  · rintro ⟨t, ht, hc⟩
    cases h : g.recalculationOrder name with
    | error cycle => exact ⟨cycle, rfl⟩
    | ok order =>
      obtain ⟨harr, -⟩ := arranged_of_recalculationOrder hg h
      exact absurd hc (harr.not_cyclic ((mem_of_recalculationOrder hg h).mpr ht))

/-- Without infinite descent an order is found from every name. -/
theorem recalculationOrder_ok_of_wellFounded {g : Dependencies} (hg : g.Consistent) (hw : WellFounded g.Holds) (name : String) :
    ∃ order, g.recalculationOrder name = .ok order := by
  cases h : g.recalculationOrder name with
  | ok order => exact ⟨order, rfl⟩
  | error cycle =>
    obtain ⟨t, -, ht⟩ := cyclic_of_recalculationOrder hg h
    exact absurd ht (not_cyclic_of_wellFounded hw t)

end Dependencies

end Spreadsheet
