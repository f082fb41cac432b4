import Spreadsheet.Proofs.Dependency.Search

/-!
# The walk ends

An account of a walk says what it has done (`Walk.Account`): the names it has entered, the pairs it has looked at and the names it
has finished. The marks of the walk are read off its account: a name is unseen as long as it has not been entered. So no name is
entered twice, and as only the one frame of a name has what depends on it pending, no pair is looked at twice and no name is finished
twice (`Walk.Account.Once.record`).

Each step looks at a pair or finishes a name. There are as many pairs as are counted, and no name is entered but the start and what
depends on something, so the walk ends after so many steps, whatever cycles it runs into (`Dependencies.recalculationOrder_ends`).
-/

namespace Spreadsheet

namespace Walk

/-- What a walk has done, the last first. -/
structure Account where
  /-- The names put on the path. -/
  entered : List String
  /-- The pairs of a name and a dependent that is no longer pending. -/
  looked : List (String × String)
  /-- The names taken off the path. -/
  finished : List String

namespace Account

/-- The account of a walk that has entered its first name. -/
def opening (name : String) : Account := ⟨[name], [], []⟩

/-- The account with the next step of a walk. -/
def record (a : Account) (w : Walk) : Account :=
  match w.path with
  | [] => a
  | ⟨name, []⟩ :: _ => { a with finished := name :: a.finished }
  | ⟨name, next :: _⟩ :: _ =>
    { a with looked := (name, next) :: a.looked, entered := if next ∈ w.unseen then next :: a.entered else a.entered }

/-- How many steps an account tells of: each looks at a pair or finishes a name. -/
def steps (a : Account) : Nat := a.looked.length + a.finished.length

/-- Nothing has been done twice. -/
structure Once (a : Account) : Prop where
  entered : a.entered.Nodup
  looked : a.looked.Nodup
  finished : a.finished.Nodup

/-- A name is past a dependent: the name is finished, or it is on the path and the dependent is no longer pending. -/
def Past (finished : List String) (path : List Frame) (s t : String) : Prop :=
  s ∈ finished ∨ ∃ f ∈ path, f.name = s ∧ t ∉ f.pending

/-- An account tells how a walk stands. -/
structure Tells (a : Account) (g : Dependencies) (w : Walk) : Prop where
  /-- The names finished are the order so far. -/
  finished_eq : a.finished = w.order
  /-- Each name that has been entered is finished or on the path. -/
  entered_perm : a.entered.Perm (a.finished ++ w.path.map Frame.name)
  /-- A name that depends on something is marked unseen until it is entered. -/
  unseen_iff : ∀ t, t ∈ w.unseen ↔ (∃ s, g.Holds s t) ∧ t ∉ a.entered
  /-- A name is marked finished once it is finished. -/
  finished_iff : ∀ t, t ∈ w.finished ↔ t ∈ a.finished
  /-- The pairs looked at are those that the walk is past. -/
  looked_iff : ∀ s t, (s, t) ∈ a.looked ↔ g.Holds s t ∧ Past a.finished w.path s t
  /-- No name is pending twice in a frame. -/
  pending_nodup : ∀ f ∈ w.path, f.pending.Nodup

variable {g : Dependencies} {a : Account} {w w' : Walk} {start name next : String} {pending finished : List String}
  {path : List Frame} {s t : String}

/-! ## What a step does to an account -/

theorem record_of_finish (hp : w.path = ⟨name, []⟩ :: path) : a.record w = { a with finished := name :: a.finished } := by
  rw [record, hp]

theorem record_of_enter (hp : w.path = ⟨name, next :: pending⟩ :: path) (hu : next ∈ w.unseen) :
    a.record w = ⟨next :: a.entered, (name, next) :: a.looked, a.finished⟩ := by
  rw [record, hp]
  simp only [if_pos hu]

theorem record_of_pass (hp : w.path = ⟨name, next :: pending⟩ :: path) (hu : next ∉ w.unseen) :
    a.record w = { a with looked := (name, next) :: a.looked } := by
  rw [record, hp]
  simp only [if_neg hu]

/-- A step after which the walk goes on is one more step in the account. -/
theorem steps_record (hs : w.step g = .next w') : (a.record w).steps = a.steps + 1 := by
  rcases step_next_cases hs with ⟨name, path, hp, -⟩ | ⟨name, next, pending, path, hp, hu, -⟩ |
    ⟨name, next, pending, path, hp, hu, -, -⟩
  · rw [record_of_finish hp]
    rfl
  · rw [record_of_enter hp hu]
    exact Nat.add_right_comm _ 1 _
  · rw [record_of_pass hp hu]
    exact Nat.add_right_comm _ 1 _

/-! ## What a walk is past -/

theorem past_cons {f : Frame} : Past finished (f :: path) s t ↔ (f.name = s ∧ t ∉ f.pending) ∨ Past finished path s t := by
  rw [Past, Past, List.exists_mem_cons_iff]
  exact or_left_comm

/-- A name with nothing pending is past all that depends on it, as it is once it is finished. -/
theorem past_finish : Past (name :: finished) path s t ↔ Past finished (⟨name, []⟩ :: path) s t := by
  rw [past_cons, Past, Past, List.mem_cons, or_assoc, eq_comm (a := s), and_iff_left List.not_mem_nil]

/-- A name that has just been entered is past nothing. -/
theorem past_enter (hst : g.Holds s t) : Past finished (frame g next :: path) s t ↔ Past finished path s t := by
  rw [past_cons]
  refine or_iff_right ?_
  rintro ⟨rfl, ht⟩
  exact ht (mem_pending_frame.mpr hst)

/-- A name that looks at its next dependent gets past this one and no other. -/
theorem past_look (hn : (next :: pending).Nodup) :
    Past finished (⟨name, pending⟩ :: path) s t ↔
      (s = name ∧ t = next) ∨ Past finished (⟨name, next :: pending⟩ :: path) s t := by
  have hnext : next ∉ pending := (List.nodup_cons.mp hn).1
  have hpending : t ∉ pending ↔ t = next ∨ t ∉ next :: pending := by
    rw [List.mem_cons, not_or]
    by_cases ht : t = next
    · simp [ht, hnext]
    · simp [ht]
  rw [past_cons, past_cons, hpending, and_or_left, or_assoc, eq_comm (a := s)]

/-! ## What an account tells after a step -/

theorem Tells.mem_entered (h : a.Tells g w) : t ∈ a.entered ↔ t ∈ w.order ∨ t ∈ w.path.map Frame.name := by
  rw [h.entered_perm.mem_iff, h.finished_eq, List.mem_append]

/-- The marks of a walk are known from what is finished and what is on its path, so they need not be followed step by step. -/
theorem tells_of_inv (hinv : w.Inv g start) (hf : a.finished = w.order)
    (he : a.entered.Perm (a.finished ++ w.path.map Frame.name))
    (hl : ∀ s t, (s, t) ∈ a.looked ↔ g.Holds s t ∧ Past a.finished w.path s t)
    (hp : ∀ f ∈ w.path, f.pending.Nodup) : a.Tells g w where
  finished_eq := hf
  entered_perm := he
  unseen_iff t := by rw [hinv.unseen_iff, he.mem_iff, hf, List.mem_append, not_or]
  finished_iff t := by rw [hinv.finished_iff, hf]
  looked_iff := hl
  pending_nodup := hp

theorem tells_opening (hg : g.Consistent) (name : String) : (opening name).Tells g (Walk.start g name) := by
  refine tells_of_inv (inv_start hg name) rfl (List.Perm.refl _) (fun s t => ?_) fun f hf => ?_
  · refine iff_of_false List.not_mem_nil ?_
    rintro ⟨hst, hpast⟩
    rcases (past_enter hst).mp hpast with hnil | ⟨f, hf, -⟩
    · cases hnil
    · cases hf
  · obtain rfl := List.mem_singleton.mp hf
    exact Names.nodup_toList _

theorem Tells.finish (h : a.Tells g w) (hinv : w.Inv g start) (hp : w.path = ⟨name, []⟩ :: path) :
    (a.record w).Tells g { w with finished := w.finished.insert name, order := name :: w.order, path } := by
  rw [record_of_finish hp]
  have hf : name :: a.finished = name :: w.order := congrArg (name :: ·) h.finished_eq
  have he : a.entered.Perm (name :: a.finished ++ path.map Frame.name) := by
    have hperm := h.entered_perm
    rw [hp] at hperm
    exact hperm.trans List.perm_middle
  refine tells_of_inv (hinv.finish hp) hf he (fun s t => ?_) fun f hmem => ?_
  · rw [h.looked_iff, hp, ← past_finish]
  · exact h.pending_nodup f (hp ▸ List.mem_cons_of_mem _ hmem)

/-- The pairs looked at with one more are those that the walk is past with the next dependent no longer pending. -/
theorem Tells.looked_look (h : a.Tells g w) (hinv : w.Inv g start) (hp : w.path = ⟨name, next :: pending⟩ :: path) (s t : String) :
    (s, t) ∈ (name, next) :: a.looked ↔ g.Holds s t ∧ Past a.finished (⟨name, pending⟩ :: path) s t := by
  have hstep : g.Holds name next := hinv.pending ⟨name, next :: pending⟩ (hp ▸ List.mem_cons_self) next List.mem_cons_self
  have hn : (next :: pending).Nodup := h.pending_nodup ⟨name, next :: pending⟩ (hp ▸ List.mem_cons_self)
  have hpair : (s = name ∧ t = next) ↔ g.Holds s t ∧ s = name ∧ t = next := by
    refine (and_iff_right_of_imp ?_).symm
    rintro ⟨rfl, rfl⟩
    exact hstep
  rw [List.mem_cons, Prod.mk.injEq, h.looked_iff, hp, past_look hn, and_or_left, ← hpair]

/-- In no frame is a name pending twice after the next one has been looked at. -/
theorem Tells.pending_look (h : a.Tells g w) (hp : w.path = ⟨name, next :: pending⟩ :: path) :
    ∀ f ∈ ⟨name, pending⟩ :: path, f.pending.Nodup := by
  have hnodup := h.pending_nodup
  rw [hp, List.forall_mem_cons] at hnodup
  exact List.forall_mem_cons.mpr ⟨(List.nodup_cons.mp hnodup.1).2, hnodup.2⟩

theorem Tells.enter (h : a.Tells g w) (hinv : w.Inv g start) (hp : w.path = ⟨name, next :: pending⟩ :: path)
    (hu : next ∈ w.unseen) :
    (a.record w).Tells g { w with unseen := w.unseen.erase next, path := frame g next :: ⟨name, pending⟩ :: path } := by
  rw [record_of_enter hp hu]
  have he : (next :: a.entered).Perm (a.finished ++ next :: name :: path.map Frame.name) := by
    have hperm := h.entered_perm
    rw [hp] at hperm
    exact (hperm.cons next).trans List.perm_middle.symm
  refine tells_of_inv (hinv.enter hp hu) h.finished_eq he (fun s t => ?_) ?_
  · rw [h.looked_look hinv hp]
    exact and_congr_right fun hst => (past_enter hst).symm
  · exact List.forall_mem_cons.mpr ⟨Names.nodup_toList _, h.pending_look hp⟩

theorem Tells.pass (h : a.Tells g w) (hinv : w.Inv g start) (hp : w.path = ⟨name, next :: pending⟩ :: path)
    (hu : next ∉ w.unseen) (hf : next ∈ w.finished) : (a.record w).Tells g { w with path := ⟨name, pending⟩ :: path } := by
  rw [record_of_pass hp hu]
  have he : a.entered.Perm (a.finished ++ name :: path.map Frame.name) := by
    have hperm := h.entered_perm
    rw [hp] at hperm
    exact hperm
  exact tells_of_inv (hinv.skip hp hf) h.finished_eq he (h.looked_look hinv hp) (h.pending_look hp)

/-- An account tells how a walk stands after the next step too. -/
theorem Tells.record (h : a.Tells g w) (hinv : w.Inv g start) (hs : w.step g = .next w') : (a.record w).Tells g w' := by
  rcases step_next_cases hs with ⟨name, path, hp, rfl⟩ | ⟨name, next, pending, path, hp, hu, rfl⟩ |
    ⟨name, next, pending, path, hp, hu, hf, rfl⟩
  · exact h.finish hinv hp
  · exact h.enter hinv hp hu
  · exact h.pass hinv hp hu hf

/-! ## Nothing is done twice -/

/-- What is pending has not been looked at. -/
theorem Tells.not_mem_looked (h : a.Tells g w) (hinv : w.Inv g start) {f : Frame} (hf : f ∈ w.path) (ht : t ∈ f.pending) :
    (f.name, t) ∉ a.looked := by
  rw [h.looked_iff]
  rintro ⟨-, hfinished | ⟨f', hf', hname, ht'⟩⟩
  · exact hinv.unfinished f.name (List.mem_map_of_mem hf) (h.finished_eq ▸ hfinished)
  · -- A name has only one frame on the path.
    obtain rfl : f' = f := List.inj_on_of_nodup_map hinv.nodup hf' hf hname
    exact ht' ht

/-- The next step of a walk does nothing that has been done. -/
theorem Once.record (h : a.Once) (ht : a.Tells g w) (hinv : w.Inv g start) : (a.record w).Once := by
  unfold Account.record
  split
  · exact h
  · next name path hp =>
    have hname : name ∉ a.finished := by
      rw [ht.finished_eq]
      exact hinv.unfinished name (by simp [hp])
    exact ⟨h.entered, h.looked, List.nodup_cons.mpr ⟨hname, h.finished⟩⟩
  · next name next pending path hp =>
    have hlooked : (name, next) ∉ a.looked :=
      ht.not_mem_looked hinv (f := ⟨name, next :: pending⟩) (hp ▸ List.mem_cons_self) List.mem_cons_self
    refine ⟨?_, List.nodup_cons.mpr ⟨hlooked, h.looked⟩, h.finished⟩
    split
    · next hu => exact List.nodup_cons.mpr ⟨((ht.unseen_iff next).mp hu).2, h.entered⟩
    · exact h.entered

theorem once_opening (name : String) : (opening name).Once :=
  ⟨List.nodup_singleton name, List.nodup_nil, List.nodup_nil⟩

/-! ## How much there is to do -/

/-- No more pairs are looked at than there are. -/
theorem Tells.length_looked_le (h : a.Tells g w) (ho : a.Once) (hg : g.Consistent) : a.looked.length ≤ g.size := by
  have hsub : a.looked ⊆ g.dependents.pairs := fun ⟨s, t⟩ hst => Links.mem_pairs.mpr ((h.looked_iff s t).mp hst).1
  rw [hg.size_eq]
  exact (ho.looked.subperm hsub).length_le

/-- No more names are entered than the start and those that depend on something. -/
theorem Tells.length_entered_le (h : a.Tells g w) (ho : a.Once) (hg : g.Consistent) (hinv : w.Inv g start) :
    a.entered.length ≤ g.dependees.size + 1 := by
  have hsub : a.entered ⊆ start :: g.dependees.keys := by
    intro t ht
    rcases (hinv.reached t (h.mem_entered.mp ht)).cases_tail with rfl | ⟨s, -, hst⟩
    · exact List.mem_cons_self
    · exact List.mem_cons_of_mem _ (Std.ExtTreeMap.mem_keys.mpr (hg.mem_dependees.mpr ⟨s, hst⟩))
  have hle := (ho.entered.subperm hsub).length_le
  rwa [List.length_cons, Std.ExtTreeMap.length_keys] at hle

/-- A walk that goes on has made no more steps than there are pairs to look at and names to finish. -/
theorem Tells.steps_le (h : a.Tells g w) (ho : a.Once) (hg : g.Consistent) (hinv : w.Inv g start) :
    a.steps ≤ g.size + (g.dependees.size + 1) := by
  have hfinished : a.finished.length ≤ a.entered.length := by
    rw [h.entered_perm.length_eq, List.length_append]
    exact Nat.le_add_right _ _
  exact Nat.add_le_add (h.length_looked_le ho hg) (hfinished.trans (h.length_entered_le ho hg hinv))

end Account

/-! ## One step after the other -/

/-- The step by which a walk ends. -/
def Step.ending : Except Cycle (List String) → Step
  | .ok order => .complete order
  | .error cycle => .closed cycle

/-- A walk that has ended does not go on. -/
theorem Step.ending_ne_next {result : Except Cycle (List String)} {w : Walk} : ending result ≠ .next w := by
  cases result with
  | ok order => exact nofun
  | error cycle => exact nofun

/-- How far a walk has come: what it has done, and what its last step came to. -/
structure Stage where
  account : Account
  last : Step

/-- One step further. A walk that has ended stays where it is. -/
def Stage.next (g : Dependencies) (stage : Stage) : Stage :=
  match stage.last with
  | .next w => ⟨stage.account.record w, w.step g⟩
  | .complete _ => stage
  | .closed _ => stage

/-- How far the walk from a name has come after a number of steps. -/
def stage (g : Dependencies) (name : String) : Nat → Stage
  | 0 => ⟨.opening name, .next (start g name)⟩
  | n + 1 => (stage g name n).next g

variable {g : Dependencies} {w : Walk} {name : String} {n : Nat}

theorem stage_succ_of_next (h : (stage g name n).last = .next w) :
    stage g name (n + 1) = ⟨(stage g name n).account.record w, w.step g⟩ := by
  rw [stage, Stage.next, h]

theorem stage_succ_of_ending {result : Except Cycle (List String)} (h : (stage g name n).last = .ending result) :
    stage g name (n + 1) = stage g name n := by
  rw [stage, Stage.next, h]
  cases result with
  | ok order => rfl
  | error cycle => rfl

/-- A walk goes on after its next step, with the same result, or it ends with it. -/
theorem step_cases (g : Dependencies) (w : Walk) :
    (∃ w', w.step g = .next w' ∧ w'.run g = w.run g) ∨ w.step g = .ending (w.run g) := by
  have hrun := Search.run_eq g w
  cases hs : w.step g with
  | next w' =>
    rw [hs] at hrun
    exact Or.inl ⟨w', rfl, hrun.symm⟩
  | complete order =>
    rw [hs] at hrun
    exact Or.inr (hrun ▸ rfl)
  | closed cycle =>
    rw [hs] at hrun
    exact Or.inr (hrun ▸ rfl)

/-- After any number of steps the walk goes on to its order of recalculation, or to its cycle, or has ended with it. -/
theorem stage_last_cases (g : Dependencies) (name : String) (n : Nat) :
    (∃ w, (stage g name n).last = .next w ∧ w.run g = g.recalculationOrder name) ∨
      (stage g name n).last = .ending (g.recalculationOrder name) := by
  induction n with
  | zero => exact Or.inl ⟨start g name, rfl, rfl⟩
  | succ n ih =>
    rcases ih with ⟨w, hlast, hrun⟩ | hlast
    · rw [stage_succ_of_next hlast, ← hrun]
      exact step_cases g w
    · rw [stage_succ_of_ending hlast]
      exact Or.inr hlast

/-- After any number of steps nothing has been done twice, and of a walk that goes on the account tells how it stands and how many
steps it has made. -/
theorem stage_account (hg : g.Consistent) (name : String) (n : Nat) :
    (stage g name n).account.Once ∧
      ∀ w, (stage g name n).last = .next w →
        w.Inv g name ∧ (stage g name n).account.Tells g w ∧ (stage g name n).account.steps = n := by
  induction n with
  | zero =>
    refine ⟨Account.once_opening name, fun w hlast => ?_⟩
    cases hlast
    exact ⟨inv_start hg name, Account.tells_opening hg name, rfl⟩
  | succ n ih =>
    obtain ⟨honce, htells⟩ := ih
    rcases stage_last_cases g name n with ⟨w, hlast, -⟩ | hlast
    · obtain ⟨hinv, ht, hsteps⟩ := htells w hlast
      rw [stage_succ_of_next hlast]
      refine ⟨honce.record ht hinv, fun w' hs => ⟨hinv.step hs, ht.record hinv hs, ?_⟩⟩
      rw [Account.steps_record hs, hsteps]
    · rw [stage_succ_of_ending hlast]
      exact ⟨honce, fun w hnext => absurd (hlast.symm.trans hnext) Step.ending_ne_next⟩

end Walk

namespace Dependencies

variable {g : Dependencies}

/-- The walk from a name never enters a name twice, never looks at a pair twice and never finishes a name twice, whatever cycles it
runs into. As long as it goes on, the account of what it has done tells how it stands, and it has made as many steps as it has looked
at pairs and finished names. So after more steps than there are pairs, names that depend on something and the start, it has ended,
with the order of recalculation or with a cycle. -/
theorem recalculationOrder_ends (h : g.Made) (name : String) :
    (∀ n, (Walk.stage g name n).account.Once) ∧
    (∀ n w, (Walk.stage g name n).last = .next w →
      (Walk.stage g name n).account.Tells g w ∧ (Walk.stage g name n).account.steps = n) ∧
    ∀ n, g.size + (g.dependees.size + 1) < n → (Walk.stage g name n).last = .ending (g.recalculationOrder name) := by
  have haccount := Walk.stage_account h.consistent name
  refine ⟨fun n => (haccount n).1, fun n w hlast => ((haccount n).2 w hlast).2, fun n hn => ?_⟩
  refine (Walk.stage_last_cases g name n).resolve_left ?_
  rintro ⟨w, hlast, -⟩
  obtain ⟨hinv, ht, hsteps⟩ := (haccount n).2 w hlast
  have hle := ht.steps_le (haccount n).1 h.consistent hinv
  rw [hsteps] at hle
  exact absurd hle (Nat.not_le.mpr hn)

set_option maxRecDepth 10000 in
/-- From `a` a circle of `b` and `c` is run into, and a name that depends on itself leads to `a`: five pairs and four names that depend
on something, so the walk has ended after eleven steps. -/
theorem recalculationOrder_ends_circle :
    ∃ g : Dependencies, g.Made ∧ g.Holds "z" "z" ∧ g.Holds "b" "c" ∧ g.Holds "c" "b" ∧
      (Walk.stage g "a" 11).account.Once ∧ (Walk.stage g "a" 11).last = .closed ⟨["b", "c", "b"]⟩ := by
  let ops : List Operation := [.add "a" "b", .add "b" "c", .add "c" "b", .add "z" "z", .add "z" "a"]
  have hmade : (ops.foldl Operation.perform empty).Made := ⟨ops, rfl⟩
  have hcycle : (ops.foldl Operation.perform empty).recalculationOrder "a" = .error ⟨["b", "c", "b"]⟩ := by cbv
  have hsize : (ops.foldl Operation.perform empty).size = 5 := by cbv
  have hnames : (ops.foldl Operation.perform empty).dependees.size = 4 := by cbv
  have hholds : ∀ s t, (ops.foldl Operation.perform empty).Holds s t ↔
      ("z" = s ∧ "a" = t) ∨ ("z" = s ∧ "z" = t) ∨ ("c" = s ∧ "b" = t) ∨ ("b" = s ∧ "c" = t) ∨ ("a" = s ∧ "b" = t) := by
    intro s t
    simp [ops, Operation.perform, holds_add, not_holds_empty]
  obtain ⟨honce, -, hends⟩ := recalculationOrder_ends hmade "a"
  have hlast := hends 11 (by rw [hsize, hnames]; decide)
  rw [hcycle] at hlast
  exact ⟨_, hmade, by simp [hholds], by simp [hholds], by simp [hholds], honce 11, hlast⟩

end Dependencies

end Spreadsheet
