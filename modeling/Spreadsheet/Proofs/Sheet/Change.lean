import Spreadsheet.Proofs.Dependency.Search
import Spreadsheet.Proofs.Sheet.Request

/-!
# What new contents change

A call that is not refused answers with a list of names, and outside this list no cell moves (`Sheet.Update`). The list is the name
that was given contents and all that depends on it under the new links, in an order in which nothing comes before what it reads.
Only one cell has new contents and only its own links are replaced, but everything listed is evaluated again.

So whoever shows the values of a sheet need not look at all of it after a call: reading anew what is listed is enough, under any
naming rules and whatever is asked in between (`Sheet.order_covers_change`). What will be listed is known before: of two contents for
a cell that are not refused both have the list that the links give as they are (`Sheet.order_independent_of_contents`).
-/

namespace Spreadsheet

/-- What is shown under each name. -/
abbrev Display := String → Value

/-- What is shown after an answer: where names were listed, what the sheet now shows there, and elsewhere what was shown before. -/
def Display.refresh (display : Display) (sheet : Sheet) : Answer → Display
  | .order (.ok order) => fun name => if name ∈ order then sheet.valueAt name else display name
  | _ => display

/-- What is shown after requests, if after each of them only the names are read anew that were listed in the answer. -/
def Display.follow (display : Display) (sheet : Sheet) : List Request → Display
  | [] => display
  | request :: requests =>
    let (answer, sheet) := sheet.perform request
    (display.refresh sheet answer).follow sheet requests

namespace Sheet

/-- What contents under a name make of a sheet, and the names that are evaluated again. -/
structure Update (sheet after : Sheet) (name : String) (contents : Contents) (order : List String) : Prop where
  /-- The name comes first, then what depends on it, directly or not, by the new links. -/
  listed : ∃ others, order = name :: others ∧ ∀ t, t ∈ others ↔ Relation.TransGen after.dependencies.Holds name t
  nodup : order.Nodup
  /-- A listed name comes after every listed name that it depends on. -/
  later : ∀ s t, after.dependencies.Holds s t → s ∈ order → t ∈ order → order.idxOf s < order.idxOf t
  /-- The cell under the name has the contents; all others have theirs, and there are no others that there were not. -/
  map_contents : ∀ t : String,
    after.cells[t]?.map Cell.contents = if t = name then some contents else sheet.cells[t]?.map Cell.contents
  /-- The name depends on the variables of a formula, and on nothing if it holds none; all others depend on what they did. -/
  holds_iff : ∀ s t, after.dependencies.Holds s t ↔
    if t = name then ∃ f, contents = .formula f ∧ s ∈ f.names else sheet.dependencies.Holds s t
  /-- What is not listed keeps its cell, the value included. -/
  unlisted : ∀ t, t ∉ order → after.cells[t]? = sheet.cells[t]?
  settings : after.rules = sheet.rules ∧ after.version = sheet.version ∧ after.changed = true

variable {rules : NameRules} {version : String} {sheet : Sheet} {name typed : String} {order : List String}

/-- A call of a sound sheet that is not refused puts the contents that the text stands for under the normalized name. -/
theorem Sound.update (h : sheet.Sound rules version) (hok : (sheet.set name typed).1 = .ok order) :
    ∃ normalized contents, rules.admit? name = some normalized ∧ Contents.classify? rules typed = .ok contents ∧
      sheet.Update (sheet.set name typed).2 normalized contents order := by
  rcases h.set_cases name typed with ⟨e, hset⟩ | ⟨normalized, contents, order', hname, htyped, horder, hset⟩
  · rw [hset] at hok
    cases hok
  · rw [hset] at hok ⊢
    obtain rfl : order' = order := Except.ok.inj hok
    have hconsistent := h.consistent_relink normalized contents.reads
    have hdependencies : (((sheet.relink normalized contents.reads).write normalized contents).recalculate order').dependencies =
        (sheet.relink normalized contents.reads).dependencies := recalculate_dependencies _ order'
    obtain ⟨harr, -⟩ := Dependencies.arranged_of_recalculationOrder hconsistent horder
    obtain ⟨others, hothers, hmem⟩ := Dependencies.exists_tail_of_recalculationOrder hconsistent horder
    refine ⟨normalized, contents, hname, htyped, ?_⟩
    exact
      { listed := ⟨others, hothers, by rwa [hdependencies]⟩
        nodup := harr.nodup
        later := by
          intro s t hst hs _
          rw [hdependencies] at hst
          exact harr.idxOf_lt hs hst
        map_contents := by
          intro t
          rw [map_contents_recalculate, map_contents_write]
          rfl
        holds_iff := by
          intro s t
          rw [hdependencies, h.holds_relink, Contents.mem_reads]
        unlisted := by
          intro t ht
          have hne : t ≠ normalized := by
            rintro rfl
            exact ht (Dependencies.start_mem_of_recalculationOrder hconsistent horder)
          rw [getElem?_recalculate_of_not_mem _ ht, getElem?_write, if_neg hne]
          rfl
        settings := ⟨recalculate_rules _ order', recalculate_version _ order', recalculate_changed _ order'⟩ }

/-- Reading anew the names that an answer lists brings what is shown up to date. -/
theorem Sound.refresh_perform (h : sheet.Sound rules version) (request : Request) :
    Display.refresh sheet.valueAt (sheet.perform request).2 (sheet.perform request).1 = (sheet.perform request).2.valueAt := by
  cases request with
  | set name typed =>
    change Display.refresh sheet.valueAt (sheet.set name typed).2 (.order (sheet.set name typed).1) = _
    cases hok : (sheet.set name typed).1 with
    | error e =>
      rw [Sheet.perform, h.set_eq_self hok]
      rfl
    | ok order =>
      obtain ⟨normalized, contents, -, -, hupdate⟩ := h.update hok
      funext t
      change (if t ∈ order then (sheet.set name typed).2.valueAt t else sheet.valueAt t) = (sheet.set name typed).2.valueAt t
      split
      · rfl
      · next ht => rw [valueAt, valueAt, hupdate.unlisted t ht]
  | markSaved => rfl
  | save refused => cases refused <;> rfl
  | query query => cases query <;> rfl

/-- What is shown stays up to date through any requests. -/
theorem Sound.follow_eq (h : sheet.Sound rules version) (requests : List Request) :
    Display.follow sheet.valueAt sheet requests = (sheet.run requests).2.valueAt := by
  induction requests generalizing sheet with
  | nil => rfl
  | cons request requests ih =>
    change (Display.refresh sheet.valueAt (sheet.perform request).2 (sheet.perform request).1).follow
      (sheet.perform request).2 requests = ((sheet.perform request).2.run requests).2.valueAt
    rw [h.refresh_perform request]
    exact ih (h.perform request)

/-- A call of a sheet in use that is not refused lists the name that was given contents and exactly what depends on it by the new
links, each once and after all listed names that it reads. The contents that the text stands for are under the name, all else has
the contents it had; the name depends on the variables of a formula alone, all else on what it did; and no cell that is not listed
has another value. So where the values of a sheet in use are shown, and after each request those are read anew that the answer
lists, what is shown is what the sheet shows, however many requests there are. -/
theorem order_covers_change (h : InUse rules version sheet) :
    (∀ name typed order, (sheet.set name typed).1 = .ok order →
      ∃ normalized contents, rules.admit? name = some normalized ∧ Contents.classify? rules typed = .ok contents ∧
        sheet.Update (sheet.set name typed).2 normalized contents order) ∧
    ∀ requests, Display.follow sheet.valueAt sheet requests = (sheet.run requests).2.valueAt :=
  ⟨fun _ _ _ hok => h.sound.update hok, h.sound.follow_eq⟩

set_option maxRecDepth 10000 in
/-- Under rules that put an `x` before every name, also before one that has it already, `c` is to read `e` in place of `d`. Listed
are `xc` and `xb`, which reads it, but not `xf`, which still reads `xd`. -/
theorem order_covers_change_relinked :
    ∃ (rules : NameRules) (sheet : Sheet), ¬rules.Idempotent ∧ InUse rules "v" sheet ∧
      (sheet.set "c" "=e").1 = .ok ["xc", "xb"] ∧
      sheet.dependencies.Holds "xd" "xc" ∧ ¬(sheet.set "c" "=e").2.dependencies.Holds "xd" "xc" ∧
      (sheet.set "c" "=e").2.dependencies.Holds "xe" "xc" ∧ (sheet.set "c" "=e").2.dependencies.Holds "xd" "xf" ∧
      (sheet.set "c" "=e").2.cells["xf"]? = sheet.cells["xf"]? ∧
      Display.follow sheet.valueAt sheet [.set "c" "=e", .query .text, .set "d" "t"] =
        (sheet.run [.set "c" "=e", .query .text, .set "d" "t"]).2.valueAt := by
  have hidempotent : ¬(NameRules.of (.prepend "x") .all).Idempotent := fun hi => absurd (hi "a") (by decide)
  have hname : (NameRules.of (.prepend "x") .all).admit? "c" = some "xc" := by decide
  have htyped : Contents.classify? (.of (.prepend "x") .all) "=e" = .ok (.formula ⟨[.var "xe"], rfl⟩) := by cbv
  obtain ⟨sheet, h, hset, hpairs⟩ : ∃ sheet : Sheet, InUse (.of (.prepend "x") .all) "v" sheet ∧
      (sheet.set "c" "=e").1 = .ok ["xc", "xb"] ∧
      sheet.dependencies.dependents.pairs = [("xc", "xb"), ("xd", "xc"), ("xd", "xf")] := by
    refine ⟨_, ⟨[.set "b" "=c", .set "c" "=d", .set "f" "=d"], rfl⟩, ?_, ?_⟩
    · cbv
    · cbv
  have hholds : ∀ s t, sheet.dependencies.Holds s t ↔ (s, t) ∈ [("xc", "xb"), ("xd", "xc"), ("xd", "xf")] := by
    intro s t
    rw [← hpairs, Links.mem_pairs]
    rfl
  obtain ⟨hframe, hshown⟩ := order_covers_change h
  obtain ⟨normalized, contents, hnormalized, hclassified, hupdate⟩ := hframe "c" "=e" _ hset
  obtain rfl : normalized = "xc" := Option.some.inj (hnormalized.symm.trans hname)
  obtain rfl : contents = .formula ⟨[.var "xe"], rfl⟩ := Except.ok.inj (hclassified.symm.trans htyped)
  refine ⟨_, sheet, hidempotent, h, hset, (hholds _ _).mpr (by decide), ?_, ?_, ?_, hupdate.unlisted "xf" (by decide), hshown _⟩
  · rw [hupdate.holds_iff, if_pos rfl]
    rintro ⟨f, hf, hd⟩
    cases hf
    exact absurd (Formula.mem_names.mp hd) (by decide)
  · rw [hupdate.holds_iff, if_pos rfl]
    exact ⟨_, rfl, Formula.mem_names.mpr List.mem_cons_self⟩
  · rw [hupdate.holds_iff, if_neg (by decide)]
    exact (hholds _ _).mpr (by decide)

/-! ## What is listed does not depend on the contents -/

/-- A call that is not refused lists what the sheet would have listed from the name before the call. -/
theorem Sound.recalculationOrder_of_set (h : sheet.Sound rules version) {normalized : String}
    (hname : rules.admit? name = some normalized) (hok : (sheet.set name typed).1 = .ok order) :
    sheet.dependencies.recalculationOrder normalized = .ok order := by
  rcases h.set_cases name typed with ⟨e, hset⟩ | ⟨normalized', contents, order', hname', -, horder, hset⟩
  · rw [hset] at hok
    cases hok
  · obtain rfl : normalized = normalized' := Option.some.inj (hname.symm.trans hname')
    rw [hset] at hok
    obtain rfl : order' = order := Except.ok.inj hok
    exact h.consistent.recalculationOrder_of_replaceDependees h.acyclic horder

/-- Whatever is put into a cell of a sheet in use, and whether or not it replaces a formula or is one, the list that answers the call
is the same, in the same order, as long as the call is not refused: it is the order of recalculation from the cell as the links are
before the call. -/
theorem order_independent_of_contents (h : InUse rules version sheet) {normalized : String}
    (hname : rules.admit? name = some normalized) :
    (∀ typed typed' order order', (sheet.set name typed).1 = .ok order → (sheet.set name typed').1 = .ok order' → order = order') ∧
    ∀ typed order, (sheet.set name typed).1 = .ok order → sheet.dependencies.recalculationOrder normalized = .ok order := by
  have hbefore : ∀ typed order, (sheet.set name typed).1 = .ok order →
      sheet.dependencies.recalculationOrder normalized = .ok order := fun _ _ hok => h.sound.recalculationOrder_of_set hname hok
  refine ⟨fun typed typed' order order' hok hok' => ?_, hbefore⟩
  exact Except.ok.inj ((hbefore typed order hok).symm.trans (hbefore typed' order' hok'))

set_option maxRecDepth 10000 in
/-- What reads `a` is read by `d` in turn, in two ways. The list is the same when the formula in `a` gives way to a text and when it
gives way to one that reads another cell. -/
theorem order_independent_of_contents_diamond :
    ∃ sheet : Sheet, InUse .any "v" sheet ∧ NameRules.any.admit? "a" = some "a" ∧
      (sheet.set "a" "t").1 = .ok ["a", "c", "b", "d"] ∧ (sheet.set "a" "=f").1 = .ok ["a", "c", "b", "d"] ∧
      sheet.dependencies.recalculationOrder "a" = .ok ["a", "c", "b", "d"] ∧
      ∀ order, (sheet.set "a" "=f").1 = .ok order → order = ["a", "c", "b", "d"] := by
  have hname : NameRules.any.admit? "a" = some "a" := rfl
  obtain ⟨sheet, h, htext, hformula⟩ : ∃ sheet : Sheet, InUse .any "v" sheet ∧
      (sheet.set "a" "t").1 = .ok ["a", "c", "b", "d"] ∧ (sheet.set "a" "=f").1 = .ok ["a", "c", "b", "d"] := by
    refine ⟨_, ⟨[.set "a" "=e", .set "d" "=b+c", .set "b" "=a", .set "c" "=a"], rfl⟩, ?_, ?_⟩
    · cbv
    · cbv
  obtain ⟨hsame, hbefore⟩ := order_independent_of_contents h hname
  exact ⟨sheet, h, hname, htext, hformula, hbefore "t" _ htext, fun order hok => hsame "=f" "t" order _ hok htext⟩

end Sheet

end Spreadsheet
