import Transplant.FileTree.Basic
import Transplant.Proofs.Below
import Mathlib.Tactic.SplitIfs

/-! Where paths lead in a tree of files. A path leads to one place whatever the tree holds, so making
a directory changes no file, and writing changes the file at the place of its path and no other. -/
namespace Transplant

namespace Path

/-- Goes one component on from the directory under `place`, names from the bottom up. -/
def Component.move (place : List String) : Component → List String
  | .normal name => name :: place
  | .parent => place.tail
  | _ => place

/-- The names on the way to where a path leads, from the top down. -/
def place (p : Path) : List String := (p.components.foldl Component.move []).reverse

theorem foldl_move_of_normal {tail : List Component} (normal : tail.all Component.isNormal = true)
    (before : List String) :
    tail.foldl Component.move before = (tail.map Component.text).reverse ++ before := by
  induction tail generalizing before with
  | nil => rfl
  | cons c rest ih =>
    rw [List.all_cons, Bool.and_eq_true] at normal
    cases c with
    | normal name =>
      rw [List.foldl_cons, ih normal.2]
      simp [Component.move, Component.text]
    | _ => simp [Component.isNormal] at normal

theorem place_of_components {base p : Path} {tail : List Component}
    (normal : tail.all Component.isNormal = true) (split : p.components = base.components ++ tail) :
    p.place = base.place ++ tail.map Component.text := by
  rw [place, place, split, List.foldl_append, foldl_move_of_normal normal, List.reverse_append,
    List.reverse_reverse]

theorem place_join {base : Path} {name : String} (stays : Build.staysBelow name = true) :
    (base.join name).place = base.place ++ (Path.mk name).components.map Component.text :=
  place_of_components (normal_of_staysBelow stays) (components_join stays)

theorem place_join_entry (base : Path) {name entry : String}
    (single : (Path.mk name).components = [.normal entry]) :
    (base.join name).place = base.place ++ [entry] := by
  have isEntry : Build.isEntry name = true := Build.isEntry_iff.mpr ⟨entry, single⟩
  rw [place_join (Build.staysBelow_of_isEntry isEntry), single]
  rfl

theorem Within.place {base p : Path} (h : base.Within p) : base.place <+: p.place := by
  obtain ⟨tail, normal, split⟩ := h
  rw [place_of_components normal split]
  exact List.prefix_append _ _

end Path

namespace FileTree

def Step.move (place : List String) : Step → List String
  | .stay => place
  | .up => place.tail
  | .down name => name :: place

theorem foldl_steps (parts : List (List Char)) (before : List String) :
    (parts.filterMap stepOf?).foldl Step.move before =
      (parts.filterMap Path.componentOf?).foldl Path.Component.move before := by
  induction parts generalizing before with
  | nil => rfl
  | cons part rest ih =>
    rw [List.filterMap_cons, List.filterMap_cons]
    fun_cases stepOf? part with
    | case1 => exact ih before
    | case2 => exact ih before
    | case3 => exact ih before.tail
    | case4 nonempty notDot notDots =>
      have named : Path.componentOf? part = some (.normal (.ofList part)) := by
        unfold Path.componentOf?
        split <;> simp_all
      rw [named]
      exact ih (.ofList part :: before)

theorem steps_lead (p : Path) : (steps p).foldl Step.move [] = p.place.reverse := by
  rw [Path.place, List.reverse_reverse, steps_text, foldl_steps, Path.components_text, Path.componentsOf_eq,
    List.foldl_append]
  congr 1
  unfold Path.lead
  split <;> try split
  all_goals rfl

theorem follow_ok {t : FileTree} {place found : List String} {s : Step}
    (h : t.follow place s = .ok found) : found = s.move place := by
  cases s with
  | stay => cases h; rfl
  | up => cases h; rfl
  | down name =>
    rw [follow] at h
    split at h
    · cases h
    · split at h <;> cases h
      rfl

theorem followAll_ok {t : FileTree} {place found : List String} {steps : List Step}
    (h : t.followAll place steps = .ok found) : found = steps.foldl Step.move place := by
  induction steps generalizing place with
  | nil => cases h; rfl
  | cons s rest ih =>
    rw [followAll] at h
    split at h
    · cases followed : t.follow place s with
      | error e => rw [followed] at h; cases h
      | ok next =>
        rw [followed] at h
        cases follow_ok followed
        exact ih h
    · cases h

theorem locateLast_steps {t : FileTree} {p : Path} {place : List String} {last : Step}
    (h : t.locateLast p = .ok (some (place, last))) :
    checkText p = .ok () ∧ ∃ before, steps p = before ++ [last] ∧
      t.followAll [] before = .ok place ∧ t.isDirAt place = true := by
  unfold locateLast at h
  cases checked : checkText p with
  | error e => rw [checked] at h; cases h
  | ok _ =>
    rw [checked] at h
    cases back : (steps p).reverse with
    | nil => simp only [back] at h; cases h
    | cons s before =>
      rw [back] at h
      have split : steps p = before.reverse ++ [s] := by
        rw [← List.reverse_reverse (steps p), back, List.reverse_cons]
      cases followed : t.followAll [] before.reverse with
      | error e => simp only [followed] at h; cases h
      | ok found =>
        simp only [followed] at h
        change (if t.isDirAt found then Except.ok (some (found, s)) else .error FileError.notDirectory) = _ at h
        split_ifs at h with dir
        cases h
        exact ⟨rfl, before.reverse, split, followed, dir⟩

theorem locateLast_ok {t : FileTree} {p : Path} {place : List String} {last : Step}
    (h : t.locateLast p = .ok (some (place, last))) :
    t.isDirAt place = true ∧ (last.move place).reverse = p.place := by
  obtain ⟨_, before, split, followed, dir⟩ := locateLast_steps h
  have whole := steps_lead p
  rw [split, List.foldl_append, ← followAll_ok followed] at whole
  refine ⟨dir, ?_⟩
  rw [← List.reverse_reverse p.place, ← whole]
  rfl

theorem get?_append (place more : List String) (t : FileTree) :
    t.get? (place ++ more) = (t.get? place).bind (get? more) := by
  induction place generalizing t with
  | nil => rfl
  | cons name rest ih =>
    rw [List.cons_append, get?, get?]
    cases t.entry? name with
    | none => rfl
    | some sub => exact ih sub

/-- The contents of the file at a place, if a file is there. -/
def contentsAt? (t : FileTree) (place : List String) : Option Contents :=
  match t.get? place with
  | some (file contents) => some contents
  | _ => none

theorem contentsAt?_dir_cons (entries : List (String × FileTree)) (name : String)
    (rest : List String) : (dir entries).contentsAt? (name :: rest) =
      (entries.lookup name).bind fun sub => sub.contentsAt? rest := by
  rw [contentsAt?, get?, entry?]
  cases entries.lookup name <;> rfl

theorem contentsAt?_of_no_dir {t : FileTree} {place more : List String}
    (none : ∀ entries, t.get? place ≠ some (dir entries)) (further : more ≠ []) :
    t.contentsAt? (place ++ more) = .none := by
  obtain ⟨name, rest, rfl⟩ := List.exists_cons_of_ne_nil further
  rw [contentsAt?, get?_append]
  cases found : t.get? place with
  | none => rfl
  | some sub =>
    cases sub with
    | file contents => rfl
    | dir entries => exact absurd found (none entries)

theorem get?_put {t : FileTree} {place : List String} (there : (t.get? place).any isDir = true)
    (name : String) (new : FileTree) (more : List String) :
    (t.put (place ++ [name]) new).get? (place ++ name :: more) = new.get? more := by
  induction place generalizing t with
  | nil =>
    cases t with
    | file contents => cases there
    | dir entries =>
      rw [List.nil_append, List.nil_append, put, get?, entry?, Keyed.lookup_insert_self]
      cases (entries.lookup name).getD empty <;> rfl
  | cons first rest ih =>
    cases t with
    | file contents => cases there
    | dir entries =>
      rw [get?, entry?] at there
      cases found : entries.lookup first with
      | none => rw [found] at there; cases there
      | some sub =>
        rw [found] at there
        rw [List.cons_append, List.cons_append, put, get?, entry?, Keyed.lookup_insert_self, found]
        exact ih there

theorem contentsAt?_put {t : FileTree} {place : List String}
    (there : (t.get? place).any isDir = true) (name : String) (new : FileTree) {q : List String}
    (apart : ¬ place ++ [name] <+: q) :
    (t.put (place ++ [name]) new).contentsAt? q = t.contentsAt? q := by
  induction place generalizing t q with
  | nil =>
    cases t with
    | file contents => cases there
    | dir entries =>
      rw [List.nil_append, put]
      cases q with
      | nil => rfl
      | cons other rest =>
        have different : other ≠ name := by
          rintro rfl
          exact apart (List.prefix_append [other] rest)
        rw [contentsAt?_dir_cons, contentsAt?_dir_cons, Keyed.lookup_insert_of_ne different]
  | cons first rest ih =>
    cases t with
    | file contents => cases there
    | dir entries =>
      rw [get?, entry?] at there
      cases found : entries.lookup first with
      | none => rw [found] at there; cases there
      | some sub =>
        rw [found] at there
        rw [List.cons_append, put, found]
        cases q with
        | nil => rfl
        | cons other q =>
          rw [contentsAt?_dir_cons, contentsAt?_dir_cons]
          by_cases same : other = first
          · subst same
            rw [Keyed.lookup_insert_self, found]
            exact ih there fun h => apart (by simpa using h)
          · rw [Keyed.lookup_insert_of_ne same]

/-- A tree without files below its top, put where no directory was, changes at most one file. -/
theorem contentsAt?_put_of_ne {t new : FileTree} {place : List String} {name : String}
    (there : (t.get? place).any isDir = true)
    (gap : ∀ entries, t.get? (place ++ [name]) ≠ some (dir entries))
    (bare : ∀ more, more ≠ [] → new.contentsAt? more = none) {q : List String}
    (other : q ≠ place ++ [name]) :
    (t.put (place ++ [name]) new).contentsAt? q = t.contentsAt? q := by
  by_cases inside : place ++ [name] <+: q
  · obtain ⟨more, rfl⟩ := inside
    have further : more ≠ [] := by
      rintro rfl
      exact other (List.append_nil _)
    rw [contentsAt?_of_no_dir gap further, contentsAt?, List.append_assoc, List.singleton_append,
      get?_put there]
    exact bare more further
  · exact contentsAt?_put there name new inside

theorem makeDir_steps {t made : FileTree} {p : Path} (h : t.makeDir p = .ok made) :
    ∃ place name, t.locateLast p = .ok (some (place, .down name)) ∧
      t.follow place (.down name) = .error .notFound ∧ made = t.put (name :: place).reverse empty := by
  rcases located : t.locateLast p with _ | _ | ⟨place, _ | _ | name⟩ <;>
    simp only [makeDir, located, bind, Except.bind, reduceCtorEq] at h
  rcases followed : t.follow place (.down name) with e | found <;> rw [followed] at h
  · split at h <;> cases h
    rename_i missing
    cases missing
    exact ⟨place, name, rfl, followed, rfl⟩
  · cases h

theorem makeDir_ok {t made : FileTree} {p : Path} (h : t.makeDir p = .ok made) :
    ∃ place name, (t.get? place).any isDir = true ∧ p.place = place ++ [name] ∧
      t.get? (place ++ [name]) = none ∧ made = t.put (place ++ [name]) empty := by
  obtain ⟨place, name, located, missing, rfl⟩ := makeDir_steps h
  obtain ⟨there, leads⟩ := locateLast_ok located
  rw [follow, List.reverse_cons] at missing
  split_ifs at missing with long taken
  · cases missing
  refine ⟨place.reverse, name, there, by simpa [Step.move] using leads.symm, by simpa using taken, ?_⟩
  rw [List.reverse_cons]

theorem contentsAt?_makeDir {t made : FileTree} {p : Path} (h : t.makeDir p = .ok made)
    (q : List String) : made.contentsAt? q = t.contentsAt? q := by
  obtain ⟨place, name, there, _, gap, rfl⟩ := makeDir_ok h
  have bare : ∀ more, empty.contentsAt? more = none := by
    intro more
    cases more <;> rfl
  by_cases here : q = place ++ [name]
  · subst here
    rw [contentsAt?, get?_put there, contentsAt?, gap]
    rfl
  · exact contentsAt?_put_of_ne there (by simp [gap]) (fun more _ => bare more) here

theorem writeOver_ok {t written : FileTree} {p : Path} {text : String}
    (h : t.writeOver p text = .ok written) :
    ∃ place name, (t.get? place).any isDir = true ∧ p.place = place ++ [name] ∧
      (∀ entries, t.get? (place ++ [name]) ≠ some (dir entries)) ∧
      written = t.put (place ++ [name]) (file (.ofText text)) := by
  rcases located : t.locateLast p with _ | _ | ⟨place, _ | _ | name⟩ <;>
    simp only [writeOver, located, bind, Except.bind, reduceCtorEq] at h
  obtain ⟨there, leads⟩ := locateLast_ok located
  refine ⟨place.reverse, name, there, by simpa [Step.move] using leads.symm, ?_⟩
  rw [follow] at h
  split_ifs at h with slash long taken
  · simp only [List.reverse_cons] at h taken
    split at h
    · cases h
    · rename_i noDir
      cases h
      refine ⟨?_, rfl⟩
      intro entries found
      simp [isDirAt, found, isDir] at noDir
  · cases h
    rw [List.reverse_cons] at taken ⊢
    rw [Bool.not_eq_true, Option.isSome_eq_false_iff, Option.isNone_iff_eq_none] at taken
    exact ⟨by simp [taken], rfl⟩

theorem contentsAt?_writeOver {t written : FileTree} {p : Path} {text : String}
    (h : t.writeOver p text = .ok written) :
    written.contentsAt? p.place = some (.ofText text) ∧
      ∀ q, q ≠ p.place → written.contentsAt? q = t.contentsAt? q := by
  obtain ⟨place, name, there, leads, gap, rfl⟩ := writeOver_ok h
  rw [leads]
  constructor
  · rw [contentsAt?, get?_put there]
    rfl
  · intro q other
    apply contentsAt?_put_of_ne there gap _ other
    intro more further
    cases more with
    | nil => exact absurd rfl further
    | cons name rest => rfl

end FileTree

end Transplant
