import Transplant.Proofs.Place

/-! What stands at the places of a tree: a directory, a file, or nothing. The names in a directory
ascend and each is one component of a path. Two such trees are the same if the same stands at each
of their places, and whatever is put into such a tree leaves it one. -/
namespace Transplant

/-- The name is an entry of a directory and is spelled in no other way. -/
def IsName (name : String) : Prop := (Path.mk name).components = [.normal name]

instance (name : String) : Decidable (IsName name) := inferInstanceAs (Decidable (_ = _))

namespace FileTree

inductive Node where
  | dir
  | file (contents : Contents)
  deriving DecidableEq, Repr

def node : FileTree → Node
  | .dir _ => .dir
  | .file contents => .file contents

def node? (t : FileTree) (place : List String) : Option Node := (t.get? place).map node

theorem node?_nil (t : FileTree) : t.node? [] = some t.node := rfl

theorem node?_dir_cons (entries : List (String × FileTree)) (name : String) (rest : List String) :
    (dir entries).node? (name :: rest) =
      (entries.lookup name).bind fun sub => sub.node? rest := by
  rw [node?, get?, entry?]
  cases entries.lookup name <;> rfl

theorem node?_append (t : FileTree) (place more : List String) :
    t.node? (place ++ more) = (t.get? place).bind fun sub => sub.node? more := by
  rw [node?, get?_append]
  cases t.get? place <;> rfl

theorem node?_eq_dir_iff {t : FileTree} {place : List String} :
    t.node? place = some .dir ↔ (t.get? place).any isDir = true := by
  rw [node?]
  cases t.get? place with
  | none => simp
  | some sub => cases sub <;> simp [node, isDir]

theorem contentsAt?_eq_some_iff {t : FileTree} {place : List String} {contents : Contents} :
    t.contentsAt? place = some contents ↔ t.node? place = some (.file contents) := by
  rw [contentsAt?, node?]
  cases t.get? place with
  | none => simp
  | some sub => cases sub <;> simp [node]

theorem node?_of_not_dir {t : FileTree} {place more : List String}
    (gap : t.node? place ≠ some .dir) (further : more ≠ []) : t.node? (place ++ more) = none := by
  obtain ⟨name, rest, rfl⟩ := List.exists_cons_of_ne_nil further
  rw [node?_append]
  rw [node?] at gap
  cases found : t.get? place with
  | none => rfl
  | some sub =>
    cases sub with
    | file contents => rfl
    | dir entries => exact absurd (by rw [found]; rfl) gap

theorem node?_above {t : FileTree} {place more : List String} (further : more ≠ [])
    (there : t.node? (place ++ more) ≠ none) : t.node? place = some .dir := by
  rcases Decidable.em (t.node? place = some .dir) with dir | gap
  · exact dir
  · exact absurd (node?_of_not_dir gap further) there

/-- A tree with nothing below its top, put where no directory is, changes what stands there alone. -/
theorem node?_put {t new : FileTree} {place : List String} {name : String}
    (there : t.node? place = some .dir) (gap : t.node? (place ++ [name]) ≠ some .dir)
    (bare : ∀ more, more ≠ [] → new.node? more = none) (q : List String) :
    (t.put (place ++ [name]) new).node? q =
      if q = place ++ [name] then some new.node else t.node? q := by
  -- On the way to the place. Off the way nothing changes, and below the place there is nothing.
  induction place generalizing t q with
  | nil =>
    cases t with
    | file contents => cases there
    | dir entries =>
      rw [List.nil_append, put]
      have plain : put ((entries.lookup name).getD empty) [] new = new := by
        cases (entries.lookup name).getD empty <;> rfl
      rw [plain]
      cases q with
      | nil => rfl
      | cons other rest =>
        rw [node?_dir_cons]
        by_cases same : other = name
        · subst same
          rw [Keyed.lookup_insert_self]
          cases rest with
          | nil => rw [if_pos rfl]; rfl
          | cons deeper rest =>
            have below : (dir entries).node? ([other] ++ deeper :: rest) = none :=
              node?_of_not_dir gap (List.cons_ne_nil deeper rest)
            rw [if_neg (by simp)]
            exact (bare _ (List.cons_ne_nil _ _)).trans below.symm
        · rw [Keyed.lookup_insert_of_ne same, if_neg (by simp [same]), node?_dir_cons]
  | cons first place ih =>
    cases t with
    | file contents => cases there
    | dir entries =>
      rw [node?_dir_cons] at there
      cases found : entries.lookup first with
      | none => rw [found] at there; cases there
      | some sub =>
        rw [List.cons_append, node?_dir_cons, found] at gap
        rw [found] at there
        rw [List.cons_append, put, found]
        cases q with
        | nil => rfl
        | cons other q =>
          rw [node?_dir_cons]
          by_cases same : other = first
          · subst same
            rw [Keyed.lookup_insert_self, node?_dir_cons, found]
            simpa using ih there gap q
          · rw [Keyed.lookup_insert_of_ne same, if_neg (by simp [same]), node?_dir_cons]

/-- A statement holds of all trees if it holds of a directory as soon as it holds of its entries. -/
theorem induction {P : FileTree → Prop} (file : ∀ contents, P (file contents))
    (dir : ∀ entries, (∀ e ∈ entries, P e.2) → P (dir entries)) (t : FileTree) : P t :=
  FileTree.rec (motive_1 := P) (motive_2 := fun entries => ∀ e ∈ entries, P e.2)
    (motive_3 := fun e => P e.2) file dir (fun _ h => nomatch h)
    (fun _ _ head tail => List.forall_mem_cons.mpr ⟨head, tail⟩) (fun _ _ h => h) t

/-- The names in each directory are entries and ascend. -/
inductive Sound : FileTree → Prop where
  | file (contents : Contents) : Sound (file contents)
  | dir {entries : List (String × FileTree)} (ascending : Keyed.Ascending entries)
      (named : ∀ e ∈ entries, IsName e.1) (below : ∀ e ∈ entries, Sound e.2) : Sound (dir entries)

def viewsOnly (views : List (String × String)) : FileTree :=
  .dir [("in", .dir [("app", .dir [("views",
    .dir (views.map fun view => (view.1, .file (.ofText view.2))))])])]

namespace Sound

theorem empty : Sound empty := .dir .nil (by simp) (by simp)

theorem entry {entries : List (String × FileTree)} {name : String} {sub : FileTree}
    (sound : Sound (.dir entries)) (found : entries.lookup name = some sub) :
    IsName name ∧ Sound sub := by
  cases sound with
  | dir _ named below =>
    have member := Keyed.mem_of_lookup found
    exact ⟨named _ member, below _ member⟩

theorem get? {t sub : FileTree} (sound : Sound t) {place : List String}
    (found : t.get? place = some sub) : Sound sub := by
  induction place generalizing t with
  | nil => cases found; exact sound
  | cons name rest ih =>
    cases t with
    | file contents => cases found
    | dir entries =>
      rw [FileTree.get?, entry?] at found
      cases here : entries.lookup name with
      | none => rw [here] at found; cases found
      | some next =>
        rw [here] at found
        exact ih (sound.entry here).2 found

theorem put {t new : FileTree} (sound : Sound t) (fresh : Sound new) {place : List String}
    (named : ∀ name ∈ place, IsName name) : Sound (t.put place new) := by
  induction place generalizing t with
  | nil => cases t <;> exact fresh
  | cons name rest ih =>
    cases t with
    | file contents => exact sound
    | dir entries =>
      have inner : Sound ((entries.lookup name).getD FileTree.empty) := by
        cases found : entries.lookup name with
        | none => exact .empty
        | some sub => exact (sound.entry found).2
      have filled := ih inner fun name member => named name (List.mem_cons_of_mem _ member)
      cases sound with
      | dir ascending names below =>
        refine .dir (ascending.insert name _) ?_ ?_
        · intro e member
          rcases Keyed.mem_insert member with rfl | old
          · exact named name List.mem_cons_self
          · exact names e old
        · intro e member
          rcases Keyed.mem_insert member with rfl | old
          · exact filled
          · exact below e old

theorem ext {t u : FileTree} (ht : Sound t) (hu : Sound u) (same : ∀ q, t.node? q = u.node? q) :
    t = u := by
  induction t using FileTree.induction generalizing u with
  | file contents =>
    have top := same []
    cases u with
    | file other => cases top; rfl
    | dir entries => cases top
  | dir entries ih =>
    have top := same []
    cases u with
    | file other => cases top
    | dir others =>
      cases ht with
      | dir ascending _ below =>
        cases hu with
        | dir ascending' _ below' =>
          congr 1
          apply ascending.ext ascending'
          intro name
          have under : ∀ q, _ := fun q => same (name :: q)
          simp only [node?_dir_cons] at under
          cases found : entries.lookup name with
          | none =>
            cases found' : others.lookup name with
            | none => rfl
            | some sub' =>
              have top := under []
              rw [found, found'] at top
              cases top
          | some sub =>
            cases found' : others.lookup name with
            | none =>
              have top := under []
              rw [found, found'] at top
              cases top
            | some sub' =>
              have member := Keyed.mem_of_lookup found
              have member' := Keyed.mem_of_lookup found'
              rw [found, found'] at under
              exact congrArg some (ih _ member (below _ member) (below' _ member') under)

theorem viewsOnly {views : List (String × String)} (ascending : Keyed.Ascending views)
    (named : ∀ view ∈ views, IsName view.1) : Sound (FileTree.viewsOnly views) := by
  have one : ∀ (name : String) (t : FileTree), IsName name → Sound t → Sound (.dir [(name, t)]) := by
    intro name t named sound
    exact .dir (List.pairwise_singleton _ _) (by simpa using named) (by simpa using sound)
  apply one "in" _ (by decide)
  apply one "app" _ (by decide)
  apply one "views" _ (by decide)
  refine .dir ?_ ?_ ?_
  · rw [Keyed.Ascending, List.map_map]
    exact ascending
  · intro e member
    obtain ⟨view, there, rfl⟩ := List.mem_map.mp member
    exact named view there
  · intro e member
    obtain ⟨view, _, rfl⟩ := List.mem_map.mp member
    exact .file _

end Sound

end FileTree

end Transplant
