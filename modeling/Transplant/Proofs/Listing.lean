import Transplant.FileTree.Basic
import Transplant.Proofs.Ways

/-! What a walk lists: the files of a directory, each once, in the order of their places by
components. Which files there are decides the list, whatever they hold. -/
namespace Transplant

namespace Build

theorem isEntry_of_isName {name : String} (named : IsName name) : isEntry name = true :=
  isEntry_iff.mpr ⟨name, named⟩

theorem staysBelow_of_isName {name : String} (named : IsName name) : staysBelow name = true :=
  staysBelow_of_isEntry (isEntry_of_isName named)

end Build

namespace Path

def joinAll (p : Path) (names : List String) : Path := names.foldl join p

theorem joinAll_append (p : Path) (names more : List String) :
    p.joinAll (names ++ more) = (p.joinAll names).joinAll more := List.foldl_append

theorem components_joinAll {p : Path} {names : List String} (named : ∀ name ∈ names, IsName name) :
    (p.joinAll names).components = p.components ++ names.map Component.normal := by
  induction names generalizing p with
  | nil => simp [joinAll]
  | cons name rest ih =>
    have first : IsName name := named name List.mem_cons_self
    have split : ((p.join name).joinAll rest).components = _ :=
      ih fun other member => named other (List.mem_cons_of_mem _ member)
    rw [components_join (Build.staysBelow_of_isName first), first, List.append_assoc] at split
    exact split

theorem below?_joinAll {p : Path} {names : List String} (named : ∀ name ∈ names, IsName name) :
    below? p (p.joinAll names) = some (names.map Component.normal) := by
  rw [below?, components_joinAll named, if_pos (by simp), List.drop_left]

theorem within_joinAll {p : Path} {names : List String} (named : ∀ name ∈ names, IsName name) :
    p.Within (p.joinAll names) :=
  ⟨names.map Component.normal, by simp [Component.isNormal], components_joinAll named⟩

theorem place_joinAll {p : Path} {names : List String} (named : ∀ name ∈ names, IsName name) :
    (p.joinAll names).place = p.place ++ names := by
  have texts : (names.map Component.normal).map Component.text = names := by
    rw [List.map_map]
    exact List.map_id _
  rw [place_of_components (by simp [Component.isNormal]) (components_joinAll named), texts]

end Path

namespace FileTree

mutual

/-- The places of all files, in the order in which a walk comes to them. -/
def places : FileTree → List (List String)
  | file _ => [[]]
  | dir entries => entryPlaces entries

def entryPlaces : List (String × FileTree) → List (List String)
  | [] => []
  | (name, t) :: rest => t.places.map (name :: ·) ++ entryPlaces rest

end

mutual

theorem filesFrom_eq (p : Path) : ∀ t : FileTree, filesFrom p t = t.places.map p.joinAll
  | file _ => rfl
  | dir entries => entryFiles_eq p entries

theorem entryFiles_eq (p : Path) :
    ∀ entries : List (String × FileTree), entryFiles p entries = (entryPlaces entries).map p.joinAll
  | [] => rfl
  | (name, t) :: rest => by
    rw [entryFiles, entryPlaces, filesFrom_eq, entryFiles_eq, List.map_append, List.map_map]
    rfl

end

theorem mem_entryPlaces {entries : List (String × FileTree)} {q : List String} :
    q ∈ entryPlaces entries ↔ ∃ e ∈ entries, ∃ r ∈ e.2.places, q = e.1 :: r := by
  induction entries with
  | nil => simp [entryPlaces]
  | cons e rest ih =>
    obtain ⟨name, t⟩ := e
    simp only [entryPlaces, List.mem_append, ih, List.mem_map, List.mem_cons, exists_eq_or_imp,
      eq_comm]

theorem entryPlaces_ascend {entries : List (String × FileTree)}
    (ascending : Keyed.Ascending entries)
    (below : ∀ e ∈ entries, e.2.places.Pairwise (· < ·)) :
    (entryPlaces entries).Pairwise (· < ·) := by
  induction entries with
  | nil => exact .nil
  | cons e rest ih =>
    obtain ⟨name, t⟩ := e
    rw [entryPlaces, List.pairwise_append]
    refine ⟨?_, ih ascending.tail fun e member => below e (List.mem_cons_of_mem _ member), ?_⟩
    · apply List.pairwise_map.mpr
      apply (below (name, t) List.mem_cons_self).imp
      exact fun less => List.cons_lt_cons_iff.mpr (.inr ⟨rfl, less⟩)
    · intro a here b there
      obtain ⟨r, _, rfl⟩ := List.mem_map.mp here
      obtain ⟨e, member, r', _, rfl⟩ := mem_entryPlaces.mp there
      exact List.cons_lt_cons_iff.mpr (.inl (ascending.least member))

theorem walk_eq {t sub : FileTree} {p : Path} (found : t.find p = .ok sub) :
    t.walk p = .ok (sub.places.map p.joinAll) := by
  rw [walk, found, ← filesFrom_eq]
  rfl

theorem walk_ok_iff {t : FileTree} {p : Path} {files : List Path} :
    t.walk p = .ok files ↔ ∃ sub, t.find p = .ok sub ∧ files = sub.places.map p.joinAll := by
  constructor
  · intro listed
    cases found : t.find p with
    | error e =>
      rw [walk, found] at listed
      cases listed
    | ok sub =>
      rw [walk_eq found] at listed
      cases listed
      exact ⟨sub, rfl, rfl⟩
  · rintro ⟨sub, found, rfl⟩
    exact walk_eq found

/-- Lists of places in ascending order are told apart by what is in them. -/
theorem eq_of_ascending {xs ys : List (List String)} (hx : xs.Pairwise (· < ·))
    (hy : ys.Pairwise (· < ·)) (same : ∀ q, q ∈ xs ↔ q ∈ ys) : xs = ys := by
  have nodup : ∀ {zs : List (List String)}, zs.Pairwise (· < ·) → zs.Nodup := by
    intro zs ascend
    apply ascend.imp
    rintro a b less rfl
    exact List.lt_irrefl a less
  have perm : xs.Perm ys := (List.perm_ext_iff_of_nodup (nodup hx) (nodup hy)).mpr same
  apply perm.eq_of_pairwise _ hx hy
  intro a b _ _ less more
  exact absurd (List.lt_trans less more) (List.lt_irrefl _)

namespace Sound

theorem names {t : FileTree} (sound : Sound t) {q : List String} (there : q ∈ t.places) :
    ∀ name ∈ q, IsName name := by
  induction sound generalizing q with
  | file contents =>
    rw [places, List.mem_singleton] at there
    simp [there]
  | dir _ named _ ih =>
    obtain ⟨e, member, r, inside, rfl⟩ := mem_entryPlaces.mp there
    exact List.forall_mem_cons.mpr ⟨named e member, ih e member inside⟩

theorem mem_places_iff {t : FileTree} (sound : Sound t) {q : List String} :
    q ∈ t.places ↔ ∃ contents, t.contentsAt? q = some contents := by
  induction sound generalizing q with
  | file contents => cases q <;> simp [places, contentsAt?, FileTree.get?, entry?]
  | @dir entries ascending _ _ ih =>
    rw [places, mem_entryPlaces]
    constructor
    · rintro ⟨e, member, r, inside, rfl⟩
      rw [contentsAt?_dir_cons, ascending.lookup_of_mem member]
      exact (ih e member).mp inside
    · rintro ⟨contents, there⟩
      cases q with
      | nil => cases there
      | cons name rest =>
        rw [contentsAt?_dir_cons] at there
        cases found : entries.lookup name with
        | none => rw [found] at there; cases there
        | some sub =>
          rw [found] at there
          have member := Keyed.mem_of_lookup found
          exact ⟨_, member, rest, (ih _ member).mpr ⟨contents, there⟩, rfl⟩

/-- A walk comes to the files in ascending order of their places. -/
theorem places_ascend {t : FileTree} (sound : Sound t) : t.places.Pairwise (· < ·) := by
  induction sound with
  | file contents => exact List.pairwise_singleton _ _
  | dir ascending _ _ ih => exact entryPlaces_ascend ascending ih

theorem places_eq {t u : FileTree} (ht : Sound t) (hu : Sound u)
    (same : ∀ q, (t.contentsAt? q).isSome = (u.contentsAt? q).isSome) : t.places = u.places := by
  apply eq_of_ascending ht.places_ascend hu.places_ascend
  intro q
  rw [ht.mem_places_iff, hu.mem_places_iff, ← Option.isSome_iff_exists, ← Option.isSome_iff_exists,
    same]

end Sound

end FileTree

end Transplant
