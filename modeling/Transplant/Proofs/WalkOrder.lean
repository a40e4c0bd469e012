import Transplant.Proofs.ByteOrder
import Transplant.Proofs.Looking

/-! The order of a walk. Each directory is walked in the order of its names, and this puts the files of a
whole tree in the order of their paths. So the files that there are decide what a walk lists, in whatever
order a disk holds the entries of its directories. -/
namespace Transplant

namespace FileTree

/-- A tree as it is stored: the names in each directory are different entries, in any order. -/
inductive Stored : FileTree → Prop where
  | file (contents : Contents) : Stored (file contents)
  | dir {entries : List (String × FileTree)} (distinct : (entries.map Prod.fst).Nodup)
      (named : ∀ e ∈ entries, IsName e.1) (below : ∀ e ∈ entries, Stored e.2) : Stored (dir entries)

def inByteOrder (a b : String × FileTree) : Bool := nameBytes a.1 ≤ nameBytes b.1

mutual

/-- The tree with the entries of each directory sorted by the bytes of their names. -/
def arranged : FileTree → FileTree
  | file contents => file contents
  | dir entries => dir ((arrangedEntries entries).mergeSort inByteOrder)

def arrangedEntries : List (String × FileTree) → List (String × FileTree)
  | [] => []
  | (name, t) :: rest => (name, t.arranged) :: arrangedEntries rest

end

theorem arrangedEntries_eq (entries : List (String × FileTree)) :
    arrangedEntries entries = entries.map fun e => (e.1, e.2.arranged) := by
  induction entries with
  | nil => rfl
  | cons e rest ih => rw [arrangedEntries, ih, List.map_cons]

theorem names_arrangedEntries (entries : List (String × FileTree)) :
    (arrangedEntries entries).map Prod.fst = entries.map Prod.fst := by
  rw [arrangedEntries_eq, List.map_map]
  rfl

theorem sorted_ascending {entries : List (String × FileTree)}
    (distinct : (entries.map Prod.fst).Nodup) : Keyed.Ascending (entries.mergeSort inByteOrder) := by
  have sorted : (entries.mergeSort inByteOrder).Pairwise fun a b => inByteOrder a b = true := by
    apply List.pairwise_mergeSort
    · intro a b c less less'
      simp only [inByteOrder, decide_eq_true_eq] at *
      exact List.le_trans less less'
    · intro a b
      simp only [inByteOrder, Bool.or_eq_true, decide_eq_true_eq]
      exact List.le_total _ _
  have distinct' : ((entries.mergeSort inByteOrder).map Prod.fst).Nodup :=
    ((List.mergeSort_perm entries inByteOrder).map Prod.fst).nodup_iff.mpr distinct
  rw [Keyed.Ascending, List.pairwise_map]
  refine (sorted.and (List.pairwise_map.mp distinct')).imp ?_
  rintro a b ⟨less, differ⟩
  simp only [inByteOrder, decide_eq_true_eq] at less
  have notLarger : ¬ b.1 < a.1 := fun larger => less (nameBytes_lt_iff.mpr larger)
  by_contra other
  exact differ (String.le_antisymm (String.not_lt.mp notLarger) (String.not_lt.mp other))

theorem Stored.arranged {t : FileTree} (stored : Stored t) : t.arranged.Sound := by
  induction stored with
  | file contents => exact .file contents
  | @dir entries distinct named _ ih =>
    have members : ∀ e ∈ (arrangedEntries entries).mergeSort inByteOrder,
        ∃ e' ∈ entries, e = (e'.1, e'.2.arranged) := by
      intro e member
      rw [List.mem_mergeSort, arrangedEntries_eq] at member
      obtain ⟨e', member', rfl⟩ := List.mem_map.mp member
      exact ⟨e', member', rfl⟩
    refine .dir (sorted_ascending ?_) ?_ ?_
    · rwa [names_arrangedEntries]
    · intro e member
      obtain ⟨e', member', rfl⟩ := members e member
      exact named e' member'
    · intro e member
      obtain ⟨e', member', rfl⟩ := members e member
      exact ih e' member'

theorem Stored.contentsAt?_arranged {t : FileTree} (stored : Stored t) (q : List String) :
    t.arranged.contentsAt? q = t.contentsAt? q := by
  induction stored generalizing q with
  | file contents => rfl
  | @dir entries distinct _ _ ih =>
    cases q with
    | nil => rfl
    | cons name rest =>
      have same : ((arrangedEntries entries).mergeSort inByteOrder).lookup name =
          (entries.lookup name).map FileTree.arranged := by
        rw [← Keyed.lookup_perm _ (List.mergeSort_perm _ _).symm, arrangedEntries_eq, Keyed.lookup_map]
        rwa [names_arrangedEntries]
      rw [FileTree.arranged, contentsAt?_dir_cons, contentsAt?_dir_cons, same]
      cases found : entries.lookup name with
      | none => rfl
      | some sub => exact ih _ (Keyed.mem_of_lookup found) rest

theorem entryPlaces_append (front back : List (String × FileTree)) :
    entryPlaces (front ++ back) = entryPlaces front ++ entryPlaces back := by
  induction front with
  | nil => rfl
  | cons e rest ih => rw [List.cons_append, entryPlaces, entryPlaces, ih, List.append_assoc]

theorem Sound.names_of_get? {t below : FileTree} (sound : t.Sound) {names : List String}
    (there : t.get? names = some below) : ∀ name ∈ names, IsName name := by
  induction names generalizing t with
  | nil => exact fun _ member => nomatch member
  | cons name rest ih =>
    cases sound with
    | file contents => cases there
    | @dir entries _ named sounds =>
      obtain ⟨sub, found, inside⟩ := Option.bind_eq_some_iff.mp there
      have member := Keyed.mem_of_lookup found
      exact List.forall_mem_cons.mpr ⟨named _ member, ih (sounds _ member) inside⟩

/-- The files below a directory stand together in the list of all files, in the place of its name. -/
theorem Sound.places_around {t below : FileTree} (sound : t.Sound) {names : List String}
    (there : t.get? names = some below) :
    ∃ earlier later, t.places = earlier ++ below.places.map (names ++ ·) ++ later ∧
      (∀ q ∈ earlier, q < names) ∧ ∀ q ∈ later, names < q := by
  induction names generalizing t with
  | nil =>
    cases there
    exact ⟨[], [], by simp, by simp, by simp⟩
  | cons name rest ih =>
    cases sound with
    | file contents => cases there
    | @dir entries ascending _ sounds =>
      obtain ⟨sub, found, inside⟩ := Option.bind_eq_some_iff.mp there
      have member := Keyed.mem_of_lookup found
      obtain ⟨front, back, rfl⟩ := List.append_of_mem member
      obtain ⟨earlier, later, split, before, behind⟩ := ih (sounds _ member) inside
      -- The other entries of the directory stand in front of this one or behind it, with all below them.
      rw [Keyed.Ascending, List.map_append, List.pairwise_append, List.map_cons] at ascending
      obtain ⟨_, ascends, less⟩ := ascending
      refine ⟨entryPlaces front ++ earlier.map (name :: ·), later.map (name :: ·) ++ entryPlaces back,
        ?_, ?_, ?_⟩
      · rw [places, entryPlaces_append, entryPlaces, split]
        simp
      · rw [List.forall_mem_append]
        constructor
        · intro q listed
          obtain ⟨e, here, r, _, rfl⟩ := mem_entryPlaces.mp listed
          exact List.cons_lt_cons_iff.mpr (.inl (less _ (List.mem_map_of_mem here) _ List.mem_cons_self))
        · intro q listed
          obtain ⟨r, here, rfl⟩ := List.mem_map.mp listed
          exact List.cons_lt_cons_iff.mpr (.inr ⟨rfl, before r here⟩)
      · rw [List.forall_mem_append]
        constructor
        · intro q listed
          obtain ⟨r, here, rfl⟩ := List.mem_map.mp listed
          exact List.cons_lt_cons_iff.mpr (.inr ⟨rfl, behind r here⟩)
        · intro q listed
          obtain ⟨e, here, r, _, rfl⟩ := mem_entryPlaces.mp listed
          exact List.cons_lt_cons_iff.mpr
            (.inl ((List.pairwise_cons.mp ascends).1 _ (List.mem_map_of_mem here)))

end FileTree

namespace Path

theorem Component.precedes_irrefl (c : Component) : ¬ c.Precedes c := by
  rintro (less | ⟨_, less⟩)
  · exact Nat.lt_irrefl _ less
  · exact List.lt_irrefl _ less

theorem precedes_irrefl (p : Path) : ¬ p.Precedes p := by
  have none : ∀ cs : List Component, ¬ List.Lex Component.Precedes cs cs := by
    intro cs
    induction cs with
    | nil => exact fun less => nomatch less
    | cons c cs ih =>
      intro less
      cases less with
      | cons later => exact ih later
      | rel first => exact c.precedes_irrefl first
  exact none p.components

theorem precedes_joinAll {p : Path} {as bs : List String} (named : ∀ name ∈ as, IsName name)
    (named' : ∀ name ∈ bs, IsName name) (less : as < bs) : (p.joinAll as).Precedes (p.joinAll bs) := by
  rw [Precedes, components_joinAll named, components_joinAll named']
  exact List.Lex.append_left _ (lex_normal less) _

end Path

namespace FileTree

namespace Sound

variable {t : FileTree}

theorem mem_filesFrom_iff (sound : t.Sound) {p file : Path} : file ∈ filesFrom p t ↔
    ∃ names contents, t.contentsAt? names = some contents ∧ file = p.joinAll names := by
  simp only [filesFrom_eq, List.mem_map, sound.mem_places_iff]
  constructor
  · rintro ⟨names, ⟨contents, there⟩, rfl⟩
    exact ⟨names, contents, there, rfl⟩
  · rintro ⟨names, contents, there, rfl⟩
    exact ⟨names, ⟨contents, there⟩, rfl⟩

theorem filesFrom_precede (sound : t.Sound) (p : Path) : (filesFrom p t).Pairwise Path.Precedes := by
  rw [filesFrom_eq, List.pairwise_map]
  refine sound.places_ascend.imp_of_mem fun here here' less => ?_
  exact Path.precedes_joinAll (sound.names here) (sound.names here') less

theorem filesFrom_around (sound : t.Sound) (p : Path) {names : List String} {below : FileTree}
    (there : t.get? names = some below) : ∃ earlier later,
      filesFrom p t = earlier ++ filesFrom (p.joinAll names) below ++ later ∧
        (∀ file ∈ earlier, file.Precedes (p.joinAll names)) ∧
        ∀ file ∈ later, (p.joinAll names).Precedes file := by
  obtain ⟨earlier, later, split, before, behind⟩ := sound.places_around there
  have named := sound.names_of_get? there
  have listed : ∀ q ∈ earlier ++ later, ∀ name ∈ q, IsName name := by
    intro q member
    apply sound.names
    rw [split]
    simp only [List.mem_append] at member ⊢
    exact member.imp_left .inl
  rw [List.forall_mem_append] at listed
  refine ⟨earlier.map p.joinAll, later.map p.joinAll, ?_, ?_, ?_⟩
  · rw [filesFrom_eq, filesFrom_eq, split, List.map_append, List.map_append, List.map_map]
    congr 3
    funext more
    exact p.joinAll_append names more
  · rw [List.forall_mem_map]
    exact fun q member => Path.precedes_joinAll (listed.1 q member) named (before q member)
  · rw [List.forall_mem_map]
    exact fun q member => Path.precedes_joinAll named (listed.2 q member) (behind q member)

end Sound

theorem not_isDirectory_of_listed {t sub : FileTree} {root p : Path} (sound : sub.Sound)
    (found : t.find root = .ok sub) (listed : p ∈ filesFrom root sub) : t.isDirectory p = false := by
  rw [filesFrom_eq] at listed
  obtain ⟨names, here, rfl⟩ := List.mem_map.mp listed
  obtain ⟨contents, there⟩ := sound.mem_places_iff.mp here
  rw [contentsAt?_of_find found, contentsAt?_eq_some_iff] at there
  rw [Bool.eq_false_iff]
  intro directory
  obtain ⟨_, isDir⟩ := isDirectory_iff.mp directory
  rw [Path.place_joinAll (sound.names here), there] at isDir
  cases isDir

/-- A walk lists each file below its root once and nothing else, in the strict order of paths, and the
files below each directory together in the place of the directory. The list is that of every tree that is
stored with files at the same places, its directories sorted: nothing else counts for it. -/
theorem walk_lists {t sub : FileTree} {root : Path} (sound : t.Sound) (found : t.find root = .ok sub) :
    ∃ files, t.walk root = .ok files ∧
      (∀ p, p ∈ files ↔ ∃ names contents, sub.contentsAt? names = some contents ∧ p = root.joinAll names) ∧
      files.Nodup ∧ (∀ p ∈ files, t.isDirectory p = false) ∧ files.Pairwise Path.Precedes ∧
      (∀ names below, sub.get? names = some below → ∃ earlier later,
        files = earlier ++ filesFrom (root.joinAll names) below ++ later ∧
          (∀ p ∈ earlier, p.Precedes (root.joinAll names)) ∧
          ∀ p ∈ later, (root.joinAll names).Precedes p) ∧
      ∀ stored : FileTree, stored.Stored →
        (∀ names, (stored.contentsAt? names).isSome = (sub.contentsAt? names).isSome) →
          filesFrom root stored.arranged = files := by
  have subSound := sound.get? (find_ok_iff.mp found).2
  have precede := subSound.filesFrom_precede root
  have walked : t.walk root = .ok (filesFrom root sub) := by
    rw [walk, found]
    rfl
  refine ⟨filesFrom root sub, walked, fun p => subSound.mem_filesFrom_iff, ?_,
    fun p => not_isDirectory_of_listed subSound found, precede,
    fun names below there => subSound.filesFrom_around root there, ?_⟩
  · apply precede.imp
    rintro p q less rfl
    exact p.precedes_irrefl less
  · intro stored isStored same
    rw [filesFrom_eq, filesFrom_eq]
    congr 1
    apply isStored.arranged.places_eq subSound
    intro names
    rw [isStored.contentsAt?_arranged, same]

def namesakes : FileTree :=
  .dir [("a", .dir [("z.rb", .file (.ofText ""))]), ("a.rb", .file (.ofText ""))]

/-- The file in the directory comes first, although its path as a text does not. -/
theorem walk_lists_namesakes :
    (dir [("in", namesakes)]).Sound ∧ (dir [("in", namesakes)]).find ⟨"in"⟩ = .ok namesakes ∧
      ∃ files, (dir [("in", namesakes)]).walk ⟨"in"⟩ = .ok files ∧
        files = [⟨"in/a/z.rb"⟩, ⟨"in/a.rb"⟩] ∧ files.Pairwise Path.Precedes ∧
        "in/a.rb" < "in/a/z.rb" := by
  have inner : (dir [("z.rb", file (.ofText ""))]).Sound :=
    .dir (by decide) (by decide) (by simp [Sound.file])
  have sound : namesakes.Sound := .dir (by decide) (by decide) (by simp [inner, Sound.file])
  have whole : (dir [("in", namesakes)]).Sound := .dir (by decide) (by decide) (by simp [sound])
  have found : (dir [("in", namesakes)]).find ⟨"in"⟩ = .ok namesakes :=
    find_ok_iff.mpr ⟨⟨["in"], by decide +kernel⟩, by rfl⟩
  have listed : (dir [("in", namesakes)]).walk ⟨"in"⟩ = .ok [⟨"in/a/z.rb"⟩, ⟨"in/a.rb"⟩] := by
    decide +kernel
  obtain ⟨files, walked, _, _, _, precede, _⟩ := walk_lists whole found
  exact ⟨whole, found, files, walked, Except.ok.inj (walked.symm.trans listed), precede, by decide⟩

end FileTree

end Transplant
