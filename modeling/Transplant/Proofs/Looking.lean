import Transplant.Proofs.ChangedPaths
import Transplant.Proofs.Listing
import Transplant.Proofs.Rerun

/-! What looks at a tree find while a build goes on elsewhere. A build changes no file outside its
root and takes nothing away, so a directory beside the root keeps its files: a walk lists the same
ones and reading them gives the same texts. -/
namespace Transplant

namespace Path

theorem mem_wayFrom_names {place names q : List String}
    (there : q ∈ wayFrom place (names.map Component.normal)) :
    ∃ front behind, names = front ++ behind ∧ q = place.reverse ++ front := by
  induction names generalizing place with
  | nil => exact ⟨[], [], rfl, by simpa [wayFrom] using there⟩
  | cons name rest ih =>
    rw [List.map_cons, wayFrom, List.mem_cons] at there
    rcases there with rfl | later
    · exact ⟨[], name :: rest, rfl, (List.append_nil _).symm⟩
    · obtain ⟨front, behind, rfl, rfl⟩ := ih later
      exact ⟨name :: front, behind, rfl, by simp [Component.move]⟩

theorem mem_way_joinAll {p : Path} {names q : List String} (named : ∀ name ∈ names, IsName name)
    (there : q ∈ (p.joinAll names).way) :
    q ∈ p.way ∨ ∃ front behind, names = front ++ behind ∧ q = p.place ++ front := by
  rw [way, components_joinAll named, mem_wayFrom_append] at there
  exact there.imp_right mem_wayFrom_names

end Path

namespace FileTree

theorem some_of_followAll {t : FileTree} {place found : List String} {steps : List Step}
    (ok : t.followAll place steps = .ok found) (start : t.node? place.reverse ≠ none)
    {q : List String} (there : q ∈ visited place steps) : t.node? q ≠ none := by
  induction steps generalizing place with
  | nil =>
    rw [visited, List.mem_singleton] at there
    exact there ▸ start
  | cons s rest ih =>
    rw [followAll] at ok
    split_ifs at ok with here
    cases followed : t.follow place s with
    | error e => rw [followed] at ok; cases ok
    | ok next =>
      rw [followed] at ok
      rcases List.mem_cons.mp there with rfl | later
      · exact start
      · cases follow_ok followed
        apply ih ok _ later
        cases s with
        | stay => exact start
        | up =>
          rw [isDirAt_iff] at here
          cases place with
          | nil => exact start
          | cons name place =>
            rw [List.reverse_cons] at here
            have above := node?_above (List.cons_ne_nil name []) (by rw [here]; simp)
            change t.node? place.reverse ≠ none
            rw [above]
            simp
        | down name =>
          rw [follow] at followed
          split_ifs at followed with long taken
          exact get?_isSome_iff.mp taken

theorem some_of_find {t sub : FileTree} {p : Path} (found : t.find p = .ok sub) {q : List String}
    (there : q ∈ p.way) : t.node? q ≠ none := by
  obtain ⟨⟨place, located⟩, _⟩ := find_ok_iff.mp found
  obtain ⟨_, followed, _⟩ := locate_ok located
  exact some_of_followAll followed (by simp [node?_nil]) ((mem_way_iff p q).mp there)

variable {t u : FileTree}

theorem read_congr {p : Path} (same : ∀ q ∈ p.way, SameKind t u q)
    (last : u.node? p.place = t.node? p.place) : u.read p = t.read p := by
  have alike := locate_congr same
  cases located : t.locate p with
  | error e =>
    rw [read, read, find, find, alike, located]
    rfl
  | ok place =>
    rw [← (locate_ok located).2.2, node?, node?] at last
    rw [read, read, find_eq located, find_eq (alike.trans located)]
    cases found : t.get? place.reverse with
    | none => rw [found, Option.map_none, Option.map_eq_none_iff] at last; rw [last]
    | some sub =>
      rw [found, Option.map_some, Option.map_eq_some_iff] at last
      obtain ⟨sub', found', kind⟩ := last
      rw [found']
      cases sub <;> cases sub' <;> cases kind <;> rfl

namespace Extends

theorem isDir_eq (h : Extends t u) {q : List String} (there : t.node? q ≠ none) : SameKind t u q := by
  obtain ⟨n, found⟩ := Option.ne_none_iff_exists'.mp there
  obtain ⟨n', found', same⟩ := h q n found
  rw [SameKind, found, found', Option.map_some, Option.map_some, same]

theorem locate_eq (h : Extends t u) {p : Path} (there : ∀ q ∈ p.way, t.node? q ≠ none) :
    u.locate p = t.locate p :=
  locate_congr fun q on => h.isDir_eq (there q on)

theorem read_eq (h : Extends t u) {p : Path} (there : ∀ q ∈ p.way, t.node? q ≠ none)
    (same : u.contentsAt? p.place = t.contentsAt? p.place) : u.read p = t.read p := by
  refine read_congr (fun q on => h.isDir_eq (there q on)) ?_
  obtain ⟨n, here⟩ := Option.ne_none_iff_exists'.mp (there _ p.place_mem_way)
  cases n with
  | dir => rw [here, h.dir here]
  | file contents => rw [here, ← contentsAt?_eq_some_iff, same, contentsAt?_eq_some_iff, here]

end Extends

/-- The one tree goes further than the other, with the same files outside a place. -/
def Beside (place : List String) (t u : FileTree) : Prop :=
  Extends t u ∧ ∀ q, ¬ place <+: q → u.contentsAt? q = t.contentsAt? q

namespace Beside

variable {place : List String} {t u v : FileTree}

theorem refl (place : List String) (t : FileTree) : Beside place t t := ⟨.refl t, fun _ _ => rfl⟩

theorem trans (h : Beside place t u) (h' : Beside place u v) : Beside place t v :=
  ⟨h.1.trans h'.1, fun q apart => (h'.2 q apart).trans (h.2 q apart)⟩

end Beside

/-- Neither of the places lies within the other. -/
def Apart (place other : List String) : Prop := ¬ place <+: other ∧ ¬ other <+: place

theorem Apart.not_within {place other : List String} (h : Apart place other) (more : List String) :
    ¬ place <+: other ++ more := by
  intro inside
  exact (List.prefix_or_prefix_of_prefix inside (List.prefix_append other more)).elim h.1 h.2

/-- The files of a directory, of which there are none if it cannot be walked. -/
def listAt (t : FileTree) (dir : Path) : List Path :=
  match t.walk dir with
  | .ok files => files
  | .error _ => []

theorem find_of_exists {t : FileTree} {p : Path} (there : t.exists? p = true) :
    ∃ sub, t.find p = .ok sub := by
  rw [exists?] at there
  cases found : t.find p with
  | error e => rw [found] at there; cases there
  | ok sub => exact ⟨sub, rfl⟩

theorem listAt_eq {t sub : FileTree} {dir : Path} (found : t.find dir = .ok sub) :
    t.listAt dir = sub.places.map dir.joinAll := by
  rw [listAt, walk_eq found]

theorem contentsAt?_of_find {t sub : FileTree} {dir : Path} (found : t.find dir = .ok sub)
    (more : List String) : sub.contentsAt? more = t.contentsAt? (dir.place ++ more) := by
  rw [contentsAt?, contentsAt?, get?_append, (find_ok_iff.mp found).2]
  rfl

theorem find_of_mem_listAt {t : FileTree} {dir p : Path} (member : p ∈ t.listAt dir) :
    ∃ sub, t.find dir = .ok sub ∧ ∃ names ∈ sub.places, p = dir.joinAll names := by
  rw [listAt] at member
  split at member
  · rename_i files walked
    obtain ⟨sub, found, rfl⟩ := walk_ok_iff.mp walked
    obtain ⟨names, there, rfl⟩ := List.mem_map.mp member
    exact ⟨sub, found, names, there, rfl⟩
  · cases member

theorem node?_of_mem_listAt {t : FileTree} {dir p : Path} (sound : t.Sound) (member : p ∈ t.listAt dir)
    {q : List String} (on : q ∈ p.way) : t.node? q ≠ none := by
  obtain ⟨sub, found, names, listed, rfl⟩ := find_of_mem_listAt member
  have subSound : sub.Sound := sound.get? (find_ok_iff.mp found).2
  rcases Path.mem_way_joinAll (subSound.names listed) on with above | ⟨front, behind, rfl, rfl⟩
  · exact some_of_find found above
  · obtain ⟨contents, last⟩ := subSound.mem_places_iff.mp listed
    rw [contentsAt?_of_find found, ← List.append_assoc, contentsAt?_eq_some_iff] at last
    cases behind with
    | nil =>
      rw [List.append_nil] at last
      rw [last]
      simp
    | cons name rest =>
      rw [node?_above (List.cons_ne_nil name rest) (by rw [last]; simp)]
      simp

namespace Beside

variable {place : List String} {t u sub : FileTree} {dir p : Path}

theorem find (h : Beside place t u) (apart : Apart place dir.place) (ht : t.Sound) (hu : u.Sound)
    (found : t.find dir = .ok sub) : ∃ sub', u.find dir = .ok sub' ∧ sub'.places = sub.places := by
  obtain ⟨⟨top, located⟩, there⟩ := find_ok_iff.mp found
  have located' : u.locate dir = .ok top := by
    rw [h.1.locate_eq fun q => some_of_find found, located]
  have there' : (u.get? dir.place).isSome = true :=
    get?_isSome_iff.mpr (h.1.some (get?_isSome_iff.mp (by rw [there]; rfl)))
  obtain ⟨sub', there'⟩ := Option.isSome_iff_exists.mp there'
  have found' : u.find dir = .ok sub' := find_ok_iff.mpr ⟨⟨top, located'⟩, there'⟩
  refine ⟨sub', found', ?_⟩
  apply (hu.get? there').places_eq (ht.get? there)
  intro q
  rw [contentsAt?_of_find found', contentsAt?_of_find found, h.2 _ (apart.not_within q)]

theorem listAt (h : Beside place t u) (apart : Apart place dir.place) (ht : t.Sound) (hu : u.Sound)
    (found : t.find dir = .ok sub) : u.listAt dir = t.listAt dir := by
  obtain ⟨sub', found', same⟩ := h.find apart ht hu found
  rw [listAt_eq found, listAt_eq found', same]

/-- What comes into reach only when more directories are made has nothing to list. -/
theorem listAt_of_open (h : Beside place t u) (apart : Apart place dir.place) (ht : t.Sound)
    (hu : u.Sound) (opened : ∀ q ∈ dir.way, q <+: dir.place ∨ t.node? q ≠ none) :
    u.listAt dir = t.listAt dir := by
  cases found : t.find dir with
  | ok sub => exact h.listAt apart ht hu found
  | error e =>
    have before : t.listAt dir = [] := by simp [FileTree.listAt, walk, found, bind, Except.bind]
    rw [before, List.eq_nil_iff_forall_not_mem]
    intro p listed
    obtain ⟨sub, found', names, file, rfl⟩ := find_of_mem_listAt listed
    obtain ⟨contents, last⟩ := (hu.get? (find_ok_iff.mp found').2).mem_places_iff.mp file
    rw [contentsAt?_of_find found', h.2 _ (apart.not_within names), contentsAt?_eq_some_iff] at last
    -- The file was there before, so all that stands above it was, and the directory was found.
    have above : ∀ q, q <+: dir.place → t.node? q ≠ none := by
      rintro q ⟨rest, split⟩
      rw [← split, List.append_assoc] at last
      by_cases end' : rest ++ names = []
      · simp_all
      · simp [node?_above end' (by rw [last]; simp)]
    have located : u.locate dir = t.locate dir :=
      h.1.locate_eq fun q on => (opened q on).elim (above q) id
    obtain ⟨sub', there⟩ := Option.isSome_iff_exists.mp
      (get?_isSome_iff.mpr (above dir.place (List.prefix_refl _)))
    have ok : t.find dir = .ok sub' :=
      find_ok_iff.mpr ⟨located ▸ (find_ok_iff.mp found').1, there⟩
    simp [ok] at found

theorem read (h : Beside place t u) (apart : Apart place dir.place) (ht : t.Sound)
    (member : p ∈ t.listAt dir) : u.read p = t.read p := by
  apply h.1.read_eq fun q on => node?_of_mem_listAt ht member on
  obtain ⟨sub, found, names, listed, rfl⟩ := find_of_mem_listAt member
  rw [Path.place_joinAll ((ht.get? (find_ok_iff.mp found).2).names listed)]
  exact h.2 _ (apart.not_within names)

end Beside

end FileTree

namespace Build

open FileTree (Beside)

variable {root : Path} {s : Step} {steps : List Step} {t u : FileTree}

theorem textAt?_of_within (within : StepsWithin root [s]) {q : List String}
    (apart : ¬ root.place <+: q) : s.textAt? q = none := by
  cases s with
  | write p text =>
    rw [Step.textAt?, if_neg]
    rintro rfl
    exact apart (within _ List.mem_cons_self p rfl).place
  | _ => rfl

theorem Step.Does.beside (h : s.Does t u) (within : StepsWithin root [s]) :
    Beside root.place t u :=
  ⟨h.further, fun _ apart => h.contentsAt? (textAt?_of_within within apart)⟩

theorem Step.Fails.beside (h : s.Fails t u) (place : List String) : Beside place t u :=
  ⟨(FileTree.keeps_madeDirs h.madeDirs).further, fun q _ => h.madeDirs.contentsAt? q⟩

theorem StepsWithin.head {rest : List Step} (h : StepsWithin root (s :: rest)) : StepsWithin root [s] :=
  fun x member => h x (List.mem_singleton.mp member ▸ List.mem_cons_self)

theorem StepsWithin.tail {rest : List Step} (h : StepsWithin root (s :: rest)) : StepsWithin root rest :=
  fun x member => h x (List.mem_cons_of_mem _ member)

theorem Went.beside {may : Prop} {ok : Bool} (h : Went may steps t u ok)
    (within : StepsWithin root steps) : Beside root.place t u := by
  induction h with
  | whole | interrupted => exact .refl _ _
  | failed fails => exact fails.beside root.place
  | next first _ ih => exact (first.beside within.head).trans (ih within.tail)

theorem Done.went (may : Prop) (h : Done steps t u) : Went may steps t u true := by
  induction h with
  | nil => exact .whole
  | cons first _ ih => exact .next first ih

theorem Done.beside (h : Done steps t u) (within : StepsWithin root steps) : Beside root.place t u :=
  (h.went False).beside within

end Build

end Transplant
