import Transplant.Proofs.Reached
import Transplant.Proofs.Surveyed

/-! The catalogue of a source: the files below a directory, each with its text, in the order of their
names. A file more is one entry more, and all others stay in their order. -/
namespace Transplant

namespace FileTree

variable {t u : FileTree} {place pre : List String}

def filesBelow (t : FileTree) (place : List String) : List (List String) :=
  ((t.get? place).map places).getD []

theorem Sound.filesBelow_ascend (sound : t.Sound) : (t.filesBelow place).Pairwise (· < ·) := by
  rw [filesBelow]
  cases found : t.get? place with
  | none => exact .nil
  | some sub => exact (sound.get? found).places_ascend

theorem Sound.mem_filesBelow (sound : t.Sound) {names : List String} :
    names ∈ t.filesBelow place ↔ ∃ contents, t.contentsAt? (place ++ names) = some contents := by
  rw [filesBelow, contentsAt?, get?_append]
  cases found : t.get? place with
  | none => simp
  | some sub => exact (sound.get? found).mem_places_iff

theorem Sound.filesBelow_names (sound : t.Sound) {names : List String}
    (listed : names ∈ t.filesBelow place) : ∀ name ∈ names, IsName name := by
  rw [filesBelow] at listed
  cases found : t.get? place with
  | none => simp [found] at listed
  | some sub => exact (sound.get? found).names (by simpa [found] using listed)

theorem Sound.filesBelow_append (sound : t.Sound) (pre : List String) :
    (t.filesBelow place).filter pre.isPrefixOf = (t.filesBelow (place ++ pre)).map (pre ++ ·) := by
  apply eq_of_ascending (sound.filesBelow_ascend.filter _)
  · apply List.pairwise_map.mpr
    exact sound.filesBelow_ascend.imp fun less => List.append_left_lt less
  · intro names
    simp only [List.mem_filter, List.isPrefixOf_iff_prefix, List.mem_map, sound.mem_filesBelow,
      List.append_assoc]
    constructor
    · rintro ⟨there, rest, rfl⟩
      exact ⟨rest, there, rfl⟩
    · rintro ⟨rest, there, rfl⟩
      exact ⟨there, List.prefix_append pre rest⟩

theorem split_at_mem {xs : List (List String)} {a : List String} (ascend : xs.Pairwise (· < ·))
    (member : a ∈ xs) : ∃ earlier later, xs = earlier ++ a :: later ∧
      (∀ q ∈ earlier, q < a) ∧ ∀ q ∈ later, a < q := by
  obtain ⟨earlier, later, rfl⟩ := List.append_of_mem member
  obtain ⟨_, behind, before⟩ := List.pairwise_append.mp ascend
  exact ⟨earlier, later, rfl, fun q front => before q front a List.mem_cons_self,
    (List.pairwise_cons.mp behind).1⟩

theorem not_mem_split {earlier later : List (List String)} {a : List String}
    (less : ∀ q ∈ earlier, q < a) (greater : ∀ q ∈ later, a < q) : a ∉ earlier ++ later := by
  intro member
  rcases List.mem_append.mp member with front | back
  · exact List.lt_irrefl a (less a front)
  · exact List.lt_irrefl a (greater a back)

theorem split_of_ascending {xs ys : List (List String)} {a : List String} (hx : xs.Pairwise (· < ·))
    (hy : ys.Pairwise (· < ·)) (new : a ∉ xs) (more : ∀ q, q ∈ ys ↔ q = a ∨ q ∈ xs) :
    ∃ earlier later, xs = earlier ++ later ∧ ys = earlier ++ a :: later ∧
      (∀ q ∈ earlier, q < a) ∧ ∀ q ∈ later, a < q := by
  obtain ⟨earlier, later, rfl, less, greater⟩ := split_at_mem hy ((more a).mpr (.inl rfl))
  refine ⟨earlier, later, ?_, rfl, less, greater⟩
  have fewer : (earlier ++ later).Sublist (earlier ++ a :: later) :=
    (List.Sublist.refl earlier).append (List.sublist_cons_self a later)
  have off := not_mem_split less greater
  apply eq_of_ascending hx (hy.sublist fewer)
  intro q
  have listed := more q
  simp only [List.mem_append, List.mem_cons] at listed ⊢ off
  by_cases same : q = a
  · subst same
    simp [new, off]
  · simp only [same, false_or] at listed
    exact listed.symm

/-- A survey looks up the place of the first two names, unless their path is refused. -/
def inReach (root : Path) (names : List String) : Bool := (checkText (root.joinAll (names.take 2))).isOk

theorem inReach_append {root : Path} (two : pre.length = 2) (names : List String) :
    inReach root (pre ++ names) = inReach root pre := by
  simp [inReach, ← two]

theorem inReach_iff {root : Path} (two : pre.length = 2) :
    inReach root pre = true ↔ checkText (root.joinAll pre) = .ok () := by
  rw [inReach, ← two, List.take_length]
  cases checkText (root.joinAll pre) <;> simp [Except.isOk, Except.toBool]

/-- Two names that a survey may look up. -/
structure IsSection (pre : List String) : Prop where
  two : pre.length = 2
  named : ∀ name ∈ pre, IsName name
  fits : ∀ name ∈ pre, name.utf8ByteSize ≤ nameLimit

theorem Leads.find_section {sub : FileTree} {root : Path} (leads : t.Leads root)
    (isSection : IsSection pre) :
    t.find (root.joinAll pre) = .ok sub ↔
      inReach root pre = true ∧ t.get? (root.place ++ pre) = some sub := by
  have some : pre ≠ [] := by
    rintro rfl
    cases isSection.two
  rw [leads.find_joinAll isSection.named some isSection.fits, inReach_iff isSection.two]

theorem Leads.listAt {root : Path} (leads : t.Leads root) (isSection : IsSection pre) :
    t.listAt (root.joinAll pre) =
      if inReach root pre then
        (t.filesBelow (root.place ++ pre)).map fun names => root.joinAll (pre ++ names)
      else [] := by
  cases found : t.find (root.joinAll pre) with
  | ok sub =>
    obtain ⟨here, there⟩ := (leads.find_section isSection).mp found
    rw [listAt_eq found, filesBelow, there, if_pos here, Option.map_some, Option.getD_some]
    exact List.map_congr_left fun names _ => (root.joinAll_append pre names).symm
  | error e =>
    have none : t.listAt (root.joinAll pre) = [] := by
      simp [FileTree.listAt, walk, found, bind, Except.bind]
    rw [none]
    split_ifs with here
    · cases there : t.get? (root.place ++ pre) with
      | none => simp [filesBelow, there]
      | some sub => simp [(leads.find_section isSection).mpr ⟨here, there⟩] at found
    · rfl

end FileTree

theorem flatMap_filter {α β : Type} {p : α → Bool} {f : α → List β} {xs : List α}
    (rest : ∀ x ∈ xs, p x = false → f x = []) : (xs.filter p).flatMap f = xs.flatMap f := by
  induction xs with
  | nil => rfl
  | cons x xs ih =>
    rw [List.forall_mem_cons] at rest
    cases kept : p x with
    | true => simp [kept, ih rest.2]
    | false => simp [kept, ih rest.2, rest.1 kept]

namespace World

variable {w : World} {root : Path} {pre : List String} {β : Type}

/-- The files below the root, with their texts. -/
def catalogue (w : World) (root : Path) : List (List String × String) :=
  (w.tree.filesBelow root.place).map fun names => (names, w.textOf (root.joinAll names))

/-- What has to do with one place only is told by the files there. -/
theorem catalogue_flatMap (sound : w.tree.Sound) {f : List String × String → List β}
    (only : ∀ names text, ¬ pre <+: names → f (names, text) = []) :
    (w.catalogue root).flatMap f = (w.tree.filesBelow (root.place ++ pre)).flatMap fun names =>
      f (pre ++ names, w.textOf (root.joinAll (pre ++ names))) := by
  rw [catalogue, List.flatMap_map, ← flatMap_filter (p := pre.isPrefixOf), sound.filesBelow_append,
    List.flatMap_map]
  intro names _ other
  apply only
  rw [← List.isPrefixOf_iff_prefix, other]
  simp

end World

end Transplant
