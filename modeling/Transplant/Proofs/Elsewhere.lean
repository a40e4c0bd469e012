import Transplant.Proofs.Looking

/-! Trees that are the same but for some places. A path that does not come to these places meets the
same in both trees: looks find the same, and changes end alike and leave the trees as different as they
were. -/
namespace Transplant

variable {κ : Type} [Membership (List String) κ] {places : κ}

namespace Path

/-- None of the places is on the way of the path. -/
def Misses (places : κ) (p : Path) : Prop := ∀ q ∈ p.way, q ∉ places

/-- None of the places is on the way of the path or below it. -/
def Clear (places : κ) (p : Path) : Prop :=
  p.Misses places ∧ ∀ q ∈ places, ¬ p.place <+: q

instance (places : List (List String)) (p : Path) : Decidable (p.Misses places) :=
  inferInstanceAs (Decidable (∀ q ∈ p.way, q ∉ places))

instance (places : List (List String)) (p : Path) : Decidable (p.Clear places) :=
  inferInstanceAs (Decidable (_ ∧ _))

theorem Clear.within {p q : Path} (clear : p.Clear places) (within : p.Within q) : q.Clear places := by
  refine ⟨?_, fun place there below => clear.2 place there (within.place.trans below)⟩
  intro place on there
  rcases within.way on with above | below
  · exact clear.1 place above there
  · exact clear.2 place there below

theorem Misses.parent {p q : Path} (misses : p.Misses places) (h : p.parent? = some q) :
    q.Misses places :=
  fun place on => misses place (FileTree.way_parent h on)

theorem Misses.ancestors {p q : Path} (misses : p.Misses places) (above : q ∈ FileTree.ancestors p) :
    q.Misses places := by
  unfold FileTree.ancestors at above
  generalize p.components.length = n at above
  induction n generalizing p with
  | zero => exact List.mem_singleton.mp above ▸ misses
  | succ n ih =>
    rcases List.mem_cons.mp above with rfl | further
    · exact misses
    · cases parent : p.parent? with
      | none => rw [parent] at further; cases further
      | some parent' =>
        rw [parent] at further
        exact ih (misses.parent parent) further

end Path

namespace FileTree

variable {t u : FileTree} {p : Path}

def SameBut (places : κ) (t u : FileTree) : Prop :=
  ∀ q, q ∉ places → u.node? q = t.node? q

theorem SameBut.refl (places : κ) (t : FileTree) : SameBut places t t :=
  fun _ _ => rfl

theorem contentsAt?_congr {q : List String} (same : u.node? q = t.node? q) :
    u.contentsAt? q = t.contentsAt? q :=
  Option.ext fun contents => by rw [contentsAt?_eq_some_iff, contentsAt?_eq_some_iff, same]

/-- A change of the one tree and of the other both fail alike, or lead to trees like them. -/
inductive ChangedAlike (places : κ) :
    Except FileError FileTree → Except FileError FileTree → Prop where
  | failed (e : FileError) : ChangedAlike places (.error e) (.error e)
  | changed {t u : FileTree} (same : SameBut places t u) : ChangedAlike places (.ok t) (.ok u)

theorem ChangedAlike.of_shape {r r' : Except FileError FileTree}
    (shape : r'.map (fun _ => ()) = r.map fun _ => ())
    (ok : ∀ t u, r = .ok t → r' = .ok u → SameBut places t u) : ChangedAlike places r r' := by
  cases r with
  | error e =>
    cases r' with
    | error e' => cases shape; exact .failed e
    | ok u => cases shape
  | ok t =>
    cases r' with
    | error e' => cases shape
    | ok u => exact .changed (ok t u rfl rfl)

namespace SameBut

section Looks

theorem sameKind (h : SameBut places t u) (misses : p.Misses places) {q : List String}
    (on : q ∈ p.way) : SameKind t u q := by
  rw [SameKind, h q (misses q on)]

theorem node?_place (h : SameBut places t u) (misses : p.Misses places) :
    u.node? p.place = t.node? p.place :=
  h p.place (misses p.place p.place_mem_way)

theorem locate (h : SameBut places t u) (misses : p.Misses places) : u.locate p = t.locate p :=
  locate_congr fun _ on => h.sameKind misses on

theorem read (h : SameBut places t u) (misses : p.Misses places) : u.read p = t.read p :=
  read_congr (fun _ on => h.sameKind misses on) (h.node?_place misses)

theorem isDirectory (h : SameBut places t u) (misses : p.Misses places) :
    u.isDirectory p = t.isDirectory p := by
  rw [Bool.eq_iff_iff, isDirectory_iff, isDirectory_iff, h.locate misses, h.node?_place misses]

theorem find (h : SameBut places t u) (misses : p.Misses places) :
    (u.find p).map node = (t.find p).map node := by
  have same := h.locate misses
  cases located : t.locate p with
  | error e =>
    rw [FileTree.find, FileTree.find, same, located]
    rfl
  | ok place =>
    have last := h.node?_place misses
    rw [← (locate_ok located).2.2, node?, node?] at last
    rw [find_eq located, find_eq (same.trans located)]
    cases found : t.get? place.reverse with
    | none =>
      rw [found, Option.map_none, Option.map_eq_none_iff] at last
      rw [last]
    | some sub =>
      rw [found, Option.map_some, Option.map_eq_some_iff] at last
      obtain ⟨sub', found', kind⟩ := last
      rw [found']
      exact congrArg Except.ok kind

theorem exists? (h : SameBut places t u) (misses : p.Misses places) : u.exists? p = t.exists? p := by
  have same := h.find misses
  rw [FileTree.exists?, FileTree.exists?]
  cases found : t.find p <;> cases found' : u.find p <;> rw [found, found'] at same <;>
    first | rfl | cases same

theorem walk (h : SameBut places t u) (ht : t.Sound) (hu : u.Sound) (clear : p.Clear places) :
    u.walk p = t.walk p := by
  have same := h.find clear.1
  rw [FileTree.walk, FileTree.walk]
  cases found : t.find p with
  | error e =>
    cases found' : u.find p with
    | error e' => rw [found, found'] at same; cases same; rfl
    | ok sub' => rw [found, found'] at same; cases same
  | ok sub =>
    cases found' : u.find p with
    | error e' => rw [found, found'] at same; cases same
    | ok sub' =>
      have listed : sub'.places = sub.places := by
        apply (hu.get? (find_ok_iff.mp found').2).places_eq (ht.get? (find_ok_iff.mp found).2)
        intro q
        have outside : p.place ++ q ∉ places := fun there => clear.2 _ there (List.prefix_append _ _)
        rw [contentsAt?_of_find found', contentsAt?_of_find found, contentsAt?_congr (h _ outside)]
      change Except.ok (filesFrom p sub') = .ok (filesFrom p sub)
      rw [filesFrom_eq, filesFrom_eq, listed]

end Looks

section Changes

theorem makeDir (h : SameBut places t u) (misses : p.Misses places) :
    ChangedAlike places (t.makeDir p) (u.makeDir p) := by
  apply ChangedAlike.of_shape
  · unfold FileTree.makeDir
    rw [locateLast_congr fun _ on => h.sameKind misses on]
    rcases located : t.locateLast p with _ | _ | ⟨place, _ | _ | name⟩ <;> try rfl
    have next : SameKind t u (Step.move place (.down name)).reverse := by
      rw [(locateLast_ok located).2]
      exact h.sameKind misses p.place_mem_way
    simp only [bind, Except.bind, follow_congr next]
    rcases t.follow place (.down name) with e | found
    · cases e <;> rfl
    · rfl
  · intro made made' making making' q apart
    rw [(node?_makeDir making).2, (node?_makeDir making').2, h q apart]

theorem writeOver (h : SameBut places t u) (misses : p.Misses places) (text : String) :
    ChangedAlike places (t.writeOver p text) (u.writeOver p text) := by
  apply ChangedAlike.of_shape
  · unfold FileTree.writeOver
    rw [locateLast_congr fun _ on => h.sameKind misses on]
    rcases located : t.locateLast p with _ | _ | ⟨place, _ | _ | name⟩ <;> try rfl
    have next : SameKind t u (Step.move place (.down name)).reverse := by
      rw [(locateLast_ok located).2]
      exact h.sameKind misses p.place_mem_way
    simp only [bind, Except.bind, follow_congr next]
    split_ifs with slash
    · rfl
    · cases followed : t.follow place (.down name) with
      | error e => cases e <;> rfl
      | ok found =>
        cases follow_ok followed
        simp only [isDirAt_congr next]
        split_ifs <;> rfl
  · intro written written' writing writing' q apart
    rw [(node?_writeOver writing).2, (node?_writeOver writing').2, h q apart]

theorem makeDirs (h : SameBut places t u) {paths : List Path} (misses : ∀ p ∈ paths, p.Misses places) :
    (u.makeDirs paths).1 = (t.makeDirs paths).1 ∧
      SameBut places (t.makeDirs paths).2 (u.makeDirs paths).2 := by
  -- On the directories above the path: they are made alike, and then the path is tried once more.
  induction paths with
  | nil => exact ⟨rfl, h⟩
  | cons p above ih =>
    rw [List.forall_mem_cons] at misses
    obtain ⟨front, left⟩ := ih misses.2
    rw [FileTree.makeDirs, FileTree.makeDirs]
    split
    · exact ⟨rfl, h⟩
    · have making := h.makeDir misses.1
      generalize t.makeDir p = r at making
      generalize u.makeDir p = r' at making
      cases making with
      | changed same => exact ⟨rfl, same⟩
      | failed e =>
        have there := h.isDirectory misses.1
        by_cases missing : e = .notFound
        · subst missing
          generalize t.makeDirs above = r at front left
          generalize u.makeDirs above = r' at front left
          obtain ⟨done, mid⟩ := r
          obtain ⟨_, mid'⟩ := r'
          cases front
          cases done with
          | error e => exact ⟨rfl, left⟩
          | ok =>
            have making := left.makeDir misses.1
            have thereBelow := left.isDirectory misses.1
            dsimp only at making thereBelow ⊢
            generalize mid.makeDir p = r at making
            generalize mid'.makeDir p = r' at making
            cases making with
            | changed same => exact ⟨rfl, same⟩
            | failed e =>
              dsimp only
              rw [thereBelow]
              split <;> exact ⟨rfl, left⟩
        · cases e <;> first
            | exact absurd rfl missing
            | (dsimp only; rw [there]; split <;> exact ⟨rfl, h⟩)

theorem makeAll (h : SameBut places t u) (misses : p.Misses places) :
    (u.makeAll p).1 = (t.makeAll p).1 ∧ SameBut places (t.makeAll p).2 (u.makeAll p).2 :=
  h.makeDirs fun _ above => misses.ancestors above

theorem makeAbove (h : SameBut places t u) (misses : p.Misses places) :
    (u.makeAbove p).1 = (t.makeAbove p).1 ∧ SameBut places (t.makeAbove p).2 (u.makeAbove p).2 := by
  unfold FileTree.makeAbove
  cases parent : p.parent? with
  | none => exact ⟨rfl, h⟩
  | some q => exact h.makeAll (misses.parent parent)

theorem write (h : SameBut places t u) (misses : p.Misses places) (text : String) :
    (u.write p text).1 = (t.write p text).1 ∧ SameBut places (t.write p text).2 (u.write p text).2 := by
  obtain ⟨same, left⟩ := h.makeAbove misses
  rw [write_eq, write_eq]
  generalize t.makeAbove p = above at same left
  generalize u.makeAbove p = above' at same left
  obtain ⟨r, mid⟩ := above
  obtain ⟨_, mid'⟩ := above'
  cases same
  cases r with
  | error e => exact ⟨rfl, left⟩
  | ok =>
    have writing := left.writeOver misses text
    dsimp only at writing ⊢
    generalize mid.writeOver p text = r at writing
    generalize mid'.writeOver p text = r' at writing
    cases writing with
    | failed e => exact ⟨rfl, left⟩
    | changed same => exact ⟨rfl, same⟩

end Changes

end SameBut

end FileTree

theorem World.walk_within (w : World) (sound : w.tree.Sound) {p : Path} (files : List Path)
    (walked : (w.walk p).1 = .ok files) : ∀ q ∈ files, p.Within q := by
  have listed : w.tree.walk p = .ok files := by
    rw [walk] at walked
    cases faulty : w.fault? .walk p with
    | some e => rw [faulty] at walked; cases walked
    | none => rw [faulty] at walked; exact walked
  obtain ⟨sub, found, rfl⟩ := FileTree.walk_ok_iff.mp listed
  have below := sound.get? (FileTree.find_ok_iff.mp found).2
  intro q member
  obtain ⟨names, there, rfl⟩ := List.mem_map.mp member
  exact Path.within_joinAll (below.names there)

end Transplant
