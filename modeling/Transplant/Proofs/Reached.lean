import Transplant.Proofs.Detours
import Transplant.Proofs.Targets

/-! Names below a directory that is there. A join with a name goes one step further down, so what stands
below the directory is found under its joined names, as long as the text of the path is not refused. -/
namespace Transplant

namespace Path

variable {p : Path} {name : String} {names : List String}

/-- A join with a name puts the name behind the path, and a slash between them where one is missing. -/
theorem join_name (named : IsName name) (p : Path) :
    (p.join name).text.toList = p.text.toList ++ name.toList ∧ (p.text = "" ∨ p.endsInSlash = true) ∨
      (p.join name).text.toList = p.text.toList ++ '/' :: name.toList := by
  have relative := not_isAbsolute (normal_of_staysBelow (Build.staysBelow_of_isName named))
  simp only [join, relative, Bool.false_eq_true, if_false]
  split_ifs with joined
  · exact .inl ⟨String.toList_append, by simpa using joined⟩
  · exact .inr (by simp [String.toList_append])

theorem name_ne_nil (named : IsName name) : name.toList ≠ [] := by
  intro none
  have part := (isPart_of_isName named).1
  rw [Component.spelling, Component.text, none] at part
  cases part

theorem endsInSlash_join (named : IsName name) : (p.join name).endsInSlash = false := by
  have last : ∀ before, (before ++ name.toList).getLast? ≠ some '/' := by
    intro before slash
    rw [List.getLast?_append_of_ne_nil _ (name_ne_nil named)] at slash
    exact slash_not_mem_name named (List.mem_of_getLast? slash)
  rw [Bool.eq_false_iff, Ne, endsInSlash_iff]
  rcases join_name named p with ⟨text, _⟩ | text
  · rw [text]
    exact last _
  · rw [text, ← List.singleton_append, ← List.append_assoc]
    exact last _

theorem joinAll_pair {first last : String} (named : IsName first) (named' : IsName last) (p : Path) :
    p.join (first ++ "/" ++ last) = p.joinAll [first, last] := by
  have relative (name : String) (named : IsName name) : (Path.mk name).isAbsolute = false :=
    not_isAbsolute (normal_of_staysBelow (Build.staysBelow_of_isName named))
  have whole : (Path.mk (first ++ "/" ++ last)).isAbsolute = false := by
    have start := relative first named
    obtain ⟨c, cs, chars⟩ := List.exists_cons_of_ne_nil (name_ne_nil named)
    rw [Bool.eq_false_iff, Ne, isAbsolute_iff] at start ⊢
    simpa [String.toList_append, chars] using start
  have some : (p.join first).text.isEmpty = false := by
    rw [← Bool.not_eq_true, String.isEmpty_iff]
    intro empty
    rcases join_name named p with ⟨text, _⟩ | text <;> simp [empty, name_ne_nil named] at text
  -- Behind a name there is no slash, so the second join puts one.
  change _ = (p.join first).join last
  have slash := endsInSlash_join named (p := p)
  generalize behind : p.join first = q at some slash
  simp only [join, whole, relative last named', some, slash, Bool.or_self, Bool.false_eq_true, if_false]
  simp only [join, relative first named, Bool.false_eq_true, if_false] at behind
  split_ifs at behind ⊢ with joined <;> subst behind <;> simp [String.append_assoc]

theorem endsInSlash_joinAll (named : ∀ name ∈ names, IsName name) (some : names ≠ []) :
    (p.joinAll names).endsInSlash = false := by
  rcases List.eq_nil_or_concat names with rfl | ⟨front, name, rfl⟩
  · exact absurd rfl some
  · rw [List.concat_eq_append, joinAll_append]
    exact endsInSlash_join (named name (by simp))

end Path

namespace FileTree

variable {t u sub : FileTree} {root : Path} {name : String} {names : List String}

theorem steps_join (named : IsName name) (p : Path) : steps (p.join name) = steps p ++ [.down name] := by
  have part := Path.isPart_of_isName named
  have single : (Path.splitSlashes name.toList).filterMap stepOf? = [.down name] := by
    have plain : '/' ∉ name.toList := part.2
    rw [Path.splitSlashes_of_not_mem plain, List.filterMap_cons_some (stepOf?_name part)]
    rfl
  rw [steps_text, steps_text]
  rcases Path.join_name named p with ⟨text, empty | slash⟩ | text
  · simp [text, empty, single, Path.splitSlashes, stepOf?]
  · obtain ⟨before, split⟩ := List.getLast?_eq_some_iff.mp (Path.endsInSlash_iff.mp slash)
    rw [text, split, List.append_assoc, List.singleton_append, Path.splitSlashes_append_slash,
      Path.splitSlashes_append_slash, List.filterMap_append, List.filterMap_append, single]
    simp [Path.splitSlashes, stepOf?]
  · rw [text, Path.splitSlashes_append_slash, List.filterMap_append, single]

theorem steps_joinAll (named : ∀ name ∈ names, IsName name) (p : Path) :
    steps (p.joinAll names) = steps p ++ names.map .down := by
  induction names generalizing p with
  | nil => simp [Path.joinAll]
  | cons name names ih =>
    rw [List.forall_mem_cons] at named
    have split : steps ((p.join name).joinAll names) = _ := ih named.2 (p.join name)
    rw [steps_join named.1, List.append_assoc] at split
    exact split

theorem followAll_downs {place : List String} (there : t.node? (place.reverse ++ names) ≠ none)
    (fits : ∀ name ∈ names, name.utf8ByteSize ≤ nameLimit) :
    t.followAll place (names.map .down) = .ok (names.reverse ++ place) := by
  induction names generalizing place with
  | nil => rfl
  | cons name names ih =>
    rw [List.forall_mem_cons] at fits
    have dir : t.isDirAt place = true := isDirAt_iff.mpr (node?_above (List.cons_ne_nil _ _) there)
    rw [← List.singleton_append, ← List.append_assoc, ← List.reverse_cons] at there
    have next : t.node? (name :: place).reverse ≠ none := by
      cases names with
      | nil => simpa using there
      | cons other names =>
        rw [node?_above (List.cons_ne_nil other names) there]
        simp
    rw [List.map_cons, followAll, if_pos dir, follow, if_neg (Nat.not_lt.mpr fits.1),
      if_pos (get?_isSome_iff.mpr next)]
    have rest := ih there fits.2
    simpa [bind, Except.bind] using rest

/-- The path leads to a directory. The empty path does so as well, though it is not looked up. -/
def Leads (t : FileTree) (root : Path) : Prop :=
  ∃ place, t.followAll [] (steps root) = .ok place ∧ t.isDirAt place = true

namespace Leads

theorem dirs (h : t.Leads root) {q : List String} (on : q ∈ root.way) : t.node? q = some .dir := by
  obtain ⟨place, followed, dir⟩ := h
  exact dirs_of_followAll followed dir ((mem_way_iff root q).mp on)

theorem extended (h : t.Leads root) (further : Extends t u) : u.Leads root := by
  obtain ⟨place, followed, dir⟩ := h
  exact ⟨place, further.followAll followed, further.isDirAt dir⟩

theorem followAll (h : t.Leads root) (behind : List Step) :
    t.followAll [] (steps root ++ behind) = t.followAll root.place.reverse behind := by
  obtain ⟨place, followed, dir⟩ := h
  rw [followAll_through (fun q => dirs_of_followAll followed dir) (fun _ => fits_of_followAll followed),
    steps_lead]

theorem there (h : t.Leads root) (named : ∀ name ∈ names, IsName name)
    (last : t.node? (root.place ++ names) ≠ none) : ∀ q ∈ (root.joinAll names).way, t.node? q ≠ none := by
  intro q on
  rcases Path.mem_way_joinAll named on with above | ⟨front, behind, rfl, rfl⟩
  · simp [h.dirs above]
  · cases behind with
    | nil => simpa using last
    | cons name behind =>
      rw [← List.append_assoc] at last
      simp [node?_above (List.cons_ne_nil name behind) last]

theorem find_joinAll (h : t.Leads root) (named : ∀ name ∈ names, IsName name) (some : names ≠ [])
    (fits : ∀ name ∈ names, name.utf8ByteSize ≤ nameLimit) :
    t.find (root.joinAll names) = .ok sub ↔
      checkText (root.joinAll names) = .ok () ∧ t.get? (root.place ++ names) = .some sub := by
  rw [find_ok_iff, Path.place_joinAll named]
  constructor
  · rintro ⟨⟨found, located⟩, there⟩
    exact ⟨(locate_ok located).1, there⟩
  · rintro ⟨checked, there⟩
    have reached : t.node? (root.place ++ names) ≠ none := by
      rw [← get?_isSome_iff, there]
      rfl
    refine ⟨⟨names.reverse ++ root.place.reverse, ?_⟩, there⟩
    have followed : t.followAll root.place.reverse (names.map .down) =
        .ok (names.reverse ++ root.place.reverse) := followAll_downs (by simpa using reached) fits
    rw [locate, checked, steps_joinAll named, h.followAll, followed]
    simp [bind, Except.bind, Path.endsInSlash_joinAll named some]

end Leads

end FileTree

end Transplant
