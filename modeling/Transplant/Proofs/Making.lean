import Transplant.Proofs.Parents
import Transplant.Proofs.TreeCalls

/-! What making directories and writing files does to what stands in a tree. Nothing that is there
goes away. A directory that was made is there to stay, and making it again does nothing. Whatever
could not be made or written cannot be on the tree that the attempt has left either. -/
namespace Transplant.FileTree

open Transplant (MadeDirs)

/-- All that stands in the one tree stands in the other as it is. -/
def Keeps (t u : FileTree) : Prop := ∀ q n, t.node? q = some n → u.node? q = some n

theorem Keeps.refl (t : FileTree) : Keeps t t := fun _ _ there => there

theorem Keeps.trans {t u v : FileTree} (h : Keeps t u) (h' : Keeps u v) : Keeps t v :=
  fun q n there => h' q n (h q n there)

theorem Keeps.further {t u : FileTree} (h : Keeps t u) : Extends t u :=
  fun q n there => ⟨n, h q n there, rfl⟩

theorem empty_bare (more : List String) (further : more ≠ []) : empty.node? more = none := by
  obtain ⟨name, rest, rfl⟩ := List.exists_cons_of_ne_nil further
  rfl

theorem file_bare (contents : Contents) (more : List String) (further : more ≠ []) :
    (file contents).node? more = none := by
  obtain ⟨name, rest, rfl⟩ := List.exists_cons_of_ne_nil further
  rfl

theorem node?_makeDir {t made : FileTree} {p : Path} (h : t.makeDir p = .ok made) :
    t.node? p.place = none ∧
      ∀ q, made.node? q = if q = p.place then some .dir else t.node? q := by
  obtain ⟨place, name, there, leads, gap, rfl⟩ := makeDir_ok h
  have none : t.node? (place ++ [name]) = none := by rw [node?, gap]; rfl
  rw [leads]
  refine ⟨none, ?_⟩
  exact node?_put (node?_eq_dir_iff.mpr there) (by rw [none]; simp) empty_bare

theorem node?_writeOver {t written : FileTree} {p : Path} {text : String}
    (h : t.writeOver p text = .ok written) :
    t.node? p.place ≠ some .dir ∧
      ∀ q, written.node? q = if q = p.place then some (.file (.ofText text)) else t.node? q := by
  obtain ⟨place, name, there, leads, gap, rfl⟩ := writeOver_ok h
  have noDir : t.node? (place ++ [name]) ≠ some .dir := by
    rw [Ne, node?_eq_dir_iff]
    cases found : t.get? (place ++ [name]) with
    | none => simp
    | some sub =>
      cases sub with
      | file contents => simp [isDir]
      | dir entries => exact absurd found (gap entries)
  rw [leads]
  exact ⟨noDir, node?_put (node?_eq_dir_iff.mpr there) noDir (file_bare _)⟩

theorem keeps_makeDir {t made : FileTree} {p : Path} (h : t.makeDir p = .ok made) : Keeps t made := by
  obtain ⟨gap, nodes⟩ := node?_makeDir h
  intro q n there
  rw [nodes, if_neg]
  · exact there
  · rintro rfl
    rw [gap] at there
    cases there

theorem extends_writeOver {t written : FileTree} {p : Path} {text : String}
    (h : t.writeOver p text = .ok written) : Extends t written := by
  obtain ⟨gap, nodes⟩ := node?_writeOver h
  intro q n there
  rw [nodes]
  split_ifs with here
  · subst here
    refine ⟨_, rfl, ?_⟩
    cases n with
    | dir => exact absurd there gap
    | file contents => rfl
  · exact ⟨n, there, rfl⟩

theorem Sound.makeDir {t made : FileTree} (sound : Sound t) {p : Path}
    (h : t.makeDir p = .ok made) : Sound made := by
  obtain ⟨place, name, _, leads, _, rfl⟩ := makeDir_ok h
  rw [← leads]
  exact sound.put .empty fun _ member => Path.isName_of_mem_place member

theorem Sound.writeOver {t written : FileTree} (sound : Sound t) {p : Path} {text : String}
    (h : t.writeOver p text = .ok written) : Sound written := by
  obtain ⟨place, name, _, leads, _, rfl⟩ := writeOver_ok h
  rw [← leads]
  exact sound.put (.file _) fun _ member => Path.isName_of_mem_place member

theorem keeps_madeDirs {t t' : FileTree} (h : MadeDirs t t') : Keeps t t' := by
  induction h with
  | none => exact .refl _
  | next first _ ih => exact (keeps_makeDir first).trans ih

theorem Sound.madeDirs {t t' : FileTree} (sound : Sound t) (h : MadeDirs t t') : Sound t' := by
  induction h with
  | none => exact sound
  | next first _ ih => exact ih (sound.makeDir first)

/-- There is nothing to make for the path. -/
def Settled (t : FileTree) (p : Path) : Prop := p.text = "" ∨ t.isDirectory p = true

theorem Extends.settled {t u : FileTree} (h : Extends t u) {p : Path} (settled : t.Settled p) :
    u.Settled p :=
  settled.imp_right h.isDirectory

theorem ancestors_eq (p : Path) : ∃ above, ancestors p = p :: above := by
  unfold ancestors
  cases p.components.length <;> exact ⟨_, rfl⟩

theorem locateLast_of_steps {t : FileTree} {p : Path} {place : List String} {before : List Step}
    {last : Step} (checked : checkText p = .ok ()) (split : steps p = before ++ [last])
    (followed : t.followAll [] before = .ok place) (here : t.isDirAt place = true) :
    t.locateLast p = .ok (some (place, last)) := by
  rw [locateLast, checked, split, List.reverse_append]
  change (do
    let place ← followAll t [] before.reverse.reverse
    if t.isDirAt place then Except.ok (some (place, last)) else .error .notDirectory) = _
  rw [List.reverse_reverse, followed]
  exact if_pos here

theorem makeDir_of_isDirectory {t : FileTree} {p : Path} (there : t.isDirectory p = true) :
    t.makeDir p = .error .alreadyExists := by
  obtain ⟨⟨found, located⟩, _⟩ := isDirectory_iff.mp there
  obtain ⟨checked, followed, _⟩ := locate_ok located
  rcases List.eq_nil_or_concat (steps p) with none | ⟨before, last, split⟩
  · rw [makeDir, locateLast, checked, none]
    rfl
  · rw [List.concat_eq_append] at split
    rw [split, followAll_append] at followed
    obtain ⟨mid, front, here, further⟩ := followed
    rw [makeDir, locateLast_of_steps checked split front here]
    cases last with
    | stay => rfl
    | up => rfl
    | down name => simp only [bind, Except.bind, further]

theorem makeDirs_of_settled {t : FileTree} {p : Path} {above : List Path} (settled : t.Settled p) :
    t.makeDirs (p :: above) = (.ok (), t) := by
  rw [makeDirs]
  rcases settled with empty | there
  · simp [empty]
  · rw [makeDir_of_isDirectory there]
    simp [there]

theorem makeAll_of_settled {t : FileTree} {p : Path} (settled : t.Settled p) :
    t.makeAll p = (.ok (), t) := by
  obtain ⟨above, all⟩ := ancestors_eq p
  rw [makeAll, all]
  exact makeDirs_of_settled settled

theorem isDirectory_makeDir {t made : FileTree} {p : Path} (h : t.makeDir p = .ok made) :
    made.isDirectory p = true := by
  obtain ⟨place, name, located, missing, _⟩ := makeDir_steps h
  obtain ⟨checked, before, split, followed, here⟩ := locateLast_steps located
  obtain ⟨_, leads⟩ := locateLast_ok located
  have further := (keeps_makeDir h).further
  have there : made.node? p.place = some .dir := by
    rw [(node?_makeDir h).2, if_pos rfl]
  have last : made.follow place (.down name) = .ok (name :: place) := by
    have taken : (made.get? (name :: place).reverse).isSome = true := by
      rw [get?_isSome_iff]
      change made.node? (Step.move place (.down name)).reverse ≠ none
      rw [leads, there]
      simp
    rw [follow] at missing ⊢
    split_ifs at missing with long taken'
    · cases missing
    · rw [if_neg long, if_pos taken]
  have all : made.followAll [] (steps p) = .ok (name :: place) := by
    rw [split, followAll_append]
    exact ⟨place, further.followAll followed, further.isDirAt here, last⟩
  refine isDirectory_iff.mpr ⟨⟨name :: place, ?_⟩, there⟩
  have dir : made.isDirAt (name :: place) = true := by
    rw [isDirAt_iff]
    change made.node? (Step.move place (.down name)).reverse = _
    rw [leads, there]
  rw [locate, checked, all]
  change (if p.endsInSlash && !made.isDirAt (name :: place) then _ else _) = _
  simp [dir]

/-- The ways in which making a directory and those above it can end. -/
inductive Tried (t : FileTree) (p : Path) (above : List Path) :
    Except FileError Unit × FileTree → Prop where
  | empty (h : p.text = "") : Tried t p above (.ok (), t)
  | made {made : FileTree} (making : t.makeDir p = .ok made) : Tried t p above (.ok (), made)
  | there (dir : t.isDirectory p = true) : Tried t p above (.ok (), t)
  | refused {e : FileError} (making : t.makeDir p = .error e) (gap : t.isDirectory p = false) :
      Tried t p above (.error e, t)
  | stopped {e : FileError} {mid : FileTree} (some : p.text ≠ "")
      (front : t.makeDirs above = (.error e, mid)) : Tried t p above (.error e, mid)
  | madeBelow {mid made : FileTree} (front : t.makeDirs above = (.ok (), mid))
      (making : mid.makeDir p = .ok made) : Tried t p above (.ok (), made)
  | thereBelow {mid : FileTree} (front : t.makeDirs above = (.ok (), mid))
      (dir : mid.isDirectory p = true) : Tried t p above (.ok (), mid)
  | refusedBelow {mid : FileTree} {e : FileError} (some : p.text ≠ "")
      (front : t.makeDirs above = (.ok (), mid)) (making : mid.makeDir p = .error e)
      (gap : mid.isDirectory p = false) : Tried t p above (.error e, mid)

theorem makeDirs_tried (t : FileTree) (p : Path) (above : List Path) :
    Tried t p above (t.makeDirs (p :: above)) := by
  rw [makeDirs]
  split
  · rename_i empty
    exact .empty (String.isEmpty_iff.mp empty)
  · rename_i some
    have some : p.text ≠ "" := fun empty => some (String.isEmpty_iff.mpr empty)
    split
    · rename_i made making
      exact .made making
    · split
      · rename_i mid front
        split
        · rename_i made making
          exact .madeBelow front making
        · rename_i e making
          split
          · rename_i dir
            exact .thereBelow front dir
          · rename_i gap
            exact .refusedBelow some front making (by simpa using gap)
      · rename_i failed
        rcases front : t.makeDirs above with ⟨_ | _, mid⟩
        · exact .stopped some front
        · exact absurd front (failed mid)
    · rename_i e _ making
      split
      · rename_i dir
        exact .there dir
      · rename_i gap
        exact .refused making (by simpa using gap)

theorem settled_makeDirs {t t' : FileTree} {p : Path} {above : List Path}
    (ok : t.makeDirs (p :: above) = (.ok (), t')) : t'.Settled p := by
  have tried := makeDirs_tried t p above
  rw [ok] at tried
  cases tried with
  | empty h => exact .inl h
  | made making => exact .inr (isDirectory_makeDir making)
  | there dir => exact .inr dir
  | madeBelow _ making => exact .inr (isDirectory_makeDir making)
  | thereBelow _ dir => exact .inr dir

theorem settled_makeAll {t t' : FileTree} {p : Path} (ok : t.makeAll p = (.ok (), t')) :
    t'.Settled p := by
  obtain ⟨above, all⟩ := ancestors_eq p
  rw [makeAll, all] at ok
  exact settled_makeDirs ok

theorem madeDirs_makeAll (t : FileTree) (p : Path) : MadeDirs t (t.makeAll p).2 :=
  MadeDirs.makeDirs t (ancestors p)

/-- Where this is no success, it is none on the tree that it leaves either. -/
def FailsAgain (act : FileTree → Except FileError Unit × FileTree) : Prop :=
  ∀ t, (act t).1 ≠ .ok () → (act (act t).2).1 ≠ .ok ()

theorem FailsAgain.stuck {act : FileTree → Except FileError Unit × FileTree} (h : FailsAgain act)
    {t mid : FileTree} {e : FileError} (failed : act t = (.error e, mid)) :
    (act mid).1 ≠ .ok () := by
  have again := h t
  rw [failed] at again
  exact again (by simp)

/-- The directories above a path, as far as the path itself needs them. -/
structure Above (p : Path) (above : List Path) : Prop where
  again : FailsAgain fun t => t.makeDirs above
  kept : ∀ t mid : FileTree, t.makeDirs above = (.ok (), mid) → mid.makeDirs above = (.ok (), mid)
  made : ∀ t made : FileTree, t.makeDir p = .ok made → t.makeDirs above = (.ok (), t)
  there : ∀ t : FileTree, t.isDirectory p = true → t.makeDirs above = (.ok (), t)

theorem Above.none {p : Path} : Above p [] :=
  ⟨fun _ failed => absurd rfl failed, fun _ _ _ => rfl, fun _ _ _ => rfl, fun _ _ => rfl⟩

theorem Above.parent {p q : Path} {rest : List Path} (h : p.parent? = some q)
    (again : FailsAgain fun t => t.makeDirs (q :: rest)) : Above p (q :: rest) where
  again := again
  kept := fun _ _ front => makeDirs_of_settled (settled_makeDirs front)
  made := by
    intro t made making
    obtain ⟨place, name, located, _⟩ := makeDir_steps making
    exact makeDirs_of_settled (isDirectory_above h located)
  there := fun _ dir => makeDirs_of_settled (isDirectory_parent h dir)

theorem Above.failsAgain {p : Path} {above : List Path} (h : Above p above) :
    FailsAgain fun t => t.makeDirs (p :: above) := by
  intro t failed ok
  have first := makeDirs_tried t p above
  have second := makeDirs_tried (t.makeDirs (p :: above)).2 p above
  have same : (t.makeDirs (p :: above)).2 = t → False := fun same => failed (by rwa [same] at ok)
  dsimp only at failed ok
  generalize t.makeDirs (p :: above) = left at failed ok first second same
  generalize left.2.makeDirs (p :: above) = last at ok second
  cases first with
  | empty | made | there | madeBelow | thereBelow => exact failed rfl
  | refused => exact same rfl
  | @stopped e mid some front =>
    have stuck : (mid.makeDirs above).1 ≠ .ok () := h.again.stuck front
    cases second with
    | refused | stopped | refusedBelow => cases ok
    | empty none => exact some none
    | made making => exact stuck (by rw [h.made _ _ making])
    | there dir => exact stuck (by rw [h.there _ dir])
    | madeBelow front => exact stuck (by rw [front])
    | thereBelow front => exact stuck (by rw [front])
  | @refusedBelow mid e some front making gap =>
    have settled := h.kept t mid front
    cases second with
    | refused | stopped | refusedBelow => cases ok
    | empty none => exact some none
    | made making' => cases making.symm.trans making'
    | there dir => cases gap.symm.trans dir
    | madeBelow front' making' =>
      cases settled.symm.trans front'
      cases making.symm.trans making'
    | thereBelow front' dir =>
      cases settled.symm.trans front'
      cases gap.symm.trans dir

theorem makeDirs_failsAgain (n : Nat) (p : Path) :
    FailsAgain fun t => t.makeDirs (ancestorsUpTo n p) := by
  induction n generalizing p with
  | zero => exact Above.none.failsAgain
  | succ n ih =>
    rw [ancestorsUpTo]
    cases parent : p.parent? with
    | none => exact Above.none.failsAgain
    | some q =>
      have front : ∃ rest, ancestorsUpTo n q = q :: rest := by cases n <;> exact ⟨_, rfl⟩
      obtain ⟨rest, front⟩ := front
      have again := ih q
      rw [front] at again
      rw [Option.map_some, Option.getD_some, front]
      exact (Above.parent parent again).failsAgain

theorem makeAll_failsAgain (p : Path) : FailsAgain fun t => t.makeAll p :=
  makeDirs_failsAgain _ p

theorem writeOver_steps {t written : FileTree} {p : Path} {text : String}
    (h : t.writeOver p text = .ok written) :
    ∃ place name, t.locateLast p = .ok (some (place, .down name)) ∧ p.endsInSlash = false ∧
      name.utf8ByteSize ≤ nameLimit := by
  rcases located : t.locateLast p with _ | _ | ⟨place, _ | _ | name⟩ <;>
    simp only [writeOver, located, bind, Except.bind, reduceCtorEq] at h
  refine ⟨place, name, rfl, ?_⟩
  by_cases slash : p.endsInSlash = true
  · rw [if_pos slash] at h
    cases h
  · rw [if_neg slash, follow] at h
    by_cases long : nameLimit < name.utf8ByteSize
    · rw [if_pos long] at h
      cases h
    · exact ⟨by simpa using slash, Nat.le_of_not_lt long⟩

theorem locateLast_further {t u : FileTree} (h : Extends t u) {p : Path} {place : List String}
    {last : Step} (located : t.locateLast p = .ok (some (place, last))) :
    u.locateLast p = .ok (some (place, last)) := by
  obtain ⟨checked, before, split, followed, here⟩ := locateLast_steps located
  exact locateLast_of_steps checked split (h.followAll followed) (h.isDirAt here)

/-- A file that was written can be written wherever it still stands. -/
theorem writeOver_again {t u v : FileTree} {p : Path} {text : String}
    (h : t.writeOver p text = .ok u) (further : Extends u v) : ∃ x, v.writeOver p text = .ok x := by
  obtain ⟨place, name, located, slash, short⟩ := writeOver_steps h
  have located' := locateLast_further ((extends_writeOver h).trans further) located
  obtain ⟨_, leads⟩ := locateLast_ok located
  have there : u.node? p.place = some (.file (.ofText text)) := by
    rw [(node?_writeOver h).2, if_pos rfl]
  obtain ⟨contents, there'⟩ := further.file there
  have taken : (v.get? (name :: place).reverse).isSome = true := by
    rw [get?_isSome_iff]
    change v.node? (Step.move place (.down name)).reverse ≠ none
    rw [leads, there']
    simp
  have noDir : v.isDirAt (name :: place) = false := by
    rw [Bool.eq_false_iff, Ne, isDirAt_iff]
    change v.node? (Step.move place (.down name)).reverse ≠ _
    rw [leads, there']
    simp
  have followed : v.follow place (.down name) = .ok (name :: place) := by
    rw [follow, if_neg (Nat.not_lt.mpr short), if_pos taken]
  refine ⟨v.put (name :: place).reverse (file (.ofText text)), ?_⟩
  simp only [writeOver, located', slash, followed, noDir, bind, Except.bind, Bool.false_eq_true, if_false]

/-! Writing makes the directories above the path first. -/

/-- There is no directory to make above the path. -/
def SettledAbove (t : FileTree) (p : Path) : Prop := ∀ q, p.parent? = some q → t.Settled q

theorem Extends.settledAbove {t u : FileTree} (h : Extends t u) {p : Path}
    (settled : t.SettledAbove p) : u.SettledAbove p :=
  fun q parent => h.settled (settled q parent)

def makeAbove (t : FileTree) (p : Path) : Except FileError Unit × FileTree :=
  match p.parent? with
  | some parent => t.makeAll parent
  | none => (.ok (), t)

theorem write_eq (t : FileTree) (p : Path) (text : String) :
    t.write p text = match t.makeAbove p with
      | (.ok (), mid) =>
        match mid.writeOver p text with
        | .ok written => (.ok (), written)
        | .error e => (.error e, mid)
      | failed => failed :=
  rfl

inductive Wrote (t : FileTree) (p : Path) (text : String) : Except FileError Unit × FileTree → Prop where
  | stopped {e : FileError} {mid : FileTree} (above : t.makeAbove p = (.error e, mid)) :
      Wrote t p text (.error e, mid)
  | refused {e : FileError} {mid : FileTree} (above : t.makeAbove p = (.ok (), mid))
      (writing : mid.writeOver p text = .error e) : Wrote t p text (.error e, mid)
  | written {mid written : FileTree} (above : t.makeAbove p = (.ok (), mid))
      (writing : mid.writeOver p text = .ok written) : Wrote t p text (.ok (), written)

theorem write_wrote (t : FileTree) (p : Path) (text : String) : Wrote t p text (t.write p text) := by
  rw [write_eq]
  rcases above : t.makeAbove p with ⟨e | _, mid⟩
  · exact .stopped above
  · rcases writing : mid.writeOver p text with e | written
    · simp only [writing]
      exact .refused above writing
    · simp only [writing]
      exact .written above writing

theorem makeAbove_of_settled {t : FileTree} {p : Path} (settled : t.SettledAbove p) :
    t.makeAbove p = (.ok (), t) := by
  unfold makeAbove
  cases parent : p.parent? with
  | none => rfl
  | some q => exact makeAll_of_settled (settled q parent)

theorem settledAbove_makeAbove {t mid : FileTree} {p : Path} (ok : t.makeAbove p = (.ok (), mid)) :
    mid.SettledAbove p := by
  intro q parent
  rw [makeAbove, parent] at ok
  exact settled_makeAll ok

theorem madeDirs_makeAbove (t : FileTree) (p : Path) : MadeDirs t (t.makeAbove p).2 := by
  unfold makeAbove
  cases p.parent? with
  | none => exact .none
  | some q => exact madeDirs_makeAll t q

theorem Sound.write {t : FileTree} (sound : Sound t) (p : Path) (text : String) :
    Sound (t.write p text).2 := by
  have dirs := t.madeDirs_makeAbove p
  have wrote := t.write_wrote p text
  generalize t.write p text = r at wrote
  cases wrote with
  | stopped above | refused above => exact sound.madeDirs (by rwa [above] at dirs)
  | written above writing => exact (sound.madeDirs (by rwa [above] at dirs)).writeOver writing

theorem extends_write (t : FileTree) (p : Path) (text : String) : Extends t (t.write p text).2 := by
  have dirs := (keeps_madeDirs (t.madeDirs_makeAbove p)).further
  have wrote := t.write_wrote p text
  generalize t.write p text = r at wrote
  cases wrote with
  | stopped above | refused above => rwa [above] at dirs
  | written above writing => exact Extends.trans (by rwa [above] at dirs) (extends_writeOver writing)

theorem write_of_settled {t written : FileTree} {p : Path} {text : String}
    (settled : t.SettledAbove p) (writing : t.writeOver p text = .ok written) :
    t.write p text = (.ok (), written) := by
  have wrote := t.write_wrote p text
  have above := makeAbove_of_settled settled
  generalize t.write p text = r at wrote
  cases wrote with
  | stopped above' => cases above.symm.trans above'
  | refused above' writing' =>
    cases above.symm.trans above'
    cases writing.symm.trans writing'
  | written above' writing' =>
    cases above.symm.trans above'
    cases writing.symm.trans writing'
    rfl

theorem makeAbove_failsAgain (p : Path) : FailsAgain fun t => t.makeAbove p := by
  unfold makeAbove
  cases p.parent? with
  | none => exact fun _ failed => absurd rfl failed
  | some q => exact makeAll_failsAgain q

theorem write_failsAgain (p : Path) (text : String) : FailsAgain fun t => t.write p text := by
  intro t failed ok
  have first := write_wrote t p text
  have second := write_wrote (t.write p text).2 p text
  dsimp only at failed ok
  generalize t.write p text = left at failed ok first second
  generalize left.2.write p text = last at ok second
  cases first with
  | written => exact failed rfl
  | @stopped e mid above =>
    have stuck : (mid.makeAbove p).1 ≠ .ok () := (makeAbove_failsAgain p).stuck above
    cases second with
    | stopped | refused => cases ok
    | written above' => exact stuck (by rw [above'])
  | refused above writing =>
    have settled := makeAbove_of_settled (settledAbove_makeAbove above)
    cases second with
    | stopped | refused => cases ok
    | written above' writing' =>
      cases settled.symm.trans above'
      cases writing.symm.trans writing'

end Transplant.FileTree
