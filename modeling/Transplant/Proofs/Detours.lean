import Transplant.Proofs.Ancestors
import Transplant.Proofs.Elsewhere

/-! Trees that differ by what was tried within one directory. The one may lack directories on the way
to it that the other has, and nothing else outside it. A path that does not come to the directory meets the
same in both trees, unless it leads through what the one of them lacks. Where it meets no file then,
it makes what it lacks. -/
namespace Transplant

namespace Path

/-- The path comes neither to the directory nor into it. -/
def Avoids (p dir : Path) : Prop := ∀ x ∈ p.way, ¬ dir.place <+: x

instance (p dir : Path) : Decidable (p.Avoids dir) := inferInstanceAs (Decidable (∀ x ∈ p.way, _))

variable {p q dir : Path}

theorem Avoids.parent (avoids : p.Avoids dir) (h : p.parent? = some q) : q.Avoids dir :=
  fun x on => avoids x (FileTree.way_parent h on)

theorem prefix_of_mem_wayFrom {cs : List Component} (plain : .parent ∉ cs) {place x : List String}
    (on : x ∈ wayFrom place cs) : x <+: (cs.foldl Component.move place).reverse := by
  induction cs generalizing place x with
  | nil => exact List.mem_singleton.mp on ▸ List.prefix_refl _
  | cons c rest ih =>
    rw [List.mem_cons, not_or] at plain
    rcases List.mem_cons.mp on with rfl | later
    · have next : place.reverse <+: (c.move place).reverse := by
        cases c with
        | parent => exact absurd rfl plain.1
        | root | current => exact List.prefix_refl _
        | normal name => simp [Component.move]
      exact next.trans (ih plain.2 (start_mem_wayFrom (c.move place) rest))
    · exact ih plain.2 later

theorem mem_way_concat {c : Component} (split : p.components = q.components ++ [c]) {x : List String}
    (on : x ∈ p.way) : x ∈ q.way ∨ x = p.place := by
  rw [way, split, mem_wayFrom_append, wayFrom, wayFrom, List.mem_cons, List.mem_singleton] at on
  rcases on with front | rfl | last
  · exact .inl front
  · exact .inl q.place_mem_way
  · exact .inr (by rw [last, place, split, List.foldl_append]; rfl)

/-- A path leads nowhere, or goes up or down behind its parent. -/
theorem parent?_or_top (p : Path) :
    (∃ q c, p.parent? = some q ∧ p.components = q.components ++ [c] ∧
      (c = .parent ∨ ∃ name, c = .normal name)) ∨ ∀ x ∈ p.way, x = [] := by
  have leads := isLead_lead p.text.toList
  have whole := FileTree.components_eq p
  rcases List.eq_nil_or_concat ((FileTree.steps p).filterMap FileTree.Step.component?)
    with none | ⟨front, c, split⟩
  · right
    intro x on
    rw [way, whole, none, mem_wayFrom_lead leads] at on
    simpa [wayFrom] using on
  · left
    have there : c ∈ (FileTree.steps p).filterMap FileTree.Step.component? := by simp [split]
    obtain ⟨s, _, named⟩ := List.mem_filterMap.mp there
    have kind : c = .parent ∨ ∃ name, c = .normal name := by
      cases s with
      | stay => cases named
      | up => exact .inl (Option.some.inj named).symm
      | down name => exact .inr ⟨name, (Option.some.inj named).symm⟩
    rw [split, List.concat_eq_append, ← List.append_assoc] at whole
    obtain ⟨q, parent⟩ : ∃ q, p.parent? = some q := by
      unfold parent?
      rw [whole, List.reverse_append, List.reverse_singleton]
      rcases kind with rfl | ⟨name, rfl⟩ <;> exact ⟨_, rfl⟩
    obtain ⟨last, split, _⟩ := parent?_eq_some parent
    obtain ⟨_, same⟩ := List.append_inj' (whole.symm.trans split) rfl
    exact ⟨q, c, parent, by rw [split, List.singleton_inj.mp same], kind⟩

theorem joinComponents_concat (cs : List Component) (name : String) :
    (joinComponents (cs ++ [.normal name])).toList = name.toList ∨
      ∃ front, (joinComponents (cs ++ [.normal name])).toList = front ++ '/' :: name.toList := by
  induction cs with
  | nil => exact .inl rfl
  | cons c rest ih =>
    right
    have whole : (joinComponents (c :: rest ++ [.normal name])).toList =
        c.text.toList ++ '/' :: (joinComponents (rest ++ [.normal name])).toList := by
      rw [List.cons_append, joinComponents, String.toList_append, String.toList_append]
      · simp
      · simp
    rcases ih with last | ⟨front, more⟩
    · exact ⟨c.text.toList, by rw [whole, last]⟩
    · exact ⟨c.text.toList ++ '/' :: front, by rw [whole, more, List.append_assoc]; rfl⟩

theorem ofComponents_concat (cs : List Component) (name : String) :
    (ofComponents (cs ++ [.normal name])).text.toList = name.toList ∨
      ∃ front, (ofComponents (cs ++ [.normal name])).text.toList = front ++ '/' :: name.toList := by
  by_cases absolute : (cs ++ [Component.normal name]).head? = some .root
  · obtain ⟨rest, rfl⟩ : ∃ rest, cs = .root :: rest := by
      cases cs with
      | nil => cases absolute
      | cons c rest => exact ⟨rest, by simpa using absolute⟩
    right
    have whole : (ofComponents (.root :: rest ++ [.normal name])).text.toList =
        '/' :: (joinComponents (rest ++ [.normal name])).toList := by
      rw [List.cons_append, ofComponents, String.toList_append]
      rfl
    rcases joinComponents_concat rest name with last | ⟨front, more⟩
    · exact ⟨[], by rw [whole, last]; rfl⟩
    · exact ⟨'/' :: front, by rw [whole, more]; rfl⟩
  · rw [ofComponents_of_ne_root absolute]
    exact joinComponents_concat cs name

end Path

namespace FileTree

open Transplant (MadeDirs)

variable {t t' u u' : FileTree} {p q dir : Path}

theorem stepOf?_name {name : String} (part : (Path.Component.normal name).IsPart) :
    stepOf? name.toList = some (.down name) := by
  have named : Path.componentOf? name.toList = some (.normal name) := part.1
  generalize chars : name.toList = cs at named
  fun_cases stepOf? cs with
  | case1 | case2 | case3 => cases named
  | case4 => rw [← chars, String.ofList_toList]

theorem steps_ofComponents (cs : List Path.Component) {name : String}
    (part : (Path.Component.normal name).IsPart) :
    ∃ before, steps (Path.ofComponents (cs ++ [.normal name])) = before ++ [.down name] := by
  have single : (Path.splitSlashes name.toList).filterMap stepOf? = [.down name] := by
    have noSlash : '/' ∉ name.toList := part.2
    rw [Path.splitSlashes_of_not_mem noSlash, List.filterMap_cons_some (stepOf?_name part)]
    rfl
  rw [steps_text]
  rcases Path.ofComponents_concat cs name with last | ⟨front, more⟩
  · exact ⟨[], by rw [last, single]; rfl⟩
  · refine ⟨(Path.splitSlashes front).filterMap stepOf?, ?_⟩
    rw [more, Path.splitSlashes_append_slash, List.filterMap_append, single]

theorem Settled.top_or_dir (settled : t.Settled q) {x : List String} (on : x ∈ q.way) :
    x = [] ∨ t.node? x = some .dir := by
  rcases settled with empty | there
  · rw [Path.way, Path.components_text, empty] at on
    exact .inl (List.mem_singleton.mp on)
  · exact .inr (dirs_of_isDirectory there on)

theorem Settled.dirs (settled : t.Settled q) (top : t.Open []) :
    ∀ x ∈ q.way, t.node? x = some .dir := by
  intro x on
  rcases settled.top_or_dir on with rfl | dir
  · exact top.dir (by simp [node?_nil])
  · exact dir

theorem Settled.fits (settled : t.Settled q) {name : String} (member : .normal name ∈ q.components) :
    name.utf8ByteSize ≤ nameLimit := by
  rcases settled with empty | there
  · exact absurd empty (text_ne_of_mem member)
  · obtain ⟨⟨found, located⟩, _⟩ := isDirectory_iff.mp there
    obtain ⟨_, followed, _⟩ := locate_ok located
    exact fits_of_followAll followed ((down_mem_steps_iff q name).mpr member)

theorem isDirectory_of_last {c : Path.Component} (last : p.components = q.components ++ [c])
    (checked : checkText p = .ok ()) (settled : t.Settled q) (top : t.Open [])
    (dir : t.node? p.place = some .dir)
    (short : ∀ name, c = .normal name → name.utf8ByteSize ≤ nameLimit) : t.isDirectory p = true := by
  apply isDirectory_of_dirs checked
  · intro x on
    rcases Path.mem_way_concat last on with front | rfl
    · exact settled.dirs top x front
    · exact dir
  · intro name named
    rw [last, List.mem_append, List.mem_singleton] at named
    rcases named with front | same
    · exact settled.fits front
    · exact short name same.symm

theorem dir_above {x y : List String} (above : y <+: x) (dir : t.node? x = some .dir) :
    t.node? y = some .dir := by
  obtain ⟨more, rfl⟩ := above
  by_cases last : more = []
  · rwa [last, List.append_nil] at dir
  · exact node?_above last (by simp [dir])

theorem isDirectory_of_up (last : p.components = q.components ++ [.parent])
    (checked : checkText p = .ok ()) (settled : t.Settled q) (top : t.Open []) :
    t.isDirectory p = true := by
  have above : p.place <+: q.place := by
    rw [Path.place, Path.place, last, List.foldl_append]
    exact List.reverse_prefix.mpr (List.tail_suffix _)
  apply isDirectory_of_last last checked settled top
  · exact dir_above above (settled.dirs top _ q.place_mem_way)
  · rintro name ⟨⟩

theorem makeLast_of_isDirectory (there : t.isDirectory p = true) : t.makeLast p = (.ok (), t) := by
  simp [makeLast, makeDir_of_isDirectory there, there]

/-- The last name of a path that is spelled from its components is located below what is settled. -/
theorem locateLast_of_settled {name : String} (spelled : p = Path.ofComponents p.components)
    (last : p.components = q.components ++ [.normal name]) (checked : checkText p = .ok ())
    (settled : t.Settled q) (top : t.Open []) :
    ∃ place, t.locateLast p = .ok (some (place, .down name)) := by
  obtain ⟨before, split⟩ : ∃ before, steps p = before ++ [.down name] := by
    rw [spelled, last]
    exact steps_ofComponents _ (Path.isPart_of_normal (p := p) (by simp [last]))
  have front := components_above last split
  have dirs : ∀ x ∈ visited [] before, t.node? x = some .dir := by
    intro x on
    apply settled.dirs top
    rwa [Path.way, front, Path.mem_wayFrom_lead (Path.isLead_lead _), ← mem_visited_iff]
  have fits : Fits before := by
    intro other there
    apply settled.fits
    rw [front]
    exact List.mem_append_right _ (List.mem_filterMap.mpr ⟨_, there, rfl⟩)
  exact ⟨_, locateLast_of_dirs checked split dirs fits⟩

/-- What comes of making a directory below others, at a place where no file is: it is there then, if
its name is not too long. -/
structure MadeLast (t : FileTree) (p : Path) (name : String) (done : Except FileError Unit × FileTree) :
    Prop where
  result : done.1 = if nameLimit < name.utf8ByteSize then .error .nameTooLong else .ok ()
  others : ∀ x, x ≠ p.place → done.2.node? x = t.node? x
  here : done.2.Open p.place

theorem makeLast_of_open {name : String} (spelled : p = Path.ofComponents p.components)
    (last : p.components = q.components ++ [.normal name]) (checked : checkText p = .ok ())
    (settled : t.Settled q) (top : t.Open []) (here : t.Open p.place) :
    MadeLast t p name (t.makeLast p) := by
  by_cases long : nameLimit < name.utf8ByteSize
  · have blocked : t.Blocked p :=
      ⟨q.components, name, [], last, settled.dirs top, fun _ => settled.fits, long⟩
    obtain ⟨making, gap⟩ := blocked.fails checked
    rw [makeLast, making]
    exact ⟨by simp [gap, long], by simp [gap], by simpa [gap] using here⟩
  · by_cases dir : t.node? p.place = some .dir
    · have short : ∀ other, Path.Component.normal name = .normal other →
          other.utf8ByteSize ≤ nameLimit := by
        rintro _ ⟨⟩
        exact Nat.le_of_not_lt long
      rw [makeLast_of_isDirectory (isDirectory_of_last last checked settled top dir short)]
      exact ⟨by simp [long], by simp, here⟩
    · obtain ⟨place, located⟩ := locateLast_of_settled spelled last checked settled top
      have gap : ¬ (t.get? (name :: place).reverse).isSome = true := by
        rw [get?_isSome_iff, not_not]
        change t.node? (Step.move place (.down name)).reverse = none
        rw [(locateLast_ok located).2]
        exact here.resolve_right dir
      have making : t.makeDir p = .ok (t.put (name :: place).reverse empty) := by
        simp only [makeDir, located, bind, Except.bind, follow, if_neg long, if_neg gap]
      obtain ⟨_, nodes⟩ := node?_makeDir making
      rw [makeLast, making]
      refine ⟨by simp [long], fun x other => ?_, .inr ?_⟩
      · rw [nodes, if_neg other]
      · rw [nodes, if_pos rfl]

theorem makeAll_of_refused {e : FileError} (refused : checkText p = .error e) (t : FileTree) :
    t.makeAll p = (if p.text.isEmpty then .ok () else .error e, t) := by
  obtain ⟨above, all⟩ := ancestors_eq p
  have making : t.makeDir p = .error e := by
    simp [makeDir, locateLast, refused, bind, Except.bind]
  have gap : t.isDirectory p = false := by
    rw [Bool.eq_false_iff]
    intro there
    obtain ⟨⟨_, located⟩, _⟩ := isDirectory_iff.mp there
    cases refused.symm.trans (locate_ok located).1
  rw [makeAll, all]
  by_cases empty : p.text = ""
  · rw [makeDirs_of_settled (.inl empty), if_pos (String.isEmpty_iff.mpr empty)]
  · have reached : e ≠ .notFound := by
      rintro rfl
      unfold checkText at refused
      split_ifs at refused <;> simp_all
    rw [makeDirs_of_reached empty making reached, if_neg (String.isEmpty_iff.not.mpr empty)]
    simp [makeLast, making, gap]

theorem node?_makeDirs {paths : List Path} {x : List String} (other : ∀ p ∈ paths, x ≠ p.place) :
    (t.makeDirs paths).2.node? x = t.node? x := by
  induction paths with
  | nil => rfl
  | cons p above ih =>
    rw [List.forall_mem_cons] at other
    have front := ih other.2
    have tried := t.makeDirs_tried p above
    generalize t.makeDirs (p :: above) = done at tried
    cases tried with
    | empty | there | refused => rfl
    | made making => rw [(node?_makeDir making).2, if_neg other.1]
    | stopped _ below | thereBelow below | refusedBelow _ below => rwa [below] at front
    | madeBelow below making =>
      rw [below] at front
      rw [(node?_makeDir making).2, if_neg other.1]
      exact front

theorem node?_makeAll {x : List String} (off : x ∉ p.way) :
    (t.makeAll p).2.node? x = t.node? x := by
  have misses : p.Misses ({x} : Set (List String)) := fun y on same => off (same ▸ on)
  apply node?_makeDirs
  rintro q above rfl
  exact misses.ancestors above _ q.place_mem_way rfl

theorem SameBut.makeLast {κ : Type} [Membership (List String) κ] {places : κ}
    (h : SameBut places t u) (misses : p.Misses places) :
    (u.makeLast p).1 = (t.makeLast p).1 ∧ SameBut places (t.makeLast p).2 (u.makeLast p).2 := by
  have making := h.makeDir misses
  have there := h.isDirectory misses
  unfold FileTree.makeLast
  generalize t.makeDir p = r at making
  generalize u.makeDir p = r' at making
  cases making with
  | changed same => exact ⟨rfl, same⟩
  | failed e =>
    dsimp only
    rw [there]
    split <;> exact ⟨rfl, h⟩

theorem madeDirs_makeLast (t : FileTree) (p : Path) : MadeDirs t (t.makeLast p).2 := by
  unfold makeLast
  split
  · rename_i making
    exact .next making .none
  · split <;> exact .none

/-- Outside the directory the same stands in both trees, but for directories on the way to it. -/
def Aside (dir : Path) (t u : FileTree) : Prop :=
  ∀ q, ¬ dir.place <+: q → u.node? q = t.node? q ∨ q ∈ dir.way ∧ t.Open q ∧ u.Open q

def differences (t u : FileTree) : Set (List String) := {q | u.node? q ≠ t.node? q}

theorem sameBut_differences (t u : FileTree) : SameBut (differences t u) t u :=
  fun _ same => not_not.mp same

theorem misses_differences (same : ∀ x ∈ p.way, u.node? x = t.node? x) :
    p.Misses (differences t u) :=
  fun x on => not_not.mpr (same x on)

/-- Where the path meets a difference, no file of the first tree is on its way. -/
def Passable (t u : FileTree) (p : Path) : Prop :=
  ∀ x ∈ p.way, u.node? x ≠ t.node? x → ∀ y ∈ p.way, t.Open y

theorem Passable.parent (passable : Passable t u p) (h : p.parent? = some q) : Passable t u q :=
  fun x on differ y there => passable x (way_parent h on) differ y (way_parent h there)

namespace Aside

theorem refl (dir : Path) (t : FileTree) : Aside dir t t := fun _ _ => .inl rfl

theorem symm (h : Aside dir t u) : Aside dir u t :=
  fun q apart => (h q apart).imp Eq.symm fun ⟨on, opened, opened'⟩ => ⟨on, opened', opened⟩

theorem opened (h : Aside dir t u) {x : List String} (apart : ¬ dir.place <+: x) (opened : t.Open x) :
    u.Open x := by
  rcases h x apart with same | ⟨_, _, opened'⟩
  · rwa [Open, same]
  · exact opened'

theorem trans {v : FileTree} (h : Aside dir t u) (h' : Aside dir u v) : Aside dir t v := by
  intro q apart
  rcases h q apart with same | ⟨on, opened, opened'⟩
  · rcases h' q apart with same' | ⟨on, opened, opened'⟩
    · exact .inl (same'.trans same)
    · exact .inr ⟨on, h.symm.opened apart opened, opened'⟩
  · exact .inr ⟨on, opened, h'.opened apart opened'⟩

theorem node?_eq (h : Aside dir t u) {x : List String} (apart : ¬ dir.place <+: x) (off : x ∉ dir.way) :
    u.node? x = t.node? x :=
  (h x apart).resolve_right fun other => off other.1

theorem top (h : Aside dir t u) (apart : ¬ dir.place <+: []) : u.node? [] = t.node? [] := by
  rcases h [] apart with same | ⟨_, opened, opened'⟩
  · exact same
  · rw [opened.dir (by simp [node?_nil]), opened'.dir (by simp [node?_nil])]

theorem changed (h : Aside dir t u) (same : SameBut (differences t u) t' u')
    (kept : ∀ x ∈ differences t u, t.Open x → t'.Open x)
    (kept' : ∀ x ∈ differences t u, u.Open x → u'.Open x) : Aside dir t' u' := by
  intro q apart
  by_cases differ : q ∈ differences t u
  · obtain ⟨on, opened, opened'⟩ := (h q apart).resolve_left differ
    exact .inr ⟨on, kept q differ opened, kept' q differ opened'⟩
  · exact .inl (same q differ)

/-- Above and below a difference there is no file. -/
theorem opened_of_comparable (h : Aside dir t u) {x y : List String} (apart : ¬ dir.place <+: x)
    (apart' : ¬ dir.place <+: y) (differ : u.node? x ≠ t.node? x) (comparable : y <+: x ∨ x <+: y) :
    t.Open y := by
  obtain ⟨_, opened, opened'⟩ := (h x apart).resolve_left differ
  have below : ∀ {v : FileTree}, x <+: y → v.node? x = none → v.Open y := by
    rintro v ⟨more, rfl⟩ gap
    by_cases last : more = []
    · exact .inl (by rwa [last, List.append_nil])
    · exact .inl (node?_of_not_dir (by rw [gap]; simp) last)
  -- One of the trees has a directory at the difference, and the other has nothing there.
  rcases comparable with front | behind
  · rcases opened with gap | dir
    · have dir' := opened'.resolve_left (gap ▸ differ)
      exact h.symm.opened apart' (.inr (dir_above front dir'))
    · exact .inr (dir_above front dir)
  · rcases opened with gap | dir
    · exact below behind gap
    · have gap' := opened'.resolve_right (dir ▸ differ)
      exact h.symm.opened apart' (below behind gap')

theorem makeLast (h : Aside dir t u) (avoids : p.Avoids dir) {name : String}
    (spelled : p.place ∉ dir.way ∨ p = Path.ofComponents p.components)
    (last : p.components = q.components ++ [.normal name]) (checked : checkText p = .ok ())
    (settled : t.Settled q) (settled' : u.Settled q) (opened : ∀ x ∈ p.way, t.Open x)
    (opened' : ∀ x ∈ p.way, u.Open x) :
    (u.makeLast p).1 = (t.makeLast p).1 ∧ Aside dir (t.makeLast p).2 (u.makeLast p).2 := by
  have top : [] ∈ p.way := Path.start_mem_wayFrom [] p.components
  by_cases same : u.node? p.place = t.node? p.place
  · have misses : p.Misses (differences t u) := by
      apply misses_differences
      intro x on
      rcases Path.mem_way_concat last on with above | rfl
      · rw [settled.dirs (opened _ top) x above, settled'.dirs (opened' _ top) x above]
      · exact same
    obtain ⟨result, left⟩ := (sameBut_differences t u).makeLast misses
    exact ⟨result, h.changed left (fun _ _ was => was.madeDirs (madeDirs_makeLast t p))
      fun _ _ was => was.madeDirs (madeDirs_makeLast u p)⟩
  · have there := avoids p.place p.place_mem_way
    obtain ⟨on, here, here'⟩ := (h p.place there).resolve_left same
    have spelled := spelled.resolve_left (not_not.mpr on)
    have made := makeLast_of_open spelled last checked settled (opened _ top) here
    have made' := makeLast_of_open spelled last checked settled' (opened' _ top) here'
    refine ⟨made'.result.trans made.result.symm, fun x apart => ?_⟩
    by_cases own : x = p.place
    · subst own
      exact .inr ⟨on, made.here, made'.here⟩
    · rw [made.others x own, made'.others x own, Open, Open, made.others x own, made'.others x own]
      exact h x apart

/-- Directories on a path that does not come to the directory are made in both trees, or in neither. -/
theorem makeAll {p : Path} (h : Aside dir t u) (avoids : p.Avoids dir) (passable : Passable t u p)
    (spelled : p.place ∉ dir.way ∨ p = Path.ofComponents p.components) :
    (u.makeAll p).1 = (t.makeAll p).1 ∧ Aside dir (t.makeAll p).2 (u.makeAll p).2 := by
  by_cases same : ∀ x ∈ p.way, u.node? x = t.node? x
  · obtain ⟨result, left⟩ := (sameBut_differences t u).makeAll (misses_differences same)
    exact ⟨result, h.changed left (fun _ _ was => was.madeDirs (madeDirs_makeAll t p))
      fun _ _ was => was.madeDirs (madeDirs_makeAll u p)⟩
  · simp only [not_forall] at same
    obtain ⟨x, on, differ⟩ := same
    have opened := passable x on differ
    have opened' : ∀ y ∈ p.way, u.Open y := fun y there => h.opened (avoids y there) (opened y there)
    cases checked : checkText p with
    | error e =>
      rw [makeAll_of_refused checked, makeAll_of_refused checked]
      exact ⟨rfl, h⟩
    | ok =>
      rcases p.parent?_or_top with ⟨q, c, parent, last, kind⟩ | top
      · obtain ⟨_, _, again⟩ := Path.parent?_eq_some parent
        obtain ⟨result, left⟩ := h.makeAll (avoids.parent parent) (passable.parent parent) (.inr again)
        have made := madeDirs_makeAll t q
        have made' := madeDirs_makeAll u q
        rw [makeAll_eq parent checked opened, makeAll_eq parent checked opened']
        rcases front : t.makeAll q with ⟨r, mid⟩
        rcases front' : u.makeAll q with ⟨r', mid'⟩
        rw [front] at result left made
        rw [front'] at result left made'
        cases result
        cases r with
        | error e => exact ⟨rfl, left⟩
        | ok =>
          have settled := settled_makeAll front
          have settled' := settled_makeAll front'
          have openedMid : ∀ y ∈ p.way, mid.Open y := fun y there => (opened y there).madeDirs made
          have openedMid' : ∀ y ∈ p.way, mid'.Open y := fun y there => (opened' y there).madeDirs made'
          rcases kind with rfl | ⟨name, rfl⟩
          · -- A step up makes nothing: it leads back to a directory in both trees.
            have top : [] ∈ p.way := Path.start_mem_wayFrom [] p.components
            have up := isDirectory_of_up last checked settled (openedMid [] top)
            have up' := isDirectory_of_up last checked settled' (openedMid' [] top)
            simpa only [makeLast_of_isDirectory up, makeLast_of_isDirectory up', true_and] using left
          · exact left.makeLast avoids spelled last checked settled settled' openedMid openedMid'
      · rw [top x on, h.top (top x on ▸ avoids x on)] at differ
        exact absurd rfl differ
termination_by p.components.length
decreasing_by simp [last]

theorem makeAbove (h : Aside dir t u) (avoids : p.Avoids dir) (passable : Passable t u p) :
    (u.makeAbove p).1 = (t.makeAbove p).1 ∧ Aside dir (t.makeAbove p).2 (u.makeAbove p).2 := by
  unfold FileTree.makeAbove
  cases parent : p.parent? with
  | none => exact ⟨rfl, h⟩
  | some q =>
    obtain ⟨_, _, again⟩ := Path.parent?_eq_some parent
    exact h.makeAll (avoids.parent parent) (passable.parent parent) (.inr again)

theorem same_way (h : Aside dir t u) (avoids : p.Avoids dir) (off : p.place ∉ dir.way)
    (settled : t.SettledAbove p) (settled' : u.SettledAbove p) :
    ∀ x ∈ p.way, u.node? x = t.node? x := by
  intro x on
  have same : x = [] → u.node? x = t.node? x := by
    rintro rfl
    exact h.top (avoids [] on)
  rcases p.parent?_or_top with ⟨q, c, parent, last, _⟩ | top
  · rcases Path.mem_way_concat last on with above | rfl
    · rcases (settled q parent).top_or_dir above with start | dir
      · exact same start
      · rcases (settled' q parent).top_or_dir above with start | dir'
        · exact same start
        · rw [dir, dir']
    · exact h.node?_eq (avoids _ on) off
  · exact same (top x on)

/-- A file whose path does not come to the directory, and lies nowhere on the way to it, is written in
both trees or in neither. -/
theorem write (h : Aside dir t u) (avoids : p.Avoids dir) (off : p.place ∉ dir.way)
    (passable : Passable t u p) (text : String) :
    (u.write p text).1 = (t.write p text).1 ∧ Aside dir (t.write p text).2 (u.write p text).2 := by
  obtain ⟨result, left⟩ := h.makeAbove avoids passable
  rw [write_eq, write_eq]
  rcases above : t.makeAbove p with ⟨r, mid⟩
  rcases above' : u.makeAbove p with ⟨r', mid'⟩
  rw [above, above'] at result left
  cases result
  cases r with
  | error e => exact ⟨rfl, left⟩
  | ok =>
    have misses : p.Misses (differences mid mid') := misses_differences
      (left.same_way avoids off (settledAbove_makeAbove above) (settledAbove_makeAbove above'))
    have writing := (sameBut_differences mid mid').writeOver misses text
    rcases laid : mid.writeOver p text with e | written <;>
      rcases laid' : mid'.writeOver p text with e' | written' <;>
      rw [laid, laid'] at writing <;> cases writing
    · exact ⟨by simp only [laid, laid'], by simpa only [laid, laid'] using left⟩
    · rename_i same
      have other : ∀ x ∈ differences mid mid', x ≠ p.place := by
        rintro _ differ rfl
        exact misses _ p.place_mem_way differ
      refine ⟨by simp only [laid, laid'], ?_⟩
      simp only [laid, laid']
      apply left.changed same
      · intro x differ opened
        rwa [Open, (node?_writeOver laid).2, if_neg (other x differ)]
      · intro x differ opened
        rwa [Open, (node?_writeOver laid').2, if_neg (other x differ)]

end Aside

theorem aside_makeAbove (within : dir.Within p) (t : FileTree) : Aside dir t (t.makeAbove p).2 := by
  unfold makeAbove
  cases parent : p.parent? with
  | none => exact .refl dir t
  | some q =>
    have made := madeDirs_makeAll t q
    intro x apart
    by_cases on : x ∈ q.way
    · cases there : t.node? x with
      | some n => exact .inl (keeps_madeDirs made x n there)
      | none =>
        have way : x ∈ dir.way := (within.way (way_parent parent on)).resolve_right apart
        exact .inr ⟨way, .inl there, Open.madeDirs (.inl there) made⟩
    · exact .inl (node?_makeAll on)

theorem aside_write (within : dir.Within p) (t : FileTree) (text : String) :
    Aside dir t (t.write p text).2 := by
  have above := aside_makeAbove within t
  have wrote := t.write_wrote p text
  generalize t.write p text = done at wrote
  cases wrote with
  | stopped front | refused front => rwa [front] at above
  | written front writing =>
    rw [front] at above
    intro x apart
    have other : x ≠ p.place := by
      rintro rfl
      exact apart within.place
    rw [Open, Open, (node?_writeOver writing).2, if_neg other]
    exact above x apart

end FileTree

end Transplant
