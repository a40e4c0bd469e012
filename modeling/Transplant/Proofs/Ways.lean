import Transplant.Proofs.Nodes

/-! The way that a path takes through a tree. Only what stands on its way decides where a path is
found, and a tree that keeps its directories and its files in their places keeps its paths. -/
namespace Transplant

open FileTree (Step Node)

namespace Path

/-- The places that components lead through, from the place they start at to the last. -/
def wayFrom : List String → List Component → List (List String)
  | place, [] => [place.reverse]
  | place, c :: rest => place.reverse :: wayFrom (c.move place) rest

def way (p : Path) : List (List String) := wayFrom [] p.components

theorem start_mem_wayFrom (place : List String) (cs : List Component) :
    place.reverse ∈ wayFrom place cs := by
  cases cs <;> exact List.mem_cons_self

theorem mem_wayFrom_append (place : List String) (cs more : List Component) (q : List String) :
    q ∈ wayFrom place (cs ++ more) ↔
      q ∈ wayFrom place cs ∨ q ∈ wayFrom (cs.foldl Component.move place) more := by
  induction cs generalizing place with
  | nil =>
    rw [List.nil_append, List.foldl_nil, wayFrom, List.mem_singleton]
    constructor
    · exact .inr
    · rintro (rfl | there)
      · exact start_mem_wayFrom place more
      · exact there
  | cons c rest ih => rw [List.cons_append, wayFrom, wayFrom, List.mem_cons, List.mem_cons, ih,
      List.foldl_cons, or_assoc]

theorem end_mem_wayFrom (place : List String) (cs : List Component) :
    (cs.foldl Component.move place).reverse ∈ wayFrom place cs := by
  induction cs generalizing place with
  | nil => exact List.mem_singleton.mpr rfl
  | cons c rest ih => exact List.mem_cons_of_mem _ (ih (c.move place))

theorem place_mem_way (p : Path) : p.place ∈ p.way := end_mem_wayFrom [] p.components

/-- What can stand in front of the parts of a path. -/
def IsLead (front : List Component) : Prop := front = [] ∨ front = [.root] ∨ front = [.current]

theorem isLead_lead (cs : List Char) : IsLead (lead cs) := by
  unfold lead IsLead
  split
  · simp
  · split <;> simp

theorem mem_wayFrom_lead {front : List Component} (leads : IsLead front) {cs : List Component}
    {q : List String} : q ∈ wayFrom [] (front ++ cs) ↔ q ∈ wayFrom [] cs := by
  have start : [] ∈ wayFrom [] cs := start_mem_wayFrom [] cs
  rcases leads with rfl | rfl | rfl
  · exact Iff.rfl
  · rw [List.singleton_append, wayFrom, List.mem_cons]
    exact ⟨by rintro (rfl | there) <;> assumption, .inr⟩
  · rw [List.singleton_append, wayFrom, List.mem_cons]
    exact ⟨by rintro (rfl | there) <;> assumption, .inr⟩

/-- Behind a directory with names alone, the way goes down from it. -/
theorem mem_wayFrom_of_normal {tail : List Component}
    (normal : tail.all Component.isNormal = true) {place q : List String}
    (there : q ∈ wayFrom place tail) : place.reverse <+: q := by
  induction tail generalizing place with
  | nil =>
    rw [wayFrom, List.mem_singleton] at there
    exact there ▸ List.prefix_refl _
  | cons c rest ih =>
    rw [List.all_cons, Bool.and_eq_true] at normal
    rcases List.mem_cons.mp there with rfl | later
    · exact List.prefix_refl _
    · cases c with
      | normal name =>
        have deeper := ih normal.2 later
        rw [Component.move, List.reverse_cons] at deeper
        exact (List.prefix_append _ _).trans deeper
      | _ => simp [Component.isNormal] at normal

theorem Within.way {base p : Path} (within : base.Within p) {q : List String} (there : q ∈ p.way) :
    q ∈ base.way ∨ base.place <+: q := by
  obtain ⟨tail, normal, split⟩ := within
  rw [Path.way, split, mem_wayFrom_append] at there
  exact there.imp_right (mem_wayFrom_of_normal normal)

end Path

namespace FileTree

def visited : List String → List Step → List (List String)
  | place, [] => [place.reverse]
  | place, s :: rest => place.reverse :: visited (s.move place) rest

def Step.component? : Step → Option Path.Component
  | .stay => none
  | .up => some .parent
  | .down name => some (.normal name)

theorem start_mem_visited (place : List String) (steps : List Step) :
    place.reverse ∈ visited place steps := by
  cases steps <;> exact List.mem_cons_self

theorem mem_visited_iff (place : List String) (steps : List Step) (q : List String) :
    q ∈ visited place steps ↔ q ∈ Path.wayFrom place (steps.filterMap Step.component?) := by
  induction steps generalizing place with
  | nil => exact Iff.rfl
  | cons s rest ih =>
    rw [visited, List.mem_cons, ih]
    cases s with
    | stay =>
      have here : place.reverse ∈ Path.wayFrom place (rest.filterMap Step.component?) :=
        Path.start_mem_wayFrom _ _
      change q = place.reverse ∨ q ∈ Path.wayFrom place _ ↔ q ∈ Path.wayFrom place _
      constructor
      · rintro (rfl | there)
        · exact here
        · exact there
      · exact .inr
    | up => exact List.mem_cons.symm
    | down name => exact List.mem_cons.symm

theorem filterMap_component (parts : List (List Char)) :
    (parts.filterMap stepOf?).filterMap Step.component? = parts.filterMap Path.componentOf? := by
  have same : ∀ part, (stepOf? part).bind Step.component? = Path.componentOf? part := by
    intro part
    fun_cases stepOf? part with
    | case1 => rfl
    | case2 => rfl
    | case3 => rfl
    | case4 nonempty notDot notDots =>
      unfold Path.componentOf?
      split <;> simp_all [Step.component?]
  rw [List.filterMap_filterMap, funext same]

theorem components_eq (p : Path) :
    p.components = Path.lead p.text.toList ++ (steps p).filterMap Step.component? := by
  rw [Path.components_text, Path.componentsOf_eq, steps_text, filterMap_component]

theorem mem_way_iff (p : Path) (q : List String) : q ∈ p.way ↔ q ∈ visited [] (steps p) := by
  rw [mem_visited_iff, Path.way, components_eq, Path.mem_wayFrom_lead (Path.isLead_lead _)]

theorem down_mem_steps_iff (p : Path) (name : String) :
    .down name ∈ steps p ↔ .normal name ∈ p.components := by
  have plain : Path.Component.normal name ∉ Path.lead p.text.toList := by
    rcases Path.isLead_lead p.text.toList with none | one | one <;> simp [*]
  rw [components_eq, List.mem_append, or_iff_right plain, List.mem_filterMap]
  constructor
  · exact fun there => ⟨_, there, rfl⟩
  · rintro ⟨s, there, same⟩
    cases s <;> cases same
    exact there

theorem isDirAt_iff {t : FileTree} {place : List String} :
    t.isDirAt place = true ↔ t.node? place.reverse = some .dir := by
  rw [node?_eq_dir_iff]
  rfl

theorem get?_isSome_iff {t : FileTree} {place : List String} :
    (t.get? place).isSome = true ↔ t.node? place ≠ none := by
  rw [node?]
  cases t.get? place <;> simp

/-! A tree that goes further than another one keeps what is in the other in its place, though files
may change their contents. -/

def Node.isDir : Node → Bool
  | .dir => true
  | .file _ => false

/-- Directories stay directories and files stay files. -/
def Extends (t u : FileTree) : Prop :=
  ∀ q n, t.node? q = some n → ∃ n', u.node? q = some n' ∧ n'.isDir = n.isDir

namespace Extends

variable {t u : FileTree}

theorem refl (t : FileTree) : Extends t t := fun _ n there => ⟨n, there, rfl⟩

theorem trans {v : FileTree} (h : Extends t u) (h' : Extends u v) : Extends t v := by
  intro q n there
  obtain ⟨n', there', same⟩ := h q n there
  obtain ⟨n'', there'', same'⟩ := h' q n' there'
  exact ⟨n'', there'', same'.trans same⟩

theorem dir (h : Extends t u) {q : List String} (there : t.node? q = some .dir) :
    u.node? q = some .dir := by
  obtain ⟨n, found, same⟩ := h q _ there
  cases n with
  | dir => exact found
  | file contents => cases same

theorem file (h : Extends t u) {q : List String} {contents : Contents}
    (there : t.node? q = some (.file contents)) : ∃ contents', u.node? q = some (.file contents') := by
  obtain ⟨n, found, same⟩ := h q _ there
  cases n with
  | dir => cases same
  | file contents' => exact ⟨contents', found⟩

theorem some (h : Extends t u) {q : List String} (there : t.node? q ≠ none) : u.node? q ≠ none := by
  obtain ⟨n, found⟩ := Option.ne_none_iff_exists'.mp there
  obtain ⟨n', found', _⟩ := h q n found
  simp [found']

theorem follow (h : Extends t u) {place found : List String} {s : Step}
    (ok : t.follow place s = .ok found) : u.follow place s = .ok found := by
  cases s with
  | stay => exact ok
  | up => exact ok
  | down name =>
    rw [FileTree.follow] at ok ⊢
    split at ok
    · cases ok
    · rename_i short
      rw [if_neg short]
      split at ok
      · rename_i there
        rw [if_pos (get?_isSome_iff.mpr (h.some (get?_isSome_iff.mp there)))]
        exact ok
      · cases ok

theorem isDirAt (h : Extends t u) {place : List String} (there : t.isDirAt place = true) :
    u.isDirAt place = true :=
  isDirAt_iff.mpr (h.dir (isDirAt_iff.mp there))

theorem followAll (h : Extends t u) {place found : List String} {steps : List Step}
    (ok : t.followAll place steps = .ok found) : u.followAll place steps = .ok found := by
  induction steps generalizing place with
  | nil => exact ok
  | cons s rest ih =>
    rw [FileTree.followAll] at ok ⊢
    split at ok
    · rename_i there
      rw [if_pos (h.isDirAt there)]
      cases followed : t.follow place s with
      | error e => rw [followed] at ok; cases ok
      | ok next =>
        rw [followed] at ok
        rw [h.follow followed]
        exact ih ok
    · cases ok

theorem locate (h : Extends t u) {p : Path} {found : List String} (ok : t.locate p = .ok found) :
    u.locate p = .ok found := by
  unfold FileTree.locate at ok ⊢
  cases checked : checkText p with
  | error e => rw [checked] at ok; cases ok
  | ok =>
    rw [checked] at ok
    cases followed : t.followAll [] (steps p) with
    | error e => simp only [followed] at ok; cases ok
    | ok place =>
      simp only [followed] at ok
      simp only [h.followAll followed]
      change (if p.endsInSlash && !t.isDirAt place then _ else _) = _ at ok
      change (if p.endsInSlash && !u.isDirAt place then _ else _) = _
      split at ok
      · cases ok
      · rename_i open'
        cases slash : p.endsInSlash with
        | false => exact ok
        | true =>
          have there : t.isDirAt place = true := by simpa [slash] using open'
          rw [h.isDirAt there]
          exact ok

end Extends

theorem locate_ok {t : FileTree} {p : Path} {found : List String} (ok : t.locate p = .ok found) :
    checkText p = .ok () ∧ t.followAll [] (steps p) = .ok found ∧ found.reverse = p.place := by
  unfold locate at ok
  cases checked : checkText p with
  | error e => rw [checked] at ok; cases ok
  | ok u =>
    cases u
    rw [checked] at ok
    cases followed : t.followAll [] (steps p) with
    | error e => simp only [followed] at ok; cases ok
    | ok place =>
      simp only [followed] at ok
      change (if p.endsInSlash && !t.isDirAt place then Except.error FileError.notDirectory
        else .ok place) = _ at ok
      split at ok
      · cases ok
      · cases ok
        refine ⟨rfl, rfl, ?_⟩
        rw [followAll_ok followed, steps_lead, List.reverse_reverse]

/-- A path is found where it leads. -/
theorem find_eq {t : FileTree} {p : Path} {place : List String} (located : t.locate p = .ok place) :
    t.find p = (t.get? place.reverse).elim (.error .notFound) .ok := by
  simp only [find, located, bind, Except.bind]
  cases t.get? place.reverse <;> rfl

theorem find_ok_iff {t sub : FileTree} {p : Path} :
    t.find p = .ok sub ↔ (∃ found, t.locate p = .ok found) ∧ t.get? p.place = some sub := by
  cases located : t.locate p with
  | error e => simp [find, located, bind, Except.bind]
  | ok found =>
    rw [find_eq located, ← (locate_ok located).2.2]
    cases t.get? found.reverse <;> simp

theorem isDirectory_iff {t : FileTree} {p : Path} :
    t.isDirectory p = true ↔ (∃ found, t.locate p = .ok found) ∧ t.node? p.place = some .dir := by
  rw [node?_eq_dir_iff, isDirectory]
  cases found : t.find p with
  | error e =>
    constructor
    · intro h; cases h
    · rintro ⟨located, there⟩
      cases here : t.get? p.place with
      | none => rw [here] at there; cases there
      | some sub => rw [find_ok_iff.mpr ⟨located, here⟩] at found; cases found
  | ok sub =>
    obtain ⟨located, there⟩ := find_ok_iff.mp found
    simp [located, there]

theorem Extends.isDirectory {t u : FileTree} (h : Extends t u) {p : Path}
    (there : t.isDirectory p = true) : u.isDirectory p = true := by
  obtain ⟨⟨found, located⟩, dir⟩ := isDirectory_iff.mp there
  exact isDirectory_iff.mpr ⟨⟨found, h.locate located⟩, h.dir dir⟩

/-! What stands on the way of a path decides where it leads, and of a file its being there. -/

/-- The same kind of thing stands at the place in both trees. -/
def SameKind (t u : FileTree) (q : List String) : Prop :=
  (u.node? q).map Node.isDir = (t.node? q).map Node.isDir

section SameKind

variable {t u : FileTree}

theorem isDirAt_eq_kind (t : FileTree) (place : List String) :
    t.isDirAt place = ((t.node? place.reverse).map Node.isDir).getD false := by
  rw [isDirAt, node?]
  cases t.get? place.reverse with
  | none => rfl
  | some sub => cases sub <;> rfl

theorem isDirAt_congr {place : List String} (same : SameKind t u place.reverse) :
    u.isDirAt place = t.isDirAt place := by
  rw [isDirAt_eq_kind, isDirAt_eq_kind, same]

theorem follow_congr {place : List String} {s : Step} (same : SameKind t u (s.move place).reverse) :
    u.follow place s = t.follow place s := by
  cases s with
  | stay => rfl
  | up => rfl
  | down name =>
    have taken : (u.get? (name :: place).reverse).isSome = (t.get? (name :: place).reverse).isSome := by
      have some := congrArg Option.isSome same
      simpa [node?, Step.move] using some
    rw [follow, follow, taken]

theorem followAll_congr {place : List String} {steps : List Step}
    (same : ∀ q ∈ visited place steps, SameKind t u q) :
    u.followAll place steps = t.followAll place steps := by
  induction steps generalizing place with
  | nil => rfl
  | cons s rest ih =>
    have next : SameKind t u (s.move place).reverse :=
      same _ (List.mem_cons_of_mem _ (start_mem_visited _ rest))
    rw [followAll, followAll, isDirAt_congr (same _ List.mem_cons_self), follow_congr next]
    split_ifs with here
    · cases followed : t.follow place s with
      | error e => rfl
      | ok mid =>
        cases follow_ok followed
        exact ih fun q later => same q (List.mem_cons_of_mem _ later)
    · rfl

theorem visited_append_left {place q : List String} {before after : List Step}
    (there : q ∈ visited place before) : q ∈ visited place (before ++ after) := by
  induction before generalizing place with
  | nil =>
    rw [visited, List.mem_singleton] at there
    subst there
    exact start_mem_visited place after
  | cons s rest ih =>
    rcases List.mem_cons.mp there with rfl | later
    · exact List.mem_cons_self
    · exact List.mem_cons_of_mem _ (ih later)

theorem end_mem_visited (place : List String) (steps : List Step) :
    (steps.foldl Step.move place).reverse ∈ visited place steps := by
  induction steps generalizing place with
  | nil => exact List.mem_singleton.mpr rfl
  | cons s rest ih => exact List.mem_cons_of_mem _ (ih (s.move place))

theorem locate_congr {p : Path} (same : ∀ q ∈ p.way, SameKind t u q) : u.locate p = t.locate p := by
  have followed : u.followAll [] (steps p) = t.followAll [] (steps p) :=
    followAll_congr fun q visited => same q ((mem_way_iff p q).mpr visited)
  unfold locate
  rw [followed]
  cases ended : t.followAll [] (steps p) with
  | error e => rfl
  | ok place =>
    have last : place.reverse = p.place := by
      rw [followAll_ok ended, steps_lead, List.reverse_reverse]
    change (do checkText p; if p.endsInSlash && !u.isDirAt place then _ else _) =
      (do checkText p; if p.endsInSlash && !t.isDirAt place then _ else _)
    rw [isDirAt_congr (last ▸ same _ p.place_mem_way)]

theorem locateLast_congr {p : Path} (same : ∀ q ∈ p.way, SameKind t u q) :
    u.locateLast p = t.locateLast p := by
  unfold locateLast
  cases back : (steps p).reverse with
  | nil => rfl
  | cons last before =>
    have split : steps p = before.reverse ++ [last] := by
      rw [← List.reverse_reverse (steps p), back, List.reverse_cons]
    have front : ∀ q ∈ visited [] before.reverse, SameKind t u q := by
      intro q there
      apply same q ((mem_way_iff p q).mpr _)
      rw [split]
      exact visited_append_left there
    simp only [followAll_congr front]
    cases ended : t.followAll [] before.reverse with
    | error e => rfl
    | ok place =>
      have here : u.isDirAt place = t.isDirAt place := by
        rw [followAll_ok ended]
        exact isDirAt_congr (front _ (end_mem_visited [] before.reverse))
      change (do checkText p; if u.isDirAt place then _ else _) =
        (do checkText p; if t.isDirAt place then _ else _)
      rw [here]

end SameKind

theorem followAll_append {t : FileTree} {place found : List String} {steps : List Step} {s : Step} :
    t.followAll place (steps ++ [s]) = .ok found ↔
      ∃ mid, t.followAll place steps = .ok mid ∧ t.isDirAt mid = true ∧ t.follow mid s = .ok found := by
  induction steps generalizing place with
  | nil =>
    rw [List.nil_append, followAll, followAll]
    by_cases there : t.isDirAt place = true
    · cases followed : t.follow place s <;> simp [bind, Except.bind, followAll, there, followed]
    · simp [there]
  | cons first rest ih =>
    rw [List.cons_append, followAll, followAll]
    by_cases there : t.isDirAt place = true
    · rw [if_pos there, if_pos there]
      cases followed : t.follow place first with
      | error e => simp [bind, Except.bind]
      | ok next => exact ih
    · simp [there]

/-- All that stands on the way to a directory is a directory. -/
theorem dirs_of_followAll {t : FileTree} {place found : List String} {steps : List Step}
    (ok : t.followAll place steps = .ok found) (dir : t.isDirAt found = true) {q : List String}
    (there : q ∈ visited place steps) : t.node? q = some .dir := by
  induction steps generalizing place with
  | nil =>
    cases ok
    rw [visited, List.mem_singleton] at there
    rw [there, ← isDirAt_iff, dir]
  | cons s rest ih =>
    rw [followAll] at ok
    split at ok
    · rename_i here
      cases followed : t.follow place s with
      | error e => rw [followed] at ok; cases ok
      | ok next =>
        rw [followed] at ok
        rcases List.mem_cons.mp there with rfl | later
        · exact isDirAt_iff.mp here
        · cases follow_ok followed
          exact ih ok later
    · cases ok

theorem dirs_of_isDirectory {t : FileTree} {p : Path} (there : t.isDirectory p = true)
    {q : List String} (on : q ∈ p.way) : t.node? q = some .dir := by
  obtain ⟨⟨found, located⟩, dir⟩ := isDirectory_iff.mp there
  obtain ⟨_, followed, place⟩ := locate_ok located
  have here : t.isDirAt found = true := by rw [isDirAt_iff, place, dir]
  exact dirs_of_followAll followed here ((mem_way_iff p q).mp on)

theorem fits_of_followAll {t : FileTree} {place found : List String} {steps : List Step}
    (ok : t.followAll place steps = .ok found) {name : String} (there : .down name ∈ steps) :
    name.utf8ByteSize ≤ nameLimit := by
  induction steps generalizing place with
  | nil => cases there
  | cons s rest ih =>
    rw [followAll] at ok
    split at ok
    · cases followed : t.follow place s with
      | error e => rw [followed] at ok; cases ok
      | ok next =>
        rw [followed] at ok
        rcases List.mem_cons.mp there with rfl | later
        · rw [follow] at followed
          split at followed
          · cases followed
          · rename_i short
            exact Nat.le_of_not_lt short
        · exact ih ok later
    · cases ok

theorem follow_of_dir {t : FileTree} {place : List String} {s : Step}
    (next : t.node? (s.move place).reverse = some .dir)
    (fits : ∀ name, s = .down name → name.utf8ByteSize ≤ nameLimit) :
    t.follow place s = .ok (s.move place) := by
  cases s with
  | stay => rfl
  | up => rfl
  | down name =>
    have there : t.node? (name :: place).reverse = some .dir := next
    have taken := get?_isSome_iff.mpr (by rw [there]; exact Option.some_ne_none _)
    rw [follow, if_neg (Nat.not_lt.mpr (fits name rfl)), if_pos taken]
    rfl

/-- Steps through directories lead to where they go, and what is behind them goes on from there. -/
theorem followAll_through {t : FileTree} {place : List String} {steps : List Step}
    (dirs : ∀ q ∈ visited place steps, t.node? q = some .dir)
    (fits : ∀ name, .down name ∈ steps → name.utf8ByteSize ≤ nameLimit) (behind : List Step) :
    t.followAll place (steps ++ behind) = t.followAll (steps.foldl Step.move place) behind := by
  induction steps generalizing place with
  | nil => rfl
  | cons s rest ih =>
    have here : t.isDirAt place = true := isDirAt_iff.mpr (dirs _ List.mem_cons_self)
    have later := fun q on => dirs q (List.mem_cons_of_mem _ on)
    have next := follow_of_dir (later _ (start_mem_visited (s.move place) rest))
      fun name same => fits name (by simp [same])
    rw [List.cons_append, followAll, if_pos here, next]
    exact ih later fun name member => fits name (List.mem_cons_of_mem _ member)

theorem followAll_of_dirs {t : FileTree} {place : List String} {steps : List Step}
    (dirs : ∀ q ∈ visited place steps, t.node? q = some .dir)
    (fits : ∀ name, .down name ∈ steps → name.utf8ByteSize ≤ nameLimit) :
    t.followAll place steps = .ok (steps.foldl Step.move place) := by
  have whole := followAll_through dirs fits []
  rwa [List.append_nil] at whole

theorem isDirAt_of_dirs {t : FileTree} {place : List String} {steps : List Step}
    (dirs : ∀ q ∈ visited place steps, t.node? q = some .dir) :
    t.isDirAt (steps.foldl Step.move place) = true :=
  isDirAt_iff.mpr (dirs _ (end_mem_visited place steps))

theorem isDirectory_of_dirs {t : FileTree} {p : Path} (checked : checkText p = .ok ())
    (dirs : ∀ q ∈ p.way, t.node? q = some .dir)
    (fits : ∀ name, .normal name ∈ p.components → name.utf8ByteSize ≤ nameLimit) :
    t.isDirectory p = true := by
  have through : ∀ q ∈ visited [] (steps p), t.node? q = some .dir :=
    fun q there => dirs q ((mem_way_iff p q).mpr there)
  have followed := followAll_of_dirs through fun name there =>
    fits name ((down_mem_steps_iff p name).mp there)
  have here := isDirAt_of_dirs through
  refine isDirectory_iff.mpr ⟨⟨(steps p).foldl Step.move [], ?_⟩, dirs _ p.place_mem_way⟩
  rw [locate, checked, followed]
  change (if p.endsInSlash && !t.isDirAt _ then _ else _) = _
  simp [here]

end FileTree

end Transplant
