import Transplant.Proofs.Making

/-! Making a directory with all that is missing above it. Where no file is on the way, this is the same
as making the directories above it first, and only a name that is too long can be in the way. -/
namespace Transplant.FileTree

open Transplant (MadeDirs)

def Open (t : FileTree) (q : List String) : Prop := t.node? q = none ∨ t.node? q = some .dir

variable {t t' : FileTree} {p q : Path}

theorem Open.madeDirs {place : List String} (h : t.Open place) (made : MadeDirs t t') :
    t'.Open place := by
  induction made with
  | none => exact h
  | next first _ ih =>
    apply ih
    rw [Open, (node?_makeDir first).2]
    split
    · exact .inr rfl
    · exact h

theorem Open.dir {place : List String} (h : t.Open place) (there : t.node? place ≠ none) :
    t.node? place = some .dir :=
  h.resolve_left there

def Fits (steps : List Step) : Prop := ∀ name, .down name ∈ steps → name.utf8ByteSize ≤ nameLimit

/-- How a walk ends that meets no file. -/
inductive Walked (t : FileTree) (place : List String) (steps : List Step) :
    Except FileError (List String) → Prop where
  | through (dirs : ∀ x ∈ visited place steps, t.node? x = some .dir) (fits : Fits steps) :
      Walked t place steps (.ok (steps.foldl Step.move place))
  | missing : Walked t place steps (.error .notFound)
  | long (before : List Step) (name : String) (after : List Step)
      (split : steps = before ++ .down name :: after)
      (dirs : ∀ x ∈ visited place before, t.node? x = some .dir) (fits : Fits before)
      (long : nameLimit < name.utf8ByteSize) : Walked t place steps (.error .nameTooLong)

theorem Walked.cons {place : List String} {s : Step} {rest : List Step}
    {r : Except FileError (List String)} (here : t.isDirAt place = true)
    (fits : ∀ name, s = .down name → name.utf8ByteSize ≤ nameLimit)
    (walked : Walked t (s.move place) rest r) : Walked t place (s :: rest) r := by
  have first := isDirAt_iff.mp here
  cases walked with
  | through dirs further =>
    apply Walked.through
    · exact List.forall_mem_cons.mpr ⟨first, dirs⟩
    · rintro name (_ | ⟨_, later⟩)
      · exact fits name rfl
      · exact further name later
  | missing => exact .missing
  | long before name after split dirs further long =>
    refine .long (s :: before) name after (by rw [split]; rfl) ?_ ?_ long
    · exact List.forall_mem_cons.mpr ⟨first, dirs⟩
    · rintro other (_ | ⟨_, later⟩)
      · exact fits other rfl
      · exact further other later

theorem isDirAt_tail {place : List String} (here : t.isDirAt place = true) :
    t.isDirAt place.tail = true := by
  cases place with
  | nil => exact here
  | cons name place =>
    rw [isDirAt_iff, List.reverse_cons] at here
    rw [List.tail_cons, isDirAt_iff]
    exact node?_above (List.cons_ne_nil name []) (by simp [here])

theorem followAll_walked {place : List String} {steps : List Step} (here : t.isDirAt place = true)
    (opened : ∀ x ∈ visited place steps, t.Open x) :
    Walked t place steps (t.followAll place steps) := by
  induction steps generalizing place with
  | nil => exact .through (by simpa [visited] using isDirAt_iff.mp here) (by simp [Fits])
  | cons s rest ih =>
    have later := fun x on => opened x (List.mem_cons_of_mem _ on)
    rw [followAll, if_pos here]
    cases s with
    | stay => exact .cons here (by simp) (ih here later)
    | up => exact .cons here (by simp) (ih (isDirAt_tail here) later)
    | down name =>
      rw [follow]
      split_ifs with long taken
      · exact .long [] name rest rfl (by simpa [visited] using isDirAt_iff.mp here) (by simp [Fits]) long
      · have start := start_mem_visited (name :: place) rest
        have next : t.isDirAt (name :: place) = true :=
          isDirAt_iff.mpr ((later _ start).dir (get?_isSome_iff.mp taken))
        exact .cons here (by simpa using long) (ih next later)
      · exact .missing

theorem followAll_of_long {place : List String} {before after : List Step} {name : String}
    (dirs : ∀ x ∈ visited place before, t.node? x = some .dir) (fits : Fits before)
    (long : nameLimit < name.utf8ByteSize) :
    t.followAll place (before ++ .down name :: after) = .error .nameTooLong := by
  rw [followAll_through dirs fits, followAll, if_pos (isDirAt_of_dirs dirs), follow, if_pos long]
  rfl

theorem locateLast_of_dirs {before : List Step} {last : Step} (checked : checkText p = .ok ())
    (split : steps p = before ++ [last]) (dirs : ∀ x ∈ visited [] before, t.node? x = some .dir)
    (fits : Fits before) : t.locateLast p = .ok (some (before.foldl Step.move [], last)) :=
  locateLast_of_steps checked split (followAll_of_dirs dirs fits) (isDirAt_of_dirs dirs)

theorem locateLast_of_error {before : List Step} {last : Step} {e : FileError}
    (checked : checkText p = .ok ()) (split : steps p = before ++ [last])
    (failed : t.followAll [] before = .error e) : t.locateLast p = .error e := by
  simp [locateLast, checked, split, failed, bind, Except.bind]

theorem makeDir_of_error {e : FileError} (failed : t.locateLast p = .error e) :
    t.makeDir p = .error e := by
  simp [makeDir, failed, bind, Except.bind]

/-- The path goes down by a name that is too long, from a directory. -/
def Blocked (t : FileTree) (p : Path) : Prop :=
  ∃ before name after, p.components = before ++ .normal name :: after ∧
    (∀ x ∈ Path.wayFrom [] before, t.node? x = some .dir) ∧
    (∀ other, .normal other ∈ before → other.utf8ByteSize ≤ nameLimit) ∧
    nameLimit < name.utf8ByteSize

theorem steps_split {before after : List Path.Component} {name : String}
    (whole : p.components = before ++ .normal name :: after) :
    ∃ front back, steps p = front ++ .down name :: back ∧
      (∀ x, x ∈ visited [] front ↔ x ∈ Path.wayFrom [] before) ∧
      ∀ other, .down other ∈ front ↔ .normal other ∈ before := by
  have leads := Path.isLead_lead p.text.toList
  have plain : ∀ other, Path.Component.normal other ∉ Path.lead p.text.toList := by
    intro other
    rcases leads with none | one | one <;> simp [*]
  have parts : ∃ own, before = Path.lead p.text.toList ++ own ∧
      (steps p).filterMap Step.component? = own ++ .normal name :: after := by
    rw [components_eq] at whole
    rcases List.append_eq_append_iff.mp whole with ⟨own, rfl, split⟩ | ⟨more, lead, split⟩
    · exact ⟨own, rfl, split⟩
    · cases more with
      | nil => exact ⟨[], by simpa using lead.symm, split.symm⟩
      | cons c more =>
        obtain ⟨rfl, _⟩ := List.cons.inj split
        exact absurd (by rw [lead]; simp) (plain name)
  obtain ⟨own, rfl, split⟩ := parts
  obtain ⟨front, rest, whole', ownSteps, behind⟩ := List.filterMap_eq_append_iff.mp split
  obtain ⟨silent, s, back, rfl, none, named, _⟩ := List.filterMap_eq_cons_iff.mp behind
  have down : s = .down name := by cases s <;> cases named; rfl
  have same : (front ++ silent).filterMap Step.component? = own := by
    rw [List.filterMap_append, ownSteps, List.filterMap_eq_nil_iff.mpr none, List.append_nil]
  refine ⟨front ++ silent, back, by rw [whole', down, List.append_assoc], ?_, ?_⟩
  · intro x
    rw [mem_visited_iff, same, Path.mem_wayFrom_lead leads]
  · intro other
    have behind : .normal other ∈ Path.lead p.text.toList ++ own ↔ .normal other ∈ own := by
      simp [plain]
    rw [behind, ← same, List.mem_filterMap]
    constructor
    · exact fun there => ⟨_, there, rfl⟩
    · rintro ⟨s, there, same⟩
      cases s <;> cases same
      exact there

theorem Blocked.fails (h : t.Blocked p) (checked : checkText p = .ok ()) :
    t.makeDir p = .error .nameTooLong ∧ t.isDirectory p = false := by
  obtain ⟨before, name, after, whole, dirs, fits, long⟩ := h
  obtain ⟨front, back, split, way, names⟩ := steps_split whole
  have dirs' : ∀ x ∈ visited [] front, t.node? x = some .dir := fun x on => dirs x ((way x).mp on)
  have fits' : Fits front := fun other there => fits other ((names other).mp there)
  constructor
  · rcases List.eq_nil_or_concat back with rfl | ⟨middle, last, rfl⟩
    · rw [makeDir, locateLast_of_dirs checked split dirs' fits']
      simp [bind, Except.bind, follow, long]
    · apply makeDir_of_error
      rw [List.concat_eq_append, ← List.cons_append, ← List.append_assoc] at split
      exact locateLast_of_error checked split (followAll_of_long dirs' fits' long)
  · rw [Bool.eq_false_iff]
    intro there
    obtain ⟨⟨found, located⟩, _⟩ := isDirectory_iff.mp there
    obtain ⟨_, followed, _⟩ := locate_ok located
    rw [split, followAll_of_long dirs' fits' long] at followed
    cases followed

theorem text_ne_of_mem {c : Path.Component} (member : c ∈ p.components) : p.text ≠ "" := by
  intro empty
  rw [Path.components_text, empty] at member
  cases member

theorem Blocked.text_ne (h : t.Blocked p) : p.text ≠ "" := by
  obtain ⟨before, name, after, whole, _⟩ := h
  exact text_ne_of_mem (c := .normal name) (by simp [whole])

/-- What blocks a path blocks the path above it, or is its last name. -/
theorem Blocked.parent (h : t.Blocked p) {c : Path.Component}
    (split : p.components = q.components ++ [c]) (checked : q.text = "" ∨ checkText q = .ok ()) :
    t.Blocked q ∨ t.Settled q := by
  obtain ⟨before, name, after, whole, dirs, fits, long⟩ := h
  rw [split] at whole
  rcases List.eq_nil_or_concat after with rfl | ⟨middle, last, rfl⟩
  · obtain ⟨rfl, _⟩ := List.append_inj' whole rfl
    rcases checked with empty | checked
    · exact .inr (.inl empty)
    · exact .inr (.inr (isDirectory_of_dirs checked dirs fits))
  · rw [List.concat_eq_append, ← List.cons_append, ← List.append_assoc] at whole
    obtain ⟨same, _⟩ := List.append_inj' whole rfl
    exact .inl ⟨before, name, middle, same, dirs, fits, long⟩

theorem blocked_of_steps {before after : List Step} {name : String}
    (split : steps p = before ++ .down name :: after)
    (dirs : ∀ x ∈ visited [] before, t.node? x = some .dir) (fits : Fits before)
    (long : nameLimit < name.utf8ByteSize) : t.Blocked p := by
  have leads := Path.isLead_lead p.text.toList
  refine ⟨Path.lead p.text.toList ++ before.filterMap Step.component?, name,
    after.filterMap Step.component?, ?_, ?_, ?_, long⟩
  · rw [components_eq, split, List.filterMap_append, List.append_assoc]
    rfl
  · intro x on
    rw [Path.mem_wayFrom_lead leads, ← mem_visited_iff] at on
    exact dirs x on
  · intro other member
    rcases List.mem_append.mp member with front | there
    · rcases leads with none | one | one <;> simp_all
    · obtain ⟨s, there, named⟩ := List.mem_filterMap.mp there
      cases s <;> cases named
      exact fits other there

theorem mem_visited_concat {place x : List String} {steps : List Step} {s : Step}
    (on : x ∈ visited place (steps ++ [s])) :
    x ∈ visited place steps ∨ x = (s.move (steps.foldl Step.move place)).reverse := by
  induction steps generalizing place with
  | nil => simpa [visited] using on
  | cons first rest ih =>
    rcases List.mem_cons.mp on with rfl | later
    · exact .inl List.mem_cons_self
    · exact (ih later).imp_left (List.mem_cons_of_mem _)

theorem isDirectory_of_level {before : List Step} {last : Step} (checked : checkText p = .ok ())
    (split : steps p = before ++ [last]) (level : ∀ name, last ≠ .down name)
    (dirs : ∀ x ∈ visited [] before, t.node? x = some .dir) (fits : Fits before) :
    t.isDirectory p = true := by
  apply isDirectory_of_dirs checked
  · intro x on
    rw [mem_way_iff, split] at on
    rcases mem_visited_concat on with there | rfl
    · exact dirs x there
    · have here := isDirAt_of_dirs dirs
      cases last with
      | stay => exact isDirAt_iff.mp here
      | up => exact isDirAt_iff.mp (isDirAt_tail here)
      | down name => exact absurd rfl (level name)
  · intro name member
    rw [← down_mem_steps_iff, split, List.mem_append, List.mem_singleton] at member
    rcases member with there | same
    · exact fits name there
    · exact absurd same.symm (level name)

theorem Open.top (opened : ∀ x ∈ p.way, t.Open x) : t.isDirAt [] = true :=
  isDirAt_iff.mpr ((opened [] (Path.start_mem_wayFrom [] p.components)).dir (by simp [node?_nil]))

/-- A directory that cannot be made, though nothing is missing above it, is blocked there or at its
last name. -/
theorem settled_or_blocked (parent : p.parent? = some q) (checked : checkText p = .ok ())
    (opened : ∀ x ∈ p.way, t.Open x) {e : FileError} (making : t.makeDir p = .error e)
    (reached : e ≠ .notFound) (gap : t.isDirectory p = false) : t.Settled q ∨ t.Blocked p := by
  obtain ⟨c, split, again⟩ := Path.parent?_eq_some parent
  rcases List.eq_nil_or_concat (steps p) with none | ⟨before, last, whole⟩
  · -- Nothing but a lead is left, with nothing in front of it.
    left; left
    have top : q.components = [] := by
      rw [components_eq, none, List.filterMap_nil, List.append_nil] at split
      have length := congrArg List.length split
      rcases Path.isLead_lead p.text.toList with lead | lead | lead <;> rw [lead] at length
      · simp at length
      · simpa using length.symm
      · simpa using length.symm
    rw [again, top]
    rfl
  · rw [List.concat_eq_append] at whole
    have on : ∀ x ∈ visited [] before, t.Open x := fun x there =>
      opened x ((mem_way_iff p x).mpr (by rw [whole]; exact visited_append_left there))
    have walked := followAll_walked (Open.top opened) on
    generalize followed : t.followAll [] before = r at walked
    cases walked with
    | missing =>
      rw [makeDir_of_error (locateLast_of_error checked whole followed)] at making
      exact absurd (Except.error.inj making).symm reached
    | long front name after part dirs fits long =>
      rw [part, List.append_assoc] at whole
      exact .inr (blocked_of_steps whole dirs fits long)
    | through dirs fits =>
      cases last with
      | down name =>
        exact .inl (isDirectory_above parent (locateLast_of_dirs checked whole dirs fits))
      | stay | up =>
        rw [isDirectory_of_level checked whole (by simp) dirs fits] at gap
        cases gap

def makeLast (t : FileTree) (p : Path) : Except FileError Unit × FileTree :=
  match t.makeDir p with
  | .ok made => (.ok (), made)
  | .error e => if t.isDirectory p then (.ok (), t) else (.error e, t)

theorem ancestors_cons (parent : p.parent? = some q) : ancestors p = p :: ancestors q := by
  obtain ⟨c, split, _⟩ := Path.parent?_eq_some parent
  rw [ancestors, split, List.length_append, List.length_singleton, ancestorsUpTo, parent]
  rfl

theorem makeAll_of_blocked (blocked : t.Blocked p) (checked : checkText p = .ok ()) :
    t.makeAll p = (.error .nameTooLong, t) := by
  obtain ⟨above, all⟩ := ancestors_eq p
  obtain ⟨making, gap⟩ := blocked.fails checked
  have some : p.text ≠ "" := (checkText_eq_ok_iff.mp checked).2.1
  simp [makeAll, all, makeDirs, some, making, gap]

theorem makeDirs_of_reached {above : List Path} {e : FileError} (some : p.text ≠ "")
    (making : t.makeDir p = .error e) (reached : e ≠ .notFound) :
    t.makeDirs (p :: above) = t.makeLast p := by
  rw [makeDirs, makeLast, making]
  simp only [String.isEmpty_iff, some, if_false]

/-- Where no file is on the way, a directory is made by making those above it, and then itself. -/
theorem makeAll_eq (parent : p.parent? = some q) (checked : checkText p = .ok ())
    (opened : ∀ x ∈ p.way, t.Open x) :
    t.makeAll p = match t.makeAll q with
      | (.ok (), mid) => mid.makeLast p
      | failed => failed := by
  obtain ⟨c, split, again⟩ := Path.parent?_eq_some parent
  have some : p.text ≠ "" := text_ne_of_mem (c := c) (by simp [split])
  have checkedAbove := checkText_parent parent checked
  rw [makeAll, ancestors_cons parent]
  cases making : t.makeDir p with
  | ok made =>
    obtain ⟨place, name, located, _⟩ := makeDir_steps making
    rw [makeAll_of_settled (isDirectory_above parent located), makeDirs, making]
    simp [makeLast, making, some]
  | error e =>
    by_cases missing : e = .notFound
    · subst missing
      rw [makeDirs, making, makeAll]
      simp only [String.isEmpty_iff, some, if_false]
      rcases t.makeDirs (ancestors q) with ⟨_ | _, mid⟩ <;> rfl
    · rw [makeDirs_of_reached some making missing]
      cases gap : t.isDirectory p with
      | true => rw [makeAll_of_settled (isDirectory_parent parent gap)]
      | false =>
        rcases settled_or_blocked parent checked opened making missing gap with settled | blocked
        · rw [makeAll_of_settled settled]
        rcases blocked.parent split checkedAbove with further | settled
        · have long := (blocked.fails checked).1
          cases making.symm.trans long
          rw [makeAll_of_blocked further (checkedAbove.resolve_left further.text_ne)]
          simp [makeLast, making, gap]
        · rw [makeAll_of_settled settled]

end Transplant.FileTree
