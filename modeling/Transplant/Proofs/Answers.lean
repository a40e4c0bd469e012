import Transplant.Proofs.Looking

/-! Outsides that answer from a tree. Each call has the answer that the tree gives, and does to it
what such a call does; at most, calls that would change the tree are interrupted and leave it as it is.
On such an outside the course of a build is one of its steps on the tree. -/
namespace Transplant

/-- The call has the answer that the tree gives and leaves the tree that it makes. -/
def Call.OnTree (t u : FileTree) : Call → Prop
  | .read p r => r = t.read p ∧ u = t
  | .write p text r => t.write p text = (r, u)
  | .createDir p r => t.makeAll p = (r, u)
  | .contains p r => r = t.exists? p ∧ u = t
  | .walk p r => r = t.walk p ∧ u = t
  | .asked _ _ => u = t

def Call.written? : Call → Option Path
  | .write p _ (.ok ()) => some p
  | _ => none

theorem OnlyLooks.writesNothing {calls : List Call} (looks : OnlyLooks calls) :
    calls.filterMap Call.written? = [] := by
  apply List.filterMap_eq_nil_iff.mpr
  intro c member
  have look := looks c member
  cases c <;> simp_all [Call.isLook, Call.written?]

inductive Call.Interrupted : Call → Prop where
  | write (p : Path) (text : String) (e : FileError) : Interrupted (.write p text (.error e))
  | createDir (p : Path) (e : FileError) : Interrupted (.createDir p (.error e))

namespace Outside

variable {σ : Type} {o : Outside σ} {tree : σ → FileTree} {may : Prop} {e e' : σ} {c : Call}
  {calls : List Call}

/-- From a state on, all calls are answered from the tree, or interrupted if that may happen. -/
def Follows (o : Outside σ) (tree : σ → FileTree) (may : Prop) (e : σ) : Prop :=
  ∀ calls e₁ c e₂, o.Leads e calls e₁ → o.Answers e₁ c e₂ →
    c.OnTree (tree e₁) (tree e₂) ∨ may ∧ c.Interrupted ∧ tree e₂ = tree e₁

theorem Follows.later (h : o.Follows tree may e) (leads : o.Leads e calls e') :
    o.Follows tree may e' :=
  fun more e₁ c e₂ further answer => h (calls ++ more) e₁ c e₂ (leads.append further) answer

theorem Follows.answer (h : o.Follows tree may e) (leads : o.Leads e [c] e') :
    c.OnTree (tree e) (tree e') ∨ may ∧ c.Interrupted ∧ tree e' = tree e := by
  cases leads with
  | cons answer rest =>
    cases rest
    exact h [] e c e' .nil answer

end Outside

namespace World

variable {may : Prop} {w w' : World} {c : Call} {calls : List Call}

def OnlyInterrupts (may : Prop) (w : World) : Prop :=
  ∀ f ∈ w.faults, may ∧ (f.access = .write ∨ f.access = .createDir)

theorem OnlyInterrupts.of_fault (h : w.OnlyInterrupts may) {access : Access} {p : Path}
    {e : FileError} (fault : w.fault? access p = some e) :
    may ∧ (access = .write ∨ access = .createDir) := by
  rw [fault?, Option.map_eq_some_iff] at fault
  obtain ⟨f, found, _⟩ := fault
  have same := List.find?_some found
  rw [Bool.and_eq_true, beq_iff_eq] at same
  rw [← same.1]
  exact h f (List.mem_of_find?_eq_some found)

theorem faults_of_answer (answer : outside.Answers w c w') : w'.faults = w.faults := by
  cases c with
  | read p r =>
    have came : w.read p = (r, w') := answer
    unfold read at came
    split at came <;> cases came <;> rfl
  | write p text r =>
    have came : w.write p text = (r, w') := answer
    unfold write at came
    split at came <;> cases came <;> rfl
  | createDir p r =>
    have came : w.createDir p = (r, w') := answer
    unfold createDir at came
    split at came <;> cases came <;> rfl
  | contains p r => cases answer; rfl
  | walk p r =>
    have came : w.walk p = (r, w') := answer
    unfold walk at came
    split at came <;> cases came <;> rfl
  | asked q r => cases answer; rfl

theorem OnlyInterrupts.leads (h : w.OnlyInterrupts may) (leads : outside.Leads w calls w') :
    w'.OnlyInterrupts may := by
  induction leads with
  | nil => exact h
  | cons answer _ ih =>
    apply ih
    rw [OnlyInterrupts, faults_of_answer answer]
    exact h

theorem OnlyInterrupts.answer (h : w.OnlyInterrupts may) (answer : outside.Answers w c w') :
    c.OnTree w.tree w'.tree ∨ may ∧ c.Interrupted ∧ w'.tree = w.tree := by
  cases c with
  | read p r =>
    have came : w.read p = (r, w') := answer
    unfold read at came
    split at came
    · rename_i e fault
      obtain ⟨_, no | no⟩ := h.of_fault fault <;> cases no
    · cases came
      exact .inl ⟨rfl, rfl⟩
  | write p text r =>
    have came : w.write p text = (r, w') := answer
    unfold write at came
    split at came
    · rename_i e fault
      cases came
      exact .inr ⟨(h.of_fault fault).1, .write p text e, rfl⟩
    · cases came
      exact .inl rfl
  | createDir p r =>
    have came : w.createDir p = (r, w') := answer
    unfold createDir at came
    split at came
    · rename_i e fault
      cases came
      exact .inr ⟨(h.of_fault fault).1, .createDir p e, rfl⟩
    · cases came
      exact .inl rfl
  | contains p r => cases answer; exact .inl ⟨rfl, rfl⟩
  | walk p r =>
    have came : w.walk p = (r, w') := answer
    unfold walk at came
    split at came
    · rename_i e fault
      obtain ⟨_, no | no⟩ := h.of_fault fault <;> cases no
    · cases came
      exact .inl ⟨rfl, rfl⟩
  | asked q r => cases answer; exact .inl rfl

theorem follows (h : w.OnlyInterrupts may) : outside.Follows World.tree may w :=
  fun _ _ _ _ leads answer => (h.leads leads).answer answer

theorem follows_ofTree (t : FileTree) : outside.Follows World.tree may (ofTree t []) :=
  follows (by simp [OnlyInterrupts, ofTree])

end World

variable {σ : Type} {o : Outside σ} {tree : σ → FileTree} {may : Prop} {e e' : σ} {calls : List Call}

namespace Outside.Follows

variable {p : Path}

theorem read (follows : o.Follows tree may e) {r : Except FileError String}
    (leads : o.Leads e [.read p r] e') : r = (tree e).read p ∧ tree e' = tree e := by
  rcases follows.answer leads with on | ⟨_, no, _⟩
  · exact on
  · cases no

theorem contains (follows : o.Follows tree may e) {r : Bool}
    (leads : o.Leads e [.contains p r] e') : r = (tree e).exists? p ∧ tree e' = tree e := by
  rcases follows.answer leads with on | ⟨_, no, _⟩
  · exact on
  · cases no

theorem walk (follows : o.Follows tree may e) {r : Except FileError (List Path)}
    (leads : o.Leads e [.walk p r] e') : r = (tree e).walk p ∧ tree e' = tree e := by
  rcases follows.answer leads with on | ⟨_, no, _⟩
  · exact on
  · cases no

end Outside.Follows

theorem listAt_of_not_exists {t : FileTree} {dir : Path} (missing : t.exists? dir = false) :
    t.listAt dir = [] := by
  unfold FileTree.exists? at missing
  rw [FileTree.listAt, FileTree.walk]
  cases found : t.find dir with
  | error e => rfl
  | ok sub => rw [found] at missing; cases missing

theorem Listed.listAt {dir : Path} {files : List Path} (listed : Listed dir calls files)
    (follows : o.Follows tree may e) (leads : o.Leads e calls e') :
    tree e' = tree e ∧ files = (tree e).listAt dir := by
  cases listed with
  | missing =>
    obtain ⟨none, same⟩ := follows.contains leads
    exact ⟨same, (listAt_of_not_exists none.symm).symm⟩
  | @unlisted error =>
    obtain ⟨mid, first, rest⟩ := leads.uncons
    obtain ⟨_, same⟩ := follows.contains first
    obtain ⟨walked, same'⟩ := (follows.later first).walk rest
    rw [same] at walked same'
    exact ⟨same', by rw [FileTree.listAt, ← walked]⟩
  | files =>
    obtain ⟨mid, first, rest⟩ := leads.uncons
    obtain ⟨_, same⟩ := follows.contains first
    obtain ⟨walked, same'⟩ := (follows.later first).walk rest
    rw [same] at walked same'
    exact ⟨same', by rw [FileTree.listAt, ← walked]⟩

namespace Build

open FileTree (Beside)

theorem Went.append {steps more : List Step} {t mid u : FileTree} {ok : Bool}
    (h : Went may steps t mid true) (h' : Went may more mid u ok) :
    Went may (steps ++ more) t u ok := by
  have done := h.done
  clear h
  induction done with
  | nil => exact h'
  | cons first _ ih => exact .next first (ih h')

theorem Went.stopped {steps : List Step} {t u : FileTree} (h : Went may steps t u false)
    (more : List Step) : Went may (steps ++ more) t u false := by
  generalize cut : false = ok at h
  induction h with
  | whole => cases cut
  | interrupted h => exact .interrupted h
  | failed fails => exact .failed fails
  | next first _ ih => exact .next first (ih cut)

theorem Step.Did.went {s : Step} {r : Except BuildError Unit} (did : s.Did calls r)
    (follows : o.Follows tree may e) (leads : o.Leads e calls e') :
    Went may [s] (tree e) (tree e') r.isOk := by
  cases did with
  | wrote =>
    rcases follows.answer leads with on | ⟨_, no, _⟩
    · exact .next (.wrote on) .whole
    · cases no
  | notWritten =>
    rcases follows.answer leads with on | ⟨h, _, same⟩
    · exact .failed (.notWritten on)
    · rw [same]
      exact .interrupted h
  | made =>
    rcases follows.answer leads with on | ⟨_, no, _⟩
    · exact .next (.made on) .whole
    · cases no
  | notMade =>
    rcases follows.answer leads with on | ⟨h, _, same⟩
    · exact .failed (.notMade on)
    · rw [same]
      exact .interrupted h
  | refused =>
    cases leads
    exact .failed .refused

theorem Ran.went {steps : List Step} {r : Except BuildError Unit} (ran : Ran steps calls r)
    (follows : o.Follows tree may e) (leads : o.Leads e calls e') :
    Went may steps (tree e) (tree e') r.isOk := by
  induction ran generalizing e with
  | done =>
    cases leads
    exact .whole
  | next did _ ih =>
    obtain ⟨mid, first, rest⟩ := leads.split
    exact (did.went follows first).append (ih (follows.later first) rest)
  | @stopped s rest calls error did => exact (did.went follows leads).stopped rest

def templatesIn (views : Path) (t : FileTree) : List (Path × String) :=
  (t.listAt views).filterMap (Rails.Template.named? views)

def conversionOf (root : Path) (t : FileTree) (template : Path × String) : Step :=
  conversionStep root template.2 (orEmpty (t.read template.1))

def conversions (views root : Path) (t : FileTree) : List Step :=
  (templatesIn views t).map (conversionOf root t)

def targets (views root : Path) (t : FileTree) : List Path :=
  (templatesIn views t).map fun template => conversionTarget root template.2

theorem stepsWithin_conversions (views root : Path) (t : FileTree) :
    StepsWithin root (conversions views root t) := by
  intro s member
  obtain ⟨template, _, rfl⟩ := List.mem_map.mp member
  exact stepsWithin_conversion root _ _ _ List.mem_cons_self

theorem named_of_mem {views : Path} {t : FileTree} {template : Path × String}
    (member : template ∈ templatesIn views t) :
    template.1 ∈ t.listAt views ∧ Rails.Template.named? views template.1 = some template := by
  obtain ⟨p, listed, named⟩ := List.mem_filterMap.mp member
  have source : template.1 = p := by
    rw [Rails.Template.named?] at named
    simp only [Option.bind_eq_bind, Option.bind_eq_some_iff, Option.pure_def, Option.some.injEq] at named
    obtain ⟨_, _, _, _, rfl⟩ := named
    rfl
  rw [source]
  exact ⟨listed, named⟩

theorem Converted.targets_eq {root : Path} {templates : List (Path × String)} {calls : List Call}
    {targets : List Path} (converted : Converted root templates calls (.ok targets)) :
    targets = templates.map fun template => conversionTarget root template.2 := by
  generalize hr : Except.ok targets = r at converted
  induction converted generalizing targets with
  | done =>
    cases hr
    rfl
  | @next _ _ _ _ _ _ r did _ ih =>
    cases r with
    | error e => cases hr
    | ok rest =>
      cases hr
      rw [ih rfl, List.map_cons]
  | stopped did => cases hr

/-- The texts that are read while templates are converted are those of the start, as long as what keeps them
is kept by every conversion. -/
theorem Converted.went_of {root : Path} {t : FileTree} {templates : List (Path × String)}
    {r : Except BuildError (List Path)} (converted : Converted root templates calls r)
    {Kept : FileTree → Prop}
    (steady : ∀ template ∈ templates, ∀ u, Kept u → u.read template.1 = t.read template.1)
    (step : ∀ template ∈ templates, ∀ text u v,
      Went may [conversionStep root template.2 text] u v true → Kept u → Kept v)
    (kept : Kept (tree e)) (follows : o.Follows tree may e) (leads : o.Leads e calls e') :
    Went may (templates.map (conversionOf root t)) (tree e) (tree e') r.isOk ∧
      Ran (templates.map (conversionOf root t)) (calls.filter Call.isChange) (r.map fun _ => ()) := by
  -- On the templates: what is kept holds behind each of them, so the next one reads as at the start.
  induction converted generalizing e with
  | done =>
    cases leads
    exact ⟨.whole, .done⟩
  | @next source name rest calls more found r did later ih =>
    obtain ⟨mid, look, behind⟩ := leads.uncons
    obtain ⟨answer, same⟩ := follows.read look
    obtain ⟨last, first, rest'⟩ := behind.split
    have text : found = t.read source := by
      rw [answer, steady _ List.mem_cons_self _ kept]
    have went := did.went (follows.later look) first
    rw [same] at went
    obtain ⟨goes, runs⟩ := ih (fun template member => steady template (List.mem_cons_of_mem _ member))
      (fun template member => step template (List.mem_cons_of_mem _ member))
      (step _ List.mem_cons_self _ _ _ went kept) ((follows.later look).later first) rest'
    rw [text] at went did
    constructor
    · have whole := went.append goes
      cases r <;> exact whole
    · rw [List.filter_cons_of_neg (by simp [Call.isChange, Call.changed?]), List.filter_append,
        did.filter_isChange]
      have whole := Ran.next did runs
      cases r <;> exact whole
  | @stopped source name rest calls found error did =>
    obtain ⟨mid, look, behind⟩ := leads.uncons
    obtain ⟨answer, same⟩ := follows.read look
    have text : found = t.read source := by
      rw [answer, steady _ List.mem_cons_self _ kept]
    have went := did.went (follows.later look) behind
    rw [same, text] at went
    rw [text] at did
    refine ⟨went.stopped _, ?_⟩
    rw [List.filter_cons_of_neg (by simp [Call.isChange, Call.changed?]), did.filter_isChange]
    exact .stopped did

theorem Converted.went {root : Path} {t : FileTree} {templates : List (Path × String)}
    {r : Except BuildError (List Path)} (converted : Converted root templates calls r)
    (steady : ∀ template ∈ templates, ∀ u, Beside root.place t u → u.read template.1 = t.read template.1)
    (beside : Beside root.place t (tree e)) (follows : o.Follows tree may e)
    (leads : o.Leads e calls e') :
    Went may (templates.map (conversionOf root t)) (tree e) (tree e') r.isOk ∧
      Ran (templates.map (conversionOf root t)) (calls.filter Call.isChange) (r.map fun _ => ()) :=
  converted.went_of steady (fun template _ text _ _ went kept =>
    kept.trans (went.beside (stepsWithin_conversion root template.2 text))) beside follows leads

theorem Converted.written {root : Path} {templates : List (Path × String)} {found : List Path}
    (converted : Converted root templates calls (.ok found)) :
    calls.filterMap Call.written? = found := by
  generalize whole : Except.ok found = r at converted
  induction converted generalizing found with
  | done => cases whole; rfl
  | stopped _ => cases whole
  | @next source name rest calls more text r did _ ih =>
    cases r with
    | error e => cases whole
    | ok targets =>
      cases whole
      have target : calls.filterMap Call.written? = [conversionTarget root name] := by
        rw [conversionStep] at did
        split at did <;> cases did
        rfl
      rw [List.filterMap_cons_none rfl, List.filterMap_append, target, ih rfl]
      rfl

def projectOf (plan : Plan) (views root : Path) (package : String) (t : FileTree) : Project :=
  ⟨root, plan.apps.map (Apps.built root), written (Scaffold.steps plan root package),
    targets views root t⟩

/-- The course of a build: the planned steps, and then the conversion of the templates that are there
when these are done. -/
inductive Course (may : Prop) (plan : Plan) (views root : Path) (package : String) (t u : FileTree) :
    Except BuildError Project → Prop where
  | stopped {e : BuildError} (went : Went may (plannedSteps plan root package) t u false) :
      Course may plan views root package t u (.error e)
  | notConverted {mid : FileTree} {e : BuildError} (planned : Done (plannedSteps plan root package) t mid)
      (went : Went may (conversions views root mid) mid u false) :
      Course may plan views root package t u (.error e)
  | built {mid : FileTree} (planned : Done (plannedSteps plan root package) t mid)
      (converted : Done (conversions views root mid) mid u) :
      Course may plan views root package t u (.ok (projectOf plan views root package mid))

theorem Built.course {plan : Plan} {views root : Path} {package : String}
    {r : Except BuildError Project} (built : Built plan views root package calls r)
    (follows : o.Follows tree may e) (leads : o.Leads e calls e') (sound : (tree e).Sound)
    (apart : FileTree.Apart root.place views.place) :
    Course may plan views root package (tree e) (tree e') r := by
  cases built with
  | stopped ran => exact .stopped (ran.went follows leads)
  | @converted calls looks more files r ran listed converted =>
    obtain ⟨mid, first, behind⟩ := leads.split
    obtain ⟨mid', second, third⟩ := behind.split
    have planned := (ran.went follows first).done
    have follows' := follows.later first
    obtain ⟨same, rfl⟩ := listed.listAt follows' second
    obtain ⟨went, _⟩ := converted.went (t := tree mid)
      (fun template member u beside => beside.read apart (planned.sound sound) (named_of_mem member).1)
      (by rw [same]; exact .refl _ _) (follows'.later second) third
    rw [same] at went
    cases r with
    | error e => exact .notConverted planned went
    | ok found =>
      rw [converted.targets_eq]
      exact .built planned went.done

end Build

end Transplant
