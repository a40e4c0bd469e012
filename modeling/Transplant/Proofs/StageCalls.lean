import Transplant.Proofs.BuildCalls

/-! The calls of the stages. One relation says all that a stage can do: the calls it makes and the
state or the failure it ends with. -/
namespace Transplant

variable {σ : Type} {o : Outside σ}

def Call.isLook : Call → Bool
  | .read _ _ => true
  | .contains _ _ => true
  | .walk _ _ => true
  | _ => false

def OnlyLooks (calls : List Call) : Prop := ∀ c ∈ calls, c.isLook = true

theorem OnlyLooks.append {calls more : List Call} (h : OnlyLooks calls) (h' : OnlyLooks more) :
    OnlyLooks (calls ++ more) :=
  List.forall_mem_append.mpr ⟨h, h'⟩

theorem onlyLooks_nil : OnlyLooks [] := by simp [OnlyLooks]

theorem Listed.onlyLooks {dir : Path} {calls : List Call} {files : List Path}
    (h : Listed dir calls files) : OnlyLooks calls := by
  cases h <;> simp [OnlyLooks, Call.isLook]

theorem Rails.Template.named?_source {views p source : Path} {target : String}
    (named : named? views p = some (source, target)) : p = source := by
  unfold named? at named
  simp only [Option.bind_eq_bind, Option.bind_eq_some_iff] at named
  obtain ⟨_, _, _, _, h⟩ := named
  cases h
  rfl

namespace Rails.Survey

theorem onlyLooks_read (p : Path) :
    Meets o (o.files.recorded.readOrEmpty p) fun calls _ => OnlyLooks calls := by
  apply (FileSystem.readOrEmpty_meets p).mono
  rintro _ _ ⟨found, rfl, _⟩
  simp [OnlyLooks, Call.isLook]

theorem onlyLooks_list (dir : Path) :
    Meets o (o.files.recorded.list dir) fun calls _ => OnlyLooks calls :=
  (FileSystem.list_meets dir).mono fun _ _ listed => listed.onlyLooks

theorem onlyLooks_rubyFiles (dir : Path) :
    Meets o (rubyFiles o.files.recorded dir) fun calls _ => OnlyLooks calls := by
  apply (onlyLooks_list dir).bind
  intro calls _ looks
  exact .pure (by simpa using looks)

theorem onlyLooks_templateFiles (views : Path) :
    Meets o (templateFiles o.files.recorded views) fun calls _ => OnlyLooks calls := by
  apply (onlyLooks_list views).bind
  intro calls _ looks
  exact .pure (by simpa using looks)

theorem onlyLooks_readAll {α : Type} (read? : String → Option α) (files : List Path) :
    Meets o (readAll o.files.recorded read? files) fun calls _ => OnlyLooks calls := by
  induction files with
  | nil => exact .pure onlyLooks_nil
  | cons p rest ih =>
    apply (onlyLooks_read p).bind
    intro calls _ looks
    apply ih.bind
    intro more _ looksMore
    exact .pure (by simpa using looks.append looksMore)

theorem onlyLooks_templates (files : List (Path × String)) :
    Meets o (templates o.files.recorded files) fun calls _ => OnlyLooks calls := by
  induction files with
  | nil => exact .pure onlyLooks_nil
  | cons t rest ih =>
    obtain ⟨p, name⟩ := t
    apply (onlyLooks_read p).bind
    intro calls _ looks
    apply ih.bind
    intro more _ looksMore
    exact .pure (by simpa using looks.append looksMore)

theorem onlyLooks_routes (file : Path) :
    Meets o (routes o.files.recorded file) fun calls _ => OnlyLooks calls := by
  apply (Meets.contains file).bind
  rintro _ there rfl
  have looked : OnlyLooks [.contains file there] := by simp [OnlyLooks, Call.isLook]
  cases there with
  | false => exact .pure looked
  | true =>
    apply (onlyLooks_read file).bind
    intro more _ looksMore
    exact .pure (by simpa using looked.append looksMore)

theorem onlyLooks_run (root : Path) :
    Meets o (run o.files.recorded root) fun calls _ => OnlyLooks calls := by
  apply (onlyLooks_rubyFiles (root.join modelsDir)).bind
  intro _ modelFiles looks
  apply (onlyLooks_readAll _ modelFiles).bind
  intro _ records looksMore
  apply (onlyLooks_rubyFiles (root.join controllersDir)).bind
  intro _ controllerFiles looksControllers
  apply (onlyLooks_readAll _ controllerFiles).bind
  intro _ controllers looksMoreControllers
  apply (onlyLooks_routes (root.join routesFile)).bind
  intro _ routes looksRoutes
  apply (onlyLooks_templateFiles (root.join viewsDir)).bind
  intro _ files looksFiles
  apply (onlyLooks_templates files).bind
  intro _ templates looksTemplates
  apply Meets.pure
  simpa using looks.append (looksMore.append (looksControllers.append (looksMoreControllers.append
    (looksRoutes.append (looksFiles.append looksTemplates)))))

end Rails.Survey

namespace Pipeline

/-- The calls that document a project, up to the first failure. -/
inductive Documented (s : State) (root : Path) (app : Rails.Application) (plan : Plan) :
    List Call → Outcome → Prop where
  | notDescribed {message : String} :
      Documented s root app plan [.asked (.description app plan) (.error message)]
        (.error (.collaboratorFailure .integrate message))
  | noReadme {readme : String} {e : FileError} :
      Documented s root app plan
        [.asked (.description app plan) (.ok readme),
          .write (root.join "README.md") (bodyOr readmePlaceholder readme) (.error e)]
        (.error (.fileSystem .integrate (.io (root.join "README.md") e)))
  | notRequired {readme message : String} :
      Documented s root app plan
        [.asked (.description app plan) (.ok readme),
          .write (root.join "README.md") (bodyOr readmePlaceholder readme) (.ok ()),
          .asked .requirements (.error message)]
        (.error (.collaboratorFailure .integrate message))
  | noRequirements {readme text : String} {e : FileError} :
      Documented s root app plan
        [.asked (.description app plan) (.ok readme),
          .write (root.join "README.md") (bodyOr readmePlaceholder readme) (.ok ()),
          .asked .requirements (.ok text),
          .write (root.join "requirements.txt") (bodyOr requirementsFallback text) (.error e)]
        (.error (.fileSystem .integrate (.io (root.join "requirements.txt") e)))
  | done {readme text : String} :
      Documented s root app plan
        [.asked (.description app plan) (.ok readme),
          .write (root.join "README.md") (bodyOr readmePlaceholder readme) (.ok ()),
          .asked .requirements (.ok text),
          .write (root.join "requirements.txt") (bodyOr requirementsFallback text) (.ok ())]
        (.ok { s with lastResponse := some text })

/-- The calls of a stage from a state, and the state or the failure that it leads to. -/
inductive Worked (name : String) (s : State) : Stage → List Call → Outcome → Prop where
  | lacking {stage : Stage} {field : Field} (missing : s.missingFor stage = some field) :
      Worked name s stage [] (.error (.preconditionViolation stage field))
  | outlined {text : String} :
      Worked name s .plan [.asked (.outline s.inputRoot) (.ok text)]
        (.ok { s with outline := some text, lastResponse := some text })
  | notOutlined {message : String} :
      Worked name s .plan [.asked (.outline s.inputRoot) (.error message)]
        (.error (.collaboratorFailure .plan message))
  | discovered {looks : List Call} {app : Rails.Application} {text : String}
      (only : OnlyLooks looks) :
      Worked name s .discovery (looks ++ [.asked (.summary app) (.ok text)])
        (.ok { s with application := some app, summary := some text, lastResponse := some text })
  | notDiscovered {looks : List Call} {app : Rails.Application} {message : String}
      (only : OnlyLooks looks) :
      Worked name s .discovery (looks ++ [.asked (.summary app) (.error message)])
        (.error (.collaboratorFailure .discovery message))
  | converted {app : Rails.Application} {text : String} (there : s.application = some app) :
      Worked name s .convert [.asked (.plan app (s.summary.getD "")) (.ok text)]
        (.ok { s with plan := some (.ofText text), lastResponse := some text })
  | notConverted {app : Rails.Application} {message : String} (there : s.application = some app) :
      Worked name s .convert [.asked (.plan app (s.summary.getD "")) (.error message)]
        (.error (.collaboratorFailure .convert message))
  | built {plan : Plan} {calls : List Call} {project : Build.Project} (planned : s.plan = some plan)
      (built : Build.Built plan (s.inputRoot.join Rails.Survey.viewsDir) (s.outputRoot.join name)
        name calls (.ok project)) :
      Worked name s .build calls
        (.ok { s with projectRoot := some (s.outputRoot.join name), project := some project })
  | notBuilt {plan : Plan} {calls : List Call} {e : BuildError} (planned : s.plan = some plan)
      (built : Build.Built plan (s.inputRoot.join Rails.Survey.viewsDir) (s.outputRoot.join name)
        name calls (.error e)) :
      Worked name s .build calls (.error (.fileSystem .build e))
  | integrated {root : Path} {app : Rails.Application} {plan : Plan} {calls : List Call}
      {r : Outcome} (atRoot : s.projectRoot = some root) (there : s.application = some app)
      (planned : s.plan = some plan) (documented : Documented s root app plan calls r) :
      Worked name s .integrate calls r

namespace Tools

theorem ask_then {β : Type} {name : String} {stage : Stage} {q : Question}
    {f : String → ExceptT PipelineError (Recorded σ) β} {P : List Call → Except PipelineError β → Prop}
    (failed : ∀ message, P [.asked q (.error message)] (.error (.collaboratorFailure stage message)))
    (answered : ∀ text, Meets o (f text).run fun more r => P ([.asked q (.ok text)] ++ more) r) :
    Meets o ((o.tools name).ask stage q >>= f).run P := by
  apply Meets.attempt (P := fun calls r =>
    ∃ a, calls = [.asked q a] ∧ r = a.mapError (.collaboratorFailure stage))
  · apply (Meets.ask q).bind
    rintro _ a rfl
    cases a with
    | error message => exact .pure ⟨.error message, rfl, rfl⟩
    | ok text => exact .pure ⟨.ok text, rfl, rfl⟩
  · rintro _ e ⟨a, rfl, hr⟩
    cases a with
    | error message => cases hr; exact failed message
    | ok text => cases hr
  · rintro _ text ⟨a, rfl, hr⟩
    cases a with
    | error message => cases hr
    | ok text => cases hr; exact answered text

theorem required_then {α β : Type} {stage : Stage} {field : Field} {x : Option α}
    {f : α → ExceptT PipelineError (Recorded σ) β} {P : List Call → Except PipelineError β → Prop}
    (lacking : x = none → P [] (.error (.preconditionViolation stage field)))
    (there : ∀ a, x = some a → Meets o (f a).run P) :
    Meets o (required stage field x >>= f).run P := by
  cases x with
  | none => exact .pure (lacking rfl)
  | some a => exact there a rfl

theorem inStage_then {α β : Type} {stage : Stage} {act : ExceptT BuildError (Recorded σ) α}
    {f : α → ExceptT PipelineError (Recorded σ) β} {R : List Call → Except BuildError α → Prop}
    {P : List Call → Except PipelineError β → Prop} (acts : Meets o act.run R)
    (failed : ∀ calls e, R calls (.error e) → P calls (.error (.fileSystem stage e)))
    (acted : ∀ calls a, R calls (.ok a) → Meets o (f a).run fun more r => P (calls ++ more) r) :
    Meets o (inStage stage act >>= f).run P := by
  apply Meets.attempt (P := fun calls r => ∃ a, R calls a ∧ r = a.mapError (.fileSystem stage))
  · apply acts.bind
    intro calls a ha
    cases a with
    | error e => exact .pure ⟨.error e, by simpa using ha, rfl⟩
    | ok x => exact .pure ⟨.ok x, by simpa using ha, rfl⟩
  · rintro calls e ⟨a, ha, hr⟩
    cases a with
    | error e' => cases hr; exact failed calls e' ha
    | ok x => cases hr
  · rintro calls x ⟨a, ha, hr⟩
    cases a with
    | error e' => cases hr
    | ok x => cases hr; exact acted calls x ha

theorem writeDocument_then {β : Type} {name : String} {p : Path} {text : String}
    {f : Unit → ExceptT PipelineError (Recorded σ) β} {P : List Call → Except PipelineError β → Prop}
    (failed : ∀ e, P [.write p text (.error e)] (.error (.fileSystem .integrate (.io p e))))
    (written : Meets o (f ()).run fun more r => P ([.write p text (.ok ())] ++ more) r) :
    Meets o ((o.tools name).writeDocument p text >>= f).run P := by
  apply inStage_then (Build.Step.run_meets (.write p text))
  · intro calls e did
    cases did
    exact failed _
  · intro calls _ did
    cases did
    exact written

theorem plan_meets (name : String) (s : State) :
    Meets o ((o.tools name).plan s).run (Worked name s .plan) := by
  apply ask_then
  · exact fun message => .notOutlined
  · exact fun text => .pure .outlined

theorem discovery_meets (name : String) (s : State) :
    Meets o ((o.tools name).discovery s).run (Worked name s .discovery) := by
  apply (Rails.Survey.onlyLooks_run s.inputRoot).fetch
  intro looks app only
  apply ask_then
  · exact fun message => .notDiscovered only
  · exact fun text => .pure (.discovered only)

theorem convert_meets (name : String) (s : State) :
    Meets o ((o.tools name).convert s).run (Worked name s .convert) := by
  apply required_then
  · intro none
    exact .lacking (by simp [State.missingFor, Stage.requires, State.has, none])
  · intro app there
    apply ask_then
    · exact fun message => .notConverted there
    · exact fun text => .pure (.converted there)

theorem build_meets (name : String) (s : State) :
    Meets o ((o.tools name).build s).run (Worked name s .build) := by
  apply required_then
  · intro none
    exact .lacking (by simp [State.missingFor, Stage.requires, State.has, none])
  · intro plan planned
    apply inStage_then (buildProject_meets name plan _ _)
    · exact fun calls e built => .notBuilt planned built
    · exact fun calls project built => .pure (.built planned (by rw [List.append_nil]; exact built))

theorem integrate_meets (name : String) (s : State) :
    Meets o ((o.tools name).integrate s).run (Worked name s .integrate) := by
  apply required_then
  · intro none
    exact .lacking (by simp [State.missingFor, Stage.requires, State.has, none])
  intro root atRoot
  apply required_then
  · intro none
    exact .lacking (by simp [State.missingFor, Stage.requires, State.has, atRoot, none])
  intro app there
  apply required_then
  · intro none
    exact .lacking (by simp [State.missingFor, Stage.requires, State.has, atRoot, there, none])
  intro plan planned
  apply Meets.mono (P := Documented s root app plan)
  · apply ask_then
    · exact fun message => .notDescribed
    intro readme
    apply writeDocument_then
    · exact fun e => .noReadme
    apply ask_then
    · exact fun message => .notRequired
    intro text
    apply writeDocument_then
    · exact fun e => .noRequirements
    · exact .pure .done
  · exact fun calls r documented => .integrated atRoot there planned documented

theorem work_meets (name : String) (stage : Stage) (s : State) :
    Meets o ((o.tools name).work stage s).run (Worked name s stage) := by
  cases stage with
  | plan => exact plan_meets name s
  | discovery => exact discovery_meets name s
  | convert => exact convert_meets name s
  | build => exact build_meets name s
  | integrate => exact integrate_meets name s

end Tools

end Pipeline

end Transplant
