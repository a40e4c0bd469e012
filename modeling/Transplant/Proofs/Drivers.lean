import Transplant.CommandLine.Command
import Transplant.Proofs.ChangedPaths
import Transplant.Proofs.Nodes
import Transplant.Proofs.TreeCalls
import Transplant.Proofs.Trimming

/-! The two drivers of a build: the command that generates a project from a plan in a file, and the
build stage of a conversion. Both begin with the same groundwork, and of a plan it takes the apps
only, so that blanks around the text of the plan make no difference. -/
namespace Transplant

theorem Plan.Fence.strip_trimmed (text : String) : strip text.trimmed = strip text := by
  simp [strip, String.trimmed, Text.trim_trim]

theorem Plan.apps_ofText_trimmed (text : String) : (ofText text.trimmed).apps = (ofText text).apps := by
  unfold ofText
  rw [Fence.strip_trimmed]
  cases appsOfText? (Fence.strip text) <;> rfl

namespace Build

variable {m : Type → Type} [Monad m]

theorem groundwork_congr (fs : FileSystem m) {plan plan' : Plan} (same : plan.apps = plan'.apps)
    (root : Path) (package : String) : groundwork fs plan root package = groundwork fs plan' root package := by
  simp only [groundwork, Build.scaffold, generate, Scaffold.steps, Scaffold.files, Apps.steps, same]

theorem groundwork_of_delivered (fs : FileSystem m) {text delivered : String}
    (source : delivered ∈ [text, text.trimmed]) (root : Path) (package : String) :
    groundwork fs (.ofText delivered) root package = groundwork fs (.ofText text) root package := by
  apply groundwork_congr
  simp only [List.mem_cons, List.not_mem_nil, or_false] at source
  rcases source with rfl | rfl
  · rfl
  · exact Plan.apps_ofText_trimmed text

end Build

variable {σ : Type} {o : Outside σ} {e e' : σ} {calls : List Call}

namespace Pipeline

variable {name : String} {s : State} {plan : Plan}

theorem Tools.inStage_does {α : Type} {stage : Stage} {act : ExceptT BuildError (Recorded σ) α}
    {r : Except BuildError α} (acts : Does act.run e calls r e') :
    Does (inStage stage act).run e calls (r.mapError (.fileSystem stage)) e' := by
  rw [← List.append_nil calls]
  apply Does.bind acts
  cases r with
  | error cause => exact .pure
  | ok x => exact .pure

theorem Tools.build_does {r : Except BuildError Build.Project} (planned : s.plan = some plan)
    (built : Does ((o.tools name).buildProject plan (s.inputRoot.join Rails.Survey.viewsDir)
      (s.outputRoot.join name)).run e calls r e') :
    Does ((o.tools name).build s).run e calls ((r.mapError (.fileSystem .build)).map fun project =>
      { s with projectRoot := some (s.outputRoot.join name), project := some project }) e' := by
  have staged : Does (inStage .build _).run e calls _ e' := inStage_does built
  unfold build
  rw [planned]
  exact staged.finish _

theorem Tools.build_stops {cause : BuildError} (planned : s.plan = some plan)
    (laid : Does (Build.groundwork o.files.recorded plan (s.outputRoot.join name) name).run e calls
      (.error cause) e') :
    Does ((o.tools name).build s).run e calls (.error (.fileSystem .build cause)) e' := by
  apply build_does planned (r := .error cause)
  rw [buildProject_eq]
  exact laid.stop _

theorem Tools.build_converts {project : Build.Project} {converted : Except BuildError (List Path)}
    {more : List Call} {e'' : σ} (planned : s.plan = some plan)
    (laid : Does (Build.groundwork o.files.recorded plan (s.outputRoot.join name) name).run e calls
      (.ok project) e')
    (conversion : Does (Build.convertTemplates o.files.recorded (s.inputRoot.join Rails.Survey.viewsDir)
      (s.outputRoot.join name)).run e' more converted e'') :
    Does ((o.tools name).build s).run e (calls ++ more)
      ((converted.mapError (.fileSystem .build)).map fun files =>
        { s with
          projectRoot := some (s.outputRoot.join name)
          project := some { project with converted := files } }) e'' := by
  have built : Does ((o.tools name).buildProject plan (s.inputRoot.join Rails.Survey.viewsDir)
      (s.outputRoot.join name)).run e (calls ++ more)
      (converted.map fun files => { project with converted := files }) e'' := by
    rw [buildProject_eq]
    exact laid.attempt (conversion.finish _)
  have whole := build_does planned built
  cases converted with
  | error cause => exact whole
  | ok files => exact whole

end Pipeline

namespace Command

theorem buildPlan_eq {m : Type → Type} [Monad m] [LawfulMonad m] (fs : FileSystem m)
    (settings : Settings) (plan : Plan) (output : Path) : buildPlan fs settings plan output =
      (fun project => projectLines project project.scaffold "project files") <$>
        Build.groundwork fs plan (output.join settings.projectName) settings.projectName := by
  simp [buildPlan, Build.groundwork, projectLines]

theorem generateProject_does {settings : Settings} {plan output : Path} {text : String} {e₁ : σ}
    {r : Except BuildError Build.Project} (holds : (o.files.read plan).run e = (.ok text, e₁))
    (laid : Does (Build.groundwork o.files.recorded (.ofText text) (output.join settings.projectName)
      settings.projectName).run e₁ calls r e') :
    Does (generateProject o.files.recorded settings plan output).run e (.read plan (.ok text) :: calls)
      ((r.map fun project => projectLines project project.scaffold "project files").mapError
        .generation) e' := by
  have given : Does (o.files.recorded.read plan) e [.read plan (.ok text)] (.ok text) e₁ :=
    .recorded _ holds
  have built : Does (buildPlan o.files.recorded settings (.ofText text) output).run e₁ calls
      (r.map fun project => projectLines project project.scaffold "project files") e' := by
    rw [buildPlan_eq, ExceptT.run_map]
    exact laid.map _
  unfold generateProject
  rw [ExceptT.run_bind_lift]
  apply given.bind
  simp only [ExceptT.run_bind_lift]
  rw [← List.append_nil calls]
  apply built.bind
  cases r with
  | error cause => exact .pure
  | ok project => exact .pure

/-- The command lays the groundwork of the plan that it reads, call for call as the build stage lays it
before it converts templates, and fails only of the same causes. It makes no difference whether the
text comes to the stage as it is or trimmed, as a collaborator on a language model delivers it. -/
theorem generate_agrees_with_build (o : Outside σ) (model : LanguageModel (Recorded σ))
    (now : Recorded σ Instant) (settings : Settings) (planPath output : Path) {text : String} {e e₁ : σ}
    (holds : (o.files.read planPath).run e = (.ok text, e₁)) :
    ∃ laid calls e₂,
      Does (Build.groundwork o.files.recorded (.ofText text) (output.join settings.projectName)
        settings.projectName).run e₁ calls laid e₂ ∧
      (∀ c ∈ calls, c.isChange = true) ∧
      Does (run ⟨o.files.recorded, model, now⟩ settings (.generate planPath output)).run e
        (.read planPath (.ok text) :: calls)
        ((laid.map fun project => projectLines project project.scaffold "project files").mapError
          .generation) e₂ ∧
      ∀ delivered ∈ [text, text.trimmed], ∀ s : Pipeline.State, s.outputRoot = output →
        s.plan = some (.ofText delivered) →
        match laid with
        | .error cause =>
          Does ((o.tools settings.projectName).build s).run e₁ calls (.error (.fileSystem .build cause)) e₂
        | .ok project => ∃ converted more e₃,
          Does (Build.convertTemplates o.files.recorded (s.inputRoot.join Rails.Survey.viewsDir)
            (output.join settings.projectName)).run e₂ more converted e₃ ∧
          Does ((o.tools settings.projectName).build s).run e₁ (calls ++ more)
            ((converted.mapError (.fileSystem .build)).map fun files =>
              { s with
                projectRoot := some (output.join settings.projectName)
                project := some { project with converted := files } }) e₃ := by
  obtain ⟨calls, laid, e₂, ground, _, done, ran, _⟩ :=
    Build.groundwork_meets (o := o) (.ofText text) (output.join settings.projectName)
      settings.projectName e₁
  refine ⟨laid, calls, e₂, ground, List.filter_eq_self.mp ran.filter_isChange,
    generateProject_does holds ground, ?_⟩
  rintro delivered source s rfl planned
  rw [← Build.groundwork_of_delivered _ source] at ground
  cases laid with
  | error cause => exact Pipeline.Tools.build_stops planned ground
  | ok project =>
    obtain ⟨more, converted, e₃, conversion, _⟩ := Build.convertTemplates_meets (o := o)
      (s.inputRoot.join Rails.Survey.viewsDir) (s.outputRoot.join settings.projectName) e₂
    exact ⟨converted, more, e₃, conversion, Pipeline.Tools.build_converts planned ground conversion⟩

def blogText : String := "\n\x7b\"apps\": [\x7b\"name\": \"blog\"\x7d]\x7d\n"

def planned (text : String) : Pipeline.State :=
  { Pipeline.State.fresh ⟨"in"⟩ ⟨"out"⟩ with plan := some (.ofText text) }

/-- The plan is in a file, and one file of its app cannot be written. -/
def blogWorld : World :=
  .ofTree (.dir [("plan.json", .file (.ofText blogText))])
    [⟨.write, ⟨"out/site/blog/apps.py"⟩, "disk full"⟩]

theorem generate_agrees_with_build_blog :
    ((World.files.read ⟨"plan.json"⟩).run blogWorld).1 = .ok blogText ∧ blogText.trimmed ≠ blogText ∧
      ∃ calls w,
        Does (run ⟨World.outside.files.recorded, ⟨fun _ => return .error "no reply"⟩, return .epoch⟩
          ⟨"", 1, ⟨"logs"⟩, "site"⟩ (.generate ⟨"plan.json"⟩ ⟨"out"⟩)).run blogWorld
          (.read ⟨"plan.json"⟩ (.ok blogText) :: calls)
          (.error (.generation (.io ⟨"out/site/blog/apps.py"⟩ (.other "disk full")))) w ∧
        Does ((World.outside.tools "site").build (planned blogText.trimmed)).run
          (blogWorld.log (.read ⟨"plan.json"⟩)) calls
          (.error (.fileSystem .build (.io ⟨"out/site/blog/apps.py"⟩ (.other "disk full")))) w := by
  have holds : (World.outside.files.read ⟨"plan.json"⟩).run blogWorld =
      (.ok blogText, blogWorld.log (.read ⟨"plan.json"⟩)) :=
    Prod.ext (by decide +kernel) rfl
  have failed : ((Build.groundwork World.outside.files.recorded (.ofText blogText) ⟨"out/site"⟩
      "site").run.run (blogWorld.log (.read ⟨"plan.json"⟩), [])).1 =
        .error (.io ⟨"out/site/blog/apps.py"⟩ (.other "disk full")) := by
    decide +kernel
  obtain ⟨laid, calls, w, ground, _, command, build⟩ :=
    generate_agrees_with_build World.outside ⟨fun _ => return .error "no reply"⟩ (return .epoch)
      ⟨"", 1, ⟨"logs"⟩, "site"⟩ ⟨"plan.json"⟩ ⟨"out"⟩ holds
  have same : laid = .error (.io ⟨"out/site/blog/apps.py"⟩ (.other "disk full")) := by
    rw [← failed]
    exact (congrArg Prod.fst (ground [])).symm
  subst same
  exact ⟨congrArg Prod.fst holds, by decide +kernel, calls, w, command,
    build blogText.trimmed (by simp) (planned blogText.trimmed) rfl rfl⟩

end Command

end Transplant
