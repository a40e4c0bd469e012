import Transplant.Build.Conversion
import Transplant.Build.Project
import Transplant.Pipeline.Work
import Transplant.Proofs.Calls

/-! The calls of a build. Each function of a build is matched by a relation between its calls and
its result, and meets it on every outside. Nothing else is said about a build later on. -/
namespace Transplant

variable {σ : Type} {o : Outside σ}

namespace Build

inductive Step.Did : Step → List Call → Except BuildError Unit → Prop where
  | wrote {p : Path} {text : String} : Did (.write p text) [.write p text (.ok ())] (.ok ())
  | notWritten {p : Path} {text : String} {e : FileError} :
      Did (.write p text) [.write p text (.error e)] (.error (.io p e))
  | made {p : Path} : Did (.createDir p) [.createDir p (.ok ())] (.ok ())
  | notMade {p : Path} {e : FileError} :
      Did (.createDir p) [.createDir p (.error e)] (.error (.io p e))
  | refused {e : BuildError} : Did (.refuse e) [] (.error e)

/-- The calls of steps in order, up to the first that is refused or fails. -/
inductive Ran : List Step → List Call → Except BuildError Unit → Prop where
  | done : Ran [] [] (.ok ())
  | next {s : Step} {rest : List Step} {calls more : List Call} {r : Except BuildError Unit}
      (did : s.Did calls (.ok ())) (ran : Ran rest more r) : Ran (s :: rest) (calls ++ more) r
  | stopped {s : Step} {rest : List Step} {calls : List Call} {e : BuildError}
      (did : s.Did calls (.error e)) : Ran (s :: rest) calls (.error e)

def orEmpty : Except FileError String → String
  | .ok text => text
  | .error _ => ""

/-- Each template is read, then written or refused. -/
inductive Converted (root : Path) :
    List (Path × String) → List Call → Except BuildError (List Path) → Prop where
  | done : Converted root [] [] (.ok [])
  | next {source : Path} {name : String} {rest : List (Path × String)} {calls more : List Call}
      {found : Except FileError String} {r : Except BuildError (List Path)}
      (did : (conversionStep root name (orEmpty found)).Did calls (.ok ()))
      (converted : Converted root rest more r) :
      Converted root ((source, name) :: rest) (.read source found :: (calls ++ more))
        (r.map (conversionTarget root name :: ·))
  | stopped {source : Path} {name : String} {rest : List (Path × String)} {calls : List Call}
      {found : Except FileError String} {e : BuildError}
      (did : (conversionStep root name (orEmpty found)).Did calls (.error e)) :
      Converted root ((source, name) :: rest) (.read source found :: calls) (.error e)

end Build

/-- A directory that is missing or cannot be listed has no files. -/
inductive Listed (dir : Path) : List Call → List Path → Prop where
  | missing : Listed dir [.contains dir false] []
  | unlisted {e : FileError} : Listed dir [.contains dir true, .walk dir (.error e)] []
  | files {files : List Path} : Listed dir [.contains dir true, .walk dir (.ok files)] files

namespace Build

/-- The steps of a build whose paths are known before it looks at the templates. -/
def plannedSteps (plan : Plan) (root : Path) (package : String) : List Step :=
  Scaffold.steps plan root package ++ Apps.steps plan root

inductive Built (plan : Plan) (views root : Path) (package : String) :
    List Call → Except BuildError Project → Prop where
  | stopped {calls : List Call} {e : BuildError}
      (ran : Ran (plannedSteps plan root package) calls (.error e)) :
      Built plan views root package calls (.error e)
  | converted {calls looks more : List Call} {files : List Path}
      {r : Except BuildError (List Path)}
      (ran : Ran (plannedSteps plan root package) calls (.ok ())) (listed : Listed views looks files)
      (converted : Converted root (files.filterMap (Rails.Template.named? views)) more r) :
      Built plan views root package (calls ++ (looks ++ more)) (r.map fun converted =>
        ⟨root, plan.apps.map (Apps.built root), written (Scaffold.steps plan root package), converted⟩)

theorem Step.run_meets (s : Step) : Meets o (s.run o.files.recorded).run s.Did := by
  cases s with
  | write p text =>
    apply (Meets.write p text).bind
    rintro _ r rfl
    cases r with
    | error e => exact .pure .notWritten
    | ok => exact .pure .wrote
  | createDir p =>
    apply (Meets.createDir p).bind
    rintro _ r rfl
    cases r with
    | error e => exact .pure .notMade
    | ok => exact .pure .made
  | refuse e => exact .pure .refused

theorem runAll_meets (steps : List Step) : Meets o (runAll o.files.recorded steps).run (Ran steps) := by
  induction steps with
  | nil => exact .pure .done
  | cons s rest ih =>
    apply s.run_meets.attempt
    · exact fun _ _ did => .stopped did
    · exact fun _ _ did => ih.mono fun _ _ ran => .next did ran

theorem ran_append {first second : List Step} {calls more : List Call} {r : Except BuildError Unit}
    (hf : Ran first calls (.ok ())) (hs : Ran second more r) : Ran (first ++ second) (calls ++ more) r := by
  generalize hr : Except.ok () = done at hf
  induction hf with
  | done => exact hs
  | next did _ ih =>
    rw [List.append_assoc]
    exact .next did (ih hr)
  | stopped _ => cases hr

theorem ran_append_of_error {first second : List Step} {calls : List Call} {e : BuildError}
    (hf : Ran first calls (.error e)) : Ran (first ++ second) calls (.error e) := by
  generalize hr : Except.error e = failed at hf
  induction hf with
  | done => cases hr
  | next did _ ih => exact .next did (ih hr)
  | stopped did => exact .stopped did

theorem ran_of_map_error {α : Type} {f : Unit → α} {steps : List Step} {calls : List Call}
    {e : BuildError} (h : ∃ done, Ran steps calls done ∧ .error e = done.map f) :
    Ran steps calls (.error e) := by
  obtain ⟨done, ran, same⟩ := h
  cases done with
  | error e' => cases same; exact ran
  | ok => cases same

theorem ran_of_map_ok {α : Type} {f : Unit → α} {steps : List Step} {calls : List Call} {a : α}
    (h : ∃ done, Ran steps calls done ∧ .ok a = done.map f) :
    Ran steps calls (.ok ()) ∧ a = f () := by
  obtain ⟨done, ran, same⟩ := h
  cases done with
  | error e' => cases same
  | ok => cases same; exact ⟨ran, rfl⟩

def Step.success? : Step → Option Call
  | .write p text => some (.write p text (.ok ()))
  | .createDir p => some (.createDir p (.ok ()))
  | .refuse _ => none

/-- The calls are those of the steps, and all succeed. -/
def Succeeded (steps : List Step) (calls : List Call) : Prop :=
  steps.map Step.success? = calls.map some

theorem Succeeded.append {steps more : List Step} {calls later : List Call}
    (h : Succeeded steps calls) (h' : Succeeded more later) :
    Succeeded (steps ++ more) (calls ++ later) := by
  rw [Succeeded, List.map_append, List.map_append, h, h']

theorem Succeeded.exists_step {steps : List Step} {calls : List Call} (ok : Succeeded steps calls)
    {c : Call} (hc : c ∈ calls) : ∃ s ∈ steps, s.success? = some c := by
  apply List.mem_map.mp
  rw [ok]
  exact List.mem_map_of_mem hc

theorem Succeeded.calls_eq {steps : List Step} {calls : List Call} (ok : Succeeded steps calls) :
    calls = steps.filterMap Step.success? := by
  have same := congrArg (List.filterMap id) ok
  simpa [List.filterMap_map] using same.symm

theorem Succeeded.not_refused {steps : List Step} {calls : List Call} (ok : Succeeded steps calls)
    (e : BuildError) : .refuse e ∉ steps := by
  intro member
  have none : Step.success? (.refuse e) ∈ calls.map some := by
    rw [← ok]
    exact List.mem_map_of_mem member
  simp [Step.success?] at none

theorem Succeeded.mem_write {steps : List Step} {calls : List Call} (ok : Succeeded steps calls)
    {p : Path} {text : String} {r : Except FileError Unit} :
    .write p text r ∈ calls ↔ .write p text ∈ steps ∧ r = .ok () := by
  rw [ok.calls_eq, List.mem_filterMap]
  constructor
  · rintro ⟨s, member, h⟩
    cases s <;> cases h
    exact ⟨member, rfl⟩
  · rintro ⟨member, rfl⟩
    exact ⟨_, member, rfl⟩

theorem Step.Did.succeeded {s : Step} {calls : List Call} (did : s.Did calls (.ok ())) :
    Succeeded [s] calls := by
  cases did <;> rfl

theorem Ran.succeeded {steps : List Step} {calls : List Call} (ran : Ran steps calls (.ok ())) :
    Succeeded steps calls := by
  generalize hr : Except.ok () = r at ran
  induction ran with
  | done => rfl
  | next did _ ih => exact did.succeeded.append (ih hr)
  | stopped _ => cases hr

theorem Ran.failed {steps : List Step} {calls : List Call} {e : BuildError}
    (ran : Ran steps calls (.error e)) :
    ∃ before s after work last, steps = before ++ s :: after ∧ calls = work ++ last ∧
      Succeeded before work ∧ s.Did last (.error e) := by
  generalize hr : Except.error e = r at ran
  induction ran with
  | done => cases hr
  | next did _ ih =>
    obtain ⟨before, s, after, work, last, rfl, rfl, ok, failed⟩ := ih hr
    exact ⟨_ :: before, s, after, _ ++ work, last, rfl, by simp, did.succeeded.append ok, failed⟩
  | stopped did =>
    cases hr
    exact ⟨[], _, _, [], _, rfl, rfl, rfl, did⟩

end Build

theorem FileSystem.readOrEmpty_meets (p : Path) : Meets o (o.files.recorded.readOrEmpty p)
    fun calls text => ∃ found, calls = [.read p found] ∧ text = Build.orEmpty found := by
  apply (Meets.read p).bind
  rintro _ r rfl
  cases r with
  | error e => exact .pure ⟨.error e, rfl, rfl⟩
  | ok text => exact .pure ⟨.ok text, rfl, rfl⟩

theorem FileSystem.list_meets (dir : Path) : Meets o (o.files.recorded.list dir) (Listed dir) := by
  apply (Meets.contains dir).bind
  rintro _ there rfl
  cases there with
  | false => exact .pure .missing
  | true =>
    apply (Meets.walk dir).bind
    rintro _ r rfl
    cases r with
    | error e => exact .pure .unlisted
    | ok files => exact .pure .files

namespace Build

theorem convertAll_meets (root : Path) (templates : List (Path × String)) :
    Meets o (convertAll o.files.recorded root templates).run (Converted root templates) := by
  induction templates with
  | nil => exact .pure .done
  | cons t rest ih =>
    obtain ⟨source, name⟩ := t
    apply (FileSystem.readOrEmpty_meets source).fetch
    rintro _ text ⟨found, rfl, rfl⟩
    apply (Step.run_meets _).attempt
    · exact fun calls e did => .stopped did
    · intro calls _ did
      apply ih.attempt
      · intro more e converted
        exact .next did converted
      · intro more targets converted
        exact .pure (by simpa [Except.map] using Converted.next did converted)

theorem scaffold_meets (plan : Plan) (root : Path) (package : String) :
    Meets o (scaffold o.files.recorded plan root package).run fun calls r =>
      ∃ done, Ran (Scaffold.steps plan root package) calls done ∧
        r = done.map fun _ => written (Scaffold.steps plan root package) := by
  apply (runAll_meets _).attempt
  · exact fun calls e ran => ⟨.error e, ran, rfl⟩
  · exact fun calls _ ran => .pure ⟨.ok (), by simpa using ran, rfl⟩

theorem generate_meets (plan : Plan) (root : Path) :
    Meets o (generate o.files.recorded plan root).run fun calls r =>
      ∃ done, Ran (Apps.steps plan root) calls done ∧
        r = done.map fun _ => ⟨root, plan.apps.map (Apps.built root), [], []⟩ := by
  apply (runAll_meets _).attempt
  · exact fun calls e ran => ⟨.error e, ran, rfl⟩
  · exact fun calls _ ran => .pure ⟨.ok (), by simpa using ran, rfl⟩

theorem convertTemplates_meets (views root : Path) :
    Meets o (convertTemplates o.files.recorded views root).run fun calls r =>
      ∃ looks more files, calls = looks ++ more ∧ Listed views looks files ∧
        Converted root (files.filterMap (Rails.Template.named? views)) more r := by
  apply Meets.fetch (P := fun calls templates => ∃ files, Listed views calls files ∧
    templates = files.filterMap (Rails.Template.named? views))
  · apply (FileSystem.list_meets views).bind
    intro looks files listed
    exact .pure ⟨files, by simpa using listed, rfl⟩
  · rintro looks _ ⟨files, listed, rfl⟩
    apply (convertAll_meets root _).mono
    exact fun more r converted => ⟨looks, more, files, rfl, listed, converted⟩

/-- The scaffold and then the apps, all of which is known from the plan. -/
def groundwork {m : Type → Type} [Monad m] (fs : FileSystem m) (plan : Plan) (root : Path)
    (package : String) : ExceptT BuildError m Project := do
  let scaffold ← Build.scaffold fs plan root package
  let project ← generate fs plan root
  return { project with scaffold }

theorem groundwork_meets (plan : Plan) (root : Path) (package : String) :
    Meets o (groundwork o.files.recorded plan root package).run fun calls r =>
      ∃ done, Ran (plannedSteps plan root package) calls done ∧ r = done.map fun _ =>
        ⟨root, plan.apps.map (Apps.built root), written (Scaffold.steps plan root package), []⟩ := by
  apply (scaffold_meets plan root package).attempt
  · exact fun calls e ended => ⟨.error e, ran_append_of_error (ran_of_map_error ended), rfl⟩
  · intro calls files ended
    obtain ⟨scaffolded, rfl⟩ := ran_of_map_ok ended
    apply (generate_meets plan root).attempt
    · intro more e ended
      exact ⟨.error e, ran_append scaffolded (ran_of_map_error ended), rfl⟩
    · intro more project ended
      obtain ⟨generated, rfl⟩ := ran_of_map_ok ended
      have planned := ran_append scaffolded generated
      exact .pure ⟨.ok (), by rwa [List.append_nil], rfl⟩

end Build

namespace Pipeline.Tools

theorem buildProject_eq {m : Type → Type} [Monad m] [LawfulMonad m] (tools : Tools m) (plan : Plan)
    (views root : Path) : tools.buildProject plan views root = (do
      let project ← Build.groundwork tools.files plan root tools.projectName
      let converted ← Build.convertTemplates tools.files views root
      return { project with converted }) := by
  simp [buildProject, Build.groundwork]

theorem buildProject_meets (name : String) (plan : Plan) (views root : Path) :
    Meets o ((o.tools name).buildProject plan views root).run (Build.Built plan views root name) := by
  rw [buildProject_eq]
  apply (Build.groundwork_meets plan root name).attempt
  · exact fun calls e ended => .stopped (Build.ran_of_map_error ended)
  · intro calls project ended
    obtain ⟨planned, rfl⟩ := Build.ran_of_map_ok ended
    apply (Build.convertTemplates_meets views root).attempt
    · rintro _ e ⟨looks, more, files, rfl, listed, converted⟩
      exact .converted planned listed converted
    · rintro _ targets ⟨looks, more, files, rfl, listed, converted⟩
      apply Meets.pure
      have built := Build.Built.converted planned listed converted
      simpa [Except.map] using built

end Pipeline.Tools

end Transplant
