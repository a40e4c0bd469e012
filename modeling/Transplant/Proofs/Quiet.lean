import Transplant.Proofs.StageCalls

/-! Calls that ask something and calls that fail a run. The calls of a build ask nothing, and one
that fails is the last of its build. -/
namespace Transplant

inductive Topic where
  | outline
  | summary
  | plan
  | description
  | requirements
  deriving DecidableEq, Repr

def Question.topic : Question → Topic
  | .outline _ => .outline
  | .summary _ => .summary
  | .plan _ _ => .plan
  | .description _ _ => .description
  | .requirements => .requirements

def Call.topic? : Call → Option Topic
  | .asked q _ => some q.topic
  | _ => none

def topics (calls : List Call) : List Topic := calls.filterMap Call.topic?

theorem topics_append (calls more : List Call) : topics (calls ++ more) = topics calls ++ topics more :=
  List.filterMap_append

open Pipeline (Stage)

/-- The failure of a run that a failed call in a stage is. A failed look is none. -/
def Call.failure? (stage : Stage) : Call → Option PipelineError
  | .write p _ (.error e) => some (.fileSystem stage (.io p e))
  | .createDir p (.error e) => some (.fileSystem stage (.io p e))
  | .asked _ (.error message) => some (.collaboratorFailure stage message)
  | _ => none

def Smooth (stage : Stage) (calls : List Call) : Prop := ∀ c ∈ calls, c.failure? stage = none

theorem Smooth.append {stage : Stage} {calls more : List Call} (h : Smooth stage calls)
    (h' : Smooth stage more) : Smooth stage (calls ++ more) :=
  List.forall_mem_append.mpr ⟨h, h'⟩

def PipelineError.stage? : PipelineError → Option Stage
  | missingInput _ => none
  | preconditionViolation stage _ => some stage
  | collaboratorFailure stage _ => some stage
  | fileSystem stage _ => some stage

/-- Nothing is asked and nothing fails a run. -/
def Quiet (calls : List Call) : Prop :=
  ∀ c ∈ calls, c.topic? = none ∧ ∀ stage, c.failure? stage = none

namespace Quiet

theorem nil : Quiet [] := by simp [Quiet]

theorem append {calls more : List Call} (h : Quiet calls) (h' : Quiet more) :
    Quiet (calls ++ more) :=
  List.forall_mem_append.mpr ⟨h, h'⟩

theorem smooth {calls : List Call} (h : Quiet calls) (stage : Stage) : Smooth stage calls :=
  fun c hc => (h c hc).2 stage

theorem topics_eq_nil {calls : List Call} (h : Quiet calls) : topics calls = [] :=
  List.filterMap_eq_nil_iff.mpr fun c hc => (h c hc).1

end Quiet

theorem OnlyLooks.quiet {calls : List Call} (looks : OnlyLooks calls) : Quiet calls := by
  intro c hc
  have look := looks c hc
  cases c <;> simp_all [Call.isLook, Call.topic?, Call.failure?]

namespace Build

theorem Succeeded.quiet {steps : List Step} {calls : List Call} (ok : Succeeded steps calls) :
    Quiet calls := by
  intro c hc
  obtain ⟨s, _, hs⟩ := ok.exists_step hc
  cases s <;> cases hs <;> simp [Call.topic?, Call.failure?]

theorem Step.Did.failure {s : Step} {calls : List Call} {e : BuildError}
    (did : s.Did calls (.error e)) :
    (∃ c, calls = [c] ∧ c.topic? = none ∧ c.failure? .build = some (.fileSystem .build e)) ∨
      (calls = [] ∧ s = .refuse e) := by
  cases did with
  | notWritten => exact .inl ⟨_, rfl, rfl, rfl⟩
  | notMade => exact .inl ⟨_, rfl, rfl, rfl⟩
  | refused => exact .inr ⟨rfl, rfl⟩

theorem quiet_read (source : Path) (found : Except FileError String) : Quiet [.read source found] := by
  simp [Quiet, Call.topic?, Call.failure?]

theorem Converted.quiet {root : Path} {templates : List (Path × String)} {calls : List Call}
    {targets : List Path} (converted : Converted root templates calls (.ok targets)) :
    Quiet calls := by
  generalize hr : Except.ok targets = r at converted
  induction converted generalizing targets with
  | done => exact .nil
  | @next _ _ _ _ _ _ r did _ ih =>
    cases r with
    | error e => cases hr
    | ok targets => exact (quiet_read _ _).append (did.succeeded.quiet.append (ih rfl))
  | stopped did => cases hr

theorem Converted.failed {root : Path} {templates : List (Path × String)} {calls : List Call}
    {e : BuildError} (converted : Converted root templates calls (.error e)) :
    ∃ work source name found last, (source, name) ∈ templates ∧
      calls = work ++ .read source found :: last ∧ Quiet work ∧
      (conversionStep root name (orEmpty found)).Did last (.error e) := by
  generalize hr : Except.error e = r at converted
  induction converted with
  | done => cases hr
  | @next source name rest calls more found r did _ ih =>
    cases r with
    | ok targets => cases hr
    | error e' =>
      cases hr
      obtain ⟨work, source', name', found', last, member, rfl, quiet, failed⟩ := ih rfl
      refine ⟨.read source found :: (calls ++ work), source', name', found', last,
        List.mem_cons_of_mem _ member, by simp, ?_, failed⟩
      exact (quiet_read _ _).append (did.succeeded.quiet.append quiet)
  | stopped did =>
    cases hr
    exact ⟨[], _, _, _, _, List.mem_cons_self, rfl, .nil, did⟩

theorem Built.quiet {plan : Plan} {views root : Path} {package : String} {calls : List Call}
    {project : Project} (built : Built plan views root package calls (.ok project)) : Quiet calls := by
  generalize hr : Except.ok project = r at built
  cases built with
  | stopped ran => cases hr
  | @converted _ _ _ _ r ran listed converted =>
    cases r with
    | error e => cases hr
    | ok targets => exact ran.succeeded.quiet.append (listed.onlyLooks.quiet.append converted.quiet)

theorem conversionStep_refused {root : Path} {name text : String} {e : BuildError}
    (h : conversionStep root name text = .refuse e) :
    staysBelow (name ++ ".html") = false ∧ e = .unsafePath (name ++ ".html") := by
  unfold conversionStep at h
  split at h
  · cases h
  · rename_i away
    cases h
    exact ⟨by simpa using away, rfl⟩

end Build

end Transplant
