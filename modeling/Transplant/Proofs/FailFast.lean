import Transplant.Proofs.Progress

/-! A run fails fast. The stages run in order, each asks its questions and leaves its snapshot, and
the first failure is the last thing that happens. Looks and snapshots may fail unnoticed. -/
namespace Transplant.Pipeline

/-- The calls of stages that all pass. Whether their snapshots could be written does not matter. -/
inductive Passed (name : String) (output snapshots : Path) : List Stage → List Call → Prop where
  | none : Passed name output snapshots [] []
  | next {stages : List Stage} {stage : Stage} {before work : List Call} {s : State}
      {r : Except FileError Unit} (passed : Passed name output snapshots stages before)
      (asked : topics work = stage.topics) (smooth : Smooth stage work)
      (within : WorksWithin name output stage work) :
      Passed name output snapshots (stages ++ [stage])
        (before ++ (work ++ [snapshotCall snapshots stage s r]))

/-- The calls of a stage that fails. The last call is the failure, or else the stage stops at a name
that it refuses: of the package, an app or a template of the plan that was answered before, with
just the calls of the steps in front of it; or of a template that it has just read. -/
inductive Broken (name : String) (s : State) (before : List Call) :
    Stage → List Call → PipelineError → Prop where
  | call {stage : Stage} (work : List Call) {c : Call} {e : PipelineError}
      (smooth : Smooth stage work) (failed : c.failure? stage = some e) :
      Broken name s before stage (work ++ [c]) e
  | plannedName {app : Rails.Application} {notes text : String} {steps after : List Build.Step}
      {work : List Call} {cause : BuildError}
      (planned : .asked (.plan app notes) (.ok text) ∈ before)
      (refused : Build.plannedSteps (.ofText text) (s.outputRoot.join name) name =
        steps ++ .refuse cause :: after) (ok : Build.Succeeded steps work) :
      Broken name s before .build work (.fileSystem .build cause)
  | templateName {work : List Call} {source : Path} {target : String}
      {found : Except FileError String} (smooth : Smooth .build work)
      (named : Rails.Template.named? (s.inputRoot.join Rails.Survey.viewsDir) source =
        some (source, target)) (refused : Build.staysBelow (target ++ ".html") = false) :
      Broken name s before .build (work ++ [.read source found])
        (.fileSystem .build (.unsafePath (target ++ ".html")))

/-- All that can come of a run: nothing without a source, all stages, or all up to one that fails. -/
inductive FailedFast (name : String) (snapshots : Path) (s : State) :
    List Call → Outcome × Status → Prop where
  | noInput :
      FailedFast name snapshots s [.contains s.inputRoot false]
        (.error (.missingInput s.inputRoot), .aborted none)
  | complete {calls : List Call} {next : State}
      (passed : Passed name s.outputRoot snapshots Stage.order calls)
      (asked : topics calls = [.outline, .summary, .plan, .description, .requirements])
      (last : next.lastStage = some .integrate) :
      FailedFast name snapshots s (.contains s.inputRoot true :: calls) (.ok next, .complete)
  | aborted {done later : List Stage} {stage : Stage} {before work : List Call} {e : PipelineError}
      (order : Stage.order = done ++ stage :: later)
      (passed : Passed name s.outputRoot snapshots done before)
      (asked : topics before = done.flatMap Stage.topics)
      (broken : Broken name s before stage work e) (named : e.stage? = some stage)
      (askedLast : topics work <+: stage.topics)
      (within : WorksWithin name s.outputRoot stage work) :
      FailedFast name snapshots s (.contains s.inputRoot true :: (before ++ work))
        (.error e, .aborted (some stage))

theorem Passed.asked {name : String} {output snapshots : Path} {stages : List Stage}
    {calls : List Call} (passed : Passed name output snapshots stages calls) :
    topics calls = stages.flatMap Stage.topics := by
  induction passed with
  | none => rfl
  | next _ asked _ _ ih =>
    rw [topics_append, topics_append, ih, asked, List.flatMap_append]
    simp [topics, snapshotCall, Call.topic?]

theorem Documented.broken {name : String} {start s : State} {before calls : List Call} {root : Path}
    {app : Rails.Application} {plan : Plan} {e : PipelineError}
    (documented : Documented s root app plan calls (.error e)) :
    Broken name start before .integrate calls e ∧ e.stage? = some .integrate ∧
      topics calls <+: Stage.integrate.topics := by
  cases documented with
  | notDescribed => exact ⟨.call [] (by simp [Smooth]) rfl, rfl, ⟨[.requirements], rfl⟩⟩
  | noReadme =>
    exact ⟨.call [_] (by simp [Smooth, Call.failure?]) rfl, rfl, ⟨[.requirements], rfl⟩⟩
  | notRequired =>
    exact ⟨.call [_, _] (by simp [Smooth, Call.failure?]) rfl, rfl, ⟨[], rfl⟩⟩
  | noRequirements =>
    exact ⟨.call [_, _, _] (by simp [Smooth, Call.failure?]) rfl, rfl, ⟨[], rfl⟩⟩

theorem broken_of_built {name text notes : String} {start : State} {before calls : List Call}
    {app : Rails.Application} {e : BuildError}
    (planned : .asked (.plan app notes) (.ok text) ∈ before)
    (built : Build.Built (.ofText text) (start.inputRoot.join Rails.Survey.viewsDir)
      (start.outputRoot.join name) name calls (.error e)) :
    Broken name start before .build calls (.fileSystem .build e) ∧ topics calls = [] := by
  generalize hr : Except.error e = r at built
  cases built with
  | stopped ran =>
    cases hr
    obtain ⟨steps, s, after, work, last, split, rfl, ok, did⟩ := ran.failed
    rw [topics_append, ok.quiet.topics_eq_nil]
    rcases did.failure with ⟨c, rfl, silent, failed⟩ | ⟨rfl, rfl⟩
    · exact ⟨.call _ (ok.quiet.smooth .build) failed, by simp [topics, silent]⟩
    · rw [List.append_nil]
      exact ⟨.plannedName planned split ok, rfl⟩
  | @converted calls looks more files r ran listed converted =>
    cases r with
    | ok targets => cases hr
    | error e' =>
      cases hr
      obtain ⟨work, source, target, found, last, member, rfl, quiet, did⟩ := converted.failed
      have front : Quiet (calls ++ (looks ++ work)) :=
        ran.succeeded.quiet.append (listed.onlyLooks.quiet.append quiet)
      -- The template has been read: its page could not be written, or its name was refused.
      obtain ⟨source', _, named⟩ := List.mem_filterMap.mp member
      have toRead := front.append (Build.quiet_read source found)
      have split : calls ++ (looks ++ (work ++ .read source found :: last)) =
          calls ++ (looks ++ work) ++ [.read source found] ++ last := by simp
      rw [split, topics_append, toRead.topics_eq_nil]
      rcases did.failure with ⟨c, rfl, silent, failed⟩ | ⟨rfl, refused⟩
      · exact ⟨.call _ (toRead.smooth .build) failed, by simp [topics, silent]⟩
      · obtain ⟨unsafe', rfl⟩ := Build.conversionStep_refused refused
        cases Rails.Template.named?_source named
        rw [List.append_nil]
        exact ⟨.templateName (front.smooth .build) named unsafe', rfl⟩

theorem Worked.broken {name : String} {start s : State} {done : List Stage} {stage : Stage}
    {before calls : List Call} {e : PipelineError} (progress : Progress name start done before s)
    (ready : s.missingFor stage = none) (front : stage = .build → .convert ∈ done)
    (worked : Worked name s stage calls (.error e)) :
    Broken name start before stage calls e ∧ e.stage? = some stage ∧ topics calls <+: stage.topics := by
  cases worked with
  | lacking missing => rw [ready] at missing; cases missing
  | notOutlined => exact ⟨.call [] (by simp [Smooth]) rfl, rfl, ⟨[], rfl⟩⟩
  | notDiscovered only =>
    refine ⟨.call _ (only.quiet.smooth .discovery) rfl, rfl, ⟨[], ?_⟩⟩
    rw [topics_append, only.quiet.topics_eq_nil]
    rfl
  | notConverted => exact ⟨.call [] (by simp [Smooth]) rfl, rfl, ⟨[], rfl⟩⟩
  | notBuilt there built =>
    obtain ⟨app, notes, text, asked, plan⟩ := progress.plan (front rfl)
    rw [Option.some.inj (there.symm.trans plan), progress.input, progress.output] at built
    obtain ⟨broken, silent⟩ := broken_of_built asked built
    exact ⟨broken, rfl, by rw [silent]; exact List.nil_prefix⟩
  | integrated _ _ _ documented => exact documented.broken

theorem StagesRan.failedFast {name : String} {snapshots : Path} {start s : State}
    {done stages : List Stage} {before calls : List Call} {r : Outcome × Status}
    (ran : StagesRan name snapshots stages s calls r) (order : Stage.order = done ++ stages)
    (passed : Passed name start.outputRoot snapshots done before)
    (progress : Progress name start done before s) :
    FailedFast name snapshots start (.contains start.inputRoot true :: (before ++ calls)) r := by
  -- Each stage that passes moves from the stages that are left to those that are done.
  induction ran generalizing done before with
  | done =>
    rw [List.append_nil] at order
    subst order
    rw [List.append_nil]
    exact .complete passed passed.asked (progress.last .integrate rfl)
  | @next stage rest s next calls more status r ran later ih =>
    have split : Stage.order = done ++ [stage] ++ rest := by simp [order]
    cases ran with
    | @passed calls next snapshot worked =>
      have asked := worked.asked
      have within := progress.worksWithin order worked
      have tail := ih split (.next (s := next.passed stage) (r := snapshot) passed asked.1 asked.2 within)
        (progress.next worked (snapshotCall snapshots stage (next.passed stage) snapshot))
      rwa [List.append_assoc] at tail
  | @stopped stage rest s calls e status ran =>
    cases ran with
    | failed worked =>
      have front : stage = .build → .convert ∈ done := by
        rintro rfl
        rw [Stage.front order]
        decide
      obtain ⟨broken, named, asked⟩ := worked.broken progress (progress.ready order) front
      exact .aborted order passed passed.asked broken named asked (progress.worksWithin order worked)

theorem SequencerRan.failedFast {name : String} {snapshots : Path} {s : State} {calls : List Call}
    {r : Outcome × Status} (ran : SequencerRan name snapshots s calls r) :
    FailedFast name snapshots s calls r := by
  cases ran with
  | noInput => exact .noInput
  | ran stages => exact stages.failedFast rfl .none (.start name s)

/-- Every run ends as a run that fails fast, whatever the outside does. -/
theorem run_fails_fast {σ : Type} (o : Outside σ) (name : String) (snapshots : Path) (s : State)
    (e : σ) :
    ∃ calls r e', ((o.sequencer name snapshots).run s).run (e, []) = (r, e', calls) ∧
      FailedFast name snapshots s calls r := by
  obtain ⟨calls, r, e', does, _, ran⟩ := Sequencer.run_meets (o := o) name snapshots s e
  exact ⟨calls, r, e', does [], ran.failedFast⟩

end Transplant.Pipeline
