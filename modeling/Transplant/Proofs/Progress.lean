import Transplant.Proofs.ChangedPaths
import Transplant.Proofs.Quiet
import Transplant.Proofs.SequencerCalls

/-! How far a run has come between its stages. Each stage that passes asks its questions, changes
files only where it may, and leaves what the stages behind it need. -/
namespace Transplant.Pipeline

def Stage.topics : Stage → List Topic
  | .plan => [.outline]
  | .discovery => [.summary]
  | .convert => [.plan]
  | .build => []
  | .integrate => [.description, .requirements]

theorem Documented.asked {s next : State} {root : Path} {app : Rails.Application} {plan : Plan}
    {calls : List Call} (documented : Documented s root app plan calls (.ok next)) :
    topics calls = [.description, .requirements] ∧ Smooth .integrate calls := by
  cases documented
  exact ⟨rfl, by simp [Smooth, Call.failure?]⟩

theorem Worked.asked {name : String} {s next : State} {stage : Stage} {calls : List Call}
    (worked : Worked name s stage calls (.ok next)) :
    topics calls = stage.topics ∧ Smooth stage calls := by
  have answered : ∀ stage q text, Smooth stage [.asked q (.ok text)] := by
    simp [Smooth, Call.failure?]
  cases worked with
  | outlined => exact ⟨rfl, answered _ _ _⟩
  | discovered only =>
    refine ⟨?_, Smooth.append (only.quiet.smooth .discovery) (answered _ _ _)⟩
    rw [topics_append, only.quiet.topics_eq_nil]
    rfl
  | converted => exact ⟨rfl, answered _ _ _⟩
  | built _ built => exact ⟨built.quiet.topics_eq_nil, built.quiet.smooth .build⟩
  | integrated _ _ _ documented => exact documented.asked

theorem Worked.changes {name : String} {s : State} {stage : Stage} {calls : List Call} {r : Outcome}
    (worked : Worked name s stage calls r) :
    ∀ c ∈ calls, ∀ p, c.changed? = some p → stage = .build ∨ stage = .integrate := by
  cases worked with
  | discovered only =>
    have looks := only.changesNothing
    simp_all [Call.changed?, or_imp]
  | notDiscovered only =>
    have looks := only.changesNothing
    simp_all [Call.changed?, or_imp]
  | _ => simp [Call.changed?]

theorem Worked.keeps {name : String} {s next : State} {stage : Stage} {calls : List Call}
    (worked : Worked name s stage calls (.ok next)) :
    next.inputRoot = s.inputRoot ∧ next.outputRoot = s.outputRoot ∧
      (stage ≠ .discovery → next.application = s.application) ∧
      (stage ≠ .convert → next.plan = s.plan) ∧
      (stage ≠ .build → next.projectRoot = s.projectRoot) := by
  cases worked with
  | integrated _ _ _ documented => cases documented; simp
  | _ => simp

theorem Worked.produces {name : String} {s next : State} {stage : Stage} {calls : List Call}
    (worked : Worked name s stage calls (.ok next)) :
    (stage = .discovery → next.application.isSome = true) ∧
      (stage = .convert → ∃ app notes text,
        .asked (.plan app notes) (.ok text) ∈ calls ∧ next.plan = some (.ofText text)) ∧
      (stage = .build → next.projectRoot = some (s.outputRoot.join name) ∧
        Build.isEntry name = true) := by
  cases worked with
  | @converted app text there =>
    exact ⟨by simp, fun _ => ⟨app, s.summary.getD "", text, by simp, rfl⟩, by simp⟩
  | built _ built => exact ⟨by simp, by simp, fun _ => ⟨rfl, built.isEntry_of_ok⟩⟩
  | _ => simp

/-- What holds between stages: the roots are the first ones, and each stage that has passed has left
what it produces. -/
structure Progress (name : String) (start : State) (done : List Stage) (before : List Call)
    (s : State) : Prop where
  input : s.inputRoot = start.inputRoot
  output : s.outputRoot = start.outputRoot
  application : .discovery ∈ done → s.application.isSome = true
  plan : .convert ∈ done → ∃ app notes text,
    .asked (.plan app notes) (.ok text) ∈ before ∧ s.plan = some (.ofText text)
  project : .build ∈ done → s.projectRoot = some (start.outputRoot.join name) ∧
    Build.isEntry name = true
  last : ∀ stage, done.getLast? = some stage → s.lastStage = some stage

theorem Progress.start (name : String) (s : State) : Progress name s [] [] s := by
  constructor <;> simp

theorem Progress.next {name : String} {start s next : State} {done : List Stage} {stage : Stage}
    {before work : List Call} (progress : Progress name start done before s)
    (worked : Worked name s stage work (.ok next)) (snapshot : Call) :
    Progress name start (done ++ [stage]) (before ++ (work ++ [snapshot])) (next.passed stage) := by
  obtain ⟨input, output, application, plan, project⟩ := worked.keeps
  obtain ⟨discovers, converts, builds⟩ := worked.produces
  constructor
  · exact input.trans progress.input
  · exact output.trans progress.output
  · intro member
    by_cases here : stage = .discovery
    · exact discovers here
    · have earlier : Stage.discovery ∈ done := by simpa [Ne.symm here] using member
      exact (congrArg Option.isSome (application here)).trans (progress.application earlier)
  · intro member
    by_cases here : stage = .convert
    · obtain ⟨app, notes, text, asked, made⟩ := converts here
      exact ⟨app, notes, text, by simp [asked], made⟩
    · have earlier : Stage.convert ∈ done := by simpa [Ne.symm here] using member
      obtain ⟨app, notes, text, asked, made⟩ := progress.plan earlier
      exact ⟨app, notes, text, by simp [asked], (plan here).trans made⟩
  · intro member
    by_cases here : stage = .build
    · rw [← progress.output]
      exact builds here
    · have earlier : Stage.build ∈ done := by simpa [Ne.symm here] using member
      obtain ⟨root, entry⟩ := progress.project earlier
      exact ⟨(project here).trans root, entry⟩
  · intro last h
    simpa [State.passed] using h

theorem Stage.front {done later : List Stage} {stage : Stage}
    (order : Stage.order = done ++ stage :: later) : done = Stage.order.takeWhile (· ≠ stage) := by
  have distinct : Stage.order.Nodup := by decide
  rw [order] at distinct ⊢
  have apart : ∀ other ∈ done, decide (other ≠ stage) = true := by
    intro other member
    have different := (List.nodup_append.mp distinct).2.2 other member stage (by simp)
    simpa using different
  rw [List.takeWhile_append_of_pos apart, List.takeWhile_cons_of_neg (by simp), List.append_nil]

/-- A stage finds all that it needs when the stages in front of it have passed. -/
theorem Progress.ready {name : String} {start s : State} {done later : List Stage} {stage : Stage}
    {before : List Call} (progress : Progress name start done before s)
    (order : Stage.order = done ++ stage :: later) : s.missingFor stage = none := by
  have front := Stage.front order
  cases stage with
  | plan => rfl
  | discovery => rfl
  | convert =>
    have application := progress.application (by rw [front]; decide)
    simp [State.missingFor, Stage.requires, State.has, application]
  | build =>
    obtain ⟨_, _, _, _, plan⟩ := progress.plan (by rw [front]; decide)
    simp [State.missingFor, Stage.requires, State.has, plan]
  | integrate =>
    have application := progress.application (by rw [front]; decide)
    obtain ⟨_, _, _, _, plan⟩ := progress.plan (by rw [front]; decide)
    obtain ⟨project, _⟩ := progress.project (by rw [front]; decide)
    simp [State.missingFor, Stage.requires, State.has, application, plan, project]

/-- Only the last two stages change files, and those within the root of the project, whose name is
an entry of the output directory then. -/
def WorksWithin (name : String) (output : Path) (stage : Stage) (calls : List Call) : Prop :=
  ∀ c ∈ calls, ∀ p, c.changed? = some p →
    (stage = .build ∨ stage = .integrate) ∧ Build.isEntry name = true ∧ (output.join name).Within p

theorem Progress.worksWithin {name : String} {start s : State} {done later : List Stage}
    {stage : Stage} {before calls : List Call} {r : Outcome}
    (progress : Progress name start done before s) (order : Stage.order = done ++ stage :: later)
    (worked : Worked name s stage calls r) : WorksWithin name start.outputRoot stage calls := by
  have built : stage = .integrate → s.projectRoot = some (start.outputRoot.join name) ∧
      Build.isEntry name = true := by
    rintro rfl
    exact progress.project (by rw [Stage.front order]; decide)
  have within := worked.changesWithin fun last => by rw [progress.output]; exact (built last).1
  intro c hc p hp
  have inside := within c hc p hp
  rw [progress.output] at inside
  rcases worked.changes c hc p hp with rfl | rfl
  · exact ⟨.inl rfl, worked.isEntry hc, inside⟩
  · exact ⟨.inr rfl, (built rfl).2, inside⟩

end Transplant.Pipeline
