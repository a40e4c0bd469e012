import Transplant.Proofs.StageCalls

/-! The calls of the sequencer: the calls of stages with a snapshot behind each stage that passes,
up to the first stage that fails. -/
namespace Transplant.Pipeline

variable {σ : Type} {o : Outside σ}

def State.passed (s : State) (stage : Stage) : State := { s with lastStage := some stage }

def snapshotCall (snapshots : Path) (stage : Stage) (s : State) (r : Except FileError Unit) : Call :=
  .write (snapshots.join (Snapshot.fileName stage)) (Snapshot.text s) r

inductive StageRan (name : String) (snapshots : Path) (stage : Stage) (s : State) :
    List Call → Outcome × Status → Prop where
  | failed {calls : List Call} {e : PipelineError} (worked : Worked name s stage calls (.error e)) :
      StageRan name snapshots stage s calls (.error e, .aborted (some stage))
  | passed {calls : List Call} {next : State} {r : Except FileError Unit}
      (worked : Worked name s stage calls (.ok next)) :
      StageRan name snapshots stage s
        (calls ++ [snapshotCall snapshots stage (next.passed stage) r])
        (.ok (next.passed stage), .stageComplete stage)

inductive StagesRan (name : String) (snapshots : Path) :
    List Stage → State → List Call → Outcome × Status → Prop where
  | done {s : State} : StagesRan name snapshots [] s [] (.ok s, .complete)
  | next {stage : Stage} {rest : List Stage} {s next : State} {calls more : List Call}
      {status : Status} {r : Outcome × Status}
      (ran : StageRan name snapshots stage s calls (.ok next, status))
      (later : StagesRan name snapshots rest next more r) :
      StagesRan name snapshots (stage :: rest) s (calls ++ more) r
  | stopped {stage : Stage} {rest : List Stage} {s : State} {calls : List Call} {e : PipelineError}
      {status : Status} (ran : StageRan name snapshots stage s calls (.error e, status)) :
      StagesRan name snapshots (stage :: rest) s calls (.error e, status)

inductive SequencerRan (name : String) (snapshots : Path) (s : State) :
    List Call → Outcome × Status → Prop where
  | noInput :
      SequencerRan name snapshots s [.contains s.inputRoot false]
        (.error (.missingInput s.inputRoot), .aborted none)
  | ran {calls : List Call} {r : Outcome × Status}
      (stages : StagesRan name snapshots Stage.order s calls r) :
      SequencerRan name snapshots s (.contains s.inputRoot true :: calls) r

theorem capture_meets (snapshots : Path) (stage : Stage) (s : State) :
    Meets o (Snapshot.capture o.files.recorded snapshots stage s) fun calls _ =>
      ∃ r, calls = [snapshotCall snapshots stage s r] := by
  apply (Meets.write _ _).bind
  rintro _ r rfl
  exact .pure ⟨r, rfl⟩

namespace Sequencer

theorem runStage_meets (name : String) (snapshots : Path) (stage : Stage) (s : State) :
    Meets o ((o.sequencer name snapshots).runStage stage s) (StageRan name snapshots stage s) := by
  unfold runStage
  cases missing : s.missingFor stage with
  | some field => exact .pure (.failed (.lacking missing))
  | none =>
    apply (Tools.work_meets name stage s).bind
    intro calls r worked
    cases r with
    | error e => exact .pure (by simpa using .failed worked)
    | ok next =>
      apply (capture_meets snapshots stage (next.passed stage)).bind
      rintro _ _ ⟨written, rfl⟩
      exact .pure (by simpa using .passed worked)

theorem runStages_meets (name : String) (snapshots : Path) (stages : List Stage) (s : State) :
    Meets o ((o.sequencer name snapshots).runStages stages s) (StagesRan name snapshots stages s) := by
  induction stages generalizing s with
  | nil => exact .pure .done
  | cons stage rest ih =>
    apply (runStage_meets name snapshots stage s).bind
    rintro calls ⟨r, status⟩ ran
    cases r with
    | error e => exact .pure (by simpa using .stopped ran)
    | ok next => exact (ih next).mono fun _ _ later => .next ran later

theorem run_meets (name : String) (snapshots : Path) (s : State) :
    Meets o ((o.sequencer name snapshots).run s) (SequencerRan name snapshots s) := by
  apply (Meets.contains s.inputRoot).bind
  rintro _ there rfl
  cases there with
  | false => exact .pure .noInput
  | true => exact (runStages_meets name snapshots Stage.order s).mono fun _ _ stages => .ran stages

end Sequencer

end Transplant.Pipeline
