import Transplant.FileSystem
import Transplant.Instant.Printer
import Transplant.Pipeline.State
import Transplant.Pipeline.Work
import Transplant.Yaml.Printer

/-! The sequencer runs stages in order, checks first what each of them needs, and stops at the first
failure. It leaves a snapshot of the state after each stage, one file each, below a directory named for
the time of the run. -/
namespace Transplant.Pipeline

namespace Snapshot

def directory (logDir : Path) (started : Instant) : Path :=
  (logDir.join "snapshots").join started.runName

def fileName (stage : Stage) : String :=
  padded 2 stage.position ++ "-" ++ stage.name ++ ".yaml"

def text (s : State) : String := Yaml.render s.toJson.sorted

/-- Writes the state after a stage; a failure to do so is passed over. All of a state has a value to
write, since its paths are text in UTF-8. -/
def capture {m : Type → Type} [Monad m] (fs : FileSystem m) (dir : Path) (stage : Stage)
    (s : State) : m Unit := do
  let _ ← fs.write (dir.join (fileName stage)) (text s)

end Snapshot

def membersOf : Json → List (String × Json)
  | .object members => members
  | _ => []

/-- The keys of a value that differ from an earlier one, where a missing key counts as null. -/
def changedFields (old : Option Json) (new : Json) : List String :=
  ((membersOf new).filter fun m =>
    !((old.bind (Json.get? m.1)).getD .null).agrees m.2).map Prod.fst

structure Sequencer (m : Type → Type) where
  tools : Tools m
  snapshots : Path

abbrev Outcome := Except PipelineError State

namespace Sequencer

variable {m : Type → Type} [Monad m]

def runStage (q : Sequencer m) (stage : Stage) (s : State) : m (Outcome × Status) := do
  match s.missingFor stage with
  | some field => return (.error (.preconditionViolation stage field), .aborted (some stage))
  | none =>
    match ← (q.tools.work stage s).run with
    | .error e => return (.error e, .aborted (some stage))
    | .ok next =>
      let next := { next with lastStage := some stage }
      Snapshot.capture q.tools.files q.snapshots stage next
      return (.ok next, .stageComplete stage)

def runStages (q : Sequencer m) : List Stage → State → m (Outcome × Status)
  | [], s => return (.ok s, .complete)
  | stage :: rest, s => do
    match ← q.runStage stage s with
    | (.ok next, _) => q.runStages rest next
    | failed => return failed

def run (q : Sequencer m) (s : State) : m (Outcome × Status) := do
  if ← q.tools.files.contains s.inputRoot then q.runStages Stage.order s
  else return (.error (.missingInput s.inputRoot), .aborted none)

end Sequencer

end Transplant.Pipeline
