import Transplant.Pipeline.Sequencer

/-! One sequencer that is called again and again, and the statuses that it goes through. A call does not
look at the status that the call before it has left. -/
namespace Transplant.Pipeline

inductive Demand where
  | run (s : State)
  | runStage (stage : Stage) (s : State)
  deriving DecidableEq, Repr

/-- Computations that also keep the statuses entered so far, the oldest first. -/
abbrev Noting (m : Type → Type) := StateT (List Status) m

namespace Sequencer

variable {m : Type → Type} [Monad m]

def serve (q : Sequencer m) : Demand → m (Outcome × Status)
  | .run s => q.run s
  | .runStage stage s => q.runStage stage s

def enter (status : Status) : Noting m Unit := modify (· ++ [status])

/-- A stage that is refused never runs. -/
def followStage (q : Sequencer m) (stage : Stage) (s : State) : Noting m (Outcome × Status) := do
  if (s.missingFor stage).isNone then enter (.running stage)
  let ended ← q.runStage stage s
  enter ended.2
  return ended

def followStages (q : Sequencer m) : List Stage → State → Noting m (Outcome × Status)
  | [], s => do
    enter .complete
    return (.ok s, .complete)
  | stage :: rest, s => do
    match ← q.followStage stage s with
    | (.ok next, _) => q.followStages rest next
    | failed => return failed

def follow (q : Sequencer m) : Demand → Noting m (Outcome × Status)
  | .run s => do
    if ← q.tools.files.contains s.inputRoot then q.followStages Stage.order s
    else
      enter (.aborted none)
      return (.error (.missingInput s.inputRoot), .aborted none)
  | .runStage stage s => q.followStage stage s

end Sequencer

end Transplant.Pipeline
