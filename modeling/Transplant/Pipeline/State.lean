import Transplant.Build.Project
import Transplant.Rails.Application

/-! The five stages of a conversion, in their order, and its state: what they have produced so far. -/
namespace Transplant

namespace Pipeline

inductive Stage where
  | plan
  | discovery
  | convert
  | build
  | integrate
  deriving DecidableEq, Repr

/-- Parts of the state that a stage can need. -/
inductive Field where
  | application
  | plan
  | projectRoot
  deriving DecidableEq, Repr

namespace Stage

def order : List Stage := [plan, discovery, convert, build, integrate]

def name : Stage → String
  | plan => "plan"
  | discovery => "discovery"
  | convert => "convert"
  | build => "build"
  | integrate => "integrate"

/-- Positions count from one. -/
def position : Stage → Nat
  | plan => 1
  | discovery => 2
  | convert => 3
  | build => 4
  | integrate => 5

def requires : Stage → List Field
  | plan => []
  | discovery => []
  | convert => [.application]
  | build => [.plan]
  | integrate => [.projectRoot, .application, .plan]

end Stage

def Field.name : Field → String
  | application => "source_model"
  | plan => "plan"
  | projectRoot => "project_root"

structure State where
  inputRoot : Path
  outputRoot : Path
  outline : Option String
  application : Option Rails.Application
  summary : Option String
  plan : Option Plan
  projectRoot : Option Path
  project : Option Build.Project
  lastStage : Option Stage
  lastResponse : Option String
  deriving DecidableEq, Repr

namespace State

def fresh (input output : Path) : State :=
  ⟨input, output, none, none, none, none, none, none, none, none⟩

def has (s : State) : Field → Bool
  | .application => s.application.isSome
  | .plan => s.plan.isSome
  | .projectRoot => s.projectRoot.isSome

/-- The first field that a stage needs and the state lacks. -/
def missingFor (s : State) (stage : Stage) : Option Field :=
  stage.requires.find? fun f => !s.has f

def optional {α : Type} (f : α → Json) (x : Option α) : Json := x.elim .null f

def toJson (s : State) : Json :=
  .object
    [("input_root", .string s.inputRoot.text),
     ("output_root", .string s.outputRoot.text),
     ("outline", .ofOption s.outline),
     ("source_model", optional Rails.Application.toJson s.application),
     ("summary", .ofOption s.summary),
     ("plan", optional Plan.toJson s.plan),
     ("project_root", optional (fun p => .string p.text) s.projectRoot),
     ("generated", optional Build.Project.toJson s.project),
     ("last_stage", optional (fun t => .string t.name) s.lastStage),
     ("last_response", .ofOption s.lastResponse)]

end State

/-- Where a run stands. A run that is aborted names the stage that failed, if one had started. -/
inductive Status where
  | notStarted
  | running (stage : Stage)
  | stageComplete (stage : Stage)
  | aborted (stage : Option Stage)
  | complete
  deriving DecidableEq, Repr

end Pipeline

open Pipeline (Stage Field)

inductive PipelineError where
  | missingInput (path : Path)
  | preconditionViolation (stage : Stage) (field : Field)
  | collaboratorFailure (stage : Stage) (message : String)
  | fileSystem (stage : Stage) (cause : BuildError)
  deriving DecidableEq, Repr

namespace PipelineError

def message : PipelineError → String
  | missingInput path => "input directory not found: " ++ path.text
  | preconditionViolation stage field =>
    "stage '" ++ stage.name ++ "' requires '" ++ field.name ++ "', which is not set"
  | collaboratorFailure stage message =>
    "stage '" ++ stage.name ++ "': collaborator call failed: " ++ message
  | fileSystem stage cause => "stage '" ++ stage.name ++ "': " ++ cause.message

def cause? : PipelineError → Option String
  | fileSystem _ cause => some cause.message
  | _ => none

end PipelineError

end Transplant
