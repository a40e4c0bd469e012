import Transplant.CommandLine.Arguments
import Transplant.Pipeline.Sequencer
import Transplant.Rails.Survey
import Transplant.Services

/-! What the commands do, and the lines that they print when they succeed. -/
namespace Transplant

inductive CommandError where
  | noInput (path : Path)
  | noPlan (path : Path) (cause : FileError)
  | generation (cause : BuildError)
  | conversion (cause : PipelineError)
  deriving DecidableEq, Repr

def CommandError.message : CommandError → String
  | noInput path => "Input directory not found: " ++ path.text
  | noPlan path cause => "Failed to read plan " ++ path.text ++ ": " ++ cause.message
  | generation cause => "Generation failed: " ++ cause.message
  | conversion cause => "Conversion failed: " ++ cause.message

namespace Command

variable {m : Type → Type} [Monad m]

def analyzeTree (fs : FileSystem m) (input : Path) : ExceptT CommandError m (List String) := do
  if ← ExceptT.lift (fs.contains input) then
    let app ← ExceptT.lift (Rails.Survey.run fs input)
    return [app.toJson.pretty]
  else throw (.noInput input)

def appLine (app : Build.BuiltApp) : String :=
  "  " ++ app.name ++ " (" ++ toString app.files.length ++ " files)"

/-- The place of a project, its apps, and how many files there are of some other kind. -/
def projectLines (project : Build.Project) (others : List Path) (kind : String) : List String :=
  ["Project generated at " ++ project.root.text] ++ project.apps.map appLine ++
    ["  " ++ toString others.length ++ " " ++ kind]

def buildPlan (fs : FileSystem m) (settings : Settings) (plan : Plan) (output : Path) :
    ExceptT BuildError m (List String) := do
  let root := output.join settings.projectName
  let scaffold ← Build.scaffold fs plan root settings.projectName
  let project ← Build.generate fs plan root
  return projectLines project scaffold "project files"

def generateProject (fs : FileSystem m) (settings : Settings) (plan output : Path) :
    ExceptT CommandError m (List String) := do
  match ← ExceptT.lift (fs.read plan) with
  | .error e => throw (.noPlan plan e)
  | .ok text =>
    match ← ExceptT.lift (buildPlan fs settings (.ofText text) output).run with
    | .ok lines => return lines
    | .error e => throw (.generation e)

def rawPlanLine : String :=
  "Plan could not be parsed; no apps were generated. See the snapshots for the raw plan."

def summary (s : Pipeline.State) : List String :=
  (s.project.map fun p => projectLines p p.converted "templates converted").getD [] ++
    (if s.plan.any Plan.isRaw then [rawPlanLine] else [])

/-- The snapshots of a conversion are named for the time at which it starts. -/
def convertTree (services : Services m) (settings : Settings) (input output logDir : Path) :
    ExceptT CommandError m (List String) := do
  let started ← ExceptT.lift services.now
  let tools : Pipeline.Tools m :=
    ⟨services.files, .ofModel services.model settings, settings.projectName⟩
  let sequencer : Pipeline.Sequencer m := ⟨tools, Pipeline.Snapshot.directory logDir started⟩
  match ← ExceptT.lift (sequencer.run (.fresh input output)) with
  | (.ok s, _) => return summary s
  | (.error e, _) => throw (.conversion e)

def run (services : Services m) (settings : Settings) :
    Command → ExceptT CommandError m (List String)
  | convert input output logDir =>
    convertTree services settings input output (logDir.getD settings.logDir)
  | analyze input => analyzeTree services.files input
  | generate plan output => generateProject services.files settings plan output

end Command

end Transplant
