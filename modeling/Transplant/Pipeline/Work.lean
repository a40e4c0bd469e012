import Transplant.Build.Conversion
import Transplant.Build.Project
import Transplant.Pipeline.State
import Transplant.Plan.Reader
import Transplant.Services

/-! The work of the stages. Each stage fills in the fields of the state that it owns. -/
namespace Transplant.Pipeline

structure Tools (m : Type → Type) where
  files : FileSystem m
  collaborator : Collaborator m
  projectName : String

def readmePlaceholder : String :=
  "# Converted project\n\nGenerated from a Rails application. " ++
  "Documentation was not produced for this run.\n"

def requirementsFallback : String := "Django>=5.0\n"

/-- A blank text gives way to another; blanks at the end of a text to a line end. -/
def bodyOr (otherwise text : String) : String :=
  if text.trimmed.isEmpty then otherwise
  else .ofList (Text.trimEnd text.toList) ++ "\n"

def required {m : Type → Type} [Monad m] {α : Type} (stage : Stage) (field : Field) :
    Option α → ExceptT PipelineError m α
  | some x => return x
  | none => throw (.preconditionViolation stage field)

namespace Tools

variable {m : Type → Type} [Monad m]

def ask (tools : Tools m) (stage : Stage) (q : Question) : ExceptT PipelineError m String :=
  ExceptT.mk do
    match ← tools.collaborator.ask q with
    | .ok text => return .ok text
    | .error message => return .error (.collaboratorFailure stage message)

def inStage {α : Type} (stage : Stage) (act : ExceptT BuildError m α) :
    ExceptT PipelineError m α :=
  ExceptT.mk do
    match ← act.run with
    | .ok x => return .ok x
    | .error e => return .error (.fileSystem stage e)

def plan (tools : Tools m) (s : State) : ExceptT PipelineError m State := do
  let outline ← tools.ask .plan (.outline s.inputRoot)
  return { s with outline := some outline, lastResponse := some outline }

def discovery (tools : Tools m) (s : State) : ExceptT PipelineError m State := do
  let app ← ExceptT.lift (Rails.Survey.run tools.files s.inputRoot)
  let summary ← tools.ask .discovery (.summary app)
  return { s with application := some app, summary := some summary, lastResponse := some summary }

def convert (tools : Tools m) (s : State) : ExceptT PipelineError m State := do
  let app ← required .convert .application s.application
  let text ← tools.ask .convert (.plan app (s.summary.getD ""))
  return { s with plan := some (Plan.ofText text), lastResponse := some text }

def buildProject (tools : Tools m) (plan : Plan) (views root : Path) :
    ExceptT BuildError m Build.Project := do
  let scaffold ← Build.scaffold tools.files plan root tools.projectName
  let project ← Build.generate tools.files plan root
  let converted ← Build.convertTemplates tools.files views root
  return { project with scaffold, converted }

def build (tools : Tools m) (s : State) : ExceptT PipelineError m State := do
  let plan ← required .build .plan s.plan
  let root := s.outputRoot.join tools.projectName
  let project ← inStage .build
    (tools.buildProject plan (s.inputRoot.join Rails.Survey.viewsDir) root)
  return { s with projectRoot := some root, project := some project }

def writeDocument (tools : Tools m) (path : Path) (text : String) :
    ExceptT PipelineError m Unit :=
  inStage .integrate ((Build.Step.write path text).run tools.files)

def integrate (tools : Tools m) (s : State) : ExceptT PipelineError m State := do
  let root ← required .integrate .projectRoot s.projectRoot
  let app ← required .integrate .application s.application
  let plan ← required .integrate .plan s.plan
  let readme ← tools.ask .integrate (.description app plan)
  tools.writeDocument (root.join "README.md") (bodyOr readmePlaceholder readme)
  let requirements ← tools.ask .integrate .requirements
  tools.writeDocument (root.join "requirements.txt") (bodyOr requirementsFallback requirements)
  return { s with lastResponse := some requirements }

def work (tools : Tools m) : Stage → State → ExceptT PipelineError m State
  | .plan => tools.plan
  | .discovery => tools.discovery
  | .convert => tools.convert
  | .build => tools.build
  | .integrate => tools.integrate

end Tools

end Transplant.Pipeline
