import Transplant.Cassette.Playback
import Transplant.Cassette.Recording
import Transplant.CommandLine.Command
import Transplant.VariableFile

/-! A run of the program: settings, services that are live, recorded or replayed, and a command. -/
namespace Transplant

/-- What a run finds around it. The model behind the services still asks for a key. -/
structure Host (m : Type → Type) where
  services : Services m
  shelf : Shelf m
  lookup : String → m (Option String)

inductive RunError where
  | settings (cause : SettingsError)
  | cassette (cause : CassetteError)
  | session (cause : SessionError)
  | command (cause : CommandError)
  deriving DecidableEq, Repr

def RunError.message : RunError → String
  | settings cause => cause.message
  | cassette cause => cause.message
  | session cause => cause.message
  | command cause => cause.message

/-- Lines for the output, a remark beside it, and the failure if there is one. -/
structure Report where
  lines : List String
  remark : Option String
  failure : Option RunError

namespace Report

def failed (e : RunError) : Report := ⟨[], none, some e⟩

def ofResult : Except CommandError (List String) → Report
  | .ok lines => ⟨lines, none, none⟩
  | .error e => failed (.command e)

end Report

/-- Without a key the model is not asked. -/
def LanguageModel.keyed {m : Type → Type} [Monad m] (key : Option String)
    (model : LanguageModel m) : LanguageModel m where
  complete r :=
    if key.isSome then model.complete r
    else return .error "ANTHROPIC_API_KEY environment variable not set"

namespace Host

def replayVariable : String := "RAILSHIFT_REPLAY"

def recordVariable : String := "RAILSHIFT_RECORD"

def keyVariable : String := "ANTHROPIC_API_KEY"

def variableNames : List String :=
  Settings.variableNames ++ [replayVariable, recordVariable, keyVariable]

def variableFile : Path := ⟨".env"⟩

variable {m : Type → Type} [Monad m]

def fileVariables (h : Host m) : m (List (String × String)) := do
  match ← h.shelf.readLines variableFile with
  | .ok text => VariableFile.define h.lookup [] (VariableFile.definitions text)
  | .error _ => return []

def gather (h : Host m) (known : List (String × String)) :
    List String → m (List (String × String))
  | [] => return []
  | name :: rest => do
    let found := (← VariableFile.find h.lookup known name).map (name, ·)
    return found.toList ++ (← h.gather known rest)

/-- The variables of a run, of which those of a file come second. -/
def environment (h : Host m) : m (List (String × String)) := do
  h.gather (← h.fileVariables) variableNames

def onShelf (h : Host m) : List Path → m (List Path)
  | [] => return []
  | p :: rest => do
    let found ← h.shelf.contains p
    let more ← h.onShelf rest
    return if found then p :: more else more

/-- A directory stands for the cassettes of a session that are in it. -/
def cassettesAt (h : Host m) (path : Path) : m (List Path) := do
  if ← h.shelf.isDirectory path then
    h.onShelf ([Session.modelService, Session.clockService].map (Session.cassettePath path))
  else return [path]

def runReplayed (h : Host m) (path : Path) (settings : Settings) (c : Command) : m Report := do
  match ← (h.shelf.loadTape (← h.cassettesAt path)).run with
  | .error e => return .failed (.cassette e)
  | .ok tape =>
    let act := c.run (Services.replayed h.services.files) settings
    return .ofResult (← act.run.run (.ofTape tape)).1

/-- The cassettes are kept also when the command fails. -/
def runRecorded (h : Host m) (services : Services m) (root : Path) (settings : Settings)
    (c : Command) : m Report := do
  match ← (Session.start h.shelf root).run with
  | .error e => return .failed (.session e)
  | .ok session =>
    let (result, recording) ← (c.run services.recorded settings).run.run .start
    let report := Report.ofResult result
    match ← (session.finish h.shelf recording.released).run with
    | .ok _ => return { report with remark := some ("Recording saved to: " ++ session.dir.text) }
    | .error e => return { report with failure := some (.session e) }

def run (h : Host m) (c : Command) : m Report := do
  let environment ← h.environment
  let get (name : String) : Option String := environment.lookup name
  match Settings.ofVariables get with
  | .error e => return .failed (.settings e)
  | .ok settings =>
    let services := { h.services with model := h.services.model.keyed (get keyVariable) }
    match get replayVariable, get recordVariable with
    | some path, _ => h.runReplayed ⟨path⟩ settings c
    | none, some root => h.runRecorded services ⟨root⟩ settings c
    | none, none => return .ofResult (← (c.run services settings).run)

end Host

end Transplant
