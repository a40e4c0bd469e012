import Transplant.Cassette.Exchange
import Transplant.Cassette.Shelf
import Transplant.Services

/-! Recording: services that write each exchange on a tape, and the session that keeps the tapes as
cassettes in a directory of its own. -/
namespace Transplant

variable {m : Type → Type}

/-- A tape, and whether a service still writes on it. -/
structure Recorder where
  tape : Tape
  held : Bool

structure Recording where
  model : Recorder
  clock : Recorder

namespace Recording

def start : Recording := ⟨⟨[], true⟩, ⟨[], true⟩⟩

def released (r : Recording) : Recording :=
  ⟨{ r.model with held := false }, { r.clock with held := false }⟩

def hearModel (request : Request) (answer : Except String Completion) (r : Recording) : Recording :=
  let tape := r.model.tape.record .model request.toJson (answerOutput answer)
  { r with model := { r.model with tape } }

def hearClock (time : Instant) (r : Recording) : Recording :=
  let tape := r.clock.tape.record .clock (.object []) (.string time.withZulu)
  { r with clock := { r.clock with tape } }

end Recording

namespace Services

/-- The same services, with all that they answer on record. -/
def recorded [Monad m] (s : Services m) : Services (StateT Recording m) where
  files := s.files.lifted
  model := ⟨fun request => do
    let answer ← s.model.complete request
    modify (Recording.hearModel request answer)
    return answer⟩
  now := do
    let time ← s.now
    modify (Recording.hearClock time)
    return time

end Services

inductive SessionError where
  | taken (dir : Path)
  | noDirectory (cause : FileError)
  | held (service : String)
  | unwritten (service : String) (cause : FileError)
  deriving DecidableEq, Repr

def SessionError.message : SessionError → String
  | taken dir => "Cassette directory already exists: " ++ dir.text
  | noDirectory cause => "Failed to create cassette directory: " ++ cause.message
  | held service => "Recording adapter for " ++ service ++ " still has references"
  | unwritten service cause => "Failed to write " ++ service ++ " cassette: " ++ cause.message

/-- A directory named for the time at which it was made. -/
structure Session where
  dir : Path
  name : String
  deriving DecidableEq, Repr

namespace Session

def cassetteName (service : String) : String := service ++ ".cassette.yaml"

def cassettePath (dir : Path) (service : String) : Path := dir.join (cassetteName service)

def modelService : String := Channel.model.service

def clockService : String := Channel.clock.service

variable [Monad m]

def start (shelf : Shelf m) (root : Path) : ExceptT SessionError m Session := do
  let name := (← ExceptT.lift shelf.today).sessionName
  let dir := root.join name
  if ← ExceptT.lift (shelf.contains dir) then throw (.taken dir)
  match ← ExceptT.lift (shelf.createDir dir) with
  | .ok _ => return ⟨dir, name⟩
  | .error e => throw (.noDirectory e)

def keep (shelf : Shelf m) (s : Session) (service : String) (r : Recorder) :
    ExceptT SessionError m Unit := do
  if r.held then throw (.held service)
  let path := cassettePath s.dir service
  match ← ExceptT.lift (shelf.keep path (s.name ++ "-" ++ service) r.tape) with
  | .ok _ => return ()
  | .error e => throw (.unwritten service e)

/-- Keeps the cassette of the model and then that of the clock. -/
def finish (shelf : Shelf m) (s : Session) (r : Recording) : ExceptT SessionError m Unit := do
  s.keep shelf modelService r.model
  s.keep shelf clockService r.clock

end Session

end Transplant
