import Transplant.Cassette.Reader
import Transplant.FileSystem
import Transplant.Path

/-! The shelf where cassettes are kept: plain operations on files, apart from those of a conversion,
and the time of the day. -/
namespace Transplant

/-- A file can be read as a whole, or up to the first line that is not text. -/
structure Shelf (m : Type → Type) where
  read : Path → m (Except FileError String)
  readLines : Path → m (Except FileError String)
  write : Path → String → m (Except FileError Unit)
  createDir : Path → m (Except FileError Unit)
  contains : Path → m Bool
  isDirectory : Path → m Bool
  today : m Instant

inductive CassetteError where
  | unreadable (path : Path) (cause : FileError)
  | malformed (path : Path)
  | noneGiven
  deriving DecidableEq, Repr

def CassetteError.message : CassetteError → String
  | unreadable path cause => "Failed to read cassette file " ++ path.text ++ ": " ++ cause.message
  | malformed path => "Failed to parse cassette file " ++ path.text
  | noneGiven => "No cassette files given for replay"

namespace Shelf

variable {m : Type → Type} [Monad m]

def load (shelf : Shelf m) (path : Path) : ExceptT CassetteError m Cassette := do
  match ← ExceptT.lift (shelf.read path) with
  | .ok text =>
    match Cassette.ofText? text with
    | some c => return c
    | none => throw (.malformed path)
  | .error e => throw (.unreadable path e)

def keep (shelf : Shelf m) (path : Path) (name : String) (tape : Tape) :
    m (Except FileError Unit) := do
  shelf.write path (Cassette.toText ⟨name, ← shelf.today, tape⟩)

def loadAll (shelf : Shelf m) : List Path → ExceptT CassetteError m Tape
  | [] => return []
  | path :: rest => do
    let cassette ← shelf.load path
    return cassette.interactions ++ (← shelf.loadAll rest)

def loadTape (shelf : Shelf m) (paths : List Path) : ExceptT CassetteError m Tape := do
  if paths.isEmpty then throw .noneGiven else shelf.loadAll paths

end Shelf

end Transplant
