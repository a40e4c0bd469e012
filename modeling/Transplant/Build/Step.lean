import Transplant.FileSystem

/-! A build as a list of steps. The steps are known before any of them runs; running stops at the first
that is refused or fails. -/
namespace Transplant

inductive BuildError where
  | io (path : Path) (cause : FileError)
  | unsafePath (name : String)
  | nameCollision (name : String)
  deriving DecidableEq, Repr

namespace BuildError

def message : BuildError → String
  | io path cause => "failed to write " ++ path.text ++ ": " ++ cause.message
  | unsafePath name => "refusing to write outside the project: " ++ name
  | nameCollision name => "app '" ++ name ++ "' collides with the project settings package"

def cause? : BuildError → Option String
  | io _ cause => some cause.message
  | _ => none

end BuildError

namespace Build

/-- All components of the name are entries of directories, and there is one. -/
def staysBelow (name : String) : Bool :=
  !name.isEmpty && (Path.mk name).components.all Path.Component.isNormal

def isEntry (name : String) : Bool :=
  staysBelow name && (Path.mk name).components.length == 1

inductive Step where
  | write (path : Path) (text : String)
  | createDir (path : Path)
  | refuse (error : BuildError)
  deriving DecidableEq, Repr

namespace Step

def written? : Step → Option Path
  | write path _ => some path
  | createDir _ => none
  | refuse _ => none

end Step

def written (steps : List Step) : List Path := steps.filterMap Step.written?

variable {m : Type → Type} [Monad m]

def onPath (path : Path) (act : m (Except FileError Unit)) : ExceptT BuildError m Unit :=
  ExceptT.mk do
    match ← act with
    | .ok () => return .ok ()
    | .error e => return .error (.io path e)

def Step.run (fs : FileSystem m) : Step → ExceptT BuildError m Unit
  | write path text => onPath path (fs.write path text)
  | createDir path => onPath path (fs.createDir path)
  | refuse error => throw error

def runAll (fs : FileSystem m) : List Step → ExceptT BuildError m Unit
  | [] => return
  | s :: rest => do
    s.run fs
    runAll fs rest

end Build

end Transplant
