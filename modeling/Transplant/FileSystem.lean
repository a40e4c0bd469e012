import Transplant.Path

/-! The operations on files that a conversion uses, in any monad, and how they fail. -/
namespace Transplant

inductive FileError where
  | notFound
  | alreadyExists
  | notDirectory
  | isDirectory
  | nameTooLong
  | notText
  | nulInName
  | other (message : String)
  deriving DecidableEq, Repr

def FileError.message : FileError → String
  | notFound => "No such file or directory (os error 2)"
  | alreadyExists => "File exists (os error 17)"
  | notDirectory => "Not a directory (os error 20)"
  | isDirectory => "Is a directory (os error 21)"
  | nameTooLong => "File name too long (os error 36)"
  | notText => "stream did not contain valid UTF-8"
  | nulInName => "file name contained an unexpected NUL byte"
  | other message => message

structure FileSystem (m : Type → Type) where
  read : Path → m (Except FileError String)
  write : Path → String → m (Except FileError Unit)
  createDir : Path → m (Except FileError Unit)
  contains : Path → m Bool
  walk : Path → m (Except FileError (List Path))

namespace FileSystem

variable {m : Type → Type} [Monad m]

/-- A file that cannot be read counts as empty. -/
def readOrEmpty (fs : FileSystem m) (p : Path) : m String := do
  match ← fs.read p with
  | .ok text => return text
  | .error _ => return ""

/-- A directory that is not there or cannot be listed counts as empty. -/
def list (fs : FileSystem m) (p : Path) : m (List Path) := do
  if ← fs.contains p then
    match ← fs.walk p with
    | .ok files => return files
    | .error _ => return []
  else return []

end FileSystem

end Transplant
