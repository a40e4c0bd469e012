import Std.Time.DateTime
import Transplant.CommandLine.Run
import Transplant.FileTree.Basic

/-! The program: a host in the real world, and its command line. -/
namespace Transplant.Main

def entry (p : Path) : IO.FS.DirEntry := ⟨".", p.text⟩

/-- The failures that a tree of files has too, by their numbers; libraries negate them. -/
def ofCode (code : UInt32) (details : String) : FileError :=
  let n := if code < 0x80000000 then code else 0 - code
  if n = 2 then .notFound
  else if n = 17 then .alreadyExists
  else if n = 20 then .notDirectory
  else if n = 21 then .isDirectory
  else if n = 36 then .nameTooLong
  else .other (details ++ " (os error " ++ toString n ++ ")")

def fileError : IO.Error → FileError
  | .noFileOrDirectory _ code details => ofCode code details
  | .alreadyExists _ code details => ofCode code details
  | .inappropriateType _ code details => ofCode code details
  | .permissionDenied _ code details => ofCode code details
  | .invalidArgument _ code details => ofCode code details
  | .resourceExhausted _ code details => ofCode code details
  | .otherError code details => ofCode code details
  | e => .other (toString e)

def attempt {α : Type} (act : IO α) : IO (Except FileError α) := do
  match ← act.toBaseIO with
  | .ok x => return .ok x
  | .error e => return .error (fileError e)

/-- A path with a code zero in it is not handed over. -/
def guarded {α : Type} (p : Path) (act : IO (Except FileError α)) : IO (Except FileError α) := do
  if p.text.toList.contains (Char.ofNat 0) then return .error .nulInName
  else if p.text.isEmpty then return .error .notFound
  else act

def contents (p : Path) : IO (Except FileError Contents) := guarded p do
  return (← attempt (IO.FS.readBinFile p.text)).map Contents.ofBytes

def read (p : Path) : IO (Except FileError String) := do
  match ← contents p with
  | .error e => return .error e
  | .ok c =>
    match c.text? with
    | some text => return .ok text
    | none => return .error .notText

def readLines (p : Path) : IO (Except FileError String) := do
  return (← contents p).map Contents.lines

def overwrite (p : Path) (text : String) : IO (Except FileError Unit) :=
  guarded p (attempt (IO.FS.writeFile p.text text))

def contains (p : Path) : IO Bool := do
  if p.text.isEmpty then return false else (entry p).path.pathExists

def isDirectory (p : Path) : IO Bool := do
  if p.text.isEmpty then return false else (entry p).path.isDir

def makeDirs : List Path → IO (Except FileError Unit)
  | [] => return .ok ()
  | p :: above => do
    let settled (r : Except FileError Unit) : IO (Except FileError Unit) := do
      if ← isDirectory p then return .ok () else return r
    match ← attempt (IO.FS.createDir p.text) with
    | .ok _ => return .ok ()
    | .error .notFound =>
      match ← makeDirs above with
      | .ok _ => settled (← attempt (IO.FS.createDir p.text))
      | failed => return failed
    | .error e => settled (.error e)

def createDir (p : Path) : IO (Except FileError Unit) := do
  if p.text.isEmpty then return .ok () else guarded p (makeDirs (FileTree.ancestors p))

def write (p : Path) (text : String) : IO (Except FileError Unit) := do
  match p.parent? with
  | none => overwrite p text
  | some parent =>
    match ← createDir parent with
    | .ok _ => overwrite p text
    | failed => return failed

/-- Links are not followed below the start. -/
partial def filesBelow (p : Path) : IO (List Path) := do
  let entries ← (entry p).path.readDir
  let names := (entries.toList.map IO.FS.DirEntry.fileName).mergeSort fun a b => a ≤ b
  let found ← names.mapM fun name => do
    let q := p.join name
    match (← (entry q).path.symlinkMetadata).type with
    | .dir => filesBelow q
    | .file => return [q]
    | _ => return []
  return found.flatten

def walk (p : Path) : IO (Except FileError (List Path)) := guarded p do
  if ← isDirectory p then attempt (filesBelow p)
  else
    match ← attempt (entry p).path.metadata with
    | .ok _ => return .ok [p]
    | .error e => return .error e

def now : IO Instant := do
  let time := (← Std.Time.Timestamp.now).val
  return .ofSeconds 0 time.second.val time.nano.val.toNat

/-- There is no network here. -/
def model : LanguageModel IO where
  complete _ := return .error "Anthropic API request failed: no network"

def host : Host IO where
  services := ⟨⟨read, write, createDir, contains, walk⟩, model, now⟩
  shelf := ⟨read, readLines, overwrite, createDir, contains, isDirectory, now⟩
  lookup name := if name.isEmpty then return none else IO.getEnv name

def finish (report : Report) : IO UInt32 := do
  report.lines.forM IO.println
  report.remark.forM IO.eprintln
  match report.failure with
  | none => return 0
  | some e =>
    IO.eprintln e.message
    return 1

def run (words : List String) : IO UInt32 := do
  match CommandLine.ofWords words with
  | .ok arguments => finish (← host.run arguments.command)
  | .error usage =>
    if usage.isAnswer then
      IO.println usage.message
      return 0
    else
      IO.eprintln usage.message
      return 1

end Transplant.Main

def main (words : List String) : IO UInt32 := Transplant.Main.run words
