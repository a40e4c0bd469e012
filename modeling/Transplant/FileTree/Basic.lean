import Transplant.FileSystem
import Transplant.Keyed

/-! Trees of files. A directory holds its entries in ascending order of their names, and a path is
looked up from the top of the tree, which is also where relative paths start. -/
namespace Transplant

/-- The lines of a file up to the first that is not text, and whether that is all of it. -/
structure Contents where
  lines : String
  isText : Bool
  deriving DecidableEq, Repr

namespace Contents

def ofText (text : String) : Contents := ⟨text, true⟩

def text? (c : Contents) : Option String := if c.isText then some c.lines else none

def lineBreak : UInt8 := 10

/-- Lines with the breaks at their ends. -/
def splitLines : List UInt8 → List (List UInt8)
  | [] => []
  | b :: bs =>
    if b = lineBreak then [b] :: splitLines bs
    else
      match splitLines bs with
      | line :: rest => (b :: line) :: rest
      | [] => [[b]]

def linesOfText : List (List UInt8) → String
  | [] => ""
  | line :: rest =>
    match String.fromUTF8? line.toByteArray with
    | some text => text ++ linesOfText rest
    | none => ""

def ofBytes (bytes : ByteArray) : Contents :=
  match String.fromUTF8? bytes with
  | some text => ofText text
  | none => ⟨linesOfText (splitLines bytes.toList), false⟩

end Contents

/-- Names are text, as the components of paths are: what is on a disk under names that are not UTF-8 is
left out. -/
inductive FileTree where
  | file (contents : Contents)
  | dir (entries : List (String × FileTree))
  deriving Repr

namespace FileTree

def empty : FileTree := dir []

def isDir : FileTree → Bool
  | dir _ => true
  | file _ => false

def entry? (name : String) : FileTree → Option FileTree
  | dir entries => entries.lookup name
  | file _ => none

/-- What stands below a tree under names from the top down. -/
def get? : List String → FileTree → Option FileTree
  | [], t => some t
  | name :: names, t => (t.entry? name).bind (get? names)

/-- Puts a tree under names whose directories are all there. -/
def put : FileTree → List String → FileTree → FileTree
  | _, [], new => new
  | dir entries, name :: names, new =>
    dir (Keyed.insert name (put ((entries.lookup name).getD empty) names new) entries)
  | file contents, _ :: _, _ => file contents

/-- A name in a path as the file system reads it. -/
inductive Step where
  | stay
  | up
  | down (name : String)
  deriving DecidableEq

def stepOf? : List Char → Option Step
  | [] => none
  | ['.'] => some .stay
  | ['.', '.'] => some .up
  | name => some (.down (.ofList name))

def steps (p : Path) : List Step := (Path.splitSlashes p.chars).filterMap stepOf?

theorem steps_text (p : Path) : steps p = (Path.splitSlashes p.text.toList).filterMap stepOf? := by
  rw [steps, Path.chars_eq]

def nameLimit : Nat := 255

def pathLimit : Nat := 4096

/-- Refuses a path before it is looked up. -/
def checkText (p : Path) : Except FileError Unit :=
  if p.chars.contains (Char.ofNat 0) then .error .nulInName
  else if p.text.isEmpty then .error .notFound
  else if pathLimit ≤ p.text.utf8ByteSize then .error .nameTooLong
  else .ok ()

/-- Goes one step from the directory under `place`, names from the bottom up. -/
def follow (t : FileTree) (place : List String) : Step → Except FileError (List String)
  | .stay => .ok place
  | .up => .ok place.tail
  | .down name =>
    if nameLimit < name.utf8ByteSize then .error .nameTooLong
    else if (t.get? (name :: place).reverse).isSome then .ok (name :: place)
    else .error .notFound

def isDirAt (t : FileTree) (place : List String) : Bool := (t.get? place.reverse).any isDir

/-- Goes all steps; each starts from a directory. -/
def followAll (t : FileTree) (place : List String) : List Step → Except FileError (List String)
  | [] => .ok place
  | s :: rest =>
    if t.isDirAt place then do followAll t (← follow t place s) rest
    else .error .notDirectory

/-- The place of a path, which is a directory if the path ends in a slash. -/
def locate (t : FileTree) (p : Path) : Except FileError (List String) := do
  checkText p
  let place ← followAll t [] (steps p)
  if p.endsInSlash && !t.isDirAt place then .error .notDirectory else .ok place

def find (t : FileTree) (p : Path) : Except FileError FileTree := do
  let place ← t.locate p
  match t.get? place.reverse with
  | some found => .ok found
  | none => .error .notFound

def exists? (t : FileTree) (p : Path) : Bool := (t.find p).isOk

def isDirectory (t : FileTree) (p : Path) : Bool :=
  match t.find p with
  | .ok found => found.isDir
  | .error _ => false

def read (t : FileTree) (p : Path) : Except FileError String := do
  match ← t.find p with
  | file contents =>
    match contents.text? with
    | some text => .ok text
    | none => .error .notText
  | dir _ => .error .isDirectory

def readLines (t : FileTree) (p : Path) : Except FileError String := do
  match ← t.find p with
  | file contents => .ok contents.lines
  | dir _ => .error .isDirectory

/-- The directory of a path and the last step from there. -/
def locateLast (t : FileTree) (p : Path) : Except FileError (Option (List String × Step)) := do
  checkText p
  match (steps p).reverse with
  | [] => .ok none
  | last :: before =>
    let place ← followAll t [] before.reverse
    if t.isDirAt place then .ok (some (place, last)) else .error .notDirectory

def makeDir (t : FileTree) (p : Path) : Except FileError FileTree := do
  match ← t.locateLast p with
  | some (place, .down name) =>
    match follow t place (.down name) with
    | .ok _ => .error .alreadyExists
    | .error .notFound => .ok (t.put (name :: place).reverse empty)
    | .error e => .error e
  | _ => .error .alreadyExists

/-- Makes the directories of a list, each below the next one, from the first that is missing on. -/
def makeDirs (t : FileTree) : List Path → Except FileError Unit × FileTree
  | [] => (.ok (), t)
  | p :: above =>
    if p.text.isEmpty then (.ok (), t)
    else
      match t.makeDir p with
      | .ok made => (.ok (), made)
      | .error .notFound =>
        match makeDirs t above with
        | (.ok (), t) =>
          match t.makeDir p with
          | .ok made => (.ok (), made)
          | .error e => if t.isDirectory p then (.ok (), t) else (.error e, t)
        | failed => failed
      | .error e => if t.isDirectory p then (.ok (), t) else (.error e, t)

def ancestorsUpTo : Nat → Path → List Path
  | 0, p => [p]
  | n + 1, p => p :: (p.parent?.map (ancestorsUpTo n)).getD []

def ancestors (p : Path) : List Path := ancestorsUpTo p.components.length p

def makeAll (t : FileTree) (p : Path) : Except FileError Unit × FileTree := t.makeDirs (ancestors p)

def writeOver (t : FileTree) (p : Path) (text : String) : Except FileError FileTree := do
  match ← t.locateLast p with
  | some (place, .down name) =>
    if p.endsInSlash then .error .isDirectory
    else
      match follow t place (.down name) with
      | .ok found => if t.isDirAt found then .error .isDirectory else
          .ok (t.put found.reverse (file (.ofText text)))
      | .error .notFound => .ok (t.put (name :: place).reverse (file (.ofText text)))
      | .error e => .error e
  | _ => .error .isDirectory

def write (t : FileTree) (p : Path) (text : String) : Except FileError Unit × FileTree :=
  let above :=
    match p.parent? with
    | some parent => t.makeAll parent
    | none => (.ok (), t)
  match above with
  | (.ok (), t) =>
    match t.writeOver p text with
    | .ok written => (.ok (), written)
    | .error e => (.error e, t)
  | failed => failed

mutual

def filesFrom (p : Path) : FileTree → List Path
  | file _ => [p]
  | dir entries => entryFiles p entries

def entryFiles (p : Path) : List (String × FileTree) → List Path
  | [] => []
  | (name, t) :: rest => filesFrom (p.join name) t ++ entryFiles p rest

end

/-- Only the path itself is refused here. That a walk is refused further down, where a path becomes too
long or a directory cannot be listed, is for the faults of a world to say. -/
def walk (t : FileTree) (p : Path) : Except FileError (List Path) := do
  return filesFrom p (← t.find p)

end FileTree

end Transplant
