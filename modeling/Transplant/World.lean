import Transplant.Cassette.Shelf
import Transplant.FileSystem
import Transplant.FileTree.Basic
import Transplant.Services

/-! A world in which a conversion runs: a tree of files, calls that are bound to fail, and what
collaborators, models and clocks have to say. It keeps the record of all that happens in it. -/
namespace Transplant

inductive Access where
  | read
  | write
  | createDir
  | walk
  deriving DecidableEq, Repr

/-- A call on a path that fails, wherever it comes from. -/
structure Fault where
  access : Access
  path : Path
  message : String
  deriving DecidableEq, Repr

inductive Event where
  | read (path : Path)
  | write (path : Path) (text : String)
  | createDir (path : Path)
  | contains (path : Path)
  | walk (path : Path)
  | asked (question : Question)
  | completed (request : Request)
  | looked
  deriving DecidableEq, Repr

namespace Event

def isAsked : Event → Bool
  | asked _ => true
  | _ => false

def isCompleted : Event → Bool
  | completed _ => true
  | _ => false

def isLooked : Event → Bool
  | looked => true
  | _ => false

end Event

/-- The answers may depend on how many were given before. -/
structure World where
  tree : FileTree
  faults : List Fault
  answer : Nat → Question → Except String String
  complete : Nat → Request → Except String Completion
  time : Nat → Instant
  events : List Event

namespace World

/-- Nobody answers in this world. -/
def ofTree (tree : FileTree) (faults : List Fault) : World where
  tree
  faults
  answer _ _ := .error "no reply"
  complete _ _ := .error "no reply"
  time _ := .epoch
  events := []

def log (w : World) (e : Event) : World := { w with events := w.events ++ [e] }

def count (w : World) (p : Event → Bool) : Nat := w.events.countP p

def fault? (w : World) (access : Access) (p : Path) : Option FileError :=
  (w.faults.find? fun f => f.access == access && f.path.samePlace p).map fun f => .other f.message

def read (p : Path) (w : World) : Except FileError String × World :=
  let after := w.log (.read p)
  match w.fault? .read p with
  | some e => (.error e, after)
  | none => (w.tree.read p, after)

def write (p : Path) (text : String) (w : World) : Except FileError Unit × World :=
  let after := w.log (.write p text)
  match w.fault? .write p with
  | some e => (.error e, after)
  | none =>
    let (result, tree) := w.tree.write p text
    (result, { after with tree })

def createDir (p : Path) (w : World) : Except FileError Unit × World :=
  let after := w.log (.createDir p)
  match w.fault? .createDir p with
  | some e => (.error e, after)
  | none =>
    let (result, tree) := w.tree.makeAll p
    (result, { after with tree })

def contains (p : Path) (w : World) : Bool × World := (w.tree.exists? p, w.log (.contains p))

def walk (p : Path) (w : World) : Except FileError (List Path) × World :=
  let after := w.log (.walk p)
  match w.fault? .walk p with
  | some e => (.error e, after)
  | none => (w.tree.walk p, after)

def files : FileSystem (StateM World) := ⟨read, write, createDir, contains, walk⟩

def collaborator : Collaborator (StateM World) where
  ask q w := (w.answer (w.count Event.isAsked) q, w.log (.asked q))

def model : LanguageModel (StateM World) where
  complete r w := (w.complete (w.count Event.isCompleted) r, w.log (.completed r))

def now (w : World) : Instant × World := (w.time (w.count Event.isLooked), w.log .looked)

def services : Services (StateM World) := ⟨files, model, now⟩

/-! The shelf holds the same files, without faults and off the record. -/

def overwrite (p : Path) (text : String) (w : World) : Except FileError Unit × World :=
  match w.tree.writeOver p text with
  | .ok tree => (.ok (), { w with tree })
  | .error e => (.error e, w)

def makeDirs (p : Path) (w : World) : Except FileError Unit × World :=
  let (result, tree) := w.tree.makeAll p
  (result, { w with tree })

def shelf (today : Instant) : Shelf (StateM World) where
  read p w := (w.tree.read p, w)
  readLines p w := (w.tree.readLines p, w)
  write := overwrite
  createDir := makeDirs
  contains p w := (w.tree.exists? p, w)
  isDirectory p w := (w.tree.isDirectory p, w)
  today := pure today

end World

end Transplant
