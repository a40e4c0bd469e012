import Transplant.Text.Pattern

/-! Routes: collections with their seven fixed actions, and single bindings of a path to an
action. -/
namespace Transplant.Rails

open Text Text.Pattern

inductive Route where
  | collection (path controller : String) (actions : List String)
  | explicit (path controller action : String)
  deriving DecidableEq, Repr

namespace Route

def path : Route → String
  | collection path _ _ => path
  | explicit path _ _ => path

def controller : Route → String
  | collection _ controller _ => controller
  | explicit _ controller _ => controller

def collectionActions : List String :=
  ["index", "show", "new", "edit", "create", "update", "destroy"]

def ofResource (name : List Char) : Route :=
  collection (.ofList ('/' :: name)) (.ofList name) collectionActions

def resources : Pattern Route := do
  literal "resources"
  blanks1
  literal ":"
  let name ← word
  return ofResource name

def isQuote (c : Char) : Bool := c = '\'' || c = '"'

/-- A text without quotes between two quotes, which may differ. -/
def quotedText : Pattern (List Char) := do
  let _ ← one isQuote
  let text ← run1 fun c => !isQuote c
  let _ ← one isQuote
  return text

def verb : Pattern Unit :=
  oneOf (["get", "post", "put", "patch", "delete"].map literal)

def binding : Pattern (List Char × List Char) := do
  verb
  blanks1
  let path ← quotedText
  blanks
  literal ","
  blanks
  literal "to:"
  blanks
  let target ← quotedText
  return (path, target)

/-- A target names a controller and an action on the two sides of its only `#`. -/
def splitTarget? (target : List Char) : Option (List Char × List Char) :=
  match target.dropWhile (· ≠ '#') with
  | [] => none
  | _ :: action => if action.contains '#' then none else some (target.takeWhile (· ≠ '#'), action)

def ofBinding? (b : List Char × List Char) : Option Route := do
  let (controller, action) ← splitTarget? b.2
  return explicit (.ofList ('/' :: b.1.dropWhile (· = '/'))) (.ofList controller) (.ofList action)

/-- Collections first, then single bindings, each in the order of the text. -/
def allOfText (text : String) : List Route :=
  let cs := text.toList
  scanWords resources cs ++ (scanWords binding cs).filterMap ofBinding?

end Route

end Transplant.Rails
