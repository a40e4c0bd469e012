import Transplant.Text.Pattern

/-! Request controllers: classes below `ApplicationController`, with their methods and filters
and the record type they look up first. -/
namespace Transplant.Rails

open Text Text.Pattern

structure Controller where
  name : String
  actions : List String
  filters : List String
  inferredModel : Option String
  deriving DecidableEq, Repr

namespace Controller

/-- The word ends in `Controller` and has something before it. -/
def isControllerName (word : List Char) : Bool :=
  "Controller".toList.isSuffixOf word && "Controller".length < word.length

def controllerName : Pattern (List Char) := fun cs =>
  match word cs with
  | some (name, rest) => if isControllerName name then some (name, rest) else none
  | none => none

def declaration : Pattern String := do
  literal "class"
  blanks1
  let name ← controllerName
  blanks
  literal "<"
  blanks
  literal "ApplicationController"
  wordEnd
  return .ofList name

def mark : Pattern (List Char) := do
  let c ← maybe (one fun c => c = '!' || c = '?')
  return c.toList

def methodName : Pattern String := do
  let c ← one fun c => c.isAlpha || c = '_'
  let rest ← run isWord
  let tail ← mark
  return .ofList (c :: rest ++ tail)

/-- A method on the class is named as one on its instances. -/
def method : Pattern String := do
  literal "def"
  blanks1
  either (do literal "self."; methodName) methodName

def filter : Pattern String := do
  literal "before_"
  either (literal "action") (literal "filter")
  blanks1
  literal ":"
  let name ← word
  let tail ← mark
  return .ofList (name ++ tail)

/-- `@name = Type.find`, for any look-up that starts so. -/
def finder : Pattern String := do
  literal "@"
  let _ ← word
  blanks
  literal "="
  blanks
  let model ← word
  literal ".find"
  return .ofList model

def ofText? (text : String) : Option Controller := do
  let cs := text.toList
  let name ← (scanWords declaration cs).head?
  return ⟨name, scanWords method cs, scanWords filter cs, (scan finder cs).head?⟩

end Controller

end Transplant.Rails
