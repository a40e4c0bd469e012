import Transplant.Text.Characters

/-! Paths are texts and are shown as they were built. Their components leave out empty parts and
single dots, except for a dot in front. -/
namespace Transplant

structure Path where
  text : String
  deriving DecidableEq, Repr

namespace Path

inductive Component where
  | root
  | current
  | parent
  | normal (name : String)
  deriving DecidableEq, Repr

def Component.text : Component → String
  | root => "/"
  | current => "."
  | parent => ".."
  | normal name => name

def Component.isNormal : Component → Bool
  | normal _ => true
  | _ => false

/-- The texts between slashes, of which there is one more than slashes. -/
def splitSlashes : List Char → List (List Char)
  | [] => [[]]
  | '/' :: cs => [] :: splitSlashes cs
  | c :: cs =>
    match splitSlashes cs with
    | part :: parts => (c :: part) :: parts
    | [] => [[c]]

def componentOf? : List Char → Option Component
  | [] => none
  | ['.'] => none
  | ['.', '.'] => some .parent
  | name => some (.normal (.ofList name))

def componentsOf : List Char → List Component
  | '/' :: cs => .root :: (splitSlashes cs).filterMap componentOf?
  | cs =>
    match splitSlashes cs with
    | ['.'] :: parts => .current :: parts.filterMap componentOf?
    | parts => parts.filterMap componentOf?

def chars (p : Path) : List Char := Text.charsOf p.text

theorem chars_eq (p : Path) : p.chars = p.text.toList := Text.charsOf_eq p.text

def components (p : Path) : List Component := componentsOf p.chars

/-- Paths with the same components lead to the same place. -/
def samePlace (p q : Path) : Bool := p.components == q.components

def isAbsolute (p : Path) : Bool := p.chars.head? == some '/'

def endsInSlash (p : Path) : Bool := p.chars.getLast? == some '/'

theorem components_text (p : Path) : p.components = componentsOf p.text.toList := by
  rw [components, chars_eq]

theorem isAbsolute_iff {p : Path} : p.isAbsolute = true ↔ p.text.toList.head? = some '/' := by
  rw [isAbsolute, chars_eq, beq_iff_eq]

theorem endsInSlash_iff {p : Path} : p.endsInSlash = true ↔ p.text.toList.getLast? = some '/' := by
  rw [endsInSlash, chars_eq, beq_iff_eq]

/-- An absolute path stands for itself; any other goes behind a slash. -/
def join (p : Path) (tail : String) : Path :=
  let t : Path := ⟨tail⟩
  if t.isAbsolute then t
  else if p.text.isEmpty || p.endsInSlash then ⟨p.text ++ tail⟩
  else ⟨p.text ++ "/" ++ tail⟩

def joinComponents : List Component → String
  | [] => ""
  | [c] => c.text
  | c :: cs => c.text ++ "/" ++ joinComponents cs

def ofComponents : List Component → Path
  | .root :: cs => ⟨"/" ++ joinComponents cs⟩
  | cs => ⟨joinComponents cs⟩

/-- The path without its last component. A root has no parent. -/
def parent? (p : Path) : Option Path :=
  match p.components.reverse with
  | [] => none
  | .root :: _ => none
  | _ :: before => some (ofComponents before.reverse)

/-- The components behind those of a path that this one starts with. -/
def below? (base p : Path) : Option (List Component) :=
  if base.components.isPrefixOf p.components then
    some (p.components.drop base.components.length)
  else none

/-- What follows the last dot of a name that does not start with it. -/
def nameExtension? (name : List Char) : Option (List Char) :=
  let tail := name.reverse.takeWhile (· ≠ '.')
  if tail.length + 1 < name.length then some tail.reverse else none

def extension? (p : Path) : Option String :=
  match p.components.getLast? with
  | some (.normal name) => (nameExtension? name.toList).map String.ofList
  | _ => none

end Path

end Transplant
