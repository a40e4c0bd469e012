import Transplant.Text.Alphanumeric
import Transplant.Text.Characters

/-! Files of variables, one definition to a line. A value may be quoted, and then go over several
lines, and may refer to other variables. The first bad line ends the file. -/
namespace Transplant.VariableFile

inductive Piece where
  | char (c : Char)
  | reference (name : String)
  deriving DecidableEq, Repr

structure Definition where
  name : String
  value : List Piece
  deriving DecidableEq, Repr

/-! Lines. -/

/-- Where a character stands on a line. -/
inductive Place where
  | open
  | afterBlank
  | escaped
  | single
  | singleEscaped
  | double
  | doubleEscaped
  deriving DecidableEq

def startPlace (c : Char) : Place :=
  if c = '\\' then .escaped else if c = '"' then .double else if c = '\'' then .single else .open

def Place.next (c : Char) : Place → Place
  | .open => if Text.isBlank c && c ≠ '\n' && c ≠ '\r' then .afterBlank else startPlace c
  | .afterBlank => startPlace c
  | .escaped => .open
  | .single => if c = '\\' then .singleEscaped else if c = '\'' then .open else .single
  | .singleEscaped => .single
  | .double => if c = '\\' then .doubleEscaped else if c = '"' then .open else .double
  | .doubleEscaped => .double

/-- A line up to a comment, and where it ends unless in a comment. -/
def scanLine : Place → List Char → List Char × Option Place
  | p, [] => ([], some p)
  | p, c :: cs =>
    if p = .afterBlank && c = '#' then ([], none)
    else
      let (rest, last) := scanLine (p.next c) cs
      (c :: rest, last)

/-- Lines with the breaks at their ends. -/
def physicalLines : List Char → List (List Char)
  | [] => []
  | '\n' :: cs => ['\n'] :: physicalLines cs
  | c :: cs =>
    match physicalLines cs with
    | line :: lines => (c :: line) :: lines
    | [] => [[c]]

def withoutBreak (cs : List Char) : List Char :=
  match cs.reverse with
  | '\n' :: '\r' :: before => before.reverse
  | '\n' :: before => before.reverse
  | _ => cs

/-- Lines joined where a quote goes on. A line that has no end is none. -/
def logicalLines : Place → List Char → List (List Char) → List (Option (List Char))
  | p, _, [] => if p = .open then [] else [none]
  | p, before, line :: rest =>
    if (Text.trimStart (before ++ line)).head? == some '#' then
      some [] :: logicalLines .open [] rest
    else
      match scanLine p line with
      | (read, none) => some (before ++ read) :: logicalLines .open [] rest
      | (_, some .open) => some (withoutBreak (before ++ line)) :: logicalLines .open [] rest
      | (_, some p) => logicalLines p (before ++ line) rest

/-! Values. -/

/-- How a value is read: as it stands or in quotes, behind a backslash, in a name, or after its
end. The flag says whether double quotes are open. -/
inductive Mode where
  | plain (inQuotes : Bool)
  | single
  | escaped (inQuotes : Bool)
  | name (inQuotes : Bool) (reversed : List Char)
  | braced (inQuotes : Bool) (reversed : List Char)
  | ended

def escape? (c : Char) : Option Char :=
  if c = 'n' then some '\n' else if "\\'\"$ ".toList.contains c then some c else none

def reference (reversed : List Char) : Piece := .reference (.ofList reversed.reverse)

/-- In a name, a character that does not belong to it is taken as it is. -/
def readValue : Mode → List Char → Option (List Piece)
  | .plain inQuotes, [] => if inQuotes then none else some []
  | .single, [] => none
  | .escaped inQuotes, [] => if inQuotes then none else some []
  | .name inQuotes reversed, [] => if inQuotes then none else some [reference reversed]
  | .braced _ _, [] => none
  | .ended, [] => some []
  | .plain inQuotes, c :: cs =>
    if c = '$' then readValue (.name inQuotes []) cs
    else if c = '"' then readValue (.plain !inQuotes) cs
    else if c = '\\' then readValue (.escaped inQuotes) cs
    else if c = '\'' && !inQuotes then readValue .single cs
    else if (c = ' ' || c = '\t') && !inQuotes then readValue .ended cs
    else (readValue (.plain inQuotes) cs).map (.char c :: ·)
  | .single, c :: cs =>
    if c = '\'' then readValue (.plain false) cs else (readValue .single cs).map (.char c :: ·)
  | .escaped inQuotes, c :: cs => do
    let e ← escape? c
    return .char e :: (← readValue (.plain inQuotes) cs)
  | .name inQuotes reversed, c :: cs =>
    if Text.isAlphanumeric c then readValue (.name inQuotes (c :: reversed)) cs
    else if c = '\x7b' && reversed.isEmpty then readValue (.braced inQuotes []) cs
    else if c = '$' then (readValue (.name inQuotes []) cs).map (reference reversed :: ·)
    else (readValue (.plain inQuotes) cs).map fun rest => reference reversed :: .char c :: rest
  | .braced inQuotes reversed, c :: cs =>
    if c = '\x7d' then (readValue (.plain inQuotes) cs).map (reference reversed :: ·)
    else readValue (.braced inQuotes (c :: reversed)) cs
  | .ended, c :: cs =>
    if c = ' ' || c = '\t' then readValue .ended cs else if c = '#' then some [] else none

/-! Definitions. -/

def isNameStart (c : Char) : Bool := c.isAlpha || c = '_'

def isNameChar (c : Char) : Bool := c.isAlphanum || c = '_' || c = '.'

/-- A name and what follows it and the blanks behind it. -/
def readName? (cs : List Char) : Option (String × List Char) :=
  if cs.head?.any isNameStart then
    some (.ofList (cs.takeWhile isNameChar), Text.trimStart (cs.dropWhile isNameChar))
  else none

def readEquals? : List Char → Option (List Char)
  | '=' :: cs => some (Text.trimStart cs)
  | _ => none

/-- The word `export` may stand before a definition, or be its name. -/
def readDefined? (cs : List Char) : Option (String × List Char) := do
  let (name, rest) ← readName? cs
  match readEquals? rest with
  | some value => return (name, value)
  | none =>
    if name = "export" then
      let (name, rest) ← readName? rest
      return (name, ← readEquals? rest)
    else none

def isIdle (cs : List Char) : Bool := cs.isEmpty || cs.head? == some '#'

def readLine? (line : List Char) : Option (Option Definition) := do
  let cs := Text.trim line
  if isIdle cs then return none
  else
    let (name, value) ← readDefined? cs
    if isIdle value then return some ⟨name, []⟩
    else return some ⟨name, ← readValue (.plain false) value⟩

def readLines : List (Option (List Char)) → List Definition
  | [] => []
  | none :: _ => []
  | some line :: rest =>
    match readLine? line with
    | none => []
    | some d => d.toList ++ readLines rest

def withoutMark : List Char → List Char
  | c :: cs => if c.toNat = 0xFEFF then cs else c :: cs
  | [] => []

def definitions (text : String) : List Definition :=
  readLines (logicalLines .open [] (physicalLines (withoutMark text.toList)))

/-! Variables that were set before keep their values, and so do those set further up. -/

variable {m : Type → Type} [Monad m]

def find (lookup : String → m (Option String)) (known : List (String × String)) (name : String) :
    m (Option String) := do
  match ← lookup name with
  | some value => return some value
  | none => return known.lookup name

def expand (lookup : String → m (Option String)) (known : List (String × String)) :
    List Piece → m String
  | [] => return ""
  | .char c :: rest => do return c.toString ++ (← expand lookup known rest)
  | .reference name :: rest => do
    let value := (← find lookup known name).getD ""
    return value ++ (← expand lookup known rest)

/-- The variables that definitions add to those already known. -/
def define (lookup : String → m (Option String)) (known : List (String × String)) :
    List Definition → m (List (String × String))
  | [] => return known
  | d :: rest => do
    if (← find lookup known d.name).isSome then define lookup known rest
    else define lookup (known ++ [(d.name, ← expand lookup known d.value)]) rest

end Transplant.VariableFile
