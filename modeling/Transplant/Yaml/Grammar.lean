import Transplant.Yaml.Node
import Transplant.Yaml.Tokens

/-! The node that tokens write. Anchors name nodes for later, and the handles of tags are short for
what a directive says. -/
namespace Transplant.Yaml

/-- Tokens to come. The latest anchor stands first; a node around this place is not known yet. -/
structure Source where
  tokens : List Token
  handles : List (String × String)
  anchors : List (String × Option Node)

abbrev Grammar := StateT Source Option

namespace Grammar

def peek : Grammar (Option Token) := do return (← get).tokens.head?

def skip : Grammar Unit := modify fun s => { s with tokens := s.tokens.tail }

def isNext (ts : List Token) : Grammar Bool := do return (← peek).any ts.contains

def accept (t : Token) : Grammar Bool := do
  if ← isNext [t] then
    skip
    return true
  else return false

def expect (t : Token) : Grammar Unit := do
  if ← accept t then return () else failure

/-! Properties. -/

def anchor : Grammar (Option String) := do
  match ← peek with
  | some (.anchor name) =>
    skip
    return some name
  | _ => return none

/-- A tag without a handle is complete. -/
def tag : Grammar (Option String) := do
  match ← peek with
  | some (.tag handle suffix) =>
    skip
    if handle.isEmpty then return some suffix
    else
      match (← get).handles.lookup handle with
      | some start => return some (start ++ suffix)
      | none => failure
  | _ => return none

/-- An anchor and a tag, in either order. -/
def properties : Grammar (Option String × Option String) := do
  match ← anchor with
  | some name => return (some name, ← tag)
  | none =>
    match ← tag with
    | some t => return (← anchor, some t)
    | none => return (none, none)

def lookUp (name : String) : Grammar Node := do
  match (← get).anchors.lookup name with
  | some (some n) => return .repeated n
  | some none => return .endless
  | none => failure

/-- Fills in the anchor that `later` anchors were put in front of. -/
def settle (later : Nat) (n : Node) (anchors : List (String × Option Node)) :
    List (String × Option Node) :=
  match anchors.drop later with
  | (name, _) :: before => anchors.take later ++ (name, some n) :: before
  | [] => anchors

def anchored (name : Option String) (read : Grammar Node) : Grammar Node := do
  match name with
  | none => read
  | some name =>
    let before := (← get).anchors.length
    modify fun s => { s with anchors := (name, none) :: s.anchors }
    let n ← read
    modify fun s => { s with anchors := settle (s.anchors.length - before - 1) n s.anchors }
    return n

/-! Nodes. -/

/-- Where a node stands. The dashes of a list need no indentation below a key. -/
inductive Place where
  | entry
  | member
  | flow
  deriving DecidableEq

def entryStops : List Token := [.blockEntry, .blockEnd]

def memberStops : List Token := [.key, .value, .blockEnd]

def pairStops : List Token := [.value, .flowEntry, .flowSequenceEnd]

def itemStops : List Token := [.flowEntry, .flowSequenceEnd]

def keyStops : List Token := [.value, .flowEntry, .flowMappingEnd]

def valueStops : List Token := [.flowEntry, .flowMappingEnd]

mutual

def node : Nat → Place → Grammar Node
  | 0, _ => failure
  | fuel + 1, place => do
    match ← peek with
    | some (.alias name) =>
      skip
      lookUp name
    | _ =>
      let (name, t) ← properties
      anchored name (content fuel place t (name.isSome || t.isSome))

/-- A node behind its properties; where these are all there is, it is blank. -/
def content : Nat → Place → Option String → Bool → Grammar Node
  | 0, _, _, _ => failure
  | fuel + 1, place, t, named => do
    let other : Grammar Node := if named then return .blank t else failure
    match ← peek with
    | some (.scalar style text) =>
      skip
      return .scalar (t.filter (· ≠ "!")) style text
    | some .flowSequenceStart =>
      skip
      return .sequence t (← flowItems fuel true)
    | some .flowMappingStart =>
      skip
      return .mapping t (← flowMembers fuel true)
    | some .blockEntry =>
      if place = .member then return .sequence t (← entries fuel (.blockEntry :: memberStops))
      else other
    | some .blockSequenceStart =>
      if place = .flow then other
      else
        skip
        let items ← entries fuel entryStops
        expect .blockEnd
        return .sequence t items
    | some .blockMappingStart =>
      if place = .flow then other
      else
        skip
        return .mapping t (← members fuel)
    | _ => other

/-- A node, unless one of some tokens comes next. -/
def nodeUnless : Nat → List Token → Place → Grammar Node
  | 0, _, _ => failure
  | fuel + 1, stops, place => do
    if ← isNext stops then return .blank none else node fuel place

def entries : Nat → List Token → Grammar (List Node)
  | 0, _ => failure
  | fuel + 1, stops => do
    if ← accept .blockEntry then
      let x ← nodeUnless fuel stops .entry
      return x :: (← entries fuel stops)
    else return []

def members : Nat → Grammar (List (Node × Node))
  | 0 => failure
  | fuel + 1 => do
    if ← accept .key then
      let k ← nodeUnless fuel memberStops .member
      let v ← valueUnless fuel memberStops .member
      return (k, v) :: (← members fuel)
    else
      expect .blockEnd
      return []

def valueUnless : Nat → List Token → Place → Grammar Node
  | 0, _, _ => failure
  | fuel + 1, stops, place => do
    if ← accept .value then nodeUnless fuel stops place else return .blank none

def flowItems : Nat → Bool → Grammar (List Node)
  | 0, _ => failure
  | fuel + 1, first => do
    if ← accept .flowSequenceEnd then return []
    else
      if !first then expect .flowEntry
      if ← accept .flowSequenceEnd then return []
      else
        let x ← flowItem fuel
        return x :: (← flowItems fuel false)

/-- An item with a key is a mapping of its own. A blank key takes the token behind it. -/
def flowItem : Nat → Grammar Node
  | 0 => failure
  | fuel + 1 => do
    if ← accept .key then
      let blankKey ← isNext pairStops
      let k ← nodeUnless fuel pairStops .flow
      if blankKey then skip
      let v ← valueUnless fuel itemStops .flow
      return .mapping none [(k, v)]
    else node fuel .flow

def flowMembers : Nat → Bool → Grammar (List (Node × Node))
  | 0, _ => failure
  | fuel + 1, first => do
    if ← accept .flowMappingEnd then return []
    else
      if !first then expect .flowEntry
      if ← accept .flowMappingEnd then return []
      else
        let m ← flowMember fuel
        return m :: (← flowMembers fuel false)

/-- Only a marked key has a value. -/
def flowMember : Nat → Grammar (Node × Node)
  | 0 => failure
  | fuel + 1 => do
    if ← accept .key then
      let k ← nodeUnless fuel keyStops .flow
      return (k, ← valueUnless fuel valueStops .flow)
    else return (← node fuel .flow, .blank none)

end

/-! Documents. -/

def isDirective : Token → Bool
  | .version _ _ => true
  | .tagPrefix _ _ => true
  | _ => false

def isKnownVersion : Token → Bool
  | .version major minor => major = 1 && (minor = 1 || minor = 2)
  | _ => true

def versionCount (ts : List Token) : Nat :=
  ts.countP fun
    | .version _ _ => true
    | _ => false

def prefixesOf (ts : List Token) : List (String × String) :=
  ts.filterMap fun
    | .tagPrefix handle start => some (handle, start)
    | _ => none

def standardHandles : List (String × String) := [("!", "!"), ("!!", "tag:yaml.org,2002:")]

/-- The handles that directives define, each at most once. -/
def handlesOf? (ts : List Token) : Option (List (String × String)) :=
  let given := prefixesOf ts
  let distinct := (given.map Prod.fst).eraseDups.length = given.length
  if ts.all isKnownVersion && versionCount ts ≤ 1 && distinct then some (given ++ standardHandles)
  else none

/-- Whether nothing stands behind the mark of a document. -/
def atDocumentGap : Option Token → Bool
  | none => true
  | some t => isDirective t || t == .documentStart || t == .documentEnd

/-- A document without directives needs no mark. -/
def document (fuel : Nat) : Grammar Node := do
  let directives := (← get).tokens.takeWhile isDirective
  if directives.isEmpty && !(← isNext [.documentStart]) then node fuel .entry
  else
    match handlesOf? directives with
    | none => failure
    | some handles =>
      modify fun s => { s with handles, tokens := s.tokens.drop directives.length }
      expect .documentStart
      if atDocumentGap (← peek) then return .blank none else node fuel .entry

end Grammar

/-- The node of tokens that write one document. Between two tokens the grammar goes at most four
levels down. -/
def Node.ofTokens? (tokens : List Token) : Option Node := do
  let start : Source := ⟨tokens, Grammar.standardHandles, []⟩
  let (n, left) ← (Grammar.document (4 * tokens.length + 8)).run start
  if left.tokens.all (· == .documentEnd) then some n else none

def Node.ofText? (text : String) : Option Node := do Node.ofTokens? (← tokens? text)

end Transplant.Yaml
