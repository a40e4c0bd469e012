import Transplant.Text.Characters
import Transplant.Yaml.TokenText

/-! The tokens of a text. Indentation opens and closes blocks, and a token turns out to be a key
only at the colon behind it; the marks of the key are then put in front of it. -/
namespace Transplant.Yaml

/-- A token that a colon on its line makes a key. In some places it has to be one. -/
structure Candidate where
  required : Bool
  position : Nat
  index : Nat
  line : Nat
  column : Nat

/-- The tokens so far are in reverse. Each flow that is open keeps the candidate outside of it. -/
structure Scan where
  cursor : Cursor
  tokens : List Token
  count : Nat
  indent : Int
  indents : List Int
  outer : List (Option Candidate)
  candidate : Option Candidate
  keyAllowed : Bool

namespace Scan

def ofText (text : String) : Scan :=
  ⟨.ofText text, [], 0, -1, [], [], none, true⟩

def inFlow (s : Scan) : Bool := !s.outer.isEmpty

def emit (t : Token) (s : Scan) : Scan := { s with tokens := t :: s.tokens, count := s.count + 1 }

def insertAt (position : Nat) (t : Token) (s : Scan) : Scan :=
  let later := s.count - position
  { s with tokens := s.tokens.take later ++ t :: s.tokens.drop later, count := s.count + 1 }

def advance (n : Nat) (s : Scan) : Scan := { s with cursor := s.cursor.drop n }

def allowKey (allowed : Bool) (s : Scan) : Scan := { s with keyAllowed := allowed }

/-- A candidate that has to be a key cannot be given up. -/
def dropCandidate (s : Scan) : Option Scan :=
  if s.candidate.any Candidate.required then none else some { s with candidate := none }

def saveCandidate (s : Scan) : Option Scan :=
  if s.keyAllowed then do
    let s ← s.dropCandidate
    let required := !s.inFlow && s.indent == Int.ofNat s.cursor.column
    let c := s.cursor
    let k : Candidate := ⟨required, s.count, c.index, c.line, c.column⟩
    return { s with candidate := some k }
  else some s

def candidateReach : Nat := 1024

def isStale (c : Cursor) (k : Candidate) : Bool :=
  k.line < c.line || k.index + candidateReach < c.index

/-- A candidate goes with its line and does not reach far. -/
def refresh (c : Cursor) : Option Candidate → Option (Option Candidate)
  | none => some none
  | some k => if isStale c k then if k.required then none else some none else some (some k)

def dropStale (s : Scan) : Option Scan := do
  return { s with candidate := ← refresh s.cursor s.candidate,
                  outer := ← s.outer.mapM (refresh s.cursor) }

/-- Opens a block at a column further in than the block around it. -/
def openBlock (column : Nat) (position : Option Nat) (t : Token) (s : Scan) : Scan :=
  if s.inFlow || Int.ofNat column ≤ s.indent then s
  else
    let s := { s with indents := s.indent :: s.indents, indent := column }
    match position with
    | some p => s.insertAt p t
    | none => s.emit t

def closeFrom (column : Int) : List Int → Scan → Scan
  | [], s => s
  | above :: rest, s =>
    if column < s.indent then
      closeFrom column rest { s.emit .blockEnd with indent := above, indents := rest }
    else s

/-- Closes the blocks that are further in than a column. -/
def closeBlocks (column : Int) (s : Scan) : Scan :=
  if s.inFlow then s else closeFrom column s.indents s

/-- Tabs are no indentation. -/
def skipBlanks (s : Scan) : Scan :=
  let tabs := s.inFlow || !s.keyAllowed
  { s with cursor := s.cursor.skip fun c => c = ' ' || (tabs && c = '\t') }

def skipComment (s : Scan) : Scan :=
  if s.cursor.rest.head? == some '#' then
    { s with cursor := s.cursor.skip fun c => !isBreak c }
  else s

def skipGap : Nat → Scan → Scan
  | 0, s => s
  | fuel + 1, s =>
    let s := s.skipBlanks.skipComment
    if s.cursor.atBreak then
      skipGap fuel { s with cursor := s.cursor.nextLine, keyAllowed := s.keyAllowed || !s.inFlow }
    else s

def isByteOrderMark (c : Char) : Bool := c.toNat = 0xFEFF

/-- Passes the mark in a place of its own. -/
def skipMark (s : Scan) : Scan :=
  if s.cursor.rest.head?.any isByteOrderMark then s.advance 1 else s

/-! Marks of documents and directives. -/

def leaveAll (s : Scan) : Option Scan := do
  return (← (s.closeBlocks (-1)).dropCandidate).allowKey false

def documentMark (t : Token) (s : Scan) : Option Scan := do
  return (← s.leaveAll).emit t |>.advance 3

def isNameChar (c : Char) : Bool := c.isAlphanum || c = '_' || c = '-'

def number? (c : Cursor) : Option (Nat × Cursor) := do
  let (digits, c) := c.span Char.isDigit
  if digits.length ≤ 9 then return (← natural? 10 digits, c) else none

def readVersion (c : Cursor) : Option (Token × Cursor) := do
  let (major, c) ← number? (c.skip isBlank)
  if c.rest.head? == some '.' then
    let (minor, c) ← number? (c.drop 1)
    return (.version major minor, c)
  else none

def isUriChar (inside : Bool) (c : Char) : Bool :=
  isNameChar c || ";/?:@&=+$.!~*'()%".toList.contains c || (inside && ",[]".toList.contains c)

def byte? : List Char → Option Nat
  | '%' :: a :: b :: _ => natural? 16 [a, b]
  | _ => none

def isFollowing (b : Nat) : Bool := 0x80 ≤ b && b < 0xC0

def bytes? : Nat → List Char → Option (List Nat)
  | 0, _ => some []
  | n + 1, cs => do return (← byte? cs) :: (← bytes? n (cs.drop 3))

/-- A character whose bytes are escaped one by one. -/
def escapedChar? (cs : List Char) : Option (Char × Nat) := do
  let first ← byte? cs
  let (width, lead) ←
    if first < 0x80 then some (1, first)
    else if 0xC0 ≤ first && first < 0xE0 then some (2, first - 0xC0)
    else if 0xE0 ≤ first && first < 0xF0 then some (3, first - 0xE0)
    else if 0xF0 ≤ first && first < 0xF8 then some (4, first - 0xF0)
    else none
  let more ← bytes? (width - 1) (cs.drop 3)
  if more.all isFollowing then
    return (Char.ofNat (more.foldl (fun n b => n * 64 + (b - 0x80)) lead), 3 * width)
  else none

def readUri (inside : Bool) : Nat → Cursor → Option (List Char × Cursor)
  | 0, c => some ([], c)
  | fuel + 1, c =>
    match c.rest with
    | [] => some ([], c)
    | x :: _ =>
      if x = '%' then do
        let (y, length) ← escapedChar? c.rest
        let (more, c) ← readUri inside fuel (c.drop length)
        return (y :: more, c)
      else if isUriChar inside x then do
        let (more, c) ← readUri inside fuel (c.drop 1)
        return (x :: more, c)
      else some ([], c)

def uri (inside : Bool) (c : Cursor) : Option (List Char × Cursor) :=
  readUri inside (c.rest.length + 1) c

/-- A handle is a mark, or a name between two marks; in a directive it is complete. -/
def readHandle (directive : Bool) (c : Cursor) : Option (List Char × Cursor) := do
  if c.rest.head? != some '!' then none
  else
    let (name, c) := (c.drop 1).span isNameChar
    if c.rest.head? == some '!' then some ('!' :: name ++ ['!'], c.drop 1)
    else if directive && !name.isEmpty then none
    else some ('!' :: name, c)

def readTagPrefix (c : Cursor) : Option (Token × Cursor) := do
  let (handle, c) ← readHandle true (c.skip isBlank)
  if !c.rest.head?.any isBlank then none
  else
    let (start, c) ← uri true (c.skip isBlank)
    if c.gapAt 0 && !start.isEmpty then
      return (.tagPrefix (.ofList handle) (.ofList start), c)
    else none

def directiveToken (c : Cursor) : Option (Token × Cursor) := do
  let (name, c) := c.span isNameChar
  if name.isEmpty || !c.gapAt 0 then none
  else if String.ofList name == "YAML" then readVersion c
  else if String.ofList name == "TAG" then readTagPrefix c
  else none

def directive (s : Scan) : Option Scan := do
  let s ← s.leaveAll
  let (t, c) ← directiveToken (s.cursor.drop 1)
  let c := c.skip isBlank
  let c := if c.rest.head? == some '#' then c.skip fun x => !isBreak x else c
  if c.atLineEnd then
    return { s.emit t with cursor := if c.atBreak then c.nextLine else c }
  else none

/-! Indicators. -/

def openFlow (t : Token) (s : Scan) : Option Scan := do
  let s ← s.saveCandidate
  let s := { s with outer := s.candidate :: s.outer, candidate := none, keyAllowed := true }
  return s.emit t |>.advance 1

def closeFlow (t : Token) (s : Scan) : Option Scan := do
  let s ← s.dropCandidate
  let s :=
    match s.outer with
    | k :: rest => { s with outer := rest, candidate := k }
    | [] => s
  return s.allowKey false |>.emit t |>.advance 1

def flowEntry (s : Scan) : Option Scan := do
  return (← s.dropCandidate).allowKey true |>.emit .flowEntry |>.advance 1

def blockEntry (s : Scan) : Option Scan := do
  if !s.inFlow && !s.keyAllowed then none
  else
    let s := s.openBlock s.cursor.column none .blockSequenceStart
    return (← s.dropCandidate).allowKey true |>.emit .blockEntry |>.advance 1

def explicitKey (s : Scan) : Option Scan := do
  if !s.inFlow && !s.keyAllowed then none
  else
    let s := s.openBlock s.cursor.column none .blockMappingStart
    return (← s.dropCandidate).allowKey (!s.inFlow) |>.emit .key |>.advance 1

def value (s : Scan) : Option Scan := do
  match s.candidate with
  | some k =>
    let s := s.insertAt k.position .key
    let s := s.openBlock k.column (some k.position) .blockMappingStart
    return { s with candidate := none, keyAllowed := false }.emit .value |>.advance 1
  | none =>
    if !s.inFlow && !s.keyAllowed then none
    else
      let s := s.openBlock s.cursor.column none .blockMappingStart
      return s.allowKey (!s.inFlow) |>.emit .value |>.advance 1

def startNode (s : Scan) : Option Scan := do
  return (← s.saveCandidate).allowKey false

def endsName (c : Cursor) : Bool :=
  c.gapAt 0 || c.rest.head?.any fun x => "?:,]\x7d%@".toList.contains x || x.toNat = 0x60

def name (make : String → Token) (s : Scan) : Option Scan := do
  let s ← s.startNode
  let (read, c) := (s.cursor.drop 1).span isNameChar
  if read.isEmpty || !endsName c then none
  else return { s.emit (make (.ofList read)) with cursor := c }

def isClosedHandle (handle : List Char) : Bool :=
  1 < handle.length && handle.getLast? == some '!'

def tagToken (c : Cursor) : Option (Token × Cursor) := do
  if c.startsWith "!<" then
    let (suffix, c) ← uri true (c.drop 2)
    if c.rest.head? == some '>' && !suffix.isEmpty then
      return (.tag "" (.ofList suffix), c.drop 1)
    else none
  else
    let (handle, after) ← readHandle false c
    if isClosedHandle handle then
      let (suffix, c) ← uri false after
      if suffix.isEmpty then none else return (.tag (.ofList handle) (.ofList suffix), c)
    else
      let (more, c) ← uri false after
      match handle.tail ++ more with
      | [] => return (.tag "" "!", c)
      | suffix => return (.tag "!" (.ofList suffix), c)

def tag (s : Scan) : Option Scan := do
  let s ← s.startNode
  let (t, c) ← tagToken s.cursor
  if c.gapAt 0 || (s.inFlow && c.rest.head? == some ',') then return { s.emit t with cursor := c }
  else none

def blockScalar (literal : Bool) (s : Scan) : Option Scan := do
  let s := (← s.dropCandidate).allowKey true
  let (text, c) ← blockText literal s.indent s.cursor
  return { s.emit (.scalar .literal (Text.ofChars text)) with cursor := c }

def quotedScalar (single : Bool) (s : Scan) : Option Scan := do
  let s ← s.startNode
  let (text, c) ← quotedText single s.cursor
  return { s.emit (.scalar (if single then .single else .double) (Text.ofChars text)) with cursor := c }

def plainScalar (s : Scan) : Option Scan := do
  let s ← s.startNode
  let (text, broken, c) ← plainText s.inFlow (s.indent + 1) s.cursor
  return { s.emit (.scalar .plain (Text.ofChars text)) with cursor := c, keyAllowed := broken }

/-- A dash, a question mark or a colon starts a plain scalar only before other characters. -/
def startsPlain (s : Scan) : Bool :=
  match s.cursor.rest with
  | [] => false
  | c :: _ =>
    if c = '-' then !(s.cursor.rest.tail.head?.any isBlank)
    else if c = '?' || c = ':' then !s.inFlow && !s.cursor.gapAt 1
    else !isIndicator c

def node (s : Scan) : Option Scan :=
  match s.cursor.rest with
  | '*' :: _ => s.name .alias
  | '&' :: _ => s.name .anchor
  | '!' :: _ => s.tag
  | '\'' :: _ => s.quotedScalar true
  | '"' :: _ => s.quotedScalar false
  | c :: _ =>
    if c = '|' && !s.inFlow then s.blockScalar true
    else if c = '>' && !s.inFlow then s.blockScalar false
    else if s.startsPlain then s.plainScalar
    else none
  | [] => none

def indicator (s : Scan) : Option Scan :=
  let apart := s.cursor.gapAt 1
  match s.cursor.rest with
  | '[' :: _ => s.openFlow .flowSequenceStart
  | '{' :: _ => s.openFlow .flowMappingStart
  | ']' :: _ => s.closeFlow .flowSequenceEnd
  | '}' :: _ => s.closeFlow .flowMappingEnd
  | ',' :: _ => s.flowEntry
  | c :: _ =>
    if c = '-' && apart then s.blockEntry
    else if c = '?' && (s.inFlow || apart) then s.explicitKey
    else if c = ':' && (s.inFlow || apart) then s.value
    else s.node
  | [] => none

def token (s : Scan) : Option Scan :=
  if s.cursor.column = 0 && s.cursor.rest.head? == some '%' then s.directive
  else if s.cursor.atMarker then
    s.documentMark (if s.cursor.startsWith "-" then .documentStart else .documentEnd)
  else s.indicator

def finish (s : Scan) : Option (List Token) := do
  return (← s.leaveAll).tokens.reverse

def run : Nat → Scan → Option (List Token)
  | 0, _ => none
  | fuel + 1, s => do
    let s ← (skipGap (s.cursor.rest.length + 1) s).dropStale
    if s.cursor.rest.isEmpty then s.finish
    else run fuel (← (s.closeBlocks s.cursor.column).token)

end Scan

def isReadable (c : Char) : Bool :=
  let n := c.toNat
  n = 0x9 || n = 0xA || n = 0xD || n = 0x85 || (0x20 ≤ n && n ≤ 0x7E) || (0xA0 ≤ n && n ≤ 0xFFFD) ||
    0x10000 ≤ n

/-- A mark in front of a text is no part of it; another one after it is passed. -/
def tokens? (text : String) : Option (List Token) :=
  let cs := text.toList
  let cs := if cs.head?.any Scan.isByteOrderMark then cs.tail else cs
  if cs.all isReadable then
    let s := (Scan.ofText (.ofList cs)).skipMark
    s.run (s.cursor.rest.length + 2)
  else none

end Transplant.Yaml
