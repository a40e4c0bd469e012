import Transplant.Yaml.Style

/-! Tokens of YAML, and the cursor that reads them: the text to come and the place in it. -/
namespace Transplant.Yaml

inductive Token where
  | version (major minor : Nat)
  | tagPrefix (handle start : String)
  | documentStart
  | documentEnd
  | blockSequenceStart
  | blockMappingStart
  | blockEnd
  | flowSequenceStart
  | flowSequenceEnd
  | flowMappingStart
  | flowMappingEnd
  | blockEntry
  | flowEntry
  | key
  | value
  | alias (name : String)
  | anchor (name : String)
  | tag (handle suffix : String)
  | scalar (style : Style) (text : String)
  deriving DecidableEq, Repr

structure Cursor where
  rest : List Char
  index : Nat
  line : Nat
  column : Nat

namespace Cursor

def ofText (text : String) : Cursor := ⟨text.toList, 0, 0, 0⟩

def drop (n : Nat) (c : Cursor) : Cursor :=
  { c with rest := c.rest.drop n, index := c.index + n, column := c.column + n }

/-- Passes one line break; a carriage return and a line feed are one. -/
def nextLine (c : Cursor) : Cursor :=
  match c.rest with
  | '\r' :: '\n' :: rest => ⟨rest, c.index + 2, c.line + 1, 0⟩
  | _ :: rest => ⟨rest, c.index + 1, c.line + 1, 0⟩
  | [] => c

/-- The characters of a class on this line, and the place after them. -/
def span (p : Char → Bool) (c : Cursor) : List Char × Cursor :=
  let read := c.rest.takeWhile p
  (read, c.drop read.length)

def skip (p : Char → Bool) (c : Cursor) : Cursor := (c.span p).2

def startsWith (s : String) (c : Cursor) : Bool := s.toList.isPrefixOf c.rest

/-- The character at a distance is a blank, a break or the end. -/
def gapAt (n : Nat) (c : Cursor) : Bool := atGap (c.rest.drop n)

def atBreak (c : Cursor) : Bool := c.rest.head?.any isBreak

def atLineEnd (c : Cursor) : Bool := c.rest.isEmpty || c.atBreak

/-- Three dashes or dots at the beginning of a line. -/
def atMarker (c : Cursor) : Bool := c.column = 0 && opensMarker c.rest && c.gapAt 3

end Cursor

/-- How a break reads in a text: those of one character, except separators, as a line feed. -/
def breakText : List Char → List Char
  | [] => []
  | c :: _ => if c.toNat = 0x2028 || c.toNat = 0x2029 then [c] else ['\n']

end Transplant.Yaml
