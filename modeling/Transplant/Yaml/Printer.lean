import Transplant.Json.Basic
import Transplant.Text.Characters
import Transplant.Yaml.Style

/-! The text of a JSON value as YAML: blocks by indentation, items of a list not indented below
their key, nothing folded. -/
namespace Transplant.Yaml

def pad (n : Nat) : List Char := List.replicate n ' '

def hexOf (width n : Nat) : List Char :=
  let digits := (Nat.toDigits 16 n).map Char.toUpper
  List.replicate (width - digits.length) '0' ++ digits

def escapeLetters : List (Nat × Char) :=
  [(0, '0'), (7, 'a'), (8, 'b'), (9, 't'), (0xA, 'n'), (0xB, 'v'), (0xC, 'f'), (0xD, 'r'),
   (0x1B, 'e'), (0x22, '"'), (0x5C, '\\'), (0x85, 'N'), (0x2028, 'L'), (0x2029, 'P')]

def escaped (c : Char) : List Char :=
  let n := c.toNat
  match escapeLetters.lookup n with
  | some letter => ['\\', letter]
  | none =>
    if isPrintable c then [c]
    else if n ≤ 0xFF then '\\' :: 'x' :: hexOf 2 n
    else if n ≤ 0xFFFF then '\\' :: 'u' :: hexOf 4 n
    else '\\' :: 'U' :: hexOf 8 n

def doubleQuoted (cs : List Char) : List Char := '"' :: cs.flatMap escaped ++ ['"']

/-- Lines after a break start at the indent. -/
def singleBody (indent : Nat) (afterBreak : Bool) : List Char → List Char
  | [] => if afterBreak then pad indent else []
  | c :: cs =>
    if isBreak c then c :: singleBody indent true cs
    else (if afterBreak then pad indent else []) ++
      (if c = '\'' then ['\'', '\''] else [c]) ++ singleBody indent false cs

def singleQuoted (indent : Nat) (cs : List Char) : List Char :=
  '\'' :: singleBody indent false cs ++ ['\'']

def literalBody (indent : Nat) (afterBreak : Bool) : List Char → List Char
  | [] => []
  | c :: cs =>
    if isBreak c then c :: literalBody indent true cs
    else (if afterBreak then pad indent else []) ++ c :: literalBody indent false cs

/-- How a literal block keeps the breaks at its end. -/
def chomping (cs : List Char) : List Char :=
  match cs.reverse with
  | [] => ['-']
  | c :: before =>
    if !isBreak c then ['-']
    else
      match before with
      | [] => ['+']
      | d :: _ => if isBreak d then ['+'] else []

def indentHint : List Char → List Char
  | [] => []
  | c :: _ => if isSpace c || isBreak c then ['2'] else []

def literal (indent : Nat) (cs : List Char) : List Char :=
  '|' :: indentHint cs ++ chomping cs ++ '\n' :: literalBody indent true cs

def textScalar (indent : Nat) (simpleKey : Bool) (s : String) : List Char :=
  let cs := Text.charsOf s
  match styleOf simpleKey cs with
  | .plain => cs
  | .single => singleQuoted indent cs
  | .double => doubleQuoted cs
  | .literal => literal indent cs

/-- A block may end in a break of its own, which need not be a line feed. -/
def endLine (cs : List Char) : List Char := if cs.getLast?.any isBreak then cs else cs ++ ['\n']

def simpleKeyLimit : Nat := 128

def isSimpleKey (key : String) : Bool :=
  key.utf8ByteSize ≤ simpleKeyLimit && !(Text.charsOf key).any isBreak

/-- A value on the line of what stands before it. -/
def scalar (indent : Nat) : Json → List Char
  | .null => "null".toList
  | .bool true => "true".toList
  | .bool false => "false".toList
  | .number n => Text.charsOf n.render
  | .string s => textScalar indent false s
  | .array _ => ['[', ']']
  | .object _ => ['{', '}']

mutual

/-- A value behind a colon on the line of its key. -/
def afterKey (indent : Nat) : Json → List Char
  | .array (x :: xs) => '\n' :: pad indent ++ items indent (x :: xs)
  | .object (m :: ms) => '\n' :: pad (indent + 2) ++ members (indent + 2) (m :: ms)
  | v => ' ' :: endLine (scalar (indent + 2) v)

/-- A value behind a dash, or behind a colon on a line of its own. -/
def afterMark (indent : Nat) : Json → List Char
  | .array (x :: xs) => ' ' :: items (indent + 2) (x :: xs)
  | .object (m :: ms) => ' ' :: members (indent + 2) (m :: ms)
  | v => ' ' :: endLine (scalar (indent + 2) v)

def items (indent : Nat) : List Json → List Char
  | [] => []
  | [x] => '-' :: afterMark indent x
  | x :: xs => '-' :: afterMark indent x ++ pad indent ++ items indent xs

def member (indent : Nat) : String × Json → List Char
  | (key, v) =>
    if isSimpleKey key then textScalar (indent + 2) true key ++ ':' :: afterKey indent v
    else
      '?' :: ' ' :: endLine (textScalar (indent + 2) false key) ++ pad indent ++
        ':' :: afterMark indent v

def members (indent : Nat) : List (String × Json) → List Char
  | [] => []
  | [m] => member indent m
  | m :: ms => member indent m ++ pad indent ++ members indent ms

end

def render (v : Json) : String :=
  match v with
  | .array (x :: xs) => .ofList (items 0 (x :: xs))
  | .object (m :: ms) => .ofList (members 0 (m :: ms))
  | v => .ofList (endLine (scalar 0 v))

end Transplant.Yaml
