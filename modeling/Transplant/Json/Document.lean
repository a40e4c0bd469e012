import Transplant.Json.Basic

/-! JSON as written. A number or a text can be well formed and still denote nothing, such as a
number beyond all bounds or half a surrogate pair; a reader that skips it does not mind. -/
namespace Transplant.Json

inductive Document where
  | null
  | bool (value : Bool)
  | number (value : Option Number)
  | string (value : Option String)
  | array (items : List Document)
  | object (members : List (Option String × Document))
  deriving Repr

namespace Document

def isSpace (c : Char) : Bool := c = ' ' || c = '\n' || c = '\t' || c = '\r'

def skipSpace (cs : List Char) : List Char := cs.dropWhile isSpace

def hexValue? (c : Char) : Option Nat :=
  if c.isDigit then some (c.toNat - '0'.toNat)
  else if 'a' ≤ c && c ≤ 'f' then some (c.toNat - 'a'.toNat + 10)
  else if 'A' ≤ c && c ≤ 'F' then some (c.toNat - 'A'.toNat + 10)
  else none

/-- A text is read as code units: characters, and surrogate halves that escapes name. -/
inductive Unit16 where
  | char (c : Char)
  | half (n : Nat)

def simpleEscape? (c : Char) : Option Char :=
  if c = '"' || c = '\\' || c = '/' then some c
  else if c = 'b' then some (Char.ofNat 8)
  else if c = 'f' then some (Char.ofNat 12)
  else if c = 'n' then some '\n'
  else if c = 'r' then some '\r'
  else if c = 't' then some '\t'
  else none

def unitOf (n : Nat) : Unit16 :=
  if 0xD800 ≤ n && n < 0xE000 then .half n else .char (Char.ofNat n)

/-- The units of a text up to its closing quote. -/
def readUnits : List Char → Option (List Unit16 × List Char)
  | [] => none
  | '"' :: rest => some ([], rest)
  | '\\' :: 'u' :: a :: b :: c :: d :: rest => do
    let n := (← hexValue? a) * 4096 + (← hexValue? b) * 256 + (← hexValue? c) * 16 + (← hexValue? d)
    let (units, after) ← readUnits rest
    return (unitOf n :: units, after)
  | '\\' :: c :: rest => do
    let e ← simpleEscape? c
    let (units, after) ← readUnits rest
    return (.char e :: units, after)
  | c :: rest =>
    if c = '\\' || c.toNat < 0x20 then none
    else do
      let (units, after) ← readUnits rest
      return (.char c :: units, after)

/-- A high half joins the low half after it; no other half denotes a character. -/
def joinUnits : List Unit16 → Option (List Char)
  | [] => some []
  | .char c :: rest => (joinUnits rest).map (c :: ·)
  | .half h :: .half l :: rest =>
    if h < 0xDC00 && 0xDC00 ≤ l then
      (joinUnits rest).map (Char.ofNat (0x10000 + (h - 0xD800) * 0x400 + (l - 0xDC00)) :: ·)
    else none
  | .half _ :: _ => none

def readString (cs : List Char) : Option (Option String × List Char) := do
  let (units, rest) ← readUnits cs
  return ((joinUnits units).map String.ofList, rest)

def digitsOf (cs : List Char) : List Nat := cs.map fun c => c.toNat - '0'.toNat

def digitRun (cs : List Char) : List Nat × List Char :=
  (digitsOf (cs.takeWhile Char.isDigit), cs.dropWhile Char.isDigit)

/-- A whole part has no leading zero. -/
def readWhole : List Char → Option (List Nat × List Char)
  | '0' :: rest => if (rest.head?.any Char.isDigit) then none else some ([0], rest)
  | cs => if (cs.head?.any Char.isDigit) then some (digitRun cs) else none

def readFraction : List Char → Option (List Nat × List Char)
  | '.' :: rest => if (rest.head?.any Char.isDigit) then some (digitRun rest) else none
  | cs => some ([], cs)

def naturalOf (digits : List Nat) : Nat := digits.foldl (fun n d => n * 10 + d) 0

def readExponentSign : List Char → Bool × List Char
  | '+' :: rest => (false, rest)
  | '-' :: rest => (true, rest)
  | cs => (false, cs)

def readExponent : List Char → Option (Option Int × List Char)
  | c :: rest =>
    if c = 'e' || c = 'E' then
      let (negative, rest) := readExponentSign rest
      if rest.head?.any Char.isDigit then
        let (digits, after) := digitRun rest
        let n := Int.ofNat (naturalOf digits)
        some (some (if negative then -n else n), after)
      else none
    else some (none, c :: rest)
  | [] => some (none, [])

def readUnsigned (negative : Bool) (cs : List Char) : Option (Literal × List Char) := do
  let (whole, rest) ← readWhole cs
  let (fraction, rest) ← readFraction rest
  let (exponent, rest) ← readExponent rest
  return (⟨negative, whole, fraction, exponent⟩, rest)

def readLiteral : List Char → Option (Literal × List Char)
  | '-' :: rest => readUnsigned true rest
  | cs => readUnsigned false cs

def readAtom (cs : List Char) : Option (Document × List Char) :=
  match cs with
  | 'n' :: 'u' :: 'l' :: 'l' :: rest => some (null, rest)
  | 't' :: 'r' :: 'u' :: 'e' :: rest => some (bool true, rest)
  | 'f' :: 'a' :: 'l' :: 's' :: 'e' :: rest => some (bool false, rest)
  | '"' :: rest => do
    let (s, after) ← readString rest
    return (string s, after)
  | cs => do
    let (l, after) ← readLiteral cs
    return (number (Number.ofLiteral? l), after)

mutual

def readValue : Nat → List Char → Option (Document × List Char)
  | 0, _ => none
  | fuel + 1, '[' :: rest =>
    match skipSpace rest with
    | ']' :: after => some (array [], after)
    | inner => do
      let (items, after) ← readItems fuel inner
      return (array items, after)
  | fuel + 1, '{' :: rest =>
    match skipSpace rest with
    | '}' :: after => some (object [], after)
    | inner => do
      let (members, after) ← readMembers fuel inner
      return (object members, after)
  | _ + 1, cs => readAtom cs

def readItems : Nat → List Char → Option (List Document × List Char)
  | 0, _ => none
  | fuel + 1, cs => do
    let (x, rest) ← readValue fuel cs
    match skipSpace rest with
    | ']' :: after => some ([x], after)
    | ',' :: more => do
      let (xs, after) ← readItems fuel (skipSpace more)
      return (x :: xs, after)
    | _ => none

def readMembers : Nat → List Char → Option (List (Option String × Document) × List Char)
  | 0, _ => none
  | fuel + 1, '"' :: cs => do
    let (key, rest) ← readString cs
    match skipSpace rest with
    | ':' :: rest => do
      let (value, rest) ← readValue fuel (skipSpace rest)
      match skipSpace rest with
      | '}' :: after => some ([(key, value)], after)
      | ',' :: more => do
        let (members, after) ← readMembers fuel (skipSpace more)
        return ((key, value) :: members, after)
      | _ => none
    | _ => none
  | _ + 1, _ => none

end

/-- Reads a whole text as one value. Each step of the reader passes a character or goes one level
down at most once a character, so twice the length of the text is enough of them. -/
def ofText? (text : String) : Option Document := do
  let cs := text.toList
  let (d, rest) ← readValue (2 * cs.length + 2) (skipSpace cs)
  if (skipSpace rest).isEmpty then some d else none

mutual

def depth : Document → Nat
  | array items => itemsDepth items + 1
  | object members => membersDepth members + 1
  | _ => 0

def itemsDepth : List Document → Nat
  | [] => 0
  | x :: xs => max x.depth (itemsDepth xs)

def membersDepth : List (Option String × Document) → Nat
  | [] => 0
  | (_, x) :: rest => max x.depth (membersDepth rest)

end

mutual

/-- The value that a document denotes, its members in the order of their keys and the last of
one key. -/
def denote? : Document → Option Json
  | null => some .null
  | bool b => some (.bool b)
  | number n => n.map .number
  | string s => s.map .string
  | array items => (denoteItems? items).map .array
  | object members => (denoteMembers? members).map fun ms => .object (Keyed.ofList ms)

def denoteItems? : List Document → Option (List Json)
  | [] => some []
  | x :: xs => do return (← denote? x) :: (← denoteItems? xs)

def denoteMembers? : List (Option String × Document) → Option (List (String × Json))
  | [] => some []
  | (key, x) :: rest => do return (← key, ← denote? x) :: (← denoteMembers? rest)

end

mutual

def ofJson : Json → Document
  | .null => null
  | .bool b => bool b
  | .number n => number (some n)
  | .string s => string (some s)
  | .array items => array (ofItems items)
  | .object members => object (ofMembers members)

def ofItems : List Json → List Document
  | [] => []
  | x :: xs => ofJson x :: ofItems xs

def ofMembers : List (String × Json) → List (Option String × Document)
  | [] => []
  | (key, x) :: rest => (some key, ofJson x) :: ofMembers rest

end

def depthLimit : Nat := 127

end Document

/-- The value of a text, nested no deeper than readers of values go. -/
def ofText? (text : String) : Option Json := do
  let d ← Document.ofText? text
  if d.depth ≤ Document.depthLimit then d.denote? else none

end Transplant.Json
