import Transplant.Yaml.Scalar

/-! The styles of scalars, and how one is chosen for a text. -/
namespace Transplant.Yaml

inductive Style where
  | plain
  | single
  | double
  | literal
  deriving DecidableEq, Repr

/-- Line feed, carriage return, next line, line separator, paragraph separator. -/
def isBreak (c : Char) : Bool :=
  c = '\n' || c = '\r' || c.toNat = 0x85 || c.toNat = 0x2028 || c.toNat = 0x2029

def isBlank (c : Char) : Bool := c = ' ' || c = '\t'

def isPrintable (c : Char) : Bool :=
  let n := c.toNat
  n = 0xA || (0x20 ≤ n && n ≤ 0x7E) || (0xA0 ≤ n && n ≤ 0xFFFD && n ≠ 0xFEFF) || 0x10000 ≤ n

/-- A blank, a break or the end. -/
def atGap : List Char → Bool
  | [] => true
  | c :: _ => isBlank c || isBreak c || c.toNat = 0

/-- A character that marks something else at the beginning of a scalar. -/
def isIndicator (c : Char) : Bool :=
  "#,[]{}&*!|>'\"%@".toList.contains c || c.toNat = 0x60

def opensMarker (cs : List Char) : Bool :=
  ['-', '-', '-'].isPrefixOf cs || ['.', '.', '.'].isPrefixOf cs

def startsAsIndicator : List Char → Bool
  | [] => false
  | c :: cs => isIndicator c || ((c = '?' || c = ':' || c = '-') && atGap cs)

/-- A colon before a gap or a hash after one. -/
def holdsIndicator (afterGap : Bool) : List Char → Bool
  | [] => false
  | c :: cs =>
    (c = ':' && atGap cs) || (c = '#' && afterGap) ||
      holdsIndicator (isBlank c || isBreak c) cs

def adjacent (p q : Char → Bool) : List Char → Bool
  | c :: d :: cs => (p c && q d) || adjacent p q (d :: cs)
  | _ => false

def isSpace (c : Char) : Bool := c = ' '

structure Traits where
  breaks : Bool
  special : Bool
  spaceBeforeBreak : Bool
  spaceAfterBreak : Bool
  looseAtEdge : Bool
  spaceAtEnd : Bool
  indicators : Bool

def traits (cs : List Char) : Traits where
  breaks := cs.any isBreak
  special := !cs.all isPrintable
  spaceBeforeBreak := adjacent isSpace isBreak cs
  spaceAfterBreak := adjacent isBreak isSpace cs
  looseAtEdge := cs.head?.any (fun c => isSpace c || isBreak c) ||
    cs.getLast?.any (fun c => isSpace c || isBreak c)
  spaceAtEnd := cs.getLast?.any isSpace
  indicators := opensMarker cs || startsAsIndicator cs || holdsIndicator false cs.tail

namespace Traits

def allowsBlock (t : Traits) : Bool := !t.special && !t.spaceBeforeBreak && !t.spaceAtEnd

def allowsSingle (t : Traits) : Bool := !t.special && !t.spaceBeforeBreak && !t.spaceAfterBreak

def allowsPlain (t : Traits) : Bool :=
  t.allowsSingle && !t.looseAtEdge && !t.breaks && !t.indicators

end Traits

/-- A text that would be read as something else. -/
def isAmbiguous (cs : List Char) : Bool := meaning cs ≠ .text || hasNeedlessZero cs

/-- The style of a text; a key before a colon stays on one line. -/
def styleOf (simpleKey : Bool) (cs : List Char) : Style :=
  let t := traits cs
  if simpleKey && t.breaks then .double
  else if cs.contains '\n' then if t.allowsBlock && !simpleKey then .literal else .double
  else if t.allowsPlain && !isAmbiguous cs then .plain
  else if t.allowsSingle then .single
  else .double

end Transplant.Yaml
