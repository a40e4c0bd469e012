import Transplant.Yaml.Token

/-! The texts of scalar tokens. A single break between lines reads as a blank and further breaks
as they are, except in a literal block, which keeps all of them. -/
namespace Transplant.Yaml

/-- Blanks and breaks between two parts of a scalar: the blanks on the first line, the first
break, and those after it. -/
structure Gap where
  blanks : List Char
  first : Option (List Char)
  more : List Char

namespace Gap

def empty : Gap := ⟨[], none, []⟩

def text (g : Gap) : List Char :=
  match g.first with
  | none => g.blanks
  | some ['\n'] => if g.more.isEmpty then [' '] else g.more
  | some other => other ++ g.more

end Gap

/-- Reads the gap that starts here. After a break, a tab left of the limit is refused. -/
def readGap (limit : Option Int) : Nat → Gap → Cursor → Option (Gap × Cursor)
  | 0, g, c => some (g, c)
  | fuel + 1, g, c =>
    match c.rest with
    | [] => some (g, c)
    | x :: _ =>
      if isBreak x then
        let read := breakText c.rest
        match g.first with
        | none => readGap limit fuel { g with blanks := [], first := some read } c.nextLine
        | some _ => readGap limit fuel { g with more := g.more ++ read } c.nextLine
      else if isBlank x then
        if g.first.isNone then readGap limit fuel { g with blanks := g.blanks ++ [x] } (c.drop 1)
        else if x = '\t' && limit.any (Int.ofNat c.column < ·) then none
        else readGap limit fuel g (c.drop 1)
      else some (g, c)

def gapFrom (limit : Option Int) (g : Gap) (c : Cursor) : Option (Gap × Cursor) :=
  readGap limit c.rest.length g c

def isFlowIndicator (c : Char) : Bool := ",[]{}".toList.contains c

/-- A plain scalar ends before a colon and a gap, and in a flow before its indicators. -/
def endsPlain (inFlow : Bool) (c : Char) (rest : List Char) : Bool :=
  isBlank c || isBreak c || (c = ':' && atGap rest) || (inFlow && isFlowIndicator c)

/-- A colon that a flow indicator follows is refused in a flow. -/
def plainRun (inFlow : Bool) : List Char → Option (List Char)
  | [] => some []
  | c :: rest =>
    if inFlow && c = ':' && rest.head?.any (fun d => isFlowIndicator d || d = '?') then none
    else if endsPlain inFlow c rest then some []
    else (plainRun inFlow rest).map (c :: ·)

/-- The parts of a plain scalar; at the end also whether its last gap had a break. -/
def readPlain (inFlow : Bool) (indent : Int) :
    Nat → List Char → Gap → Cursor → Option (List Char × Bool × Cursor)
  | 0, _, _, _ => none
  | fuel + 1, text, g, c => do
    let stop := some (text, g.first.isSome, c)
    if c.atMarker || c.rest.head? == some '#' then stop
    else
      let run ← plainRun inFlow c.rest
      if run.isEmpty then stop
      else
        let text := text ++ g.text ++ run
        let (g, c) ← gapFrom (some indent) .empty (c.drop run.length)
        if !inFlow && Int.ofNat c.column < indent then some (text, g.first.isSome, c)
        else readPlain inFlow indent fuel text g c

def plainText (inFlow : Bool) (indent : Int) (c : Cursor) : Option (List Char × Bool × Cursor) :=
  readPlain inFlow indent (c.rest.length + 1) [] .empty c

def hexCode? (digits : List Char) (width : Nat) : Option Char := do
  if digits.length < width then none
  else
    let n ← natural? 16 digits
    if (0xD800 ≤ n && n ≤ 0xDFFF) || 0x10FFFF < n then none else some (Char.ofNat n)

def letterEscapes : List (Char × Nat) :=
  [('0', 0), ('a', 7), ('b', 8), ('t', 9), ('\t', 9), ('n', 0xA), ('v', 0xB), ('f', 0xC),
   ('r', 0xD), ('e', 0x1B), (' ', 0x20), ('"', 0x22), ('/', 0x2F), ('\\', 0x5C), ('N', 0x85),
   ('_', 0xA0), ('L', 0x2028), ('P', 0x2029)]

def codeWidth? (c : Char) : Option Nat :=
  if c = 'x' then some 2 else if c = 'u' then some 4 else if c = 'U' then some 8 else none

/-- The character of an escape, and how long the escape is. -/
def escape? : List Char → Option (Char × Nat)
  | [] => none
  | c :: rest =>
    match letterEscapes.lookup c with
    | some n => some (Char.ofNat n, 2)
    | none => do
      let width ← codeWidth? c
      return (← hexCode? (rest.take width) width, width + 2)

/-- A run of a quoted scalar up to a quote, a gap or an escaped break. -/
inductive RunEnd where
  | closed
  | gap
  | escapedBreak

/-- The text of a run, what ends it, and how many characters it takes. -/
abbrev Run := List Char × RunEnd × Nat

def Run.cons (x : Char) (taken : Nat) (r : Run) : Run := (x :: r.1, r.2.1, r.2.2 + taken)

def singleRun : List Char → Run
  | [] => ([], .gap, 0)
  | '\'' :: '\'' :: rest => (singleRun rest).cons '\'' 2
  | x :: rest =>
    if x = '\'' then ([], .closed, 1)
    else if isBlank x || isBreak x then ([], .gap, 0)
    else (singleRun rest).cons x 1

def doubleRun : Nat → List Char → Option Run
  | 0, _ => some ([], .gap, 0)
  | _, [] => some ([], .gap, 0)
  | fuel + 1, x :: rest =>
    if x = '"' then some ([], .closed, 1)
    else if x = '\\' then
      if rest.head?.any isBreak then some ([], .escapedBreak, 1)
      else do
        let (y, length) ← escape? rest
        return (← doubleRun fuel (rest.drop (length - 1))).cons y length
    else if isBlank x || isBreak x then some ([], .gap, 0)
    else do return (← doubleRun fuel rest).cons x 1

def quotedRun (single : Bool) (cs : List Char) : Option Run :=
  if single then some (singleRun cs) else doubleRun cs.length cs

/-- The rest of a quoted scalar. An escaped break leaves nothing of itself. -/
def readQuoted (single : Bool) : Nat → List Char → Cursor → Option (List Char × Cursor)
  | 0, _, _ => none
  | fuel + 1, text, c =>
    if c.atMarker || c.rest.isEmpty then none
    else do
      let (run, reached, taken) ← quotedRun single c.rest
      let text := text ++ run
      let c := c.drop taken
      match reached with
      | .closed => some (text, c)
      | .gap =>
        let (g, c) ← gapFrom none .empty c
        readQuoted single fuel (text ++ g.text) c
      | .escapedBreak =>
        let c := c.nextLine
        if c.rest.head? == some '"' then some (text, c.drop 1)
        else
          let (g, c) ← gapFrom none { Gap.empty with first := some [] } c
          readQuoted single fuel (text ++ g.text) c

def quotedText (single : Bool) (c : Cursor) : Option (List Char × Cursor) :=
  readQuoted single (c.rest.length + 1) [] (c.drop 1)

/-- How the header of a block scalar treats the breaks at the end of the text. -/
inductive Chomping where
  | strip
  | clip
  | keep
  deriving DecidableEq

def chompingOf? (c : Char) : Option Chomping :=
  if c = '-' then some .strip else if c = '+' then some .keep else none

def isIncrement (c : Char) : Bool := '1' ≤ c && c ≤ '9'

/-- The chomping and the extra indentation of a header, in either order. -/
def readHeader (c : Cursor) : Option (Chomping × Nat × Cursor) :=
  let digit (c : Cursor) : Option (Nat × Cursor) :=
    match c.rest with
    | x :: _ =>
      if isIncrement x then some (digitValue x, c.drop 1) else if x = '0' then none
      else some (0, c)
    | [] => some (0, c)
  match c.rest.head?.bind chompingOf? with
  | some chomping => do
    let (increment, c) ← digit (c.drop 1)
    return (chomping, increment, c)
  | none => do
    let (increment, c) ← digit c
    match if increment = 0 then none else c.rest.head?.bind chompingOf? with
    | some chomping => return (chomping, increment, c.drop 1)
    | none => return (.clip, increment, c)

/-- Breaks and indentation before a line of a block. Without a limit the widest indentation is
found out. -/
def readBreaks (limit : Option Nat) :
    Nat → List Char → Nat → Cursor → Option (List Char × Nat × Cursor)
  | 0, breaks, widest, c => some (breaks, widest, c)
  | fuel + 1, breaks, widest, c =>
    let spaces := (c.rest.takeWhile isSpace).length
    let c := c.drop (match limit with
      | some n => min spaces (n - c.column)
      | none => spaces)
    let widest := max widest c.column
    if c.rest.head? == some '\t' && limit.all (c.column < ·) then none
    else if c.atBreak then
      readBreaks limit fuel (breaks ++ breakText c.rest) widest c.nextLine
    else some (breaks, widest, c)

structure BlockText where
  text : List Char
  lastBreak : List Char
  breaks : List Char
  afterBlank : Bool

/-- Joins what stands before a line with the text so far. -/
def BlockText.join (literal atBlank : Bool) (b : BlockText) : List Char :=
  if !literal && b.lastBreak == ['\n'] && !b.afterBlank && !atBlank then
    b.text ++ (if b.breaks.isEmpty then [' '] else []) ++ b.breaks
  else b.text ++ b.lastBreak ++ b.breaks

def readBlock (literal : Bool) (indent : Nat) : Nat → BlockText → Cursor → Option (BlockText × Cursor)
  | 0, b, c => some (b, c)
  | fuel + 1, b, c =>
    if c.column = indent && !c.rest.isEmpty then do
      let atBlank := c.rest.head?.any isBlank
      let (line, c) := c.span fun x => !isBreak x
      let lastBreak := breakText c.rest
      let (breaks, _, next) ← readBreaks (some indent) (c.rest.length + 1) [] 0 c.nextLine
      readBlock literal indent fuel ⟨b.join literal atBlank ++ line, lastBreak, breaks, atBlank⟩ next
    else some (b, c)

def BlockText.chomped (chomping : Chomping) (b : BlockText) : List Char :=
  match chomping with
  | .strip => b.text
  | .clip => b.text ++ b.lastBreak
  | .keep => b.text ++ b.lastBreak ++ b.breaks

/-- The text of a block scalar below a block of the given indentation. -/
def blockText (literal : Bool) (indent : Int) (c : Cursor) : Option (List Char × Cursor) := do
  let (chomping, increment, c) ← readHeader (c.drop 1)
  let c := c.skip isBlank
  let c := if c.rest.head? == some '#' then c.skip fun x => !isBreak x else c
  if !c.atLineEnd then none
  else
    let c := if c.atBreak then c.nextLine else c
    let above := if 0 ≤ indent then indent.toNat else 0
    let limit := if increment = 0 then none else some (above + increment)
    let (breaks, widest, c) ← readBreaks limit (c.rest.length + 1) [] 0 c
    let found := limit.getD (max widest (max (indent + 1).toNat 1))
    let (b, c) ← readBlock literal found (c.rest.length + 1) ⟨[], [], breaks, false⟩ c
    return (b.chomped chomping, c)

end Transplant.Yaml
