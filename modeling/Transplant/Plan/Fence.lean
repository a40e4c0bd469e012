import Transplant.Text.Characters

/-! Code fences around a text: lines of three backticks with a word of letters, and three backticks
at the end of any line. -/
namespace Transplant.Plan.Fence

open Text

def isTick (c : Char) : Bool := c.toNat = 0x60

def afterTicks? : List Char → Option (List Char)
  | a :: b :: c :: rest => if isTick a && isTick b && isTick c then some rest else none
  | _ => none

def atLineEnd : List Char → Bool
  | [] => true
  | c :: _ => c = '\n'

/-- After the ticks of a fence on a line of its own: letters, blanks and tabs up to its end. -/
def lineRest? (cs : List Char) : Option (List Char) :=
  let rest := (cs.dropWhile Char.isAlpha).dropWhile fun c => c = ' ' || c = '\t'
  if atLineEnd rest then some rest else none

/-- After the longest run of blanks that ends at the end of a line. -/
def blankRest? : List Char → Option (List Char)
  | [] => some []
  | c :: cs =>
    let longer := if isBlank c then blankRest? cs else none
    longer.or (if c = '\n' then some (c :: cs) else none)

def rest? (lineStart : Bool) (cs : List Char) : Option (List Char) := do
  let inner ← afterTicks? cs
  (if lineStart then lineRest? inner else none).or (blankRest? inner)

/-- Drops the fences of a text of which `skip` characters are already dropped. -/
def dropFrom : Bool → Nat → List Char → List Char
  | _, _, [] => []
  | _, skip + 1, c :: cs => dropFrom (c = '\n') skip cs
  | lineStart, 0, c :: cs =>
    match rest? lineStart (c :: cs) with
    | some rest => dropFrom (c = '\n') (cs.length - rest.length) cs
    | none => c :: dropFrom (c = '\n') 0 cs

def strip (text : String) : String :=
  .ofList (trim (dropFrom true 0 (trim text.toList)))

end Transplant.Plan.Fence
