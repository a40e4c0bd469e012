import Transplant.Text.CaseTables

/-! Upper and lower case of a text. One character may become several, and a capital sigma at the
end of a word takes its final form. -/
namespace Transplant.Text

def Shift.image? (n : Nat) (s : Shift) : Option Char :=
  if s.first ≤ n && n ≤ s.last && (n - s.first) % s.step == 0 then
    some (Char.ofNat (Int.ofNat n + s.offset).toNat)
  else none

def mapCase (expansions : List (Nat × List Nat)) (shifts : List Shift) (c : Char) : List Char :=
  match expansions.lookup c.toNat with
  | some codes => codes.map Char.ofNat
  | none => [(shifts.findSome? (Shift.image? c.toNat)).getD c]

def upperChar (c : Char) : List Char :=
  if c.toNat < 0x80 then [c.toUpper] else mapCase upperExpansions upperShifts c

def lowerChar (c : Char) : List Char :=
  if c.toNat < 0x80 then [c.toLower] else mapCase lowerExpansions lowerShifts c

def upper (cs : List Char) : List Char := cs.flatMap upperChar

/-- The nearest character that case rules do not look through is a cased one. -/
def meetsCased (cs : List Char) : Bool :=
  match cs.dropWhile caseIgnorableRanges.has with
  | c :: _ => casedRanges.has c
  | [] => false

/-- Lower case of a text that stands after `before`, given in reverse. -/
def lowerAfter (before : List Char) : List Char → List Char
  | [] => []
  | c :: cs =>
    let image :=
      if c = 'Σ' then
        if meetsCased before && !meetsCased cs then ['ς'] else ['σ']
      else lowerChar c
    image ++ lowerAfter (c :: before) cs

def lower (cs : List Char) : List Char := lowerAfter [] cs

end Transplant.Text
