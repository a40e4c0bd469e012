import Transplant.Decimal.Binary

/-! What a plain scalar stands for: null, a truth value, a whole number, a fraction, or the text
itself. -/
namespace Transplant.Yaml

open Decimal

inductive Meaning where
  | null
  | bool (value : Bool)
  | int (value : Int)
  | real (value : Binary)
  | notFinite
  | text
  deriving DecidableEq, Repr

def nullWords : List String := ["", "null", "Null", "NULL", "~"]

def trueWords : List String := ["true", "True", "TRUE"]

def falseWords : List String := ["false", "False", "FALSE"]

def infinityWords : List String := [".inf", ".Inf", ".INF"]

def nanWords : List String := [".nan", ".NaN", ".NAN"]

def isSign (c : Char) : Bool := c = '+' || c = '-'

def withoutSign : List Char → List Char
  | c :: cs => if isSign c then cs else c :: cs
  | [] => []

def withoutPlus : List Char → List Char
  | '+' :: cs => cs
  | cs => cs

/-- Digits with a needless zero in front are no number. -/
def hasNeedlessZero (cs : List Char) : Bool :=
  match withoutSign cs with
  | '0' :: c :: more => (c :: more).all Char.isDigit
  | _ => false

def digitValue (c : Char) : Nat :=
  if c.isDigit then c.toNat - '0'.toNat
  else if 'a' ≤ c && c ≤ 'z' then c.toNat - 'a'.toNat + 10
  else if 'A' ≤ c && c ≤ 'Z' then c.toNat - 'A'.toNat + 10
  else 36

def natural? (radix : Nat) (cs : List Char) : Option Nat :=
  if cs.isEmpty || !cs.all (fun c => digitValue c < radix) then none
  else some (cs.foldl (fun n c => n * radix + digitValue c) 0)

/-- A natural number in decimal, or with the mark of another radix. -/
def magnitude? : List Char → Option Nat
  | '0' :: 'x' :: cs => natural? 16 cs
  | '0' :: 'o' :: cs => natural? 8 cs
  | '0' :: 'b' :: cs => natural? 2 cs
  | cs => if hasNeedlessZero cs then none else natural? 10 cs

def int? (cs : List Char) : Option Int :=
  match cs with
  | '-' :: rest => (magnitude? rest).map fun n => -(Int.ofNat n)
  | cs => (magnitude? (withoutPlus cs)).map Int.ofNat

/-- Whole numbers have at most 128 bits, the sign included for negative ones. -/
def fits (n : Int) : Bool := -(Int.ofNat (pow2 127)) ≤ n && n < Int.ofNat (pow2 128)

structure Decimal where
  digits : List Char
  exponent : Int

def readMantissa? (cs : List Char) : Option (Decimal × List Char) :=
  let whole := cs.takeWhile Char.isDigit
  let rest := cs.dropWhile Char.isDigit
  let (fraction, rest) :=
    match rest with
    | '.' :: more => (more.takeWhile Char.isDigit, more.dropWhile Char.isDigit)
    | _ => ([], rest)
  if whole.isEmpty && fraction.isEmpty then none
  else some (⟨whole ++ fraction, -(Int.ofNat fraction.length)⟩, rest)

def readExponent? : List Char → Option Int
  | [] => some 0
  | c :: cs =>
    if c = 'e' || c = 'E' then
      match cs with
      | '-' :: digits => (natural? 10 digits).map fun n => -(Int.ofNat n)
      | digits => (natural? 10 (withoutPlus digits)).map Int.ofNat
    else none

def unsignedReal? (negative : Bool) (cs : List Char) : Option Binary := do
  let (d, rest) ← readMantissa? cs
  let e ← readExponent? rest
  Binary.ofDecimal? double negative ((natural? 10 d.digits).getD 0) (d.exponent + e)

def real? : List Char → Option Binary
  | '-' :: cs => unsignedReal? true cs
  | cs => unsignedReal? false (withoutPlus cs)

def isNotFinite (cs : List Char) : Bool :=
  let word := String.ofList cs
  infinityWords.contains (.ofList (withoutSign cs)) || nanWords.contains word

def meaning (cs : List Char) : Meaning :=
  let word := String.ofList cs
  if nullWords.contains word then .null
  else if trueWords.contains word then .bool true
  else if falseWords.contains word then .bool false
  else
    match (int? cs).filter fits with
    | some n => .int n
    | none =>
      if hasNeedlessZero cs then .text
      else if isNotFinite cs then .notFinite
      else
        match real? cs with
        | some x => .real x
        | none => .text

end Transplant.Yaml
