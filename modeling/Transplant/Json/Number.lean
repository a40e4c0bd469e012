import Transplant.Decimal.Shortest

/-! Numbers of JSON: whole numbers of 64 bits, and binary fractions for all others. -/
namespace Transplant.Json

open Decimal

inductive Number where
  | int (value : Int)
  | real (value : Binary)
  deriving DecidableEq, Repr

/-- A number as written: the digits of its whole and fractional parts, and its exponent. -/
structure Literal where
  negative : Bool
  whole : List Nat
  fraction : List Nat
  exponent : Option Int

namespace Number

/-- Whole numbers and fractions are never equal. -/
def agrees : Number → Number → Bool
  | int a, int b => a == b
  | real a, real b => a.agrees b
  | _, _ => false

def render : Number → String
  | int n => toString n
  | real x => compact.render double x

def wordLimit : Nat := pow2 64

/-- Digits are taken up while the number fits a word of 64 bits; the digits left over count. -/
def takeDigits (significand : Nat) : List Nat → Nat × Nat
  | [] => (significand, 0)
  | d :: ds =>
    if significand * 10 + d < wordLimit then takeDigits (significand * 10 + d) ds
    else (significand, ds.length + 1)

/-- Multiplies or divides by a power of ten, with at most `10 ^ 308` in one step. -/
def scaleTen? : Nat → Binary → Int → Option Binary
  | 0, x, _ => some x
  | fuel + 1, x, e =>
    if e.natAbs ≤ 308 then do
      let ten ← Binary.ofNat? double (pow10 e.natAbs)
      if 0 ≤ e then x.mul? double ten else x.div? double ten
    else if x.isZero then some x
    else if 0 ≤ e then none
    else do
      let ten ← Binary.ofNat? double (pow10 308)
      scaleTen? fuel (← x.div? double ten) (e + 308)

def realOf? (negative : Bool) (significand : Nat) (exponent : Int) : Option Number := do
  let x ← Binary.ofNat? double significand
  let y ← scaleTen? 5 x exponent
  return real { y with negative }

/-- The value of a literal: a whole number if it is written as one and fits 64 bits. -/
def ofLiteral? (l : Literal) : Option Number :=
  let (wholePart, wholeLeft) := takeDigits 0 l.whole
  let (significand, fractionLeft) := takeDigits wholePart l.fraction
  let taken := Int.ofNat l.fraction.length - Int.ofNat fractionLeft
  if l.fraction.isEmpty && l.exponent.isNone && wholeLeft = 0 then
    if !l.negative then some (int significand)
    else if significand = 0 then some (real (.zero true))
    else if significand ≤ pow2 63 then some (int (-significand))
    else realOf? true significand 0
  else realOf? l.negative significand (Int.ofNat wholeLeft - taken + l.exponent.getD 0)

end Number

end Transplant.Json
