import Transplant.Decimal.Binary

/-! The shortest decimal of a binary number: the fewest digits that round to it, and of those the
nearest. -/
namespace Transplant.Decimal

/-- The digits, without zeros at the end, of a number `0.digits * 10 ^ point`. -/
structure Digits where
  digits : List Char
  point : Int
  deriving DecidableEq, Repr

/-- The reals that round to a number lie between `low` and `high` quarters of its last bit, the ends
included for an even significand. -/
structure Interval where
  low : Nat
  high : Nat
  closed : Bool

def interval (f : Format) (x : Binary) : Interval :=
  let atPower := x.significand == pow2 (f.precision - 1) && f.lowest < x.exponent
  ⟨4 * x.significand - (if atPower then 1 else 2), 4 * x.significand + 2, x.significand % 2 == 0⟩

def Interval.holds (i : Interval) (num den : Nat) : Bool :=
  if i.closed then i.low * den ≤ num && num ≤ i.high * den
  else i.low * den < num && num < i.high * den

/-- The point of a positive quotient: `10 ^ (p - 1) ≤ num / den < 10 ^ p`, sought from below. -/
def pointFrom : Nat → Int → Nat → Nat → Int
  | 0, p, _, _ => p
  | fuel + 1, p, num, den =>
    let below := if 0 ≤ p then num < den * pow10 p.toNat else num * pow10 (-p).toNat < den
    if below then p else pointFrom fuel (p + 1) num den

def pointOf (num den : Nat) : Int :=
  let bits := Int.ofNat num.log2 - Int.ofNat den.log2
  pointFrom 5 (Int.fdiv (bits * 30103) 100000 - 1) num den

/-- The multiple of `10 ^ unit` that rounds to `x`, if one of its two neighbours there does. -/
def onGrid? (f : Format) (x : Binary) (unit : Int) : Option Nat :=
  let (num, den) := x.ratio
  let up := pow10 unit.toNat
  let down := pow10 (-unit).toNat
  let below := num * down / (den * up)
  let above := below + 1
  let quarters (n : Nat) : Nat × Nat :=
    let num := 4 * n * up
    if 0 ≤ x.exponent then (num, down * pow2 x.exponent.toNat)
    else (num * pow2 (-x.exponent).toNat, down)
  let i := interval f x
  let hitBelow := i.holds (quarters below).1 (quarters below).2
  let hitAbove := i.holds (quarters above).1 (quarters above).2
  let nearBelow := 2 * num * down ≤ (below + above) * den * up
  match hitBelow, hitAbove with
  | true, true => some (if nearBelow then below else above)
  | true, false => some below
  | false, true => some above
  | false, false => none

def shortestFrom (f : Format) (x : Binary) (point : Int) : Nat → Nat → Nat × Int
  | 0, count => ((onGrid? f x (point - count)).getD 0, point - count)
  | fuel + 1, count =>
    match onGrid? f x (point - count) with
    | some n => (n, point - count)
    | none => shortestFrom f x point fuel (count + 1)

def withoutTrailingZeros (digits : List Char) : List Char :=
  (digits.reverse.dropWhile (· = '0')).reverse

def shortest (f : Format) (x : Binary) : Digits :=
  let (n, unit) := shortestFrom f x (pointOf x.ratio.1 x.ratio.2) 20 1
  let digits := Nat.toDigits 10 n
  ⟨withoutTrailingZeros digits, Int.ofNat digits.length + unit⟩

/-- How decimals are laid out: at which points without an exponent, and what marks a whole
number. -/
structure Layout where
  isPositional : Int → Bool
  wholeMark : List Char

def zeros (n : Nat) : List Char := List.replicate n '0'

def Layout.write (l : Layout) (d : Digits) : List Char :=
  let count := Int.ofNat d.digits.length
  if l.isPositional d.point then
    if d.point ≤ 0 then ['0', '.'] ++ zeros (-d.point).toNat ++ d.digits
    else if count ≤ d.point then d.digits ++ zeros (d.point - count).toNat ++ l.wholeMark
    else d.digits.take d.point.toNat ++ ['.'] ++ d.digits.drop d.point.toNat
  else
    let mantissa :=
      match d.digits with
      | first :: second :: more => first :: '.' :: second :: more
      | few => few
    mantissa ++ ['e'] ++ (toString (d.point - 1)).toList

def Layout.render (l : Layout) (f : Format) (x : Binary) : String :=
  let sign := if x.negative then ['-'] else []
  let body := if x.isZero then '0' :: l.wholeMark else l.write (shortest f x)
  .ofList (sign ++ body)

/-- Without an exponent at all sizes. -/
def plain : Layout := ⟨fun _ => true, []⟩

/-- Without an exponent from `0.00001` to below `10 ^ 16`, and always told from a whole number. -/
def compact : Layout := ⟨fun p => -5 < p && p ≤ 16, ['.', '0']⟩

end Transplant.Decimal
