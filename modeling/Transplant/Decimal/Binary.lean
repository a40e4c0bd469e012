
/-! Finite binary numbers in a format of fixed precision, and the rounding of quotients to them,
where a half goes to the even neighbour. -/
namespace Transplant

def pow2 (n : Nat) : Nat := Nat.pow 2 n

def pow10 (n : Nat) : Nat := Nat.pow 10 n

namespace Decimal

/-- A format keeps `precision` bits; its last bits weigh from `2 ^ lowest` to `2 ^ highest`. -/
structure Format where
  precision : Nat
  lowest : Int
  highest : Int
  deriving DecidableEq

def single : Format := ⟨24, -149, 104⟩

def double : Format := ⟨53, -1074, 971⟩

/-- The number `± significand * 2 ^ exponent`. -/
structure Binary where
  negative : Bool
  significand : Nat
  exponent : Int
  deriving DecidableEq, Repr

namespace Binary

def zero (negative : Bool) : Binary := ⟨negative, 0, 0⟩

def isZero (x : Binary) : Bool := x.significand == 0

/-- The two zeros are equal. -/
def agrees (x y : Binary) : Bool := (x.isZero && y.isZero) || x == y

end Binary

def roundHalfEven (num den : Nat) : Nat :=
  let q := num / den
  let r := num % den
  if den < 2 * r || (2 * r == den && q % 2 == 1) then q + 1 else q

/-- The quotient `num / (den * 2 ^ e)` as a quotient of naturals. -/
def scaled (num den : Nat) (e : Int) : Nat × Nat :=
  if 0 ≤ e then (num, den * pow2 e.toNat) else (num * pow2 (-e).toNat, den)

/-- The exponent at which the quotient has exactly the bits of the format. -/
def quotientExponent (f : Format) (num den : Nat) : Int :=
  let e := Int.ofNat num.log2 - Int.ofNat den.log2
  let (n, d) := scaled num den e
  let full := if d ≤ n then e + 1 else e
  max (full - f.precision) f.lowest

/-- The nearest number of the format, unless it is too large. -/
def Format.round? (f : Format) (negative : Bool) (num den : Nat) : Option Binary :=
  if num = 0 then some (.zero negative)
  else
    let e := quotientExponent f num den
    let (n, d) := scaled num den e
    let m := roundHalfEven n d
    let (m, e) := if m = pow2 f.precision then (pow2 (f.precision - 1), e + 1) else (m, e)
    if m = 0 then some (.zero negative)
    else if f.highest < e then none
    else some ⟨negative, m, e⟩

namespace Binary

def ratio (x : Binary) : Nat × Nat :=
  if 0 ≤ x.exponent then (x.significand * pow2 x.exponent.toNat, 1)
  else (x.significand, pow2 (-x.exponent).toNat)

def ofNat? (f : Format) (n : Nat) : Option Binary := f.round? false n 1

def mul? (f : Format) (x y : Binary) : Option Binary :=
  f.round? (x.negative != y.negative) (x.ratio.1 * y.ratio.1) (x.ratio.2 * y.ratio.2)

def div? (f : Format) (x y : Binary) : Option Binary :=
  f.round? (x.negative != y.negative) (x.ratio.1 * y.ratio.2) (x.ratio.2 * y.ratio.1)

/-- The same number in another format. -/
def convert? (f : Format) (x : Binary) : Option Binary := f.round? x.negative x.ratio.1 x.ratio.2

/-- The nearest number to `digits * 10 ^ exponent`. An exponent beyond all numbers of the format
is cut first. -/
def ofDecimal? (f : Format) (negative : Bool) (digits : Nat) (exponent : Int) : Option Binary :=
  let size := Int.ofNat (Nat.log2 digits)
  if digits = 0 then some (.zero negative)
  else if f.highest + f.precision < exponent * 3 then none
  else if exponent * 3 + size < 2 * f.lowest then some (.zero negative)
  else if 0 ≤ exponent then f.round? negative (digits * pow10 exponent.toNat) 1
  else f.round? negative digits (pow10 (-exponent).toNat)

end Binary

end Decimal

end Transplant
