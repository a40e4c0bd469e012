import Transplant.Decimal.Binary
import Transplant.Instant.Basic
import Transplant.Text.Pattern

/-! Instants read from text: a date and a time of day with a time zone. Fields need not be padded
and blanks may stand between them. -/
namespace Transplant.Instant

open Text Text.Pattern

def natural (digits : List Char) : Nat :=
  digits.foldl (fun n c => n * 10 + (c.toNat - '0'.toNat)) 0

/-- Digits, at most as many as the width says. -/
def number (width : Nat) : Pattern Nat := fun cs =>
  match (cs.take width).takeWhile Char.isDigit with
  | [] => none
  | digits => some (natural digits, cs.drop digits.length)

def allDigits : Pattern Nat := do
  let digits ← run1 Char.isDigit
  return natural digits

def field (width : Nat) : Pattern Nat := do
  blanks
  number width

/-- A year of more than four digits has a sign. -/
def year : Pattern Int := do
  blanks
  oneOf
    [do literal "-"; let n ← allDigits; return -(Int.ofNat n),
     do literal "+"; let n ← allDigits; return Int.ofNat n,
     do let n ← number 4; return Int.ofNat n]

def mark (s : String) : Pattern Unit := do
  blanks
  literal s

def separator : Pattern Unit := do
  let _ ← one fun c => c = 'T' || c = 't' || c = ' '

/-- Nine digits of a fraction count. -/
def nanos : Pattern Nat := do
  let digits ← run1 Char.isDigit
  let kept := digits.take 9
  return natural kept * pow10 (9 - kept.length)

def fractionPart : Pattern Nat := do
  let part ← maybe (literal ".")
  if part.isSome then nanos else return 0

def utcName : Pattern Int := fun cs =>
  if (cs.take 3).map Char.toUpper = ['U', 'T', 'C'] then some (0, cs.drop 3) else none

def zulu : Pattern Int := do
  let _ ← one fun c => c = 'Z' || c = 'z'
  return 0

def sign : Pattern Int := do
  let c ← one fun c => c = '+' || c = '-' || c = '−'
  return if c = '+' then 1 else -1

def twoDigits : Pattern Nat := do
  let a ← one Char.isDigit
  let b ← one Char.isDigit
  return natural [a, b]

/-- An offset from universal time, in seconds. -/
def signedOffset : Pattern Int := do
  let s ← sign
  let hours ← twoDigits
  let _ ← run fun c => c = ':' || isBlank c
  let minutes ← twoDigits
  if minutes < 60 then return s * Int.ofNat (hours * 3600 + minutes * 60)
  else failure

def offset : Pattern Int := oneOf [utcName, zulu, signedOffset]

def yearLimit : Nat := 262142

/-- The instant of civil fields, if all of them are in range. -/
def ofFields? (date : Date) (hour minute second nano : Nat) (offset : Int) : Option Instant :=
  if date.isValid && date.year.natAbs ≤ yearLimit && hour ≤ 23 && minute ≤ 59 && second ≤ 60 &&
      offset.natAbs < secondsPerDay then
    let (second, nano) := if second = 60 then (59, nano + nanosPerSecond) else (second, nano)
    some (ofSeconds date.toDays (Int.ofNat (hour * 3600 + minute * 60 + second) - offset) nano)
  else none

def civil : Pattern Instant := do
  let y ← year
  mark "-"
  let month ← field 2
  mark "-"
  let day ← field 2
  separator
  let hour ← field 2
  mark ":"
  let minute ← field 2
  mark ":"
  let second ← field 2
  let nano ← fractionPart
  blanks
  let offset ← offset
  blanks
  atEnd
  fun cs => (ofFields? ⟨y, month, day⟩ hour minute second nano offset).map (·, cs)

def ofText? (text : String) : Option Instant := (civil text.toList).map Prod.fst

end Transplant.Instant
