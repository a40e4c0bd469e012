import Transplant.Instant.Basic

/-! Texts of instants. -/
namespace Transplant

def padded (width n : Nat) : String :=
  let digits := Nat.toDigits 10 n
  .ofList (List.replicate (width - digits.length) '0' ++ digits)

/-- Four digits; years that need more have a sign. -/
def Date.yearText (year : Int) : String :=
  if 0 ≤ year && year ≤ 9999 then padded 4 year.toNat
  else (if year < 0 then "-" else "+") ++ padded 4 year.natAbs

namespace Instant

/-- No fraction, or three, six or nine digits. -/
def fractionText (nano : Nat) : String :=
  if nano = 0 then ""
  else if nano % 1000000 = 0 then "." ++ padded 3 (nano / 1000000)
  else if nano % 1000 = 0 then "." ++ padded 6 (nano / 1000)
  else "." ++ padded 9 nano

def bare (t : Instant) : String :=
  let d := t.date
  Date.yearText d.year ++ "-" ++ padded 2 d.month ++ "-" ++ padded 2 d.day ++ "T" ++
    padded 2 t.hour ++ ":" ++ padded 2 t.minute ++ ":" ++ padded 2 t.secondOfMinute ++
    fractionText t.fraction

def withZulu (t : Instant) : String := t.bare ++ "Z"

def withOffset (t : Instant) : String := t.bare ++ "+00:00"

/-- Date and time as plain digits, for the name of a run. -/
def runName (t : Instant) : String :=
  let d := t.date
  Date.yearText d.year ++ padded 2 d.month ++ padded 2 d.day ++ "_" ++
    padded 2 t.hour ++ padded 2 t.minute ++ padded 2 t.secondOfMinute

/-- Date and time without colons, for the name of a session. -/
def sessionName (t : Instant) : String :=
  let d := t.date
  Date.yearText d.year ++ "-" ++ padded 2 d.month ++ "-" ++ padded 2 d.day ++ "T" ++
    padded 2 t.hour ++ "-" ++ padded 2 t.minute ++ "-" ++ padded 2 t.secondOfMinute

end Instant

end Transplant
