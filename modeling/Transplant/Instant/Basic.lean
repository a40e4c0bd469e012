/-! Instants of universal time, and the civil calendar. -/
namespace Transplant

structure Date where
  year : Int
  month : Nat
  day : Nat
  deriving DecidableEq, Repr

namespace Date

def isLeap (year : Int) : Bool :=
  year % 4 == 0 && (year % 100 != 0 || year % 400 == 0)

def monthLength (year : Int) (month : Nat) : Nat :=
  if month = 2 then if isLeap year then 29 else 28
  else if month = 4 || month = 6 || month = 9 || month = 11 then 30
  else 31

def isValid (d : Date) : Bool :=
  1 ≤ d.month && d.month ≤ 12 && 1 ≤ d.day && d.day ≤ monthLength d.year d.month

/-- Days from the first of March of year zero to a date; years start with March. -/
def marchDays (d : Date) : Int :=
  let year := if d.month ≤ 2 then d.year - 1 else d.year
  let month := (d.month + 9) % 12
  365 * year + year / 4 - year / 100 + year / 400 + Int.ofNat ((153 * month + 2) / 5 + d.day - 1)

def epochMarchDays : Int := 719468

def toDays (d : Date) : Int := d.marchDays - epochMarchDays

def ofDays (days : Int) : Date :=
  let z := days + epochMarchDays
  let era := z / 146097
  let dayOfEra := (z % 146097).toNat
  let yearOfEra :=
    (dayOfEra - dayOfEra / 1460 + dayOfEra / 36524 - dayOfEra / 146096) / 365
  let dayOfYear := dayOfEra - (365 * yearOfEra + yearOfEra / 4 - yearOfEra / 100)
  let marchMonth := (5 * dayOfYear + 2) / 153
  let day := dayOfYear - (153 * marchMonth + 2) / 5 + 1
  let month := if marchMonth < 10 then marchMonth + 3 else marchMonth - 9
  let year := Int.ofNat yearOfEra + era * 400
  ⟨if month ≤ 2 then year + 1 else year, month, day⟩

end Date

/-- A second of a day since 1970, and nanoseconds in it; from a thousand million on they stand in a
leap second after it. -/
structure Instant where
  day : Int
  second : Nat
  nano : Nat
  deriving DecidableEq, Repr

namespace Instant

def epoch : Instant := ⟨0, 0, 0⟩

def nanosPerSecond : Nat := 1000000000

def secondsPerDay : Nat := 86400

def date (t : Instant) : Date := .ofDays t.day

def hour (t : Instant) : Nat := t.second / 3600

def minute (t : Instant) : Nat := t.second / 60 % 60

/-- The second of the minute, which is 60 in a leap second. -/
def secondOfMinute (t : Instant) : Nat := t.second % 60 + t.nano / nanosPerSecond

def fraction (t : Instant) : Nat := t.nano % nanosPerSecond

/-- The instant some seconds after a time of a day. -/
def ofSeconds (day : Int) (second : Int) (nano : Nat) : Instant :=
  ⟨day + second / secondsPerDay, (second % secondsPerDay).toNat, nano⟩

end Instant

end Transplant
