/-! Points in time, in coordinated universal time and to the nanosecond. A leap second is the second
before it with a nanosecond count of a thousand million or more. A point lies in the range of the
calendar when its year is one that the calendar counts. -/

namespace KeySteward

/-- A date of the Gregorian calendar, extended to all years; the year before 1 is 0. -/
structure Date where
  year : Int
  month : Nat
  day : Nat
  deriving DecidableEq

namespace Date

/-- The years that the calendar counts. -/
def leastYear : Int := -262143

def greatestYear : Int := 262142

def isLeapYear (year : Int) : Bool :=
  year % 4 == 0 && (year % 100 != 0 || year % 400 == 0)

def daysInMonth (year : Int) (month : Nat) : Nat :=
  if month = 2 then if isLeapYear year then 29 else 28
  else if month ∈ [4, 6, 9, 11] then 30
  else 31

/-- A date that exists, in a year that the calendar counts. -/
def isValid (date : Date) : Bool :=
  leastYear ≤ date.year && date.year ≤ greatestYear && 1 ≤ date.month && date.month ≤ 12 &&
    1 ≤ date.day && date.day ≤ daysInMonth date.year date.month

/-- Days since 1 January 1970. Years are counted from March, so that a leap day ends its year. -/
def toDays (date : Date) : Int :=
  let year := if date.month ≤ 2 then date.year - 1 else date.year
  let month : Int := if date.month ≤ 2 then date.month + 9 else date.month - 3
  let era := year.fdiv 400
  let yearOfEra := year - 400 * era
  let dayOfYear := (153 * month + 2) / 5 + date.day - 1
  146097 * era + (365 * yearOfEra + yearOfEra / 4 - yearOfEra / 100 + dayOfYear) - 719468

/-- The date a number of days after 1 January 1970. -/
def ofDays (days : Int) : Date :=
  let shifted := days + 719468
  let era := shifted.fdiv 146097
  let dayOfEra := shifted - 146097 * era
  let yearOfEra := (dayOfEra - dayOfEra / 1460 + dayOfEra / 36524 - dayOfEra / 146096) / 365
  let dayOfYear := dayOfEra - (365 * yearOfEra + yearOfEra / 4 - yearOfEra / 100)
  let month := (5 * dayOfYear + 2) / 153
  let day := dayOfYear - (153 * month + 2) / 5 + 1
  let year := yearOfEra + 400 * era
  if month < 10 then ⟨year, (month + 3).toNat, day.toNat⟩
  else ⟨year + 1, (month - 9).toNat, day.toNat⟩

end Date

structure Timestamp where
  seconds : Int
  nanos : Nat
  deriving DecidableEq

namespace Timestamp

instance : Inhabited Timestamp := ⟨⟨0, 0⟩⟩

def secondsPerDay : Int := 86400

/-- The first and the last second of the calendar. -/
def leastSecond : Int := secondsPerDay * Date.toDays ⟨Date.leastYear, 1, 1⟩

def greatestSecond : Int := secondsPerDay * Date.toDays ⟨Date.greatestYear, 12, 31⟩ + 86399

def InRange (time : Timestamp) : Prop :=
  leastSecond ≤ time.seconds ∧ time.seconds ≤ greatestSecond

instance (time : Timestamp) : Decidable time.InRange :=
  inferInstanceAs (Decidable (_ ∧ _))

def inRange? (time : Timestamp) : Option Timestamp :=
  if time.InRange then some time else none

/-- The point a number of milliseconds after the start of 1970, if the calendar reaches it. -/
def ofMillis? (millis : Int) : Option Timestamp :=
  inRange? ⟨millis.fdiv 1000, ((millis.fmod 1000) * 1000000).toNat⟩

/-- Milliseconds since the start of 1970, rounded down. -/
def toMillis (time : Timestamp) : Int :=
  1000 * time.seconds + (time.nanos / 1000000 : Nat)

/-- The point a number of days later, if the calendar reaches it. -/
def addDays? (time : Timestamp) (days : Int) : Option Timestamp :=
  inRange? ⟨time.seconds + secondsPerDay * days, time.nanos⟩

end Timestamp

end KeySteward
