import KeySteward.Text.Blank
import KeySteward.Text.Integer
import KeySteward.Timestamp

/-! The text of a point in time. Writing uses one form of RFC 3339: `T`, `Z`, and no, three, six or
nine digits of a second, the fewest that lose nothing. Reading is lenient: blanks may stand between
the numbers, a blank may stand for `T`, the year may have a sign and then any number of digits, the
other numbers may have one digit, the digits of a second behind the ninth are ignored, and the
offset may have a colon or none. -/

namespace KeySteward.Timestamp

/-! ### Writing -/

def padded (width n : Nat) : String :=
  let digits := Nat.toDigits 10 n
  .ofList (List.replicate (width - digits.length) '0' ++ digits)

/-- Years from 0 to 9999 have four digits; others have a sign and at least four. -/
def renderYear (year : Int) : String :=
  if 0 ≤ year ∧ year ≤ 9999 then padded 4 year.toNat
  else (if year < 0 then "-" else "+") ++ padded 4 year.natAbs

def renderFraction (nanos : Nat) : String :=
  if nanos = 0 then ""
  else if nanos % 1000000 = 0 then "." ++ padded 3 (nanos / 1000000)
  else if nanos % 1000 = 0 then "." ++ padded 6 (nanos / 1000)
  else "." ++ padded 9 nanos

def render (time : Timestamp) : String :=
  let date := Date.ofDays (time.seconds.fdiv secondsPerDay)
  let second := (time.seconds.fmod secondsPerDay).toNat
  let leap := time.nanos / 1000000000
  renderYear date.year ++ "-" ++ padded 2 date.month ++ "-" ++ padded 2 date.day ++ "T" ++
    padded 2 (second / 3600) ++ ":" ++ padded 2 (second / 60 % 60) ++ ":" ++
    padded 2 (second % 60 + leap) ++ renderFraction (time.nanos % 1000000000) ++ "Z"

/-! ### Reading -/

abbrev Rest := List Char

/-- One to `width` digits. -/
def digits? (width : Nat) (cs : Rest) : Option (List Char × Rest) :=
  let digits := (cs.take width).takeWhile Char.isDigit
  if digits.isEmpty then none else some (digits, cs.drop digits.length)

def number? (width : Nat) (cs : Rest) : Option (Nat × Rest) := do
  let (digits, rest) ← digits? width (Text.trimStart cs)
  return (← Text.digits? digits, rest)

def mark? (mark : Char) (cs : Rest) : Option Rest :=
  match Text.trimStart cs with
  | c :: rest => if c = mark then some rest else none
  | [] => none

/-- With a sign the year takes every digit that follows, and must fit a signed word. -/
def year? (cs : Rest) : Option (Int × Rest) :=
  match Text.trimStart cs with
  | '-' :: rest => do
    let (digits, rest) ← digits? rest.length rest
    let year ← (Text.digits? digits).filter fun n => (n : Int) ≤ Text.greatestInteger
    return (-(year : Int), rest)
  | '+' :: rest => do
    let (digits, rest) ← digits? rest.length rest
    let year ← (Text.digits? digits).filter fun n => (n : Int) ≤ Text.greatestInteger
    return ((year : Int), rest)
  | rest => (number? 4 rest).map fun read => ((read.1 : Int), read.2)

def nanos? (cs : Rest) : Option (Nat × Rest) :=
  match cs with
  | '.' :: rest => do
    let (digits, rest) ← digits? 9 rest
    let value ← Text.digits? digits
    return (value * Nat.pow 10 (9 - digits.length), rest.dropWhile Char.isDigit)
  | rest => some (0, rest)

def twoDigits? (cs : Rest) : Option (Nat × Rest) :=
  match cs with
  | a :: b :: rest => (Text.digits? [a, b]).map fun n => (n, rest)
  | _ => none

def signedOffset? (negative : Bool) (cs : Rest) : Option (Int × Rest) := do
  let (hours, rest) ← twoDigits? cs
  let (minutes, rest) ← twoDigits? (rest.dropWhile fun c => c = ':' || Text.isBlank c)
  if 60 ≤ minutes then none
  let seconds : Int := 3600 * hours + 60 * minutes
  return (if negative then -seconds else seconds, rest)

/-- The offset from coordinated universal time in seconds. -/
def offset? (cs : Rest) : Option (Int × Rest) :=
  match cs with
  | '+' :: rest => signedOffset? false rest
  | '-' :: rest => signedOffset? true rest
  | '\u2212' :: rest => signedOffset? true rest
  | c :: rest =>
    if c.toLower = 'z' then some (0, rest)
    else if (cs.take 3).map Char.toLower = ['u', 't', 'c'] then some (0, cs.drop 3)
    else none
  | [] => none

def date? (cs : Rest) : Option (Date × Rest) := do
  let (year, rest) ← year? cs
  let (month, rest) ← number? 2 (← mark? '-' rest)
  let (day, rest) ← number? 2 (← mark? '-' rest)
  let date : Date := ⟨year, month, day⟩
  if date.isValid then some (date, rest) else none

/-- Seconds and nanoseconds of a day. The 60th second of a minute is a leap second. -/
def timeOfDay? (cs : Rest) : Option (Int × Nat × Rest) := do
  let (hour, rest) ← number? 2 cs
  let (minute, rest) ← number? 2 (← mark? ':' rest)
  let (second, rest) ← number? 2 (← mark? ':' rest)
  let (nanos, rest) ← nanos? rest
  if 24 ≤ hour ∨ 60 ≤ minute ∨ 61 ≤ second then none
  let leap : Nat := if second = 60 then 1 else 0
  return (3600 * hour + 60 * minute + second - leap, nanos + 1000000000 * leap, rest)

/-- The point in time that a text names. -/
def parse? (text : String) : Option Timestamp := do
  let (date, rest) ← date? text.toList
  let rest ← match rest with
    | c :: rest => if c = 'T' ∨ c = 't' ∨ c = ' ' then some rest else none
    | [] => none
  let (seconds, nanos, rest) ← timeOfDay? rest
  let (offset, rest) ← offset? (Text.trimStart rest)
  if !(Text.trimStart rest).isEmpty ∨ secondsPerDay ≤ offset.natAbs then none
  inRange? ⟨secondsPerDay * date.toDays + seconds - offset, nanos⟩

end KeySteward.Timestamp
