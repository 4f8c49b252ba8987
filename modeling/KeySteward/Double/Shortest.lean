import KeySteward.Double

/-! The decimal text of a finite number: the fewest digits that are read back as the number, and of
those the nearest. A grid of decimals is tried for one digit, then two, up to the seventeen that
always suffice; only the two neighbours of the number on the grid can lie in the interval that is
rounded to it. -/

namespace KeySteward.Double

/-- `digits · 10 ^ power`. -/
structure Decimal where
  digits : Nat
  power : Int
  deriving DecidableEq

/-- A positive rational number. -/
private structure Ratio where
  numerator : Nat
  denominator : Nat

private def Ratio.ofScaled (n : Nat) (base : Nat) (exponent : Int) : Ratio :=
  if 0 ≤ exponent then ⟨n * base.pow exponent.toNat, 1⟩ else ⟨n, base.pow exponent.natAbs⟩

private def Ratio.le (a b : Ratio) : Bool :=
  a.numerator * b.denominator ≤ b.numerator * a.denominator

private def Ratio.lt (a b : Ratio) : Bool :=
  a.numerator * b.denominator < b.numerator * a.denominator

/-- The mantissa and exponent that use all 53 bits, or the least exponent. -/
private def full (magnitude : Magnitude) : Nat × Int :=
  let spare := 52 - (magnitude.mantissa.log2 : Int)
  let shift := min spare (magnitude.exponent - Magnitude.leastExponent)
  (magnitude.mantissa * Nat.pow 2 shift.toNat, magnitude.exponent - shift)

/-- The numbers that are rounded to a magnitude: both ends, and whether they belong to it. -/
private structure Interval where
  lower : Ratio
  upper : Ratio
  closed : Bool

private def interval (magnitude : Magnitude) : Interval :=
  let (mantissa, exponent) := full magnitude
  let below := if mantissa = Nat.pow 2 52 ∧ Magnitude.leastExponent < exponent then 1 else 2
  ⟨.ofScaled (4 * mantissa - below) 2 (exponent - 2), .ofScaled (4 * mantissa + 2) 2 (exponent - 2),
    mantissa % 2 == 0⟩

private def Interval.contains (range : Interval) (decimal : Decimal) : Bool :=
  let value := Ratio.ofScaled decimal.digits 10 decimal.power
  if range.closed then range.lower.le value && value.le range.upper
  else range.lower.lt value && value.lt range.upper

/-- The exponent of the greatest power of ten that is not above a positive magnitude. -/
private def decimalExponent (magnitude : Magnitude) : Int :=
  let value := Ratio.ofScaled magnitude.mantissa 2 magnitude.exponent
  let estimate := Int.fdiv (((magnitude.mantissa.log2 : Int) + magnitude.exponent) * 30103) 100000
  if (Ratio.ofScaled 1 10 (estimate + 1)).le value then estimate + 1 else estimate

/-- The neighbour on the grid of `count` digits that is rounded to the magnitude, if there is one;
of two the nearer, and at a tie the even one. -/
private def onGrid? (magnitude : Magnitude) (count : Nat) : Option Decimal :=
  let power := decimalExponent magnitude - count + 1
  let value := Ratio.ofScaled magnitude.mantissa 2 magnitude.exponent
  let unit := Ratio.ofScaled 1 10 power
  let numerator := value.numerator * unit.denominator
  let denominator := value.denominator * unit.numerator
  let below : Decimal := ⟨numerator / denominator, power⟩
  let next := numerator / denominator + 1
  let above : Decimal :=
    if next = Nat.pow 10 count then ⟨Nat.pow 10 (count - 1), power + 1⟩ else ⟨next, power⟩
  let near := if Magnitude.nearest numerator denominator = below.digits then below else above
  let range := interval magnitude
  if range.contains near then some near
  else if range.contains below then some below
  else if range.contains above then some above
  else none

private def firstGrid : Nat → Nat → Magnitude → Decimal
  | 0, count, magnitude => ((onGrid? magnitude count).getD ⟨magnitude.mantissa, 0⟩)
  | more + 1, count, magnitude =>
    (onGrid? magnitude count).getD (firstGrid more (count + 1) magnitude)

/-- The shortest decimal of a positive magnitude. -/
def shortest (magnitude : Magnitude) : Decimal :=
  firstGrid 16 1 magnitude

/-- A decimal is written positionally while its point stands at most 16 places behind the first
digit or five before it, always with a fraction; beyond that with an exponent. -/
private def layout (decimal : Decimal) : String :=
  let digits := Nat.toDigits 10 decimal.digits
  let point := (digits.length : Int) + decimal.power
  let zeros (n : Nat) := List.replicate n '0'
  if 0 ≤ decimal.power ∧ point ≤ 16 then
    .ofList (digits ++ zeros decimal.power.toNat ++ ['.', '0'])
  else if 0 < point ∧ point ≤ 16 then
    .ofList (digits.take point.toNat ++ '.' :: digits.drop point.toNat)
  else if -5 < point ∧ point ≤ 0 then
    .ofList (['0', '.'] ++ zeros point.natAbs ++ digits)
  else
    let mantissa := match digits with
      | first :: second :: rest => first :: '.' :: second :: rest
      | short => short
    .ofList mantissa ++ "e" ++ toString (point - 1)

/-- The text of a finite number. -/
def render (number : Double) : String :=
  let sign := if number.negative then "-" else ""
  if number.magnitude.mantissa = 0 then sign ++ "0.0"
  else sign ++ layout (shortest number.magnitude)

end KeySteward.Double
