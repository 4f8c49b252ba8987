/-! Finite numbers in the binary format of 64 bits: a sign and a magnitude `mantissa · 2 ^ exponent`
in lowest terms, with at most 53 bits in the mantissa. Every operation computes the exact quotient
of two natural numbers and rounds it once, to the nearest magnitude and a tie to the even one; a
result beyond the greatest magnitude is `none`. -/

namespace KeySteward

/-- The nonnegative number `mantissa · 2 ^ exponent`. -/
structure Magnitude where
  mantissa : Nat
  exponent : Int
  deriving DecidableEq

namespace Magnitude

def zero : Magnitude := ⟨0, 0⟩

/-- Halves an even mantissa until it is odd. -/
private def reduce : Nat → Nat → Int → Magnitude
  | 0, mantissa, exponent => ⟨mantissa, exponent⟩
  | steps + 1, mantissa, exponent =>
    if mantissa % 2 = 0 then reduce steps (mantissa / 2) (exponent + 1) else ⟨mantissa, exponent⟩

/-- `mantissa · 2 ^ exponent` in lowest terms. -/
def lowest (mantissa : Nat) (exponent : Int) : Magnitude :=
  if mantissa = 0 then zero else reduce (mantissa.log2 + 1) mantissa exponent

/-- The least exponent of the format. -/
def leastExponent : Int := -1074

/-- `a · 2 ^ n`, where a negative `n` multiplies `b` instead: the quotient stays the same. -/
private def scale (a b : Nat) (n : Int) : Nat × Nat :=
  if 0 ≤ n then (a * Nat.pow 2 n.toNat, b) else (a, b * Nat.pow 2 n.natAbs)

/-- `numerator / denominator` to the nearest whole number, a tie to the even one. -/
def nearest (numerator denominator : Nat) : Nat :=
  let quotient := numerator / denominator
  let twice := 2 * (numerator % denominator)
  if denominator < twice || (denominator == twice && quotient % 2 == 1) then quotient + 1
  else quotient

/-- The magnitude nearest to `numerator / denominator`. -/
def ofQuotient? (numerator denominator : Nat) : Option Magnitude :=
  if numerator = 0 then some zero
  else
    let estimate : Int := (numerator.log2 : Int) - denominator.log2 - 52
    let scaled := scale numerator denominator (-estimate)
    let exponent := if scaled.1 < Nat.pow 2 52 * scaled.2 then estimate - 1 else estimate
    let exponent := max exponent leastExponent
    let scaled := scale numerator denominator (-exponent)
    let mantissa := nearest scaled.1 scaled.2
    if mantissa ≠ 0 ∧ 1024 ≤ (mantissa.log2 : Int) + exponent then none
    else some (lowest mantissa exponent)

/-- The magnitude nearest to a natural number. -/
def ofNat? (n : Nat) : Option Magnitude :=
  ofQuotient? n 1

def mul? (a b : Magnitude) : Option Magnitude :=
  let product := scale (a.mantissa * b.mantissa) 1 (a.exponent + b.exponent)
  ofQuotient? product.1 product.2

/-- The quotient by a magnitude that is not zero. -/
def div? (a b : Magnitude) : Option Magnitude :=
  let quotient := scale a.mantissa b.mantissa (a.exponent - b.exponent)
  ofQuotient? quotient.1 quotient.2

/-- The greatest power of ten within the format. -/
def greatestPower : Nat := 308

/-- Multiplies by `10 ^ power`, each power of ten being rounded first. A power below the range of
the format is divided out in steps, which end when nothing is left of the magnitude. -/
private def shift? : Nat → Magnitude → Int → Option Magnitude
  | steps, magnitude, power =>
    if power.natAbs ≤ greatestPower then do
      let ten ← ofNat? (Nat.pow 10 power.natAbs)
      if 0 ≤ power then magnitude.mul? ten else magnitude.div? ten
    else if magnitude.mantissa = 0 then some zero
    else if 0 ≤ power then none
    else match steps with
      | 0 => some zero
      | steps + 1 => do
        let ten ← ofNat? (Nat.pow 10 greatestPower)
        shift? steps (← magnitude.div? ten) (power + greatestPower)

/-- The magnitude that `significand · 10 ^ power` is read as, for a significand of at most 64 bits:
the significand is rounded to the format, then scaled by powers of ten, rounding after each. -/
def ofDecimal? (significand : Nat) (power : Int) : Option Magnitude := do
  shift? 3 (← ofNat? significand) power

/-- The whole number nearest to the magnitude, a half being rounded up. -/
def round (magnitude : Magnitude) : Nat :=
  if 0 ≤ magnitude.exponent then magnitude.mantissa * Nat.pow 2 magnitude.exponent.toNat
  else
    let unit := Nat.pow 2 magnitude.exponent.natAbs
    (2 * magnitude.mantissa + unit) / (2 * unit)

end Magnitude

/-- A finite number with a sign, also at zero. -/
structure Double where
  negative : Bool
  magnitude : Magnitude
  deriving DecidableEq

namespace Double

/-- Equality as numbers: the two zeros are equal. -/
def same (a b : Double) : Bool :=
  a.magnitude == b.magnitude && (a.negative == b.negative || a.magnitude.mantissa == 0)

/-- The number nearest to a whole number. -/
def ofInt? (n : Int) : Option Double :=
  (Magnitude.ofNat? n.natAbs).map fun magnitude => ⟨n < 0, magnitude⟩

/-- The nearest whole number; a half is rounded away from zero. -/
def round (number : Double) : Int :=
  if number.negative then -(number.magnitude.round : Int) else number.magnitude.round

theorem same_refl (a : Double) : same a a = true := by
  simp [same]

theorem same_symm (a b : Double) : same a b = same b a := by
  unfold same
  by_cases magnitudes : a.magnitude = b.magnitude
  · simp only [magnitudes, beq_self_eq_true, Bool.true_and, Bool.beq_comm]
  · rw [beq_eq_false_iff_ne.mpr magnitudes, beq_eq_false_iff_ne.mpr (Ne.symm magnitudes)]
    rfl

theorem same_trans {a b c : Double} (first : same a b = true) (second : same b c = true) :
    same a c = true := by
  simp only [same, Bool.and_eq_true, beq_iff_eq, Bool.or_eq_true] at first second ⊢
  refine ⟨first.1.trans second.1, ?_⟩
  rcases first.2 with left | left
  · rcases second.2 with right | right
    · exact .inl (left.trans right)
    · exact .inr (by rw [first.1]; exact right)
  · exact .inr left

end Double

end KeySteward
