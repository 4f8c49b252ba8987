/-! Whole numbers written in decimal. A sign may stand in front, at least one digit follows, and
nothing else; a number outside the range that the caller names is no number. -/

namespace KeySteward.Text

/-- The number that a nonempty run of decimal digits writes. -/
def digits? (cs : List Char) : Option Nat :=
  if !cs.isEmpty && cs.all Char.isDigit then
    some (cs.foldl (fun n c => 10 * n + (c.toNat - '0'.toNat)) 0)
  else none

/-- A number from 0 up to `greatest`; a plus sign may stand in front. -/
def unsigned? (greatest : Nat) (text : String) : Option Nat :=
  let read := match text.toList with
    | '+' :: cs => digits? cs
    | cs => digits? cs
  read.filter (· ≤ greatest)

/-- A number from `least` to `greatest`; either sign may stand in front. -/
def signed? (least greatest : Int) (text : String) : Option Int :=
  let read := match text.toList with
    | '-' :: cs => (digits? cs).map fun n => -(n : Int)
    | '+' :: cs => (digits? cs).map fun n => (n : Int)
    | cs => (digits? cs).map fun n => (n : Int)
  read.filter fun n => least ≤ n && n ≤ greatest

/-- The greatest number of an unsigned word of 64 bits. -/
def greatestWord : Nat := Nat.pow 2 64 - 1

/-- The least and the greatest number of a signed word of 64 bits. -/
def leastInteger : Int := -Int.pow 2 63

def greatestInteger : Int := Int.pow 2 63 - 1

theorem digits?_toDigits (n : Nat) : digits? (Nat.toDigits 10 n) = some n := by
  have digits : (Nat.toDigits 10 n).all Char.isDigit = true :=
    List.all_eq_true.mpr fun c member => Nat.isDigit_of_mem_toDigits (by decide) (by decide) member
  have value : Nat.ofDigitChars 10 (Nat.toDigits 10 n) 0 = n := Nat.ofDigitChars_ten_toDigits
  rw [Nat.ofDigitChars_eq_foldl] at value
  have nonempty : (Nat.toDigits 10 n).isEmpty = false := by simp [Nat.toDigits_ne_nil]
  unfold digits?
  rw [if_pos (by simp only [nonempty, digits, Bool.not_false, Bool.and_self]), value]

/-- A number in decimal is read as itself, if it is not too great. -/
theorem unsigned?_toString (greatest n : Nat) :
    unsigned? greatest (toString n) = if n ≤ greatest then some n else none := by
  have digits : (toString n).toList = Nat.toDigits 10 n := by
    rw [Nat.toString_eq_repr, Nat.toList_repr]
  unfold unsigned?
  rw [digits]
  split
  next cs signed =>
    -- no digit is a sign
    have digit : ('+').isDigit = true :=
      Nat.isDigit_of_mem_toDigits (b := 10) (n := n) (by decide) (by decide) (by simp [signed])
    cases digit
  next => simp only [digits?_toDigits, Option.filter_some, decide_eq_true_eq]

end KeySteward.Text
