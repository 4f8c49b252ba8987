import KeySteward.Proofs.CalendarDates
import KeySteward.Timestamp.Rfc3339
import Mathlib.Algebra.Group.Nat.Defs

/-! A point in time is read back from its text. Each part of the text is a number of known width, or of
known end, and a mark; what is written of it is read by the reader of the part, with the rest left over. -/

namespace KeySteward.Timestamp

/-! ### Digits -/

theorem digit_bounds {c : Char} (digit : c.isDigit = true) : 48 ≤ c.toNat ∧ c.toNat ≤ 57 := by
  simp only [Char.isDigit, Bool.and_eq_true, decide_eq_true_eq, ge_iff_le, UInt32.le_iff_toNat_le]
    at digit
  exact digit

private theorem isBlank_of_isDigit {c : Char} (digit : c.isDigit = true) : Text.isBlank c = false := by
  have bounds := digit_bounds digit
  simp only [Text.isBlank, Text.blankRanges, List.any_cons, List.any_nil, Bool.or_false,
    Bool.or_eq_false_iff, Bool.and_eq_false_iff, decide_eq_false_iff_not]
  omega

private theorem trimStart_digit {c : Char} (digit : c.isDigit = true) (cs : List Char) :
    Text.trimStart (c :: cs) = c :: cs := by
  rw [Text.trimStart, List.dropWhile_cons_of_neg]
  rw [isBlank_of_isDigit digit]
  exact Bool.false_ne_true

/-- No digit is at the start. -/
def EndsNumber (cs : List Char) : Prop :=
  ∀ c ∈ cs.head?, c.isDigit = false

private theorem takeWhile_endsNumber {cs : List Char} (ends : EndsNumber cs) (width : Nat) :
    (cs.take width).takeWhile Char.isDigit = [] := by
  cases cs with
  | nil => rw [List.take_nil]; rfl
  | cons c cs =>
    cases width with
    | zero => rfl
    | succ width =>
      rw [List.take_succ_cons, List.takeWhile_cons_of_neg]
      rw [ends c rfl]
      exact Bool.false_ne_true

/-- A run of digits is taken whole if it is as wide as it may be, or if no digit follows. -/
theorem digits?_append {width : Nat} {digits rest : List Char} (nonempty : digits ≠ [])
    (all : ∀ c ∈ digits, c.isDigit = true) (fits : digits.length ≤ width)
    (ends : digits.length = width ∨ EndsNumber rest) :
    digits? width (digits ++ rest) = some (digits, rest) := by
  have stops : (rest.take (width - digits.length)).takeWhile Char.isDigit = [] := by
    rcases ends with full | ends
    · rw [full, Nat.sub_self, List.take_zero]
      rfl
    · exact takeWhile_endsNumber ends _
  have taken : ((digits ++ rest).take width).takeWhile Char.isDigit = digits := by
    rw [List.take_append, List.take_of_length_le fits, List.takeWhile_append_of_pos all, stops,
      List.append_nil]
  simp only [digits?, taken, List.isEmpty_iff, nonempty, if_false, List.drop_left]

/-! ### Padded numbers -/

section Padded

variable (width n : Nat)

private theorem toList_padded : (padded width n).toList =
    List.replicate (width - (Nat.toDigits 10 n).length) '0' ++ Nat.toDigits 10 n := by
  rw [padded, String.toList_ofList]

private theorem isDigit_of_mem_padded : ∀ c ∈ (padded width n).toList, c.isDigit = true := by
  intro c inside
  rw [toList_padded] at inside
  rcases List.mem_append.mp inside with zero | digit
  · rw [(List.mem_replicate.mp zero).2]
    rfl
  · exact Nat.isDigit_of_mem_toDigits (by decide) (by decide) digit

private theorem padded_ne_nil : (padded width n).toList ≠ [] := by
  simp [toList_padded, Nat.toDigits_ne_nil]

private theorem digits?_padded : Text.digits? (padded width n).toList = some n := by
  have read := Text.digits?_toDigits n
  have zeros (count : Nat) :
      (List.replicate count '0').foldl (fun n c => 10 * n + (c.toNat - '0'.toNat)) 0 = 0 := by
    induction count with
    | zero => rfl
    | succ count ih => rwa [List.replicate_succ, List.foldl_cons]
  have nonempty := List.isEmpty_eq_false_iff.mpr (padded_ne_nil width n)
  have all := List.all_eq_true.mpr (isDigit_of_mem_padded width n)
  simp only [Text.digits?, nonempty, all, Bool.not_false, Bool.and_self, if_true]
  rw [toList_padded, List.foldl_append, zeros]
  simp only [Text.digits?, Option.ite_none_right_eq_some] at read
  exact read.2

variable {width n}

private theorem length_padded (positive : 0 < width) (fits : n < 10 ^ width) :
    (padded width n).toList.length = width := by
  have bound := (Nat.length_toDigits_le_iff (by decide : 1 < 10) positive).mpr fits
  simp only [toList_padded, List.length_append, List.length_replicate]
  omega

private theorem trimStart_padded (rest : List Char) :
    Text.trimStart ((padded width n).toList ++ rest) = (padded width n).toList ++ rest := by
  obtain ⟨c, cs, starts⟩ := List.exists_cons_of_ne_nil (padded_ne_nil width n)
  rw [starts, List.cons_append, trimStart_digit]
  exact isDigit_of_mem_padded width n c (by simp [starts])

private theorem number?_padded (positive : 0 < width) (fits : n < 10 ^ width) (rest : List Char) :
    number? width ((padded width n).toList ++ rest) = some (n, rest) := by
  have taken : digits? width ((padded width n).toList ++ rest) = some ((padded width n).toList, rest) :=
    digits?_append (padded_ne_nil width n) (isDigit_of_mem_padded width n)
      (Nat.le_of_eq (length_padded positive fits)) (.inl (length_padded positive fits))
  simp [number?, trimStart_padded, taken, digits?_padded]

end Padded

/-! ### Parts of a text -/

private theorem toList_minus : "-".toList = ['-'] := rfl

private theorem toList_plus : "+".toList = ['+'] := rfl

private theorem toList_point : ".".toList = ['.'] := rfl

theorem toList_colon : ":".toList = [':'] := rfl

private theorem mark?_cons {mark : Char} (plain : Text.isBlank mark = false) (rest : List Char) :
    mark? mark (mark :: rest) = some rest := by
  simp [mark?, Text.trimStart, List.dropWhile_cons_of_neg, plain]

theorem EndsNumber.cons {c : Char} (plain : c.isDigit = false) (rest : List Char) :
    EndsNumber (c :: rest) := by
  rintro _ ⟨⟩
  exact plain

section Signed

variable {n : Nat} (small : (n : Int) ≤ Text.greatestInteger) {rest : List Char} (ends : EndsNumber rest)

include ends

private theorem digits?_signed :
    digits? ((padded 4 n).toList ++ rest).length ((padded 4 n).toList ++ rest) =
      some ((padded 4 n).toList, rest) :=
  digits?_append (padded_ne_nil 4 n) (isDigit_of_mem_padded 4 n) (by simp) (.inr ends)

include small

private theorem year?_minus : year? ('-' :: ((padded 4 n).toList ++ rest)) = some
    (-(n : Int), rest) := by
  have taken := digits?_signed (n := n) ends
  have read := digits?_padded 4 n
  generalize (padded 4 n).toList ++ rest = cs at taken ⊢
  have start : Text.trimStart ('-' :: cs) = '-' :: cs := rfl
  rw [year?, start]
  simp only [taken, read, Option.bind_eq_bind, Option.bind_some, Option.pure_def, Option.filter_some, small,
    decide_true, if_true]

private theorem year?_plus : year? ('+' :: ((padded 4 n).toList ++ rest)) = some ((n : Int), rest) := by
  have taken := digits?_signed (n := n) ends
  have read := digits?_padded 4 n
  generalize (padded 4 n).toList ++ rest = cs at taken ⊢
  have start : Text.trimStart ('+' :: cs) = '+' :: cs := rfl
  rw [year?, start]
  simp only [taken, read, Option.bind_eq_bind, Option.bind_some, Option.pure_def, Option.filter_some, small,
    decide_true, if_true]

end Signed

private theorem year?_plain {n : Nat} (fits : n < 10000) (rest : List Char) :
    year? ((padded 4 n).toList ++ rest) = some ((n : Int), rest) := by
  obtain ⟨c, cs, starts⟩ := List.exists_cons_of_ne_nil (padded_ne_nil 4 n)
  have digit : c.isDigit = true := isDigit_of_mem_padded 4 n c (by simp [starts])
  rw [year?, trimStart_padded]
  split
  next signed =>
    rw [starts] at signed
    cases signed
    cases digit
  next signed =>
    rw [starts] at signed
    cases signed
    cases digit
  next =>
    rw [number?_padded (by decide) fits rest]
    rfl

private theorem year?_renderYear {year : Int} (least : Date.leastYear ≤ year)
    (greatest : year ≤ Date.greatestYear)
    {rest : List Char} (ends : EndsNumber rest) :
    year? ((renderYear year).toList ++ rest) = some (year, rest) := by
  unfold Date.leastYear at least
  unfold Date.greatestYear at greatest
  have small : (year.natAbs : Int) ≤ Text.greatestInteger := by
    have bound : (262143 : Int) ≤ Text.greatestInteger := by decide
    omega
  rw [renderYear]
  split
  next plain =>
    rw [year?_plain (by omega), Int.toNat_of_nonneg plain.1]
  next =>
    rw [String.toList_append, List.append_assoc]
    split
    next negative =>
      rw [toList_minus, List.singleton_append, year?_minus small ends,
        show -(year.natAbs : Int) = year by omega]
    next positive =>
      rw [toList_plus, List.singleton_append, year?_plus small ends,
        show (year.natAbs : Int) = year by omega]

private theorem nanos?_padded {width n : Nat} (positive : 0 < width) (bound : width ≤ 9)
    (fits : n < 10 ^ width)
    {rest : List Char} (ends : EndsNumber rest) :
    nanos? ('.' :: ((padded width n).toList ++ rest)) = some (n * 10 ^ (9 - width), rest) := by
  have length := length_padded positive fits
  have taken : digits? 9 ((padded width n).toList ++ rest) = some ((padded width n).toList, rest) :=
    digits?_append (padded_ne_nil width n) (isDigit_of_mem_padded width n) (by omega) (.inr ends)
  have stops : rest.dropWhile Char.isDigit = rest := by
    cases rest with
    | nil => rfl
    | cons c rest => rw [List.dropWhile_cons_of_neg (by rw [ends c rfl]; exact Bool.false_ne_true)]
  simp only [nanos?, taken, digits?_padded, Option.bind_eq_bind, Option.bind_some, Option.pure_def, length,
    stops]
  rfl

private theorem nanos?_renderFraction {nanos : Nat} (fits : nanos < 1000000000) (rest : List Char) :
    nanos? ((renderFraction nanos).toList ++ 'Z' :: rest) = some (nanos, 'Z' :: rest) := by
  have ends : EndsNumber ('Z' :: rest) := .cons rfl rest
  rw [renderFraction]
  split
  next whole =>
    rw [whole]
    rfl
  next =>
    split
    next millis =>
      rw [String.toList_append, List.append_assoc, toList_point, List.singleton_append,
        nanos?_padded (by decide) (by decide) (by omega) ends,
        show nanos / 1000000 * 10 ^ (9 - 3) = nanos by omega]
    next =>
      split
      next micros =>
        rw [String.toList_append, List.append_assoc, toList_point, List.singleton_append,
          nanos?_padded (by decide) (by decide) (by omega) ends,
          show nanos / 1000 * 10 ^ (9 - 6) = nanos by omega]
      next =>
        rw [String.toList_append, List.append_assoc, toList_point, List.singleton_append,
          nanos?_padded (by decide) (by decide) (by omega) ends,
          show nanos * 10 ^ (9 - 9) = nanos by omega]

private theorem date?_render {date : Date} (valid : date.isValid = true) (rest : List Char) :
    date? ((renderYear date.year).toList ++ '-' :: ((padded 2 date.month).toList ++
      '-' :: ((padded 2 date.day).toList ++ rest))) = some (date, rest) := by
  have parts := valid
  simp only [Date.isValid, Bool.and_eq_true, decide_eq_true_eq] at parts
  obtain ⟨⟨⟨⟨⟨least, greatest⟩, -⟩, month⟩, -⟩, day⟩ := parts
  have short := Date.daysInMonth_le date.year date.month
  have mark := mark?_cons (by decide : Text.isBlank '-' = false)
  have year (rest : List Char) := year?_renderYear least greatest (.cons (by decide : ('-').isDigit = false) rest)
  have month (rest : List Char) := number?_padded (by decide) (by omega : date.month < 10 ^ 2) rest
  have day (rest : List Char) := number?_padded (by decide) (by omega : date.day < 10 ^ 2) rest
  simp only [date?, year, mark, month, day, Option.bind_eq_bind, Option.bind_some, valid, if_true]

/-- The second of a minute is written as the one that follows in a leap second. -/
theorem timeOfDay?_render {second nanos : Nat} (inDay : second < 86400) (fits : nanos < 2000000000)
    (leap : 1000000000 ≤ nanos → second % 60 = 59) (rest : List Char) :
    timeOfDay? ((padded 2 (second / 3600)).toList ++ ':' :: ((padded 2 (second / 60 % 60)).toList ++
      ':' :: ((padded 2 (second % 60 + nanos / 1000000000)).toList ++
        ((renderFraction (nanos % 1000000000)).toList ++ 'Z' :: rest)))) =
      some ((second : Int), nanos, 'Z' :: rest) := by
  have mark := mark?_cons (by decide : Text.isBlank ':' = false)
  have hour (rest : List Char) := number?_padded (by decide) (by omega : second / 3600 < 10 ^ 2) rest
  have minute (rest : List Char) := number?_padded (by decide) (by omega : second / 60 % 60 < 10 ^ 2) rest
  have ofMinute (rest : List Char) :=
    number?_padded (by decide) (by omega : second % 60 + nanos / 1000000000 < 10 ^ 2) rest
  have fraction := nanos?_renderFraction (by omega : nanos % 1000000000 < 1000000000) rest
  have inside : ¬(24 ≤ second / 3600 ∨ 60 ≤ second / 60 % 60 ∨
      61 ≤ second % 60 + nanos / 1000000000) := by
    omega
  simp only [timeOfDay?, hour, minute, ofMinute, mark, fraction, Option.bind_eq_bind, Option.bind_some,
    inside, if_false, Option.pure_def]
  congr 2
  · split <;> omega
  · congr 1
    split <;> omega

/-! ### The whole text -/

/-- The point is one of the calendar, and a leap second is the last of its minute. -/
def IsProper (time : Timestamp) : Prop :=
  time.InRange ∧ time.nanos < 2000000000 ∧ (1000000000 ≤ time.nanos → time.seconds % 60 = 59)

instance (time : Timestamp) : Decidable time.IsProper :=
  inferInstanceAs (Decidable (_ ∧ _ ∧ (_ → _)))

private theorem toList_render (time : Timestamp) :
    let date := Date.ofDays (time.seconds / 86400)
    let second := (time.seconds % 86400).toNat
    time.render.toList = (renderYear date.year).toList ++ '-' :: ((padded 2 date.month).toList ++
      '-' :: ((padded 2 date.day).toList ++ 'T' :: ((padded 2 (second / 3600)).toList ++
      ':' :: ((padded 2 (second / 60 % 60)).toList ++
      ':' :: ((padded 2 (second % 60 + time.nanos / 1000000000)).toList ++
        ((renderFraction (time.nanos % 1000000000)).toList ++ ['Z'])))))) := by
  have day : time.seconds.fdiv secondsPerDay = time.seconds / 86400 :=
    Int.fdiv_eq_ediv_of_nonneg _ (by decide)
  have second : time.seconds.fmod secondsPerDay = time.seconds % 86400 :=
    Int.fmod_eq_emod_of_nonneg _ (by decide)
  have letters : "T".toList = ['T'] ∧ "Z".toList = ['Z'] := ⟨rfl, rfl⟩
  simp only [render, day, second, String.toList_append, List.append_assoc, toList_minus, toList_colon,
    letters, List.cons_append, List.nil_append]

theorem parse?_render {time : Timestamp} (proper : time.IsProper) : parse? time.render = some time := by
  obtain ⟨⟨least, greatest⟩, fits, leap⟩ := proper
  have valid : (Date.ofDays (time.seconds / 86400)).isValid = true := by
    refine Date.isValid_ofDays ?_ ?_
    · simp only [leastSecond, secondsPerDay] at least
      omega
    · simp only [greatestSecond, secondsPerDay] at greatest
      omega
  have ofDay := timeOfDay?_render (by omega : (time.seconds % 86400).toNat < 86400) fits
    (fun late => by have := leap late; omega) []
  have whole : secondsPerDay * (Date.ofDays (time.seconds / 86400)).toDays +
      (time.seconds % 86400).toNat - 0 = time.seconds := by
    rw [Date.toDays_ofDays, secondsPerDay]
    omega
  have inRange : inRange? time = some time := if_pos ⟨least, greatest⟩
  have start : Text.trimStart ['Z'] = ['Z'] := rfl
  have offset : offset? ['Z'] = some (0, []) := rfl
  simp only [parse?, toList_render, date?_render valid, ofDay, start, offset, whole, inRange,
    Option.bind_eq_bind, Option.bind_some]
  rw [if_pos (.inl trivial), if_neg (by decide)]

end KeySteward.Timestamp
