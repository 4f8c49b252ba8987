import KeySteward.Timestamp

/-! Days and dates. Every day within the years that the calendar counts has a date that exists, and the
date has the number of the day. Eras of 400 years have the same number of days, so a day is found in its
era; within one the year is read off a day by a formula that is right at both ends of each year and never
falls in between. -/

namespace KeySteward.Date

def yearStart (year : Nat) : Nat :=
  365 * year + year / 4 - year / 100 + year / 400

def yearOf (day : Nat) : Nat :=
  (day - day / 1460 + day / 36524 - day / 146096) / 365

private theorem yearOf_mono {first second : Nat} (le : first ≤ second) :
    yearOf first ≤ yearOf second := by
  induction le with
  | refl => exact Nat.le_refl _
  | step _ ih =>
    refine Nat.le_trans ih ?_
    unfold yearOf
    refine Nat.div_le_div_right ?_
    omega

private theorem yearOf_edges :
    ∀ year < 400, yearOf (yearStart year) = year ∧ yearOf (yearStart (year + 1) - 1) = year := by
  decide +kernel

private theorem yearStart_yearOf {day : Nat} (inEra : day < 146097) :
    yearOf day < 400 ∧ yearStart (yearOf day) ≤ day ∧ day < yearStart (yearOf day + 1) := by
  have last : yearOf day ≤ yearOf 146096 := yearOf_mono (by omega)
  have least : yearOf day < 400 := Nat.lt_of_le_of_lt last (by decide)
  refine ⟨least, Nat.le_of_not_lt fun early => ?_, Nat.lt_of_not_le fun late => ?_⟩
  · -- the day would be no later than the last one of the year before
    cases found : yearOf day with
    | zero =>
      rw [found] at early
      exact absurd early (Nat.not_lt_zero day)
    | succ year =>
      rw [found] at early least
      have bound := yearOf_mono (Nat.le_sub_one_of_lt early)
      rw [(yearOf_edges year (by omega)).2] at bound
      omega
  · have bound := yearOf_mono late
    rcases Nat.lt_or_ge (yearOf day + 1) 400 with inside | outside
    · rw [(yearOf_edges _ inside).1] at bound
      omega
    · have whole : yearOf day + 1 = 400 := by omega
      rw [whole] at late
      exact absurd inEra (Nat.not_lt.mpr late)

theorem daysInMonth_le (year : Int) (month : Nat) : daysInMonth year month ≤ 31 := by
  unfold daysInMonth
  split <;> split <;> decide

/-- Where a day is: an era, a year of it and a day of the year, counted from 0. -/
structure Position where
  era : Int
  year : Nat
  day : Nat
  inEra : year < 400
  inYear : yearStart year + day < yearStart (year + 1)

namespace Position

def days (position : Position) : Int :=
  146097 * position.era + (yearStart position.year + position.day : Nat) - 719468

def date (position : Position) : Date :=
  let month := (5 * position.day + 2) / 153
  let day := position.day - (153 * month + 2) / 5 + 1
  let year := position.year + 400 * position.era
  if month < 10 then ⟨year, month + 3, day⟩ else ⟨year + 1, month - 9, day⟩

end Position

private theorem exists_position (days : Int) : ∃ position : Position, position.days = days := by
  let era := (days + 719468) / 146097
  let day := (days + 719468 - 146097 * era).toNat
  have inEra : day < 146097 := by omega
  obtain ⟨least, starts, ends⟩ := yearStart_yearOf inEra
  refine ⟨⟨era, yearOf day, day - yearStart (yearOf day), least, by omega⟩, ?_⟩
  simp only [Position.days]
  omega

namespace Position

variable (position : Position)

private theorem day_lt : position.day < 366 := by
  have := position.inYear
  have := position.inEra
  unfold yearStart at *
  omega

private theorem day_inEra : yearStart position.year + position.day < 146097 := by
  have := position.inYear
  have := position.inEra
  unfold yearStart at *
  omega

private theorem yearOf_day : yearOf (yearStart position.year + position.day) = position.year := by
  obtain ⟨first, last⟩ := yearOf_edges position.year position.inEra
  have low := yearOf_mono (Nat.le_add_right (yearStart position.year) position.day)
  have high := yearOf_mono (Nat.le_sub_one_of_lt position.inYear)
  omega

private theorem ofDays_days : ofDays position.days = position.date := by
  have found := position.yearOf_day
  have small := position.day_lt
  have inside := position.day_inEra
  obtain ⟨era, year, day, inEra, inYear⟩ := position
  simp only at found small inside
  have start : ((yearStart year : Nat) : Int) = 365 * year + year / 4 - year / 100 := by
    unfold yearStart
    omega
  simp only [ofDays, days, date, Int.fdiv_eq_ediv_of_nonneg _ (by decide : (0 : Int) ≤ 146097)]
  have eras : (146097 * era + ((yearStart year + day : Nat) : Int) - 719468 + 719468) / 146097 = era := by
    omega
  rw [eras]
  have dayOfEra : 146097 * era + ((yearStart year + day : Nat) : Int) - 719468 + 719468 - 146097 * era =
      (yearStart year + day : Nat) := by
    omega
  rw [dayOfEra]
  have years : (((yearStart year + day : Nat) : Int) - (yearStart year + day : Nat) / 1460 +
      (yearStart year + day : Nat) / 36524 - (yearStart year + day : Nat) / 146096) / 365 = year := by
    unfold yearOf at found
    omega
  rw [years]
  have ofYear : ((yearStart year + day : Nat) : Int) - (365 * year + year / 4 - year / 100) = day := by
    omega
  rw [ofYear]
  have month : (5 * (day : Int) + 2) / 153 = ((5 * day + 2) / 153 : Nat) := rfl
  have start (month : Nat) : (153 * (month : Int) + 2) / 5 = ((153 * month + 2) / 5 : Nat) := rfl
  rw [month, start]
  split
  · rw [if_pos (by omega)]
    congr 1
    omega
  · rw [if_neg (by omega)]
    congr 1 <;> omega

private theorem toDays_date : position.date.toDays = position.days := by
  obtain ⟨era, year, day, inEra, inYear⟩ := position
  have small := day_lt ⟨era, year, day, inEra, inYear⟩
  simp only at small
  simp only [date, days]
  split
  · simp only [toDays]
    rw [if_neg (by omega), if_neg (by omega), Int.fdiv_eq_ediv_of_nonneg _ (by decide)]
    unfold yearStart
    omega
  · simp only [toDays]
    rw [if_pos (by omega), if_pos (by omega), Int.fdiv_eq_ediv_of_nonneg _ (by decide)]
    unfold yearStart
    omega

private theorem isLeapYear_of_day (last : position.day = 365) :
    isLeapYear (position.year + 400 * position.era + 1) = true := by
  have inYear := position.inYear
  have inEra := position.inEra
  unfold yearStart at inYear
  simp only [isLeapYear, Bool.and_eq_true, beq_iff_eq, Bool.or_eq_true, bne_iff_ne]
  omega

private theorem day_le_daysInMonth :
    position.date.day ≤ daysInMonth position.date.year position.date.month := by
  have small := position.day_lt
  have leap := position.isLeapYear_of_day
  simp only [date]
  split
  · simp only [daysInMonth, List.mem_cons, List.not_mem_nil, or_false]
    rw [if_neg (by omega)]
    split <;> omega
  · simp only [daysInMonth, List.mem_cons, List.not_mem_nil, or_false]
    split
    · split
      next => omega
      next common =>
        have early : position.day ≠ 365 := fun last => common (leap last)
        omega
    · rw [if_neg (by omega)]
      omega

private theorem month_bounds : 1 ≤ position.date.month ∧ position.date.month ≤ 12 := by
  have small := position.day_lt
  simp only [date]
  split <;> constructor <;> simp only <;> omega

/-- The last sixty days of a year that begins in March are in the year after. -/
theorem year_cases :
    position.date.year = position.year + 400 * position.era ∧ position.day < 306 ∨
      position.date.year = position.year + 400 * position.era + 1 ∧ 306 ≤ position.day := by
  simp only [date]
  split
  · exact .inl ⟨rfl, by omega⟩
  · exact .inr ⟨rfl, by omega⟩

private theorem year_bounds (least : toDays ⟨leastYear, 1, 1⟩ ≤ position.days)
    (greatest : position.days ≤ toDays ⟨greatestYear, 12, 31⟩) :
    leastYear ≤ position.date.year ∧ position.date.year ≤ greatestYear := by
  have first : toDays ⟨leastYear, 1, 1⟩ = 146097 * (-656) + (yearStart 256 + 306 : Nat) - 719468 := by
    decide
  have last : toDays ⟨greatestYear, 12, 31⟩ = 146097 * 655 + (yearStart 142 + 305 : Nat) - 719468 := by
    decide
  rw [first, days] at least
  rw [last, days] at greatest
  have inEra := position.inEra
  have inside := position.day_inEra
  have small := position.day_lt
  have cases := position.year_cases
  constructor
  · refine Int.not_lt.mp fun early => ?_
    unfold leastYear at early
    have era : position.era = -656 := by omega
    rcases Nat.lt_or_ge position.year 256 with before | from256
    · unfold yearStart at least
      omega
    · have year : position.year = 256 := by omega
      rw [year] at least
      omega
  · refine Int.not_lt.mp fun late => ?_
    unfold greatestYear at late
    have start : yearStart 142 = 51864 := by decide
    have era : position.era = 655 := by omega
    rcases Nat.lt_or_ge 142 position.year with after | until142
    · unfold yearStart at greatest
      omega
    · have year : position.year = 142 := by omega
      rw [year] at greatest
      omega

end Position

theorem isValid_ofDays {days : Int} (least : toDays ⟨leastYear, 1, 1⟩ ≤ days)
    (greatest : days ≤ toDays ⟨greatestYear, 12, 31⟩) : (ofDays days).isValid = true := by
  obtain ⟨position, rfl⟩ := exists_position days
  rw [position.ofDays_days]
  obtain ⟨leastYear, greatestYear⟩ := position.year_bounds least greatest
  obtain ⟨leastMonth, greatestMonth⟩ := position.month_bounds
  have day : 1 ≤ position.date.day := by
    simp only [Position.date]
    split <;> simp only <;> omega
  simp [isValid, leastYear, greatestYear, leastMonth, greatestMonth, day, position.day_le_daysInMonth]

theorem toDays_ofDays (days : Int) : (ofDays days).toDays = days := by
  obtain ⟨position, rfl⟩ := exists_position days
  rw [position.ofDays_days, position.toDays_date]

end KeySteward.Date
