import KeySteward.Proofs.WrittenTimes

/-! Times that are read. Whatever text a point in time is read from, it is one that the calendar reaches,
and only the last second of a minute may be a leap second; so it has a text of its own. -/

namespace KeySteward

private theorem Text.digits?_lt {cs : List Char} {n : Nat} (read : digits? cs = some n) :
    n < 10 ^ cs.length := by
  suffices bound : ∀ (cs : List Char) (start : Nat), (∀ c ∈ cs, c.isDigit = true) →
      cs.foldl (fun n c => 10 * n + (c.toNat - '0'.toNat)) start < (start + 1) * 10 ^ cs.length by
    unfold digits? at read
    split at read
    next digits =>
      cases read
      have all := List.all_eq_true.mp (Bool.and_eq_true_iff.mp digits).2
      simpa using bound cs 0 all
    next => cases read
  intro cs
  induction cs with
  | nil => simp
  | cons c rest ih =>
    intro start digits
    have digit : c.toNat - '0'.toNat ≤ 9 := by
      have bounds := Timestamp.digit_bounds (digits c (by simp))
      change c.toNat - 48 ≤ 9
      omega
    have longer : 10 * start + (c.toNat - '0'.toNat) + 1 ≤ 10 * (start + 1) := by omega
    calc
      rest.foldl (fun n c => 10 * n + (c.toNat - '0'.toNat)) (10 * start + (c.toNat - '0'.toNat))
      _ < (10 * start + (c.toNat - '0'.toNat) + 1) * 10 ^ rest.length :=
        ih _ fun d inside => digits d (by simp [inside])
      _ ≤ 10 * (start + 1) * 10 ^ rest.length := Nat.mul_le_mul_right _ longer
      _ = (start + 1) * 10 ^ (rest.length + 1) := by
        rw [Nat.pow_succ, Nat.mul_comm 10, Nat.mul_assoc, Nat.mul_comm 10]

namespace Timestamp

private theorem digits?_length {width : Nat} {cs digits rest : List Char}
    (read : digits? width cs = some (digits, rest)) : digits.length ≤ width := by
  simp only [digits?] at read
  split at read
  · cases read
  · cases read
    exact Nat.le_trans (List.takeWhile_prefix _).length_le (List.length_take_le _ _)

private theorem nanos?_lt {cs rest : List Char} {nanos : Nat} (read : nanos? cs = some (nanos, rest)) :
    nanos < 1000000000 := by
  unfold nanos? at read
  split at read
  next tail =>
    simp only [bind, Option.bind_eq_some_iff, Prod.exists] at read
    obtain ⟨digits, others, taken, value, written, same⟩ := read
    cases same
    have short := digits?_length taken
    calc
      value * 10 ^ (9 - digits.length)
      _ < 10 ^ digits.length * 10 ^ (9 - digits.length) :=
        Nat.mul_lt_mul_of_pos_right (Text.digits?_lt written) (Nat.pow_pos (by decide))
      _ = 10 ^ (digits.length + (9 - digits.length)) := (Nat.pow_add ..).symm
      _ = 1000000000 := by rw [Nat.add_sub_cancel' short]; rfl
  next =>
    cases read
    decide

/-- The 60th second of a minute is the last one of the minute before, with a leap second in it. -/
theorem timeOfDay?_proper {cs rest : List Char} {seconds : Int} {nanos : Nat}
    (read : timeOfDay? cs = some (seconds, nanos, rest)) :
    nanos < 2000000000 ∧ (1000000000 ≤ nanos → seconds % 60 = 59) := by
  simp only [timeOfDay?, Option.bind_eq_bind, Option.bind_eq_some_iff, Prod.exists] at read
  obtain ⟨hour, _, -, _, -, minute, _, -, _, -, second, _, -, fraction, _, written, read⟩ := read
  have small := nanos?_lt written
  split at read
  · cases read
  · cases read
    split <;> omega

private theorem offset?_minutes {cs rest : List Char} {offset : Int}
    (read : offset? cs = some (offset, rest)) :
    offset % 60 = 0 := by
  have signed {negative : Bool} {cs : Rest} (read : signedOffset? negative cs = some (offset, rest)) :
      offset % 60 = 0 := by
    simp only [signedOffset?, Option.bind_eq_bind, Option.bind_eq_some_iff, Prod.exists] at read
    obtain ⟨hours, _, -, minutes, _, -, read⟩ := read
    split at read
    · cases read
    · cases read
      split <;> omega
  unfold offset? at read
  split at read
  · exact signed read
  · exact signed read
  · exact signed read
  · split at read
    · cases read
      rfl
    · split at read
      · cases read
        rfl
      · cases read
  · cases read

private theorem isProper_of_inRange? {time other : Timestamp} (read : inRange? time = some other)
    (fits : time.nanos < 2000000000) (leap : 1000000000 ≤ time.nanos → time.seconds % 60 = 59) :
    other.IsProper := by
  unfold inRange? at read
  split at read
  next inRange =>
    cases read
    exact ⟨inRange, fits, leap⟩
  next => cases read

/-- What is read of a text is a point of the calendar that has a text of its own. -/
theorem isProper_of_parse? {text : String} {time : Timestamp} (read : parse? text = some time) :
    time.IsProper := by
  simp only [parse?, Option.bind_eq_bind, Option.bind_eq_some_iff, Prod.exists] at read
  obtain ⟨date, behind, -, read⟩ := read
  split at read
  next mark rest =>
    split at read
    · simp only [Option.bind_some, Option.bind_eq_some_iff, Prod.exists] at read
      obtain ⟨seconds, nanos, _, ofDay, offset, _, zone, read⟩ := read
      obtain ⟨fits, leap⟩ := timeOfDay?_proper ofDay
      have minutes := offset?_minutes zone
      split at read
      · cases read
      · refine isProper_of_inRange? read fits fun late => ?_
        have last := leap late
        simp only [secondsPerDay]
        omega
    · cases read
  next => cases read

end Timestamp

end KeySteward
