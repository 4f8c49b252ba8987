import KeySteward.Update.Policy

/-! When two policies are the same. Texts that are JSON are compared by their values and all others by
their characters, but never one with the other, so this is an equivalence of all texts; and what is found
of a policy is said in the wanted words just where the two are equivalent. -/

namespace KeySteward.Policy

private theorem equivalent_iff {a b : String} :
    equivalent a b = true ↔ a = b ∨
      ∃ first second, Json.ofText? a = some first ∧ Json.ofText? b = some second ∧
        (first == second) = true := by
  unfold equivalent
  split
  next first second readA readB =>
    constructor
    · intro same
      exact .inr ⟨first, second, readA, readB, same⟩
    · intro alike
      rcases alike with rfl | ⟨_, _, againA, againB, same⟩
      · obtain rfl : first = second := Option.some.inj (readA.symm.trans readB)
        exact BEq.rfl
      · obtain rfl := Option.some.inj (readA.symm.trans againA)
        obtain rfl := Option.some.inj (readB.symm.trans againB)
        exact same
  next unread =>
    constructor
    · intro same
      exact .inl (beq_iff_eq.mp same)
    · intro alike
      rcases alike with rfl | ⟨first, second, readA, readB, -⟩
      · exact beq_self_eq_true a
      · exact absurd readB (unread first second readA)

theorem equivalent_refl (policy : String) : equivalent policy policy = true :=
  equivalent_iff.mpr (.inl rfl)

theorem equivalent_symm {a b : String} (same : equivalent a b = true) : equivalent b a = true := by
  rcases equivalent_iff.mp same with rfl | ⟨first, second, readA, readB, values⟩
  · exact same
  · exact equivalent_iff.mpr (.inr ⟨second, first, readB, readA, BEq.symm values⟩)

/-- The text between two others has one value at most, so it passes on what it is the same as. -/
theorem equivalent_trans {a b c : String} (front : equivalent a b = true)
    (back : equivalent b c = true) : equivalent a c = true := by
  rcases equivalent_iff.mp front with rfl | ⟨first, second, readA, readB, values⟩
  · exact back
  rcases equivalent_iff.mp back with rfl | ⟨again, third, readAgain, readC, others⟩
  · exact front
  obtain rfl := Option.some.inj (readB.symm.trans readAgain)
  exact equivalent_iff.mpr (.inr ⟨first, third, readA, readC, BEq.trans values others⟩)

theorem observed_eq_some_iff {policy : String} {found? : Option String} :
    observed (some policy) found? = some policy ↔
      ∃ found, found? = some found ∧ equivalent policy found = true := by
  cases found? with
  | none => simp [observed]
  | some found =>
    simp only [observed, Option.some.injEq, exists_eq_left']
    constructor
    · intro same
      split at same
      next equal => exact equal
      next => exact same ▸ equivalent_refl found
    · intro equal
      rw [if_pos equal]

end KeySteward.Policy
