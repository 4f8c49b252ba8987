import KeySteward.Proofs.PassInterruption

/-! The states that an undisturbed program comes through, one more with each call. Those of a sequence
are those of its parts, and what every call keeps holds between the first state and each later one. -/

namespace KeySteward.Program

variable {σ α β : Type} {service : Service σ}

/-- The states from the one that the program begins in to the one that it ends in. -/
def states (service : Service σ) : Program α → σ → List σ
  | .done _, state => [state]
  | .call request next, state =>
    state :: match service.handle request state with
      | (.ok answer, after) => (next (.ok answer)).states service after
      | (.error (.refused error), after) => (next (.error (.service error))).states service after
      | (.error .crashed, after) => [after]
  | .unfinished, state => [state]

theorem mem_states_self (program : Program α) (state : σ) :
    state ∈ program.states service state := by
  cases program <;> simp [states]

theorem mem_states_handled (request : Request) (next : Except Failure request.Answer → Program α)
    (state : σ) :
    (service.handle request state).2 ∈ (call request next).states service state := by
  simp only [states]
  apply List.mem_cons_of_mem
  rcases service.handle request state with ⟨(error | _) | answer, after⟩
  · exact mem_states_self _ after
  · exact List.mem_singleton_self after
  · exact mem_states_self _ after

theorem eval_mem_states (program : Program α) (state : σ) :
    (program.eval service state).2 ∈ program.states service state := by
  induction program generalizing state with
  | done value => exact List.mem_singleton_self state
  | unfinished => exact List.mem_singleton_self state
  | call request next ih =>
    simp only [eval, states]
    apply List.mem_cons_of_mem
    rcases service.handle request state with ⟨(error | _) | answer, after⟩
    · exact ih _ after
    · exact List.mem_singleton_self after
    · exact ih _ after

theorem mem_states_bind {program : Program α} {next : α → Program β} {state reached : σ}
    (member : reached ∈ (program >>= next).states service state) :
    reached ∈ program.states service state ∨
      ∃ value after, program.eval service state = (.finished value, after) ∧
        reached ∈ (next value).states service after := by
  change reached ∈ (program.bind next).states _ _ at member
  induction program generalizing state with
  | done value => exact .inr ⟨value, state, rfl, member⟩
  | unfinished => exact .inl member
  | call request rest ih =>
    simp only [states, eval, bind] at member ⊢
    rcases List.mem_cons.mp member with same | inside
    · exact .inl (by simp [same])
    · split at inside
      next handled => simpa only [handled] using (ih _ inside).imp_left (List.mem_cons_of_mem _)
      next handled => simpa only [handled] using (ih _ inside).imp_left (List.mem_cons_of_mem _)
      next handled => simpa only [handled] using .inl (List.mem_cons_of_mem _ inside)

/-- What every allowed request keeps between two states holds between the first state and each later
one. -/
theorem Uses.states_related {allowed : Request → Prop} {related : σ → σ → Prop}
    (refl : ∀ state, related state state)
    (trans : ∀ {first second third},
      related first second → related second third → related first third)
    (step : ∀ request state, allowed request → related state (service.handle request state).2)
    {program : Program α} (uses : program.Uses allowed) {state reached : σ}
    (member : reached ∈ program.states service state) : related state reached := by
  induction program generalizing state with
  | done value =>
    rw [List.mem_singleton.mp member]
    exact refl state
  | unfinished =>
    rw [List.mem_singleton.mp member]
    exact refl state
  | call request next ih =>
    have handled := step request state uses.1
    simp only [states] at member
    rcases List.mem_cons.mp member with same | inside
    · exact same ▸ refl state
    · split at inside
      next answer after answered =>
        rw [answered] at handled
        exact trans handled (ih _ (uses.2 _) inside)
      next error after refused =>
        rw [refused] at handled
        exact trans handled (ih _ (uses.2 _) inside)
      next after crashed =>
        rw [crashed, ← List.mem_singleton.mp inside] at handled
        exact handled

end KeySteward.Program
