import KeySteward.Proofs.PassCourses

/-! Runs over a service with faults. The service answers as a model of it does, but for calls that it
refuses. A program that heeds failures follows its undisturbed course over the model up to the first
fault or interruption, so it ends as that course does or in one of the states on the way. -/

namespace KeySteward

variable {σ τ α β : Type} {service : Service τ} {model : Service σ} {like : τ → σ → Prop}
variable {schedule : Schedule}

/-- What comes of a call in a state, with the state that it leaves, when nothing interrupts it. -/
inductive Service.Answers (service : Service σ) (request : Request) (state : σ) :
    Option (Except Failure request.Answer) → σ → Prop where
  | answered {answer after} (handled : service.handle request state = (.ok answer, after)) :
      Answers service request state (some (.ok answer)) after
  | refused {error after} (handled : service.handle request state = (.error (.refused error), after)) :
      Answers service request state (some (.error (.service error))) after
  | crashed {after} (handled : service.handle request state = (.error .crashed, after)) :
      Answers service request state none after

/-- The service answers as the model does, or it refuses the call without a change, and not because
something does not exist. -/
def Service.Imitates (service : Service τ) (model : Service σ) (like : τ → σ → Prop) : Prop :=
  ∀ request {actual state}, like actual state →
    (∃ error after, service.handle request actual = (.error (.refused error), after) ∧
      error.isNotFound = false ∧ like after state) ∨
    ((service.handle request actual).1 = (model.handle request state).1 ∧
      like (service.handle request actual).2 (model.handle request state).2)

/-- The answer of every call arrives as soon as the service is done with the call. -/
def Schedule.Prompt (schedule : Schedule) : Prop :=
  ∀ call, (schedule call).delayAfter = 0

namespace Run

private theorem carry_cancelled {service : Service σ} {interruption : Interruption} {request : Request}
    {run : Run σ} (failed : (carry service interruption request run).1 = some (.error .cancelled)) :
    (carry service interruption request run).2.state = run.state := by
  have kept := run.wait_state interruption.delayBefore
  unfold carry at failed ⊢
  split at failed
  next => cases failed
  next waiting waited =>
    simp only [waited] at kept
    split at failed
    next cancelled => rw [if_pos cancelled]; exact kept
    next =>
      have received (result : Except Failure request.Answer) (state : σ) :=
        (receive_cases interruption result { waiting with state }).2
      split at failed
      next answer after handled =>
        have same := Option.some.inj failed
        rcases received (.ok answer) after with sound | late
        · rw [same] at sound; cases sound
        · rw [same] at late; cases late
      next error after handled =>
        have same := Option.some.inj failed
        rcases received (.error (.service error)) after with sound | late
        · rw [same] at sound; cases sound
        · rw [same] at late; cases late
      next => cases failed

/-- An interrupted call has left no change, unless the deadline has passed while it was under way. -/
theorem call_interrupted {request : Request} {run after : Run σ} {service : Service σ}
    {failure : Failure} (interruption : failure.IsInterruption)
    (called : run.call service schedule request = (some (.error failure), after)) :
    after.state = run.state ∨ (run.refusal? = none ∧ failure = .deadlineExceeded) := by
  unfold call at called
  split at called
  next =>
    cases called
    exact .inl rfl
  next begins =>
    rcases interruption with rfl | rfl
    · left
      split at called
      next result reached carried =>
        cases called
        have cancelled := carry_cancelled (congrArg Prod.fst carried)
        rwa [carried] at cancelled
      next => cases called
    · exact .inr ⟨begins, rfl⟩

private theorem receive_prompt {millis : Nat} {run waiting : Run σ} {interruption : Interruption}
    (waited : run.wait millis = (false, waiting)) (prompt : interruption.delayAfter = 0)
    (result : Except Failure α) (state : σ) :
    (receive interruption result { waiting with state }).1 = result := by
  unfold wait at waited
  cases limit : run.deadline with
  | none =>
    rw [limit] at waited
    cases waited
    simp only [receive, wait]
  | some deadline =>
    simp only [limit] at waited
    split at waited
    next => cases waited
    next inTime =>
      cases waited
      simp only [receive, wait, prompt, Nat.add_zero, if_neg inTime]

private theorem call_prompt {request : Request} {run after : Run σ} {service : Service σ}
    (prompt : schedule.Prompt)
    (called : run.call service schedule request = (some (.error .deadlineExceeded), after)) :
    after.state = run.state := by
  unfold call at called
  split at called
  next =>
    cases called
    rfl
  next =>
    split at called
    next carried =>
      cases called
      have kept := wait_state (schedule run.begun).delayBefore { run with begun := run.begun + 1 }
      unfold carry at carried
      split at carried
      next waited =>
        cases carried
        rwa [waited] at kept
      next waiting waited =>
        -- The call is under way in time, so what the service answers is what comes back.
        have received := receive_prompt (α := request.Answer) waited (prompt run.begun)
        split at carried
        next => cases carried
        next =>
          split at carried
          next answer state _ =>
            have late := Option.some.inj (congrArg Prod.fst carried)
            cases (received (.ok answer) state).symm.trans late
          next error state _ =>
            have late := Option.some.inj (congrArg Prod.fst carried)
            cases (received (.error (.service error)) state).symm.trans late
          next => cases carried
    next => cases called

theorem call_settled {request : Request} {run after : Run σ} {service : Service σ} {failure : Failure}
    (interruption : failure.IsInterruption) (settled : failure = .deadlineExceeded → schedule.Prompt)
    (called : run.call service schedule request = (some (.error failure), after)) :
    after.state = run.state := by
  rcases call_interrupted interruption called with same | ⟨-, rfl⟩
  · exact same
  · exact call_prompt (settled rfl) called

theorem call_unlimited (service : Service σ) (schedule : Schedule) (request : Request) (run : Run σ)
    (unlimited : run.deadline = none) :
    (run.call service schedule request).2.deadline = none ∧
      (run.call service schedule request).1 ≠ some (.error .deadlineExceeded) := by
  obtain ⟨state, clock, _, cancelled, begun, records⟩ := run
  subst unlimited
  cases cancelled with
  | true => simp [call, refusal?]
  | false =>
    simp only [call, refusal?, carry, wait, receive]
    by_cases cancels : (schedule begun).cancellation = some .before
    · simp [cancels]
    · simp only [cancels, if_false]
      rcases service.handle request state with ⟨(error | _) | answer, after⟩ <;> simp

end Run

/-- A call comes back with a failure and has done its work or none, or with what the model answers. -/
theorem Service.Imitates.call (imitates : service.Imitates model like) (schedule : Schedule)
    (request : Request) {run : Run τ} {state : σ} (alike : like run.state state) :
    (∃ failure, (run.call service schedule request).1 = some (.error failure) ∧
      failure.isNotFound = false ∧
      (like (run.call service schedule request).2.state state ∨
        (run.refusal? = none ∧ failure = .deadlineExceeded) ∧
          like (run.call service schedule request).2.state (model.handle request state).2)) ∨
    ∃ after, model.Answers request state (run.call service schedule request).1 after ∧
      like (run.call service schedule request).2.state after := by
  have called := run.call_gives service schedule request
  generalize outcome : run.call service schedule request = reply at called ⊢
  obtain ⟨result, reached⟩ := reply
  generalize there : reached.state = actual at called ⊢
  have handled := imitates request alike
  cases called with
  | @interrupted failure _ interruption left =>
    refine .inl ⟨failure, rfl, interruption.isNotFound, ?_⟩
    rcases Run.call_interrupted interruption outcome with same | late
    · exact .inl (there ▸ same ▸ alike)
    · rcases left with rfl | rfl
      · exact .inl alike
      · rcases handled with ⟨error, after, refused, -, kept⟩ | ⟨-, onward⟩
        · rw [refused]
          exact .inl kept
        · exact .inr ⟨late, onward⟩
  | @answered answer after answered =>
    rcases handled with ⟨error, _, refused, -⟩ | ⟨same, onward⟩
    · cases answered.symm.trans refused
    · rw [answered] at same onward
      exact .inr ⟨_, .answered (Prod.ext same.symm rfl), onward⟩
  | @refused error after refused =>
    rcases handled with ⟨_, _, again, present, kept⟩ | ⟨same, onward⟩
    · cases refused.symm.trans again
      exact .inl ⟨_, rfl, present, .inl kept⟩
    · rw [refused] at same onward
      exact .inr ⟨_, .refused (Prod.ext same.symm rfl), onward⟩
  | @crashed after crashed =>
    rcases handled with ⟨_, _, refused, -⟩ | ⟨same, onward⟩
    · cases crashed.symm.trans refused
    · rw [crashed] at same onward
      exact .inr ⟨_, .crashed (Prod.ext same.symm rfl), onward⟩

namespace Program

variable {report : Failure → α → Prop}

/-- The value of a run reports a failure, and its state is like one on a course of states. -/
def Cut (report : Failure → α → Prop) (like : τ → σ → Prop) (course : List σ)
    (outcome : Ending α × Run τ) : Prop :=
  ∃ failure value reached, failure.isNotFound = false ∧ report failure value ∧
    outcome.1 = .finished value ∧ reached ∈ course ∧ like outcome.2.state reached

theorem Cut.mono {course wider : List σ} {outcome : Ending α × Run τ}
    (cut : Cut report like course outcome) (inside : course ⊆ wider) :
    Cut report like wider outcome := by
  obtain ⟨failure, value, reached, present, reported, ends, member, alike⟩ := cut
  exact ⟨failure, value, reached, present, reported, ends, inside member, alike⟩

/-- A run is cut short on the undisturbed course over the model, or it ends as that course does. -/
theorem Heeds.run_imitating (imitates : service.Imitates model like) {program : Program α}
    (heeds : program.Heeds report) (schedule : Schedule) {run : Run τ} {state : σ}
    (alike : like run.state state) :
    Cut report like (program.states model state) (program.run service schedule run) ∨
    ((program.run service schedule run).1 = (program.eval model state).1 ∧
      like (program.run service schedule run).2.state (program.eval model state).2) := by
  induction program generalizing run state with
  | done value => exact .inr ⟨rfl, alike⟩
  | unfinished => exact .inr ⟨rfl, alike⟩
  | call request next ih =>
    have called := imitates.call schedule request alike
    simp only [Program.run]
    generalize run.call service schedule request = outcome at called ⊢
    obtain ⟨result, after⟩ := outcome
    rcases called with ⟨failure, failed, present, left⟩ | ⟨reached, answers, onward⟩
    · obtain rfl : result = some (.error failure) := failed
      obtain ⟨value, ends, reported⟩ := heeds.1 failure present
      simp only [ends, Program.run]
      -- The state before the call is on the course, and so is the one after it, where the call has
      -- worked and its answer has come too late.
      rcases left with kept | ⟨-, worked⟩
      · exact .inl ⟨failure, value, state, present, reported, rfl, mem_states_self _ state, kept⟩
      · exact .inl ⟨failure, value, _, present, reported, rfl, mem_states_handled request next state,
          worked⟩
    · cases answers with
      | answered handled =>
        simp only [eval, states, handled]
        exact (ih _ (heeds.2 _) onward).imp_left fun cut => cut.mono (List.subset_cons_self _ _)
      | refused handled =>
        simp only [eval, states, handled]
        exact (ih _ (heeds.2 _) onward).imp_left fun cut => cut.mono (List.subset_cons_self _ _)
      | crashed handled =>
        simp only [eval, handled]
        exact .inr ⟨trivial, onward⟩

theorem Heeds.run_stays (imitates : service.Imitates model like) {program : Program α}
    (heeds : program.Heeds report) (schedule : Schedule) {run : Run τ} {state : σ}
    (alike : like run.state state) :
    ∃ reached ∈ program.states model state,
      like (program.run service schedule run).2.state reached := by
  rcases heeds.run_imitating imitates schedule alike with
    ⟨_, _, reached, _, _, _, member, onward⟩ | ⟨-, onward⟩
  · exact ⟨reached, member, onward⟩
  · exact ⟨_, eval_mem_states program state, onward⟩

theorem Heeds.run_finishes (imitates : service.Imitates model like) {program : Program α}
    (heeds : program.Heeds report) (schedule : Schedule) {run : Run τ} {state : σ}
    (alike : like run.state state) {value : α}
    (ends : (program.eval model state).1 = .finished value) :
    ∃ result last, program.run service schedule run = (.finished result, last) := by
  rcases heeds.run_imitating imitates schedule alike with ⟨_, result, _, _, _, ended, -⟩ | ⟨same, -⟩
  · exact ⟨result, _, Prod.ext ended rfl⟩
  · exact ⟨value, _, Prod.ext (same.trans ends) rfl⟩

/-- No call of a kind is cut off by the deadline while it is under way. -/
def InTime (service : Service σ) (schedule : Schedule) (kind : Request → Prop) :
    Program α → Run σ → Prop
  | .done _, _ => True
  | .call request next, run =>
    (kind request → run.refusal? = none →
      (run.call service schedule request).1 ≠ some (.error .deadlineExceeded)) ∧
    match run.call service schedule request with
    | (some result, after) => (next result).InTime service schedule kind after
    | (none, _) => True
  | .unfinished, _ => True

theorem InTime.of_bind {service : Service σ} {kind : Request → Prop} {program : Program α}
    {next : α → Program β} {run after : Run σ} {value : α}
    (inTime : (program >>= next).InTime service schedule kind run)
    (ends : program.run service schedule run = (.finished value, after)) :
    (next value).InTime service schedule kind after := by
  change (program.bind next).InTime _ _ _ _ at inTime
  induction program generalizing run with
  | done value => cases ends; exact inTime
  | unfinished => cases ends
  | call request rest ih =>
    simp only [Program.run] at ends
    simp only [InTime, bind] at inTime
    have onward := inTime.2
    generalize run.call service schedule request = outcome at ends onward
    obtain ⟨_ | result, middle⟩ := outcome
    · cases ends
    · exact ih result ends onward

theorem run_unlimited {service : Service σ} {program : Program α} {run last : Run σ}
    {ending : Ending α} (ends : program.run service schedule run = (ending, last))
    (unlimited : run.deadline = none) : last.deadline = none := by
  induction program generalizing run with
  | done value | unfinished =>
    cases ends
    exact unlimited
  | call request next ih =>
    have kept := (run.call_unlimited service schedule request unlimited).1
    simp only [Program.run] at ends
    generalize run.call service schedule request = outcome at kept ends
    obtain ⟨_ | result, after⟩ := outcome
    · cases ends
      exact kept
    · exact ih result ends kept

theorem inTime_of_unlimited (service : Service σ) (schedule : Schedule) (kind : Request → Prop)
    (program : Program α) {run : Run σ} (unlimited : run.deadline = none) :
    program.InTime service schedule kind run := by
  induction program generalizing run with
  | done value => trivial
  | unfinished => trivial
  | call request next ih =>
    obtain ⟨kept, undelayed⟩ := run.call_unlimited service schedule request unlimited
    simp only [InTime]
    refine ⟨fun _ _ => undelayed, ?_⟩
    generalize run.call service schedule request = outcome at kept
    obtain ⟨_ | result, after⟩ := outcome
    · trivial
    · exact ih result kept

end Program

end KeySteward
