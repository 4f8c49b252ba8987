import KeySteward.Proofs.PassRuns

/-! Interrupted and undisturbed runs. `Program.eval` is the course that a program takes when every
call comes back from the service. A program that gives in to interruptions ends as soon as a call is
cancelled or out of time, so each of its runs either reports that or ends as the undisturbed one
does. A strict pass gives in to every failure. -/

namespace KeySteward

variable {σ α β ε δ : Type} {service : Service σ} {schedule : Schedule}

/-- What may come of a call in a state, with the state that it leaves. -/
inductive Service.Gives (service : Service σ) (request : Request) (state : σ) :
    Option (Except Failure request.Answer) → σ → Prop where
  | interrupted {failure after} (interruption : failure.IsInterruption)
      (left : after = state ∨ after = (service.handle request state).2) :
      Gives service request state (some (.error failure)) after
  | answered {answer after} (handled : service.handle request state = (.ok answer, after)) :
      Gives service request state (some (.ok answer)) after
  | refused {error after} (handled : service.handle request state = (.error (.refused error), after)) :
      Gives service request state (some (.error (.service error))) after
  | crashed {after} (handled : service.handle request state = (.error .crashed, after)) :
      Gives service request state none after

/-- The failures that a call can have: an interruption, or an error of the service. -/
def Failure.IsOfCall (failure : Failure) : Prop :=
  failure.IsInterruption ∨ ∃ error, failure = .service error

theorem Service.Gives.isOfCall {request : Request} {state after : σ} {failure : Failure}
    (gives : service.Gives request state (some (.error failure)) after) : failure.IsOfCall := by
  cases gives with
  | interrupted interruption _ => exact .inl interruption
  | refused _ => exact .inr ⟨_, rfl⟩

namespace Run

theorem wait_state (millis : Nat) (run : Run σ) : (run.wait millis).2.state = run.state := by
  unfold wait
  split
  · split <;> rfl
  · rfl

theorem receive_cases (interruption : Interruption) (result : Except Failure α) (run : Run σ) :
    (receive interruption result run).2.state = run.state ∧
      ((receive interruption result run).1 = result ∨
        (receive interruption result run).1 = .error .deadlineExceeded) := by
  have kept := run.wait_state interruption.delayAfter
  unfold receive
  split
  next waited => exact ⟨by simpa only [waited] using kept, .inr rfl⟩
  next waited => exact ⟨by simpa only [waited] using kept, .inl rfl⟩

private theorem carry_gives (service : Service σ) (interruption : Interruption) (request : Request)
    (run : Run σ) :
    service.Gives request run.state (carry service interruption request run).1
      (carry service interruption request run).2.state := by
  have kept := run.wait_state interruption.delayBefore
  unfold carry
  split
  next waited =>
    simp only [waited] at kept
    exact .interrupted (.inr rfl) (.inl kept)
  next waiting waited =>
    simp only [waited] at kept
    split
    · exact .interrupted (.inl rfl) (.inl kept)
    · rw [← kept]
      have received (result : Except Failure request.Answer) (state : σ) :=
        receive_cases interruption result { waiting with state }
      split
      next answer after handled =>
        obtain ⟨state, same | late⟩ := received (.ok answer) after
        · simp only [same, state]
          exact .answered handled
        · simp only [late, state]
          exact .interrupted (.inr rfl) (.inr (by rw [handled]))
      next error after handled =>
        obtain ⟨state, same | late⟩ := received (.error (.service error)) after
        · simp only [same, state]
          exact .refused handled
        · simp only [late, state]
          exact .interrupted (.inr rfl) (.inr (by rw [handled]))
      next after handled => exact .crashed handled

/-- Whatever happens around a call, one of four things comes of it. -/
theorem call_gives (service : Service σ) (schedule : Schedule) (request : Request) (run : Run σ) :
    service.Gives request run.state (run.call service schedule request).1
      (run.call service schedule request).2.state := by
  unfold call
  split
  next failure refused =>
    refine .interrupted ?_ (.inl rfl)
    unfold refusal? at refused
    split at refused
    · exact .inl (Option.some.inj refused).symm
    · split at refused
      · exact .inr (Option.some.inj refused).symm
      · cases refused
  next =>
    have carried := carry_gives service (schedule run.begun) request
      { run with begun := run.begun + 1 }
    split
    next carry => simpa only [carry] using carried
    next carry => simpa only [carry] using carried

/-- Nothing can cut the run short. -/
structure IsFree (run : Run σ) : Prop where
  unlimited : run.deadline = none
  active : run.cancelled = false

theorem IsFree.call (service : Service σ) {run : Run σ} (free : run.IsFree) (request : Request) :
    (run.call service .calm request).2.IsFree ∧
      ((run.call service .calm request).1, (run.call service .calm request).2.state) =
        match service.handle request run.state with
        | (.ok answer, after) => (some (.ok answer), after)
        | (.error (.refused error), after) => (some (.error (.service error)), after)
        | (.error .crashed, after) => (none, after) := by
  obtain ⟨unlimited, active⟩ := free
  obtain ⟨state, clock, deadline, cancelled, begun, records⟩ := run
  subst unlimited active
  simp only [Run.call, refusal?, carry, wait, Schedule.calm, receive]
  rcases service.handle request state with ⟨(error | _) | answer, after⟩
  · exact ⟨⟨rfl, rfl⟩, rfl⟩
  · exact ⟨⟨rfl, rfl⟩, rfl⟩
  · exact ⟨⟨rfl, rfl⟩, rfl⟩

end Run

namespace Program

/-- The undisturbed course of a program. -/
def eval (service : Service σ) : Program α → σ → Ending α × σ
  | .done value, state => (.finished value, state)
  | .call request next, state =>
    match service.handle request state with
    | (.ok answer, after) => (next (.ok answer)).eval service after
    | (.error (.refused error), after) => (next (.error (.service error))).eval service after
    | (.error .crashed, after) => (.crashed, after)
  | .unfinished, state => (.unfinished, state)

theorem eval_bind_finished {program : Program α} (next : α → Program β) {state after : σ} {value}
    (ends : program.eval service state = (.finished value, after)) :
    (program >>= next).eval service state = (next value).eval service after := by
  change (program.bind next).eval _ _ = _
  induction program generalizing state with
  | done value => cases ends; rfl
  | unfinished => cases ends
  | call request rest ih =>
    simp only [eval, bind] at ends ⊢
    split at ends
    next answer middle handled => exact ih _ ends
    next error middle handled => exact ih _ ends
    next => cases ends

theorem eval_bind_inv {program : Program α} {next : α → Program β} {state last : σ} {value}
    (ends : (program >>= next).eval service state = (.finished value, last)) :
    ∃ middle after, program.eval service state = (.finished middle, after) ∧
      (next middle).eval service after = (.finished value, last) := by
  change (program.bind next).eval _ _ = _ at ends
  induction program generalizing state with
  | done middle => exact ⟨middle, state, rfl, ends⟩
  | unfinished => cases ends
  | call request rest ih =>
    simp only [eval, bind] at ends ⊢
    split at ends
    next answer middle handled => simpa only [handled] using ih _ ends
    next error middle handled => simpa only [handled] using ih _ ends
    next => cases ends

/-- A free run on a calm schedule takes the undisturbed course. -/
theorem run_calm (service : Service σ) (program : Program α) {run : Run σ} (free : run.IsFree) :
    ((program.run service .calm run).1, (program.run service .calm run).2.state) =
      program.eval service run.state := by
  induction program generalizing run with
  | done value => rfl
  | unfinished => rfl
  | call request next ih =>
    obtain ⟨stays, called⟩ := free.call service request
    simp only [Program.run, eval]
    generalize run.call service .calm request = outcome at stays called ⊢
    obtain ⟨result, after⟩ := outcome
    split at called
    next handled =>
      cases called
      exact ih _ stays
    next handled =>
      cases called
      exact ih _ stays
    next handled =>
      cases called
      rfl

theorem run_calm_finished {program : Program α} {run : Run σ} {value : α} {after : σ}
    (ends : program.eval service run.state = (.finished value, after)) (free : run.IsFree) :
    ∃ last, program.run service .calm run = (.finished value, last) ∧ last.state = after := by
  have calm := program.run_calm service free
  rw [ends] at calm
  obtain ⟨finished, reached⟩ := Prod.mk.inj calm
  exact ⟨_, Prod.ext finished rfl, reached⟩

theorem run_calm_from {program : Program α} {state after : σ} {value : α}
    (ends : program.eval service state = (.finished value, after)) :
    ∃ last, program.run service .calm { state } = (.finished value, last) ∧ last.state = after :=
  have course : program.eval service ({ state } : Run σ).state = _ := ends
  run_calm_finished course ⟨rfl, rfl⟩

/-- A call that is interrupted ends the program in a value that reports the interruption. -/
def GivesIn (report : Failure → α → Prop) : Program α → Prop
  | .done _ => True
  | .call _ next =>
    (∀ failure, failure.IsInterruption →
      ∃ value, next (.error failure) = .done value ∧ report failure value) ∧
    ∀ result, (next result).GivesIn report
  | .unfinished => True

variable {report : Failure → α → Prop} {onward : Failure → β → Prop}

/-- A call that fails, and not because something does not exist, ends the program in a value that
reports the failure. -/
def Heeds (report : Failure → α → Prop) : Program α → Prop
  | .done _ => True
  | .call _ next =>
    (∀ failure, failure.isNotFound = false →
      ∃ value, next (.error failure) = .done value ∧ report failure value) ∧
    ∀ result, (next result).Heeds report
  | .unfinished => True

theorem Heeds.bind {program : Program α} {next : α → Program β} (first : program.Heeds report)
    (stops : ∀ failure value, failure.isNotFound = false → report failure value →
      ∃ last, next value = .done last ∧ onward failure last)
    (rest : ∀ value, (next value).Heeds onward) : (program >>= next).Heeds onward := by
  change (program.bind next).Heeds onward
  induction program with
  | done value => exact rest value
  | unfinished => trivial
  | call request next ih =>
    refine ⟨?_, fun result => ih result (first.2 result)⟩
    intro failure present
    obtain ⟨value, ends, reported⟩ := first.1 failure present
    obtain ⟨last, same, reports⟩ := stops failure value present reported
    exact ⟨last, by simp only [ends, Program.bind, same], reports⟩

theorem Heeds.givesIn {program : Program α} (heeds : program.Heeds report) :
    program.GivesIn report := by
  induction program with
  | done value => trivial
  | unfinished => trivial
  | call request next ih =>
    exact ⟨fun failure interruption => heeds.1 failure interruption.isNotFound,
      fun result => ih result (heeds.2 result)⟩

/-- A run is interrupted, and then its value says so, or it takes the undisturbed course. -/
theorem GivesIn.run {program : Program α} (gives : program.GivesIn report) (service : Service σ)
    (schedule : Schedule) (run : Run σ) :
    (∃ failure value, failure.IsInterruption ∧ report failure value ∧
      (program.run service schedule run).1 = .finished value) ∨
    ((program.run service schedule run).1, (program.run service schedule run).2.state) =
      program.eval service run.state := by
  induction program generalizing run with
  | done value => exact .inr rfl
  | unfinished => exact .inr rfl
  | call request next ih =>
    have called := run.call_gives service schedule request
    simp only [Program.run, eval]
    generalize run.call service schedule request = outcome at called ⊢
    obtain ⟨result, after⟩ := outcome
    generalize state : after.state = reached at called
    cases called with
    | @interrupted failure _ interruption left =>
      obtain ⟨value, ends, reported⟩ := gives.1 failure interruption
      exact .inl ⟨failure, value, interruption, reported, by simp only [ends, Program.run]⟩
    | answered handled =>
      simp only [handled, ← state]
      exact ih _ (gives.2 _) after
    | refused handled =>
      simp only [handled, ← state]
      exact ih _ (gives.2 _) after
    | crashed handled =>
      exact .inr (by simp only [handled, ← state])

section Related

variable {allowed : Request → Prop} {related : σ → σ → Prop}
  (refl : ∀ state, related state state)
  (trans : ∀ {first second third},
    related first second → related second third → related first third)
  (step : ∀ request state, allowed request → related state (service.handle request state).2)

include refl step

theorem run_call_related (schedule : Schedule) {request : Request} (permitted : allowed request)
    (run : Run σ) :
    related run.state (run.call service schedule request).2.state := by
  have handled := step request run.state permitted
  have called := run.call_gives service schedule request
  generalize (run.call service schedule request).1 = result at called
  generalize (run.call service schedule request).2.state = after at called ⊢
  cases called with
  | interrupted _ left =>
    rcases left with rfl | rfl
    · exact refl _
    · exact handled
  | answered answer => rwa [answer] at handled
  | refused error => rwa [error] at handled
  | crashed fault => rwa [fault] at handled

include trans

/-- What every allowed request keeps, a run keeps between its first and its last state. -/
theorem Uses.run_related {program : Program α} (uses : program.Uses allowed) (schedule : Schedule)
    (run : Run σ) :
    related run.state (program.run service schedule run).2.state := by
  induction program generalizing run with
  | done value => exact refl run.state
  | unfinished => exact refl run.state
  | call request next ih =>
    have reached := run_call_related refl step schedule uses.1 run
    simp only [Program.run]
    generalize run.call service schedule request = outcome at reached ⊢
    obtain ⟨_ | result, after⟩ := outcome
    · exact reached
    · exact trans reached (ih result (uses.2 result) after)

theorem Uses.exchange_gives {program : Program α} (uses : program.Uses allowed) {run : Run σ}
    {exchange : Exchange}
    (member : exchange ∈ program.exchanges service schedule run) :
    allowed exchange.request ∧ ∃ reached after, related run.state reached ∧
      service.Gives exchange.request reached exchange.result after := by
  induction program generalizing run with
  | done value => cases member
  | unfinished => cases member
  | call request next ih =>
    have called := run.call_gives service schedule request
    have related := run_call_related refl step schedule uses.1 run
    simp only [Program.exchanges] at member
    generalize run.call service schedule request = outcome at called member related
    obtain ⟨_ | result, after⟩ := outcome
    · rw [List.mem_singleton] at member
      subst member
      exact ⟨uses.1, run.state, _, refl _, called⟩
    · rcases List.mem_cons.mp member with rfl | inside
      · exact ⟨uses.1, run.state, _, refl _, called⟩
      · obtain ⟨permitted, reached, last, onward, gives⟩ := ih result (uses.2 result) inside
        exact ⟨permitted, reached, last, trans related onward, gives⟩

theorem Uses.eval_related {program : Program α} (uses : program.Uses allowed) (state : σ) :
    related state (program.eval service state).2 := by
  have free : ({ state } : Run σ).IsFree := ⟨rfl, rfl⟩
  have same : (program.run service .calm { state }).2.state = (program.eval service state).2 :=
    congrArg Prod.snd (program.run_calm service free)
  rw [← same]
  exact uses.run_related refl trans step .calm { state }

end Related

/-- What every allowed request preserves, a run preserves. -/
theorem Uses.run_preserves {allowed : Request → Prop} {holds : σ → Prop}
    (step : ∀ request state, allowed request → holds state → holds (service.handle request state).2)
    {program : Program α} (uses : program.Uses allowed) (schedule : Schedule) {run : Run σ}
    (held : holds run.state) : holds (program.run service schedule run).2.state := by
  let related (before after : σ) : Prop := holds before → holds after
  have same (state : σ) : related state state := fun held => held
  have onward {first second third : σ} :
      related first second → related second third → related first third :=
    fun before later held => later (before held)
  suffices kept : related run.state (program.run service schedule run).2.state from kept held
  exact uses.run_related same onward step schedule run

end Program

end KeySteward
