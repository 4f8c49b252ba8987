import KeySteward.Proofs.PassInterruption

/-! Rules for passes and updates, which are programs that may fail. `Pass.Yields` and `Pass.Fails`
say how such a program ends when nothing disturbs it; every way of putting programs together has a
rule that says when the whole yields or fails in terms of its parts. `Pass.EndsIn` says in what such a
program can end at all, over any service and whatever happens around its calls. -/

namespace KeySteward

namespace Program

variable {σ α β : Type} {service : Service σ} {schedule : Schedule}

/-- Every value that the program ends with is as stated, whatever its calls come to. -/
def Ensures (holds : α → Prop) : Program α → Prop
  | .done value => holds value
  | .call _ next =>
    ∀ result, (∀ failure, result = .error failure → failure.IsOfCall) → (next result).Ensures holds
  | .unfinished => True

namespace Ensures

variable {holds : α → Prop} {program : Program α}

theorem bind {onward : β → Prop} {next : α → Program β} (first : program.Ensures holds)
    (rest : ∀ value, holds value → (next value).Ensures onward) :
    (program >>= next).Ensures onward := by
  change (program.bind next).Ensures onward
  induction program with
  | done value => exact rest value first
  | unfinished => trivial
  | call request after ih => exact fun result ofCall => ih result (first result ofCall)

theorem mono {wider : α → Prop} (ensures : program.Ensures holds)
    (implies : ∀ value, holds value → wider value) : program.Ensures wider := by
  induction program with
  | done value => exact implies value ensures
  | unfinished => trivial
  | call request next ih => exact fun result ofCall => ih result (ensures result ofCall)

private theorem run {run last : Run σ} {value : α} (ensures : program.Ensures holds)
    (ends : program.run service schedule run = (.finished value, last)) : holds value := by
  induction program generalizing run with
  | done other =>
    cases ends
    exact ensures
  | unfinished => cases ends
  | call request next ih =>
    have called := run.call_gives service schedule request
    simp only [Program.run] at ends
    generalize run.call service schedule request = outcome at called ends
    obtain ⟨_ | result, middle⟩ := outcome
    · cases ends
    · refine ih result (ensures result fun failure failed => ?_) ends
      subst failed
      exact called.isOfCall

end Ensures

end Program

@[simp] theorem Failure.isNotFound_ofLookup (failure : Failure) :
    failure.ofLookup.isNotFound = failure.isNotFound := by
  unfold ofLookup
  split
  next missing => exact missing.symm
  next => rfl

namespace Pass

variable {σ α β ε δ ρ : Type}

/-- Undisturbed, the program succeeds with a value and leaves a state. -/
def Yields (service : Service σ) (pass : ExceptT ε Program α) (state : σ) (value : α) (after : σ) :
    Prop :=
  pass.run.eval service state = (.finished (.ok value), after)

/-- Undisturbed, the program fails with an error and leaves a state. -/
def Fails (service : Service σ) (pass : ExceptT ε Program α) (state : σ) (error : ε) (after : σ) :
    Prop :=
  pass.run.eval service state = (.finished (.error error), after)

variable {service : Service σ} {schedule : Schedule} {state after : σ}

/-- The result of a part is no failure of the whole, so the whole goes on with it. -/
theorem run_result_bind (pass : Pass α) (next : Except Failure α → ExceptT ε Program β) :
    (pass.result >>= next).run = pass.run >>= fun result => (next result).run := by
  simp only [result, ExceptT.run_bind, ExceptT.run_lift, bind_map_left]

theorem run_lift_bind (program : Program α) (next : α → Update ρ β) :
    ((liftM program : Update ρ α) >>= next).run = program >>= fun value => (next value).run := by
  rw [ExceptT.run_bind]
  change (Except.mapError _ <$> Except.ok <$> program) >>= _ = _
  simp only [bind_map_left]
  rfl

theorem run_lift_call_bind (request : Request) (next : request.Answer → Update ρ β) :
    ((liftM (call request) : Update ρ _) >>= next).run = .call request fun
      | .ok answer => (next answer).run
      | .error failure => .done (.error ⟨none, failure⟩) := by
  change Program.call request _ = _
  congr 1
  funext result
  cases result <;> rfl

theorem run_call {request : Request} {run last : Run σ}
    {result : Except Failure request.Answer}
    (ends : (call request).run.run service schedule run = (.finished result, last)) :
    run.call service schedule request = (some result, last) ∧
      (call request).run.exchanges service schedule run = [⟨request, some result⟩] := by
  change (Program.call request .done).run _ _ _ = _ at ends
  change _ ∧ (Program.call request .done).exchanges _ _ _ = _
  simp only [Program.run, Program.exchanges] at ends ⊢
  generalize run.call service schedule request = outcome at ends ⊢
  obtain ⟨_ | other, after⟩ := outcome
  · cases ends
  · cases ends
    exact ⟨rfl, rfl⟩

/-- A sequence fails with its first part, or its first part has succeeded and the rest fails. -/
theorem run_bind_fails {pass : ExceptT ε Program α} {next : α → ExceptT ε Program β}
    {run last : Run σ} {error : ε}
    (ends : (pass >>= next).run.run service schedule run = (.finished (.error error), last)) :
    (pass.run.run service schedule run = (.finished (.error error), last) ∧
      (pass >>= next).run.exchanges service schedule run =
        pass.run.exchanges service schedule run) ∨
    ∃ value middle, pass.run.run service schedule run = (.finished (.ok value), middle) ∧
      (next value).run.run service schedule middle = (.finished (.error error), last) ∧
      (pass >>= next).run.exchanges service schedule run =
        pass.run.exchanges service schedule run ++
          (next value).run.exchanges service schedule middle := by
  rw [ExceptT.run_bind] at ends ⊢
  obtain ⟨result, middle, first, rest⟩ := Program.run_bind_inv ends
  rw [Program.exchanges_bind_finished _ first]
  cases result with
  | ok value => exact .inr ⟨value, middle, first, rest, rfl⟩
  | error other =>
    cases rest
    exact .inl ⟨first, List.append_nil _⟩

theorem Yields.run_calm {pass : ExceptT ε Program α} {run : Run σ} {value : α}
    (yields : Yields service pass run.state value after) (free : run.IsFree) :
    ∃ last, pass.run.run service .calm run = (.finished (.ok value), last) ∧ last.state = after :=
  Program.run_calm_finished yields free

section Yields

theorem yields_pure {value result : α} :
    Yields service (pure value : ExceptT ε Program α) state result after ↔
      value = result ∧ state = after := by
  simp only [Yields, ExceptT.run_pure]
  constructor
  · intro same
    cases same
    exact ⟨rfl, rfl⟩
  · rintro ⟨rfl, rfl⟩
    rfl

theorem yields_throw {error : ε} {result : α} :
    ¬ Yields service (throw error : ExceptT ε Program α) state result after := by
  intro same
  cases same

theorem fails_throw {error other : ε} :
    Fails service (throw error : ExceptT ε Program α) state other after ↔
      error = other ∧ state = after := by
  constructor
  · intro same
    cases same
    exact ⟨rfl, rfl⟩
  · rintro ⟨rfl, rfl⟩
    rfl

theorem yields_call {request : Request} {answer : request.Answer} :
    Yields service (call request) state answer after ↔
      service.handle request state = (.ok answer, after) := by
  simp only [Yields, call, ExceptT.run_mk, Program.eval]
  split
  all_goals
    next handled => simp [handled]

theorem fails_call {request : Request} {failure : Failure} :
    Fails service (call request) state failure after ↔
      ∃ error, failure = .service error ∧
        service.handle request state = (.error (.refused error), after) := by
  simp only [Fails, call, ExceptT.run_mk, Program.eval]
  split
  next handled => simp [handled]
  next error reached handled =>
    simp only [handled, Prod.mk.injEq, Ending.finished.injEq, Except.error.injEq, Fault.refused.injEq]
    constructor
    · rintro ⟨rfl, rfl⟩
      exact ⟨error, rfl, rfl, rfl⟩
    · rintro ⟨_, rfl, rfl, rfl⟩
      exact ⟨rfl, rfl⟩
  next handled => simp [handled]

theorem yields_bind {pass : ExceptT ε Program α} {next : α → ExceptT ε Program β} {value : β} :
    Yields service (pass >>= next) state value after ↔
      ∃ middle reached, Yields service pass state middle reached ∧
        Yields service (next middle) reached value after := by
  simp only [Yields, ExceptT.run_bind]
  constructor
  · intro ends
    obtain ⟨result, reached, first, rest⟩ := Program.eval_bind_inv ends
    cases result with
    | ok middle => exact ⟨middle, reached, first, rest⟩
    | error error => cases rest
  · rintro ⟨middle, reached, first, rest⟩
    exact (Program.eval_bind_finished _ first).trans rest

theorem fails_bind {pass : ExceptT ε Program α} {next : α → ExceptT ε Program β} {error : ε} :
    Fails service (pass >>= next) state error after ↔
      Fails service pass state error after ∨
      ∃ middle reached, Yields service pass state middle reached ∧
        Fails service (next middle) reached error after := by
  simp only [Yields, Fails, ExceptT.run_bind]
  constructor
  · intro ends
    obtain ⟨result, reached, first, rest⟩ := Program.eval_bind_inv ends
    cases result with
    | ok middle => exact .inr ⟨middle, reached, first, rest⟩
    | error other =>
      cases rest
      exact .inl first
  · rintro (first | ⟨middle, reached, first, rest⟩)
    · exact Program.eval_bind_finished _ first
    · exact (Program.eval_bind_finished _ first).trans rest

theorem yields_result_bind {pass : Pass α} {next : Except Failure α → ExceptT ε Program β}
    {value : β} :
    Yields service (pass.result >>= next) state value after ↔
      (∃ middle reached, Yields service pass state middle reached ∧
        Yields service (next (.ok middle)) reached value after) ∨
      ∃ failure reached, Fails service pass state failure reached ∧
        Yields service (next (.error failure)) reached value after := by
  simp only [Yields, Fails, run_result_bind]
  constructor
  · intro ends
    obtain ⟨result, reached, first, rest⟩ := Program.eval_bind_inv ends
    cases result with
    | ok middle => exact .inl ⟨middle, reached, first, rest⟩
    | error failure => exact .inr ⟨failure, reached, first, rest⟩
  · rintro (⟨middle, reached, first, rest⟩ | ⟨failure, reached, first, rest⟩)
    · exact (Program.eval_bind_finished _ first).trans rest
    · exact (Program.eval_bind_finished _ first).trans rest

private theorem yields_mapError {pass : ExceptT ε Program α} {rename : ε → δ} {value : α} :
    (Except.mapError rename <$> pass.run).eval service state = (.finished (.ok value), after) ↔
      Yields service pass state value after := by
  rw [map_eq_pure_bind]
  constructor
  · intro ends
    obtain ⟨result, reached, first, rest⟩ := Program.eval_bind_inv ends
    cases result with
    | ok middle =>
      cases rest
      exact first
    | error error => cases rest
  · intro yields
    exact Program.eval_bind_finished _ yields

theorem yields_lift {pass : Pass α} {value : α} :
    Yields service (liftM pass : Update ρ α) state value after ↔
      Yields service pass state value after :=
  yields_mapError

theorem yields_lookup {pass : Pass α} {value : α} :
    Yields service pass.lookup state value after ↔ Yields service pass state value after :=
  yields_mapError

theorem fails_lookup {pass : Pass α} {failure : Failure} :
    Fails service pass.lookup state failure after ↔
      ∃ original, Fails service pass state original after ∧ original.ofLookup = failure := by
  change (Except.mapError Failure.ofLookup <$> pass.run).eval service state = _ ↔ _
  rw [map_eq_pure_bind]
  constructor
  · intro ends
    obtain ⟨result, reached, first, rest⟩ := Program.eval_bind_inv ends
    cases result with
    | ok value => cases rest
    | error original =>
      cases rest
      exact ⟨original, first, rfl⟩
  · intro ⟨original, fails, renamed⟩
    subst renamed
    exact Program.eval_bind_finished _ fails

end Yields

section Uses

variable {allowed : Request → Prop}

theorem uses_call {request : Request} (permitted : allowed request) :
    (call request).run.Uses allowed :=
  ⟨permitted, fun _ => trivial⟩

theorem uses_bind {pass : ExceptT ε Program α} {next : α → ExceptT ε Program β}
    (first : pass.run.Uses allowed) (rest : ∀ value, (next value).run.Uses allowed) :
    (pass >>= next).run.Uses allowed := by
  rw [ExceptT.run_bind]
  apply first.bind
  intro result
  cases result with
  | ok value => exact rest value
  | error error => trivial

theorem uses_result_bind {pass : Pass α} {next : Except Failure α → ExceptT ε Program β}
    (first : pass.run.Uses allowed) (rest : ∀ result, (next result).run.Uses allowed) :
    (pass.result >>= next).run.Uses allowed := by
  rw [run_result_bind]
  exact first.bind rest

theorem uses_lift {pass : Pass α} (uses : pass.run.Uses allowed) :
    (liftM pass : Update ρ α).run.Uses allowed :=
  uses.bind fun _ => trivial

theorem uses_lookup {pass : Pass α} (uses : pass.run.Uses allowed) :
    pass.lookup.run.Uses allowed :=
  uses.bind fun _ => trivial

end Uses

/-- An interruption ends the program in an error that it is the cause of. -/
def GivesIn (cause : ε → Failure) (pass : ExceptT ε Program α) : Prop :=
  pass.run.GivesIn fun failure result => ∃ error, result = .error error ∧ cause error = failure

/-- So does every failure but the one that something does not exist. -/
def Heeds (cause : ε → Failure) (pass : ExceptT ε Program α) : Prop :=
  pass.run.Heeds fun failure result => ∃ error, result = .error error ∧ cause error = failure

section Heeds

variable {cause : ε → Failure}

theorem Heeds.bind {pass : ExceptT ε Program α} {next : α → ExceptT ε Program β}
    (first : Heeds cause pass) (rest : ∀ value, Heeds cause (next value)) :
    Heeds cause (pass >>= next) := by
  unfold Heeds
  rw [ExceptT.run_bind]
  apply Program.Heeds.bind first
  · rintro failure _ _ ⟨error, rfl, caused⟩
    exact ⟨_, rfl, error, rfl, caused⟩
  · intro result
    cases result with
    | ok value => exact rest value
    | error error => trivial

theorem Heeds.result_bind {pass : Pass α} {next : Except Failure α → ExceptT ε Program β}
    (first : Heeds id pass)
    (stops : ∀ failure, failure.isNotFound = false →
      ∃ error, next (.error failure) = throw error ∧ cause error = failure)
    (rest : ∀ result, Heeds cause (next result)) : Heeds cause (pass.result >>= next) := by
  unfold Heeds
  rw [run_result_bind]
  apply Program.Heeds.bind first
  · rintro failure _ present ⟨_, rfl, rfl⟩
    obtain ⟨error, same, caused⟩ := stops _ present
    exact ⟨_, same, error, rfl, caused⟩
  · exact rest

theorem Heeds.lift {pass : Pass α} (heeds : Heeds id pass) :
    Heeds FailedUpdate.failure (liftM pass : Update ρ α) := by
  apply Program.Heeds.bind heeds
  · rintro _ _ present ⟨failure, rfl, rfl⟩
    exact ⟨_, rfl, ⟨none, failure⟩, rfl, rfl⟩
  · exact fun _ => trivial

theorem Heeds.lookup {pass : Pass α} (heeds : Heeds id pass) : Heeds id pass.lookup := by
  apply Program.Heeds.bind heeds
  · rintro _ _ present ⟨failure, rfl, rfl⟩
    exact ⟨_, rfl, failure.ofLookup, rfl, if_neg (by simpa using present)⟩
  · exact fun _ => trivial

theorem Heeds.givesIn {pass : ExceptT ε Program α} (heeds : Heeds cause pass) :
    GivesIn cause pass :=
  Program.Heeds.givesIn heeds

end Heeds

section GivesIn

variable {cause : ε → Failure}

theorem GivesIn.yields {pass : ExceptT ε Program α} (gives : GivesIn cause pass)
    {run after : Run σ} {value : α}
    (ends : pass.run.run service schedule run = (.finished (.ok value), after)) :
    Yields service pass run.state value after.state := by
  rcases Program.GivesIn.run gives service schedule run with
    ⟨failure, result, interruption, ⟨error, rfl, caused⟩, finished⟩ | undisturbed
  · rw [ends] at finished
    cases finished
  · rw [ends] at undisturbed
    exact undisturbed.symm

theorem Heeds.yields {pass : ExceptT ε Program α} (heeds : Heeds cause pass) {run after : Run σ}
    {value : α} (ends : pass.run.run service schedule run = (.finished (.ok value), after)) :
    Yields service pass run.state value after.state :=
  heeds.givesIn.yields ends

end GivesIn

section EndsIn

/-- Whatever its calls come to, the program ends in a value or an error of the given kind. -/
def EndsIn (returns : α → Prop) (throws : ε → Prop) (pass : ExceptT ε Program α) : Prop :=
  pass.run.Ensures fun
    | .ok value => returns value
    | .error error => throws error

namespace EndsIn

variable {returns : α → Prop} {throws : ε → Prop} {pass : ExceptT ε Program α}

theorem bind {middle : β → Prop} {first : ExceptT ε Program β} {next : β → ExceptT ε Program α}
    (begins : EndsIn middle throws first)
    (rest : ∀ value, middle value → EndsIn returns throws (next value)) :
    EndsIn returns throws (first >>= next) := by
  unfold EndsIn
  rw [ExceptT.run_bind]
  refine Program.Ensures.bind begins fun result held => ?_
  cases result with
  | ok value => exact rest value held
  | error error => exact held

theorem result_bind {middle : β → Prop} {failing : Failure → Prop} {first : Pass β}
    {next : Except Failure β → ExceptT ε Program α} (begins : EndsIn middle failing first)
    (succeeded : ∀ value, middle value → EndsIn returns throws (next (.ok value)))
    (failed : ∀ failure, failing failure → EndsIn returns throws (next (.error failure))) :
    EndsIn returns throws (first.result >>= next) := by
  unfold EndsIn
  rw [run_result_bind]
  refine Program.Ensures.bind begins fun result held => ?_
  cases result with
  | ok value => exact succeeded value held
  | error failure => exact failed failure held

theorem mono {wider : ε → Prop} (ends : EndsIn returns throws pass)
    (implies : ∀ error, throws error → wider error) : EndsIn returns wider pass := by
  refine Program.Ensures.mono ends fun result held => ?_
  cases result with
  | ok value => exact held
  | error error => exact implies error held

theorem lift {failing : Failure → Prop} {part : Pass α} (ends : EndsIn returns failing part) :
    EndsIn returns (fun failed => failing failed.failure) (liftM part : Update ρ α) :=
  Program.Ensures.bind ends fun result held => by
    cases result with
    | ok value => exact held
    | error failure => exact held

theorem call (request : Request) : EndsIn (fun _ => True) Failure.IsOfCall (Pass.call request) := by
  intro result ofCall
  cases result with
  | ok answer => trivial
  | error failure => exact ofCall failure rfl

theorem run_ok (ends : EndsIn returns throws pass) {run last : Run σ} {value : α}
    (succeeded : pass.run.run service schedule run = (.finished (.ok value), last)) :
    returns value := by
  unfold EndsIn at ends
  exact ends.run succeeded

theorem run_error (ends : EndsIn returns throws pass) {run last : Run σ} {error : ε}
    (failed : pass.run.run service schedule run = (.finished (.error error), last)) : throws error := by
  unfold EndsIn at ends
  exact ends.run failed

theorem yields (ends : EndsIn returns throws pass) {value : α}
    (succeeded : Yields service pass state value after) : returns value := by
  obtain ⟨last, course, -⟩ := Program.run_calm_from succeeded
  exact ends.run_ok course

end EndsIn

end EndsIn

end Pass

end KeySteward
