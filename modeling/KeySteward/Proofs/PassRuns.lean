import KeySteward.Pass.Run

/-! What a run of a program consists of. Its exchanges are the calls that it makes, in order, each
with what comes of it. Runs and exchanges of a sequence are put together from those of its parts,
so a fact about a pass is assembled from facts about the functions that it is made of. -/

namespace KeySteward

/-- A call with what comes of it. Nothing comes of a call in which the service breaks off. -/
structure Exchange where
  request : Request
  result : Option (Except Failure request.Answer)

namespace Exchange

def code? (exchange : Exchange) : Option String :=
  match exchange.result with
  | some (.error failure) => failure.code?
  | _ => none

/-- The service answered that what the call is about does not exist. -/
def IsNotFound (exchange : Exchange) : Prop :=
  exchange.code? = some ServiceError.notFoundCode

end Exchange

namespace Failure

/-- The failures of a call that come from outside the service. -/
def IsInterruption (failure : Failure) : Prop :=
  failure = .cancelled ∨ failure = .deadlineExceeded

theorem IsInterruption.isNotFound {failure : Failure} (interruption : failure.IsInterruption) :
    failure.isNotFound = false := by
  rcases interruption with rfl | rfl <;> rfl

end Failure

namespace Program

variable {σ α β ε : Type} {service : Service σ} {schedule : Schedule}

/-- The calls of a run in their order, those that are refused at once included. -/
def exchanges (service : Service σ) (schedule : Schedule) : Program α → Run σ → List Exchange
  | .done _, _ => []
  | .call request next, run =>
    match run.call service schedule request with
    | (some result, after) =>
      ⟨request, some result⟩ :: (next result).exchanges service schedule after
    | (none, _) => [⟨request, none⟩]
  | .unfinished, _ => []

theorem run_bind (program : Program α) (next : α → Program β) (run : Run σ) :
    (program >>= next).run service schedule run =
      match program.run service schedule run with
      | (.finished value, middle) => (next value).run service schedule middle
      | (.crashed, last) => (.crashed, last)
      | (.unfinished, last) => (.unfinished, last) := by
  change (program.bind next).run _ _ _ = _
  induction program generalizing run with
  | done value => rfl
  | unfinished => rfl
  | call request rest ih =>
    simp only [Program.run, bind]
    rcases run.call service schedule request with ⟨_ | result, middle⟩
    · rfl
    · exact ih result middle

theorem exchanges_bind (program : Program α) (next : α → Program β) (run : Run σ) :
    (program >>= next).exchanges service schedule run =
      program.exchanges service schedule run ++
        match program.run service schedule run with
        | (.finished value, middle) => (next value).exchanges service schedule middle
        | _ => [] := by
  change (program.bind next).exchanges _ _ _ = _
  induction program generalizing run with
  | done value => rfl
  | unfinished => rfl
  | call request rest ih =>
    simp only [Program.run, exchanges, bind]
    rcases run.call service schedule request with ⟨_ | result, middle⟩
    · rfl
    · exact congrArg _ (ih result middle)

theorem run_bind_finished {program : Program α} (next : α → Program β) {run after : Run σ} {value}
    (ends : program.run service schedule run = (.finished value, after)) :
    (program >>= next).run service schedule run = (next value).run service schedule after := by
  rw [run_bind, ends]

theorem exchanges_bind_finished {program : Program α} (next : α → Program β) {run after : Run σ}
    {value} (ends : program.run service schedule run = (.finished value, after)) :
    (program >>= next).exchanges service schedule run =
      program.exchanges service schedule run ++ (next value).exchanges service schedule after := by
  rw [exchanges_bind, ends]

theorem run_bind_inv {program : Program α} {next : α → Program β} {run last : Run σ} {value}
    (ends : (program >>= next).run service schedule run = (.finished value, last)) :
    ∃ middle after, program.run service schedule run = (.finished middle, after) ∧
      (next middle).run service schedule after = (.finished value, last) := by
  rw [run_bind] at ends
  generalize program.run service schedule run = reached at ends ⊢
  rcases reached with ⟨middle | _ | _, after⟩
  · exact ⟨middle, after, rfl, ends⟩
  · cases ends
  · cases ends

/-- A sequence ends where its first part does, or goes on from where that has finished. -/
theorem run_bind_cases (program : Program α) (next : α → Program β) (run : Run σ) :
    ((program >>= next).run service schedule run).2 = (program.run service schedule run).2 ∨
      ∃ value after, program.run service schedule run = (.finished value, after) ∧
        (program >>= next).run service schedule run = (next value).run service schedule after := by
  rw [run_bind]
  rcases program.run service schedule run with ⟨value | _ | _, after⟩
  · exact .inr ⟨value, after, rfl, rfl⟩
  · exact .inl rfl
  · exact .inl rfl

theorem exchanges_bind_cases (program : Program α) (next : α → Program β) (run : Run σ) :
    (program >>= next).exchanges service schedule run = program.exchanges service schedule run ∨
      ∃ value after, program.run service schedule run = (.finished value, after) ∧
        (program >>= next).exchanges service schedule run =
          program.exchanges service schedule run ++ (next value).exchanges service schedule after := by
  rw [exchanges_bind]
  rcases program.run service schedule run with ⟨value | _ | _, after⟩
  · exact .inr ⟨value, after, rfl, rfl⟩
  · exact .inl (List.append_nil _)
  · exact .inl (List.append_nil _)

theorem mem_exchanges_bind {program : Program α} {next : α → Program β} {run : Run σ}
    {exchange : Exchange} (member : exchange ∈ (program >>= next).exchanges service schedule run) :
    exchange ∈ program.exchanges service schedule run ∨
      ∃ value after, program.run service schedule run = (.finished value, after) ∧
        exchange ∈ (next value).exchanges service schedule after := by
  rcases exchanges_bind_cases program next run with same | ⟨value, after, ends, same⟩
  · exact .inl (same ▸ member)
  · rw [same] at member
    exact (List.mem_append.mp member).imp_right fun inside => ⟨value, after, ends, inside⟩

theorem exchanges_bind_prefix (program : Program α) (next : α → Program β) (run : Run σ) :
    program.exchanges service schedule run <+:
      (program >>= next).exchanges service schedule run := by
  rw [exchanges_bind]
  exact List.prefix_append _ _

theorem exists_exchange_call (request : Request) (next : Except Failure request.Answer → Program α)
    (run : Run σ) :
    ∃ exchange ∈ (call request next).exchanges service schedule run,
      exchange.request = request := by
  simp only [exchanges]
  split
  · exact ⟨_, List.mem_cons_self, rfl⟩
  · exact ⟨_, List.mem_cons_self, rfl⟩

/-- Every request of the program is an allowed one, whatever its calls result in. -/
def Uses (allowed : Request → Prop) : Program α → Prop
  | .done _ => True
  | .call request next => allowed request ∧ ∀ result, (next result).Uses allowed
  | .unfinished => True

variable {allowed : Request → Prop}

theorem Uses.bind {program : Program α} {next : α → Program β} (first : program.Uses allowed)
    (rest : ∀ value, (next value).Uses allowed) : (program >>= next).Uses allowed := by
  change (program.bind next).Uses allowed
  induction program with
  | done value => exact rest value
  | unfinished => trivial
  | call request next ih => exact ⟨first.1, fun result => ih result (first.2 result)⟩

theorem Uses.mono {wider : Request → Prop} {program : Program α} (uses : program.Uses allowed)
    (implies : ∀ request, allowed request → wider request) : program.Uses wider := by
  induction program with
  | done value => trivial
  | unfinished => trivial
  | call request next ih =>
    exact ⟨implies request uses.1, fun result => ih result (uses.2 result)⟩

theorem uses_any (program : Program α) : program.Uses fun _ => True := by
  induction program with
  | done value => trivial
  | unfinished => trivial
  | call request next ih => exact ⟨trivial, ih⟩

theorem Uses.exchanges {program : Program α} (uses : program.Uses allowed) {run : Run σ}
    {exchange : Exchange} (member : exchange ∈ program.exchanges service schedule run) :
    allowed exchange.request := by
  induction program generalizing run with
  | done value => cases member
  | unfinished => cases member
  | call request next ih =>
    simp only [Program.exchanges] at member
    split at member
    next result after called =>
      rcases List.mem_cons.mp member with rfl | inside
      · exact uses.1
      · exact ih result (uses.2 result) inside
    next =>
      rw [List.mem_singleton] at member
      subst member
      exact uses.1

end Program

end KeySteward
