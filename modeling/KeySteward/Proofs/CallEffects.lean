import KeySteward.Proofs.MemoryCalls

/-! What a single call leaves behind, for every call and every state. The refusals that are to come
form a queue for each operation. A call takes the first one of its own queue, or performs its work if
there is none; only a call that performs its work to the end may change what is stored. -/

namespace KeySteward.Memory

variable {memory : Memory} {request : Request} {operation : String} {error : ServiceError}

def refusalsOf (operation : String) (refusals : List (String × ServiceError)) : List ServiceError :=
  (refusals.filter fun refusal => refusal.1 = operation).map Prod.snd

/-- The refusals to come of an operation, in the order in which its calls are to be refused. -/
def queued (memory : Memory) (operation : String) : List ServiceError :=
  refusalsOf operation memory.refusals

section Queues

variable {refusals rest : List (String × ServiceError)}

private theorem refusalsOf_cons_same (error : ServiceError) (refusals : List (String × ServiceError)) :
    refusalsOf operation ((operation, error) :: refusals) = error :: refusalsOf operation refusals := by
  simp [refusalsOf]

private theorem refusalsOf_cons_other {refusal : String × ServiceError} (apart : refusal.1 ≠ operation)
    (refusals : List (String × ServiceError)) :
    refusalsOf operation (refusal :: refusals) = refusalsOf operation refusals := by
  simp [refusalsOf, apart]

theorem takeRefusal?_eq_none_iff :
    takeRefusal? operation refusals = none ↔ refusalsOf operation refusals = [] := by
  induction refusals with
  | nil => simp [takeRefusal?, refusalsOf]
  | cons refusal others ih =>
    obtain ⟨name, error⟩ := refusal
    by_cases same : name = operation
    · subst same
      simp [takeRefusal?, refusalsOf_cons_same]
    · rw [refusalsOf_cons_other same, ← ih]
      simp [takeRefusal?, same]

/-- The refusal that is taken stood at the head of its queue, and nothing else is taken. -/
theorem refusalsOf_of_taken (taken : takeRefusal? operation refusals = some (error, rest)) :
    refusalsOf operation refusals = error :: refusalsOf operation rest ∧
      ∀ other, other ≠ operation → refusalsOf other rest = refusalsOf other refusals := by
  induction refusals generalizing rest with
  | nil => cases taken
  | cons refusal others ih =>
    obtain ⟨name, first⟩ := refusal
    simp only [takeRefusal?] at taken
    split at taken
    next same =>
      cases taken
      obtain rfl : name = operation := same
      exact ⟨refusalsOf_cons_same _ _, fun other apart => (refusalsOf_cons_other apart.symm _).symm⟩
    next differs =>
      obtain ⟨⟨_, left⟩, later, same⟩ := Option.map_eq_some_iff.mp taken
      cases same
      obtain ⟨head, kept⟩ := ih later
      refine ⟨?_, fun other apart => ?_⟩
      · rw [refusalsOf_cons_other differs, refusalsOf_cons_other differs, head]
      · by_cases own : name = other
        · subst own
          rw [refusalsOf_cons_same, refusalsOf_cons_same, kept name apart]
        · rw [refusalsOf_cons_other own, refusalsOf_cons_other own, kept other apart]

end Queues

theorem handle_refused {rest : List (String × ServiceError)}
    (taken : takeRefusal? request.operation memory.refusals = some (error, rest)) :
    service.handle request memory =
      (.error (.refused error), { memory.noted request with refusals := rest }) := by
  simp only [service, handle, taken]
  rfl

theorem handle_performed_frame
    (untaken : takeRefusal? request.operation memory.refusals = none) :
    (service.handle request memory).2.journal = memory.journal ++ [request] ∧
      (service.handle request memory).2.refusals = memory.refusals := by
  rw [handle_of_unrefused untaken]
  cases performed : perform request (memory.noted request) with
  | error fault => exact ⟨rfl, rfl⟩
  | ok done =>
    obtain ⟨_, _, _, same⟩ := perform_frame performed
    rw [← same]
    exact ⟨rfl, rfl⟩

/-- Without an answer, or where the call only asks for something, all stays that is stored. -/
theorem handle_store (idle : (∃ fault, (service.handle request memory).1 = .error fault) ∨
      request.isMutating = false) :
    (service.handle request memory).2.store = memory.store := by
  cases taken : takeRefusal? request.operation memory.refusals with
  | some refusal =>
    rw [handle_refused taken]
    rfl
  | none =>
    rw [handle_of_unrefused taken] at idle ⊢
    cases performed : perform request (memory.noted request) with
    | error fault => rfl
    | ok done =>
      rw [performed] at idle
      obtain ⟨_, failed⟩ | asks := idle
      · cases failed
      · have same : done.2 = memory.noted request := perform_asks asks performed
        change done.2.store = memory.store
        rw [same]
        rfl

/-- A call without an answer, and a call that only asks for something, leave everything that is stored
as it was. Every call comes to stand at the end of the journal. Where refusals of its operation are to
come the call is answered with the first one, and this one alone is gone; else all are left. -/
theorem handle_effects (memory : Memory) (request : Request) :
    let result := (service.handle request memory).1
    let after := (service.handle request memory).2
    ((∃ fault, result = .error fault) ∨ request.isMutating = false → after.store = memory.store) ∧
      after.journal = memory.journal ++ [request] ∧
      match memory.queued request.operation with
      | error :: rest =>
        result = .error (.refused error) ∧ after.queued request.operation = rest ∧
          ∀ other, other ≠ request.operation → after.queued other = memory.queued other
      | [] => ∀ operation, after.queued operation = memory.queued operation := by
  intro result after
  refine ⟨handle_store, ?_⟩
  cases taken : takeRefusal? request.operation memory.refusals with
  | some refusal =>
    obtain ⟨error, rest⟩ := refusal
    obtain ⟨head, kept⟩ := refusalsOf_of_taken taken
    have queue : memory.queued request.operation = error :: refusalsOf request.operation rest := head
    simp only [result, after, handle_refused taken, queue]
    exact ⟨rfl, trivial, rfl, kept⟩
  | none =>
    have queue : memory.queued request.operation = [] := takeRefusal?_eq_none_iff.mp taken
    obtain ⟨journal, refusals⟩ := handle_performed_frame taken
    rw [queue]
    exact ⟨journal, fun operation => congrArg (refusalsOf operation) refusals⟩

end KeySteward.Memory
