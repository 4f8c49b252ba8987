import KeySteward.Proofs.MemoryChanges
import KeySteward.Proofs.PassFaults

/-! The service in memory with faults. Any call may be refused for a reason other than that something
does not exist. What the service holds is then what it would hold without faults after the calls that
are answered, as neither the journal nor the refusals to come matter to an answer. -/

namespace KeySteward.Memory

variable {memory model after : Memory} {faults : Nat → Option ServiceError}

/-- The service with faults: a call that has one, counted from zero, is written into the journal and
refused. -/
def faulty (faults : Nat → Option ServiceError) : Service (Nat × Memory) where
  handle request state :=
    match faults state.1 with
    | some error => (.error (.refused error), (state.1 + 1, state.2.noted request))
    | none => ((service.handle request state.2).1, (state.1 + 1, (service.handle request state.2).2))

def bare (memory : Memory) : Memory :=
  { memory with journal := [], refusals := [] }

def withoutRefusals (memory : Memory) : Memory :=
  { memory with refusals := [] }

private theorem perform_bare (request : Request) (memory : Memory) :
    perform request memory.bare =
      (perform request memory).map fun done => (done.1, done.2.bare) := by
  have found (name : String) : memory.bare.lookup name = memory.lookup name := rfl
  have store : memory.bare.store = memory.store := rfl
  have config : memory.bare.config = memory.config := rfl
  cases request
  case createKey | listAliases => rfl
  case describeKey name | getKeyRotationStatus name | getKeyPolicy name _ | enableKeyRotation name |
      disableKeyRotation name | tagResource name _ | untagResource name _ =>
    simp only [perform, changeKey, found]
    cases memory.lookup name <;> rfl
  case putKeyPolicy change =>
    simp only [perform, changeKey, found]
    cases memory.lookup change.keyId <;> rfl
  case listResourceTags name marker | listGrants name marker =>
    simp only [perform, found]
    cases memory.lookup name with
    | error fault => rfl
    | ok held => cases startOf marker <;> rfl
  case replicateKey input =>
    simp only [perform, replicateKey, found]
    cases memory.lookup input.keyId with
    | error fault => rfl
    | ok held =>
      change (if _ then _ else _ : Except Fault _) = Except.map _ (if _ then _ else _)
      split <;> rfl
  case scheduleKeyDeletion name days =>
    simp only [perform, scheduleKeyDeletion, found, config]
    cases memory.lookup name with
    | error fault => rfl
    | ok held =>
      change (if _ then _ else _ : Except Fault _) = Except.map _ (if _ then _ else _)
      split
      · rfl
      · cases memory.config.now.addDays? days <;> rfl
  case createAlias aliasName target =>
    simp only [perform, createAlias, found, store]
    split
    · rfl
    · cases memory.lookup target <;> rfl
  case updateAlias aliasName target =>
    simp only [perform, updateAlias, found, store]
    cases memory.lookup target with
    | error fault => rfl
    | ok held => cases memory.store.aliases.get? aliasName <;> rfl
  case deleteAlias aliasName =>
    simp only [perform, deleteAlias, store]
    split <;> rfl
  case createGrant input =>
    simp only [perform, createGrant, found, store]
    split
    · rfl
    · cases memory.lookup input.keyId with
      | error fault => rfl
      | ok held =>
        simp only [bind, Except.bind]
        split <;> rfl
  case retireGrant name grantId =>
    simp only [perform, retireGrant, found, store]
    cases memory.lookup name with
    | error fault => rfl
    | ok held =>
      change (if _ then _ else _ : Except Fault _) = Except.map _ (if _ then _ else _)
      split <;> rfl

/-- What the service with faults holds is what the model holds, and no fault or refusal to come says
that something does not exist. -/
structure Resembles (state : Nat × Memory) (model : Memory) : Prop where
  bare : state.2.bare = model.bare
  unrefused : model.refusals = []
  harmless : ∀ refusal ∈ state.2.refusals, refusal.2.isNotFound = false

namespace Resembles

variable {state : Nat × Memory}

theorem self (harmless : ∀ refusal ∈ state.2.refusals, refusal.2.isNotFound = false) :
    Resembles state state.2.withoutRefusals :=
  ⟨rfl, rfl, harmless⟩

theorem store (like : Resembles state model) : state.2.store = model.store := by
  have same := congrArg Memory.store like.bare
  exact same

theorem config (like : Resembles state model) : state.2.config = model.config := by
  have same := congrArg Memory.config like.bare
  exact same

theorem issuedKeys (like : Resembles state model) : state.2.issuedKeys = model.issuedKeys := by
  have same := congrArg Memory.issuedKeys like.bare
  exact same

theorem rotationStatusUnavailable (like : Resembles state model) :
    state.2.rotationStatusUnavailable = model.rotationStatusUnavailable := by
  have same := congrArg Memory.rotationStatusUnavailable like.bare
  exact same

theorem lookup (like : Resembles state model) (name : String) :
    state.2.withoutRefusals.lookup name = model.lookup name := by
  simp only [Memory.lookup, withoutRefusals, like.store]

end Resembles

/-- No fault says that something does not exist. -/
def Harmless (faults : Nat → Option ServiceError) : Prop :=
  ∀ count error, faults count = some error → error.isNotFound = false

def faultAt (place : Nat) (error : ServiceError) (count : Nat) : Option ServiceError :=
  if count = place then some error else none

theorem harmless_faultAt (place : Nat) {error : ServiceError} (present : error.isNotFound = false) :
    Harmless (faultAt place error) := by
  intro count other fault
  unfold faultAt at fault
  split at fault
  · cases fault
    exact present
  · cases fault

theorem Resembles.handle {state : Nat × Memory} (like : Resembles state model) (count : Nat)
    {request : Request} (unrefused : takeRefusal? request.operation state.2.refusals = none) :
    (service.handle request state.2).1 = (service.handle request model).1 ∧
      Resembles (count, (service.handle request state.2).2) (service.handle request model).2 := by
  have none : (service.handle request model).2.refusals = [] :=
    (handle_continues request model).unrefused like.unrefused
  have harmless : ∀ refusal ∈ (service.handle request state.2).2.refusals,
      refusal.2.isNotFound = false :=
    fun refusal member => like.harmless refusal ((handle_continues request state.2).refusals member)
  have same : (perform request (state.2.noted request)).map (fun done => (done.1, done.2.bare)) =
      (perform request (model.noted request)).map fun done => (done.1, done.2.bare) := by
    rw [← perform_bare, ← perform_bare]
    exact congrArg (perform request) like.bare
  have untaken : takeRefusal? request.operation model.refusals = Option.none := by
    rw [like.unrefused]
    rfl
  rw [handle_of_unrefused unrefused] at harmless ⊢
  rw [handle_of_unrefused untaken] at none ⊢
  cases performed : perform request (state.2.noted request) with
  | ok done =>
    cases modelled : perform request (model.noted request) with
    | ok other =>
      simp only [performed, modelled, Except.map, Except.ok.injEq, Prod.mk.injEq] at same harmless none ⊢
      exact ⟨same.1, same.2, none, harmless⟩
    | error fault =>
      rw [performed, modelled] at same
      cases same
  | error fault =>
    cases modelled : perform request (model.noted request) with
    | ok other =>
      rw [performed, modelled] at same
      cases same
    | error other =>
      rw [performed, modelled] at same
      simp only [performed, modelled] at harmless none
      cases same
      exact ⟨rfl, like.bare, none, harmless⟩

theorem faulty_imitates (harmless : Harmless faults) :
    (faulty faults).Imitates service Resembles := by
  intro request state model like
  simp only [faulty]
  cases fault : faults state.1 with
  | some error =>
    exact .inl ⟨error, _, rfl, harmless _ _ fault, like.bare, like.unrefused, like.harmless⟩
  | none =>
    cases taken : takeRefusal? request.operation state.2.refusals with
    | none => exact .inr (like.handle _ taken)
    | some refusal =>
      obtain ⟨listed, left⟩ := takeRefusal?_eq_some taken
      left
      simp only [service, Memory.handle, taken]
      exact ⟨refusal.1, _, rfl, like.harmless _ listed, like.bare, like.unrefused,
        fun other member => like.harmless other (left member)⟩

/-- What the allowed requests keep, and does not depend on the journal, a run with faults keeps. -/
theorem run_faulty_related {α : Type} {allowed : Request → Prop} (related : Memory → Memory → Prop)
    (refl : ∀ memory, related memory memory)
    (trans : ∀ {first second third},
      related first second → related second third → related first third)
    (noted : ∀ request memory, related memory (memory.noted request))
    (step : ∀ request memory, allowed request → related memory (service.handle request memory).2)
    {program : Program α} (uses : program.Uses allowed) (schedule : Schedule)
    (run : Run (Nat × Memory)) :
    related run.state.2 (program.run (faulty faults) schedule run).2.state.2 := by
  let lifted (before after : Nat × Memory) : Prop := related before.2 after.2
  have handled (request : Request) (state : Nat × Memory) (permitted : allowed request) :
      lifted state ((faulty faults).handle request state).2 := by
    simp only [lifted, faulty]
    split
    · exact noted request state.2
    · exact step request state.2 permitted
  have same (state : Nat × Memory) : lifted state state := refl state.2
  have onward {first second third : Nat × Memory} :
      lifted first second → lifted second third → lifted first third := trans
  exact uses.run_related same onward handled schedule run

theorem run_faulty_continues {α : Type} (faults : Nat → Option ServiceError) (program : Program α)
    (schedule : Schedule) (run : Run (Nat × Memory)) :
    run.state.2.Continues (program.run (faulty faults) schedule run).2.state.2 :=
  run_faulty_related Continues Continues.refl Continues.trans
    (fun _ _ => ⟨rfl, rfl, List.Subset.refl _⟩) (fun request memory _ => handle_continues request memory)
    program.uses_any schedule run

theorem run_faulty_isKeyed {α : Type} (faults : Nat → Option ServiceError) (program : Program α)
    (schedule : Schedule) {run : Run (Nat × Memory)} (keyed : run.state.2.store.IsKeyed) :
    (program.run (faulty faults) schedule run).2.state.2.store.IsKeyed := by
  let holds (state : Nat × Memory) : Prop := state.2.store.IsKeyed
  have step (request : Request) (state : Nat × Memory) (_ : True) (keyed : holds state) :
      holds ((faulty faults).handle request state).2 := by
    simp only [holds, faulty]
    split
    · exact keyed
    · exact KeyStore.IsKeyed.handle keyed request
  have held : holds run.state := keyed
  have kept : holds (program.run (faulty faults) schedule run).2.state :=
    program.uses_any.run_preserves step schedule held
  exact kept

end KeySteward.Memory
