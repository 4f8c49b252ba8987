import KeySteward.Proofs.KeyCalls
import KeySteward.Proofs.MemoryFaults

/-! What a pass over a key leaves behind that faults or interruptions cut short. Reading leaves the
service as it is. A creation that is cut short has either not begun or is recorded in the status that
the pass leaves, and a change in place always records the key that was found. -/

namespace KeySteward

open Memory (Resembles faulty Harmless)

variable {σ : Type} {memory model : Memory} {stored : StoredKey} {scope : AccountScope} {pages : Nat}
variable {faults : Nat → Option ServiceError} {schedule : Schedule}
variable {run last : Run (Nat × Memory)}

def Request.CreatesKey (request : Request) : Prop :=
  ∃ input, request = .createKey input

theorem Request.AdjustsKey.not_createsKey {keyId : String} {request : Request}
    (adjusts : request.AdjustsKey keyId) : ¬ request.CreatesKey := by
  rintro ⟨input, rfl⟩
  cases adjusts

namespace Memory

/-- The key that the service makes of a spec next. -/
def nextKey (memory : Memory) (spec : KeySpec) : StoredKey where
  metadata := (memory.createKey spec.newKey).1
  policy := spec.policy
  tags := spec.tags

variable {spec : KeySpec}

theorem nextKey_congr {other : Memory} (config : other.config = memory.config)
    (issuedKeys : other.issuedKeys = memory.issuedKeys) (spec : KeySpec) :
    other.nextKey spec = memory.nextKey spec := by
  obtain ⟨_, _, _, _, _⟩ := memory
  obtain ⟨_, _, _, _, _⟩ := other
  dsimp only at config issuedKeys
  subst config issuedKeys
  rfl

theorem ReadOnly.nextKey {reached : Memory} (reads : memory.ReadOnly reached) (spec : KeySpec) :
    reached.nextKey spec = memory.nextKey spec :=
  nextKey_congr reads.continues.config reads.issuedKeys spec

theorem handle_createKey (unrefused : memory.refusals = []) (spec : KeySpec) :
    ∃ after, service.handle (.createKey spec.newKey) memory =
        (.ok (memory.nextKey spec).metadata, after) ∧
      memory.Continues after ∧ after.issuedKeys = memory.issuedKeys + 1 ∧
      after.key? (memory.nextKey spec).metadata.keyId = some (memory.nextKey spec) := by
  let noted := memory.noted (.createKey spec.newKey)
  have handled : service.handle (.createKey spec.newKey) memory =
      (.ok (memory.nextKey spec).metadata, (noted.createKey spec.newKey).2) :=
    handle_eq_ok.mpr ⟨by rw [unrefused]; rfl, rfl⟩
  have continues := handle_continues (.createKey spec.newKey) memory
  rw [handled] at continues
  refine ⟨_, handled, continues, rfl, ?_⟩
  have held := key?_createKey noted spec.newKey
  rw [show spec.newKey.tags = spec.tags.toTags from rfl, TagMap.ofTags_toTags] at held
  exact held

theorem nextKey_fits (memory : Memory) (spec : KeySpec) : spec.Fits (memory.nextKey spec).metadata :=
  (spec.observed_eq_iff _).mp (Key.observed_createKey spec memory)

private theorem nextKey_living (memory : Memory) (spec : KeySpec) :
    (memory.nextKey spec).metadata.isPendingDeletion = false := by
  simp only [nextKey, createKey, KeyMetadata.isPendingDeletion, Option.any_some]
  split <;> rfl

theorem adjustments_nextKey (available : Bool) :
    spec.adjustments available (memory.nextKey spec) =
      spec.rotationCalls available (memory.nextKey spec) := by
  have policy : Policy.observed spec.policy (memory.nextKey spec).policy = spec.policy := by
    cases asked : spec.policy with
    | none => rfl
    | some policy =>
      exact Policy.observed_eq_some_iff.mpr ⟨policy, asked, Policy.equivalent_refl policy⟩
  have tags : spec.tagCalls (memory.nextKey spec) = [] := if_pos rfl
  rw [KeySpec.adjustments, if_pos ⟨memory.nextKey_fits spec, memory.nextKey_living spec⟩,
    KeySpec.requiredCalls, KeySpec.policyCalls_eq_nil policy, tags]
  rfl

end Memory

namespace Key

variable {desired : Key}

/-- The status that a pass leaves: that of its result or of what has converged, or else the one
before. -/
def statusAfter (key : Key) (result : Except (FailedUpdate Key) Key) : Option KeyStatus :=
  match result with
  | .ok settled => settled.status
  | .error failed => (failed.converged.getD key).status

theorem sync_status {service : Service σ} {latest : Key} {run last : Run σ}
    {result : Except (FailedUpdate Key) Key}
    (ends : ((manager scope pages).sync desired latest).run.run service schedule run =
      (.finished result, last)) :
    desired.statusAfter result = latest.status ∨ desired.statusAfter result = desired.status := by
  unfold Manager.sync at ends
  dsimp only at ends
  split at ends
  next =>
    cases ends
    exact .inl rfl
  next =>
    simp only [manager, update] at ends
    split at ends
    next keyId named =>
      rw [Pass.run_lift_bind] at ends
      obtain ⟨outcome, middle, -, rest⟩ := Program.run_bind_inv ends
      split at rest
      · cases rest
        exact .inl rfl
      · split at rest
        · cases rest
          exact .inr rfl
        · cases rest
          exact .inl rfl
    next =>
      cases ends
      exact .inr rfl

theorem readOne_asks (scope : AccountScope) (pages : Nat) (key : Key) :
    (readOne scope pages key).run.Uses fun request => request.isMutating = false := by
  cases known : key.keyId? with
  | none =>
    simp only [readOne, known]
    trivial
  | some keyId => exact (readOne_uses scope pages known).mono fun _ reads => reads.isMutating

/-- A reading leaves the service as it is. It fails with a fault or an interruption, or it has the
result that it has without any. -/
theorem readOne_over_faults (harmless : Harmless faults) (like : Resembles run.state model)
    {result : Except Failure Key}
    (ends : (readOne scope pages desired).run.run (faulty faults) schedule run =
      (.finished result, last)) :
    ∃ reached, model.ReadOnly reached ∧ Resembles last.state reached ∧
      ((∃ failure, failure.isNotFound = false ∧ result = .error failure) ∨
        (readOne scope pages desired).run.eval Memory.service model = (.finished result, reached)) := by
  have imitates := Memory.faulty_imitates harmless
  rcases (readOne_heeds scope pages desired).run_imitating imitates schedule like with
    ⟨failure, value, reached, present, ⟨_, rfl, rfl⟩, ended, member, onward⟩ | ⟨same, onward⟩
  · rw [ends] at ended onward
    cases ended
    have kept : model.ReadOnly reached := (readOne_asks scope pages desired).states_related
      Memory.ReadOnly.refl Memory.ReadOnly.trans
      (fun _ memory asks => Memory.handle_readOnly asks memory) member
    exact ⟨reached, kept, onward, .inl ⟨_, present, rfl⟩⟩
  · rw [ends] at same onward
    have kept := Memory.eval_readOnly (readOne_asks scope pages desired) model
    exact ⟨_, kept, onward, .inr (Prod.ext same.symm rfl)⟩

/-- Nothing is stored under what the status records, if it records anything. -/
def IsMissing (key : Key) (memory : Memory) : Prop :=
  ∀ name, key.keyId? = some name → ∀ found, memory.lookup name ≠ .ok found

theorem readOne_missing (scope : AccountScope) (pages : Nat) (missing : desired.IsMissing memory)
    (unrefused : memory.refusals = []) :
    ∃ after, memory.ReadOnly after ∧ (readOne scope pages desired).run.eval Memory.service memory =
      (.finished (.error .notFound), after) := by
  cases known : desired.keyId? with
  | none =>
    simp only [readOne, known]
    exact ⟨memory, .refl memory, rfl⟩
  | some name =>
    have absent := Memory.lookup_eq_error (missing name known)
    have handled : Memory.service.handle (.describeKey name) memory =
        (.error (Memory.keyNotFound name), memory.noted (.describeKey name)) := by
      rw [Memory.handle_of_unrefused (by rw [unrefused]; rfl)]
      have noted : (memory.noted (.describeKey name)).lookup name = _ := absent
      simp only [Memory.perform, noted]
      rfl
    have kept := Memory.handle_readOnly (rfl : (Request.describeKey name).isMutating = false) memory
    rw [handled] at kept
    refine ⟨_, kept, ?_⟩
    simp only [readOne, known]
    change Program.eval _ (Program.call (.describeKey name) _) _ = _
    simp only [Program.eval, handled, Memory.keyNotFound]
    rfl

theorem startRotation_status {service : Service σ} {metadata : KeyMetadata} {run last : Run σ}
    {result : Except (FailedUpdate Key) Key}
    (ends : (startRotation scope desired metadata).run.run service schedule run =
      (.finished result, last)) :
    desired.statusAfter result = some (desired.statusOrFresh.observe scope metadata) := by
  unfold startRotation at ends
  dsimp only at ends
  split at ends
  · rw [Pass.run_result_bind] at ends
    obtain ⟨started, middle, -, rest⟩ := Program.run_bind_inv ends
    cases started <;> cases rest <;> rfl
  · cases ends
    rfl

theorem startRotation_makes (desired : Key) (scope : AccountScope) (unrefused : memory.refusals = [])
    (held : memory.key? stored.metadata.keyId = some stored) (off : stored.rotationEnabled = false) :
    Memory.Makes (startRotation scope desired stored.metadata).run stored.metadata.keyId stored
      (desired.spec.rotationCalls (!memory.rotationStatusUnavailable) stored)
      (.ok (desired.observe scope stored.metadata)) memory := by
  unfold startRotation
  dsimp only
  split
  next wanted =>
    obtain ⟨change?, made⟩ := Rotation.reconcile_makes unrefused held desired.spec rfl
    rw [Pass.run_result_bind, ← List.append_nil (desired.spec.rotationCalls _ _)]
    exact made.bind fun reached stands => .pure stands.held _
  next unwanted =>
    have none : desired.spec.rotationCalls (!memory.rotationStatusUnavailable) stored = [] := by
      unfold KeySpec.rotationCalls
      rw [off]
      revert unwanted
      rcases desired.spec.enableKeyRotation with _ | _ | _ <;> simp
    rw [none]
    exact .pure held _

theorem run_create (scope : AccountScope) (desired : Key) :
    (create scope desired).run = .call (.createKey desired.spec.newKey) fun
      | .ok metadata => (startRotation scope desired metadata).run
      | .error failure => .done (.error ⟨none, failure⟩) := by
  change Program.call _ _ = _
  congr 1
  funext result
  cases result <;> rfl

/-- A creation that no deadline cuts off under way leaves the service as it is, or it has succeeded and
goes on with the rotation. -/
theorem create_over_faults (harmless : Harmless faults) (like : Resembles run.state model)
    (inTime : (create scope desired).run.InTime (faulty faults) schedule Request.CreatesKey run)
    {result : Except (FailedUpdate Key) Key}
    (ends : (create scope desired).run.run (faulty faults) schedule run = (.finished result, last)) :
    (∃ failure, result = .error ⟨none, failure⟩ ∧ Resembles last.state model) ∨
    ∃ middle after, Memory.service.handle (.createKey desired.spec.newKey) model =
        (.ok (model.nextKey desired.spec).metadata, after) ∧ Resembles middle.state after ∧
      (startRotation scope desired (model.nextKey desired.spec).metadata).run.run (faulty faults)
        schedule middle = (.finished result, last) := by
  rw [run_create] at ends inTime
  have called := (Memory.faulty_imitates harmless).call schedule (.createKey desired.spec.newKey) like
  obtain ⟨made, handled, -⟩ := Memory.handle_createKey like.unrefused desired.spec
  simp only [Program.run, Program.InTime] at ends inTime
  have undelayed := inTime.1 ⟨_, rfl⟩
  generalize run.call (faulty faults) schedule (.createKey desired.spec.newKey) = outcome
    at called ends undelayed
  obtain ⟨reply, middle⟩ := outcome
  rcases called with ⟨failure, failed, present, left⟩ | ⟨after, answers, onward⟩
  · obtain rfl : reply = some (.error failure) := failed
    cases ends
    rcases left with kept | ⟨⟨begins, rfl⟩, -⟩
    · exact .inl ⟨failure, rfl, kept⟩
    -- A key that nobody has the id of would be left only by a deadline that passes under way.
    · exact absurd rfl (undelayed begins)
  · right
    cases answers with
    | answered answered =>
      cases answered.symm.trans handled
      exact ⟨middle, made, handled, onward, ends⟩
    | refused refused => cases refused.symm.trans handled
    | crashed crashed => cases crashed.symm.trans handled

/-- The ways in which a pass over the service with faults comes to its end, as the model has it. -/
inductive Ends (scope : AccountScope) (pages : Nat) (desired : Key) (faults : Nat → Option ServiceError)
    (schedule : Schedule) (model : Memory) :
    Except (FailedUpdate Key) Key → Run (Nat × Memory) → Prop where
  /-- The pass fails before it has done anything. -/
  | unchanged {failure reached last} (reads : model.ReadOnly reached)
      (like : Resembles last.state reached) :
      Ends scope pages desired faults schedule model (.error ⟨none, failure⟩) last
  /-- A key is found, and changed in place. -/
  | found {latest reached middle result last}
      (yields : Pass.Yields Memory.service (readOne scope pages desired) model latest reached)
      (reads : model.ReadOnly reached) (like : Resembles middle.state reached)
      (ends : ((manager scope pages).sync desired latest).run.run (faulty faults) schedule middle =
        (.finished result, last)) :
      Ends scope pages desired faults schedule model result last
  /-- No key is found, and one is created. -/
  | created {failure reached made middle result last}
      (fails : Pass.Fails Memory.service (readOne scope pages desired) model failure reached)
      (missing : failure.isNotFound = true) (reads : model.ReadOnly reached)
      (handled : Memory.service.handle (.createKey desired.spec.newKey) reached =
        (.ok (model.nextKey desired.spec).metadata, made))
      (like : Resembles middle.state made)
      (ends : (startRotation scope desired (model.nextKey desired.spec).metadata).run.run
        (faulty faults) schedule middle = (.finished result, last)) :
      Ends scope pages desired faults schedule model result last

theorem reconcile_over_faults (harmless : Harmless faults) (like : Resembles run.state model)
    (inTime : ((manager scope pages).reconcile desired).run.InTime (faulty faults) schedule
      Request.CreatesKey run)
    {result : Except (FailedUpdate Key) Key}
    (ends : ((manager scope pages).reconcile desired).run.run (faulty faults) schedule run =
      (.finished result, last)) :
    Ends scope pages desired faults schedule model result last := by
  rcases Manager.reconcile_cases ends with
    ⟨latest, middle, read, rest⟩ | ⟨failure, middle, read, missing, rest⟩ | ⟨failure, read, -, rfl⟩
  · obtain ⟨reached, kept, onward, ⟨_, _, failed⟩ | yields⟩ := readOne_over_faults harmless like read
    · cases failed
    · exact .found yields kept onward rest
  · obtain ⟨reached, kept, onward, ⟨_, present, failed⟩ | fails⟩ :=
      readOne_over_faults harmless like read
    · cases failed
      cases missing.symm.trans present
    · rw [Manager.run_reconcile] at inTime
      have creation := inTime.of_bind read
      simp only [missing, if_true] at creation
      rcases create_over_faults harmless onward creation rest with
        ⟨_, rfl, same⟩ | ⟨begun, made, handled, alike, started⟩
      · exact .unchanged kept same
      · rw [kept.nextKey] at handled started
        exact .created fails missing kept handled alike started
  · obtain ⟨reached, kept, onward, -⟩ := readOne_over_faults harmless like read
    exact .unchanged kept onward

end Key

end KeySteward
