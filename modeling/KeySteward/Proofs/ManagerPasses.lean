import KeySteward.Manager.Managed
import KeySteward.Proofs.StrictPasses

/-! The two passes of a manager, put together from the manager's four operations. Both begin with a
reading and go on with its result. The operations of every manager heed every failure but the one
that something does not exist, so both passes do. -/

namespace KeySteward

open Pass

variable {σ τ ρ α : Type} {service : Service ρ} {schedule : Schedule}
variable {state after : ρ} {run last : Run ρ} {exchange : Exchange}

namespace Manager

variable (manager : Manager σ τ) (desired : Resource σ τ)

theorem run_finalize :
    (manager.finalize desired).run = (manager.readOne desired).run >>= fun
      | .ok latest => (manager.delete latest).run
      | .error failure => if failure.isNotFound then pure (.ok ()) else pure (.error failure) := by
  unfold finalize
  rw [run_result_bind]
  congr 1

variable {manager desired} in
theorem finalize_cases {result : Except Failure Unit}
    (ends : (manager.finalize desired).run.run service schedule run = (.finished result, last)) :
    (∃ latest middle,
      (manager.readOne desired).run.run service schedule run = (.finished (.ok latest), middle) ∧
      (manager.delete latest).run.run service schedule middle = (.finished result, last)) ∨
    ∃ failure,
      (manager.readOne desired).run.run service schedule run = (.finished (.error failure), last) ∧
      (failure.isNotFound = true ∧ result = .ok () ∨
        failure.isNotFound = false ∧ result = .error failure) := by
  rw [run_finalize] at ends
  obtain ⟨reading, middle, read, rest⟩ := Program.run_bind_inv ends
  cases reading with
  | ok latest => exact .inl ⟨latest, middle, read, rest⟩
  | error failure =>
    right
    dsimp only at rest
    split at rest
    next missing =>
      cases rest
      exact ⟨failure, read, .inl ⟨missing, rfl⟩⟩
    next present =>
      cases rest
      exact ⟨failure, read, .inr ⟨Bool.eq_false_iff.mpr present, rfl⟩⟩

variable {manager desired} in
theorem mem_exchanges_finalize
    (member : exchange ∈ (manager.finalize desired).run.exchanges service schedule run) :
    exchange ∈ (manager.readOne desired).run.exchanges service schedule run ∨
    ∃ latest middle,
      (manager.readOne desired).run.run service schedule run = (.finished (.ok latest), middle) ∧
      exchange ∈ (manager.delete latest).run.exchanges service schedule middle := by
  rw [run_finalize] at member
  rcases Program.mem_exchanges_bind member with first | ⟨reading, middle, read, later⟩
  · exact .inl first
  · cases reading with
    | ok latest => exact .inr ⟨latest, middle, read, later⟩
    | error failure =>
      dsimp only at later
      split at later <;> cases later

theorem yields_finalize :
    Yields service (manager.finalize desired) state () after ↔
      (∃ latest middle, Yields service (manager.readOne desired) state latest middle ∧
        Yields service (manager.delete latest) middle () after) ∨
      ∃ failure, Fails service (manager.readOne desired) state failure after ∧
        failure.isNotFound = true := by
  unfold finalize
  rw [yields_result_bind]
  refine or_congr Iff.rfl (exists_congr fun failure => ?_)
  dsimp only
  split
  next missing => simp [missing, yields_pure]
  next present => simp [present, yields_throw]

variable [CustomResource σ τ]

theorem run_reconcile :
    (manager.reconcile desired).run = (manager.readOne desired).run >>= fun
      | .ok latest => (manager.sync desired latest).run
      | .error failure =>
        if failure.isNotFound then (manager.create desired).run
        else pure (.error ⟨none, failure⟩) := by
  unfold reconcile
  rw [run_result_bind]
  congr 1

variable {manager desired} in
theorem reconcile_cases {result : Except (FailedUpdate (Resource σ τ)) (Resource σ τ)}
    (ends : (manager.reconcile desired).run.run service schedule run = (.finished result, last)) :
    (∃ latest middle,
      (manager.readOne desired).run.run service schedule run = (.finished (.ok latest), middle) ∧
      (manager.sync desired latest).run.run service schedule middle = (.finished result, last)) ∨
    (∃ failure middle,
      (manager.readOne desired).run.run service schedule run =
        (.finished (.error failure), middle) ∧ failure.isNotFound = true ∧
      (manager.create desired).run.run service schedule middle = (.finished result, last)) ∨
    ∃ failure,
      (manager.readOne desired).run.run service schedule run = (.finished (.error failure), last) ∧
      failure.isNotFound = false ∧ result = .error ⟨none, failure⟩ := by
  rw [run_reconcile] at ends
  obtain ⟨reading, middle, read, rest⟩ := Program.run_bind_inv ends
  cases reading with
  | ok latest => exact .inl ⟨latest, middle, read, rest⟩
  | error failure =>
    right
    dsimp only at rest
    split at rest
    next missing => exact .inl ⟨failure, middle, read, missing, rest⟩
    next present =>
      cases rest
      exact .inr ⟨failure, read, Bool.eq_false_iff.mpr present, rfl⟩

variable {manager desired} in
theorem mem_exchanges_reconcile
    (member : exchange ∈ (manager.reconcile desired).run.exchanges service schedule run) :
    exchange ∈ (manager.readOne desired).run.exchanges service schedule run ∨
    (∃ latest middle,
      (manager.readOne desired).run.run service schedule run = (.finished (.ok latest), middle) ∧
      exchange ∈ (manager.sync desired latest).run.exchanges service schedule middle) ∨
    ∃ failure middle,
      (manager.readOne desired).run.run service schedule run =
        (.finished (.error failure), middle) ∧ failure.isNotFound = true ∧
      exchange ∈ (manager.create desired).run.exchanges service schedule middle := by
  rw [run_reconcile] at member
  rcases Program.mem_exchanges_bind member with first | ⟨reading, middle, read, later⟩
  · exact .inl first
  · right
    cases reading with
    | ok latest => exact .inl ⟨latest, middle, read, later⟩
    | error failure =>
      dsimp only at later
      split at later
      next missing => exact .inr ⟨failure, middle, read, missing, later⟩
      next => cases later

theorem yields_reconcile {result : Resource σ τ} :
    Yields service (manager.reconcile desired) state result after ↔
      (∃ latest middle, Yields service (manager.readOne desired) state latest middle ∧
        Yields service (manager.sync desired latest) middle result after) ∨
      ∃ failure middle, Fails service (manager.readOne desired) state failure middle ∧
        failure.isNotFound = true ∧ Yields service (manager.create desired) middle result after := by
  unfold reconcile
  rw [yields_result_bind]
  refine or_congr Iff.rfl (exists_congr fun failure => exists_congr fun middle => ?_)
  refine and_congr Iff.rfl ?_
  dsimp only
  split
  next missing => simp [missing]
  next present => simp [present, yields_throw]

variable {manager desired}

theorem eval_reconcile_found {latest : Resource σ τ}
    (read : (manager.readOne desired).run.eval service state = (.finished (.ok latest), after)) :
    (manager.reconcile desired).run.eval service state =
      (manager.sync desired latest).run.eval service after := by
  rw [run_reconcile, Program.eval_bind_finished _ read]

theorem eval_reconcile_failed {failure : Failure}
    (read : (manager.readOne desired).run.eval service state = (.finished (.error failure), after)) :
    (manager.reconcile desired).run.eval service state =
      if failure.isNotFound then (manager.create desired).run.eval service after
      else (.finished (.error ⟨none, failure⟩), after) := by
  rw [run_reconcile, Program.eval_bind_finished _ read]
  dsimp only
  split <;> rfl

theorem reconcile_endsIn {found returns : Resource σ τ → Prop} {failing : Failure → Prop}
    {throws : FailedUpdate (Resource σ τ) → Prop}
    (reads : EndsIn found failing (manager.readOne desired))
    (syncs : ∀ latest, found latest → EndsIn returns throws (manager.sync desired latest))
    (creates : EndsIn returns throws (manager.create desired))
    (fails : ∀ failure, failing failure → failure.isNotFound = false → throws ⟨none, failure⟩) :
    EndsIn returns throws (manager.reconcile desired) := by
  refine EndsIn.result_bind reads syncs fun failure held => ?_
  dsimp only
  split
  next => exact creates
  next present => exact fails failure held (Bool.eq_false_iff.mpr present)

theorem sync_uses {allowed : Request → Prop} {latest : Resource σ τ}
    (updates : ∀ delta, (manager.update desired latest delta).run.Uses allowed) :
    (manager.sync desired latest).run.Uses allowed := by
  unfold sync
  dsimp only
  split
  · trivial
  · exact updates _

theorem reconcile_uses {allowed : Request → Prop}
    (reads : (manager.readOne desired).run.Uses allowed)
    (syncs : ∀ latest, (manager.sync desired latest).run.Uses allowed)
    (creates : (manager.create desired).run.Uses allowed) :
    (manager.reconcile desired).run.Uses allowed := by
  refine uses_result_bind reads fun result => ?_
  cases result with
  | ok latest => exact syncs latest
  | error failure =>
    dsimp only
    split
    · exact creates
    · trivial

omit [CustomResource σ τ] in
private theorem finalize_heeds (reads : Heeds id (manager.readOne desired))
    (deletes : ∀ latest, Heeds id (manager.delete latest)) :
    Heeds id (manager.finalize desired) := by
  refine Heeds.result_bind reads (fun failure present => ?_) fun result => ?_
  · exact ⟨failure, by simp [present], rfl⟩
  · cases result with
    | ok latest => exact deletes latest
    | error failure =>
      dsimp only
      split <;> trivial

private theorem sync_heeds {latest : Resource σ τ}
    (updates : ∀ delta, Heeds FailedUpdate.failure (manager.update desired latest delta)) :
    Heeds FailedUpdate.failure (manager.sync desired latest) := by
  unfold sync
  dsimp only
  split
  · trivial
  · exact updates _

private theorem reconcile_heeds (reads : Heeds id (manager.readOne desired))
    (syncs : ∀ latest, Heeds FailedUpdate.failure (manager.sync desired latest))
    (creates : Heeds FailedUpdate.failure (manager.create desired)) :
    Heeds FailedUpdate.failure (manager.reconcile desired) := by
  refine Heeds.result_bind reads (fun failure present => ?_) fun result => ?_
  · exact ⟨⟨none, failure⟩, by simp [present], rfl⟩
  · cases result with
    | ok latest => exact syncs latest
    | error failure =>
      dsimp only
      split
      · exact creates
      · trivial

end Manager

namespace Pass

theorem heeds_call (request : Request) : Heeds id (call request) :=
  (Strict.call request).heeds

private theorem heeds_find {fetch : Option String → Pass (Page α)}
    (strict : ∀ marker, (fetch marker).Strict) (condition : α → Bool) (pages : Nat) :
    Heeds id (find fetch condition pages) :=
  (find_strict strict condition pages).heeds

private theorem Heeds.deletion {pass : Pass Unit} (heeds : Heeds id pass) : Heeds id pass.deletion := by
  apply Program.Heeds.bind heeds
  · rintro failure _ present ⟨_, rfl, rfl⟩
    refine ⟨.error _, ?_, _, rfl, rfl⟩
    change (if Failure.isNotFound _ = true then _ else _ : Pass Unit) = _
    rw [if_neg (by simpa using present)]
    rfl
  · rintro (failure | value)
    · change Program.Heeds _ (if _ then _ else _ : Pass Unit)
      split <;> trivial
    · trivial

end Pass

namespace UpdateTarget

private theorem performAll_heeds (target : UpdateTarget) (pages : Nat) (strategy : TagStrategy)
    (steps : List UpdateStep) :
    (target.performAll pages strategy steps).Heeds fun failure outcome =>
      outcome.failure = some failure := by
  induction steps with
  | nil => trivial
  | cons step rest ih =>
    unfold performAll
    refine Program.Heeds.bind (target.perform_strict pages strategy step).heeds ?_ ?_
    · rintro failure _ _ ⟨_, rfl, rfl⟩
      exact ⟨_, rfl, rfl⟩
    · intro result
      cases result with
      | error failure => trivial
      | ok value =>
        refine Program.Heeds.bind ih ?_ fun _ => trivial
        intro failure outcome _ failed
        exact ⟨_, rfl, failed⟩

private theorem dispatch_heeds (target : UpdateTarget) (kind : Kind) (delta : Delta) (pages : Nat)
    (strategy : TagStrategy) :
    (target.dispatch kind delta pages strategy).Heeds fun failure outcome =>
      outcome.failure = some failure := by
  unfold dispatch
  split
  · trivial
  · exact target.performAll_heeds pages strategy _

end UpdateTarget

namespace Key

theorem readOne_heeds (scope : AccountScope) (pages : Nat) (key : Key) :
    Heeds id (readOne scope pages key) := by
  unfold readOne
  split
  · refine (heeds_call _).lookup.bind fun metadata => ?_
    dsimp only
    split
    · trivial
    · refine (TagSet.list_strict pages _).heeds.bind fun tags => ?_
      refine (Rotation.observe_strict _).heeds.bind fun rotation => ?_
      exact (Policy.get_strict _).heeds.bind fun policy => trivial
  · trivial

/-- What comes after the creation of a key. -/
def startRotation (scope : AccountScope) (desired : Key) (metadata : KeyMetadata) :
    Update Key Key := do
  let created := desired.observe scope metadata
  if desired.spec.enableKeyRotation = some true then
    match ← (Rotation.reconcile metadata.keyId desired.spec.enableKeyRotation).result with
    | .ok _ => return created
    | .error failure => throw ⟨some created, failure⟩
  else return created

theorem startRotation_heeds (scope : AccountScope) (desired : Key) (metadata : KeyMetadata) :
    Heeds FailedUpdate.failure (startRotation scope desired metadata) := by
  unfold startRotation
  dsimp only
  split
  · refine (Rotation.reconcile_strict _ _).heeds.result_bind (fun failure _ => ?_) fun result => ?_
    · exact ⟨_, rfl, rfl⟩
    · cases result <;> trivial
  · trivial

private theorem create_heeds (scope : AccountScope) (desired : Key) :
    Heeds FailedUpdate.failure (create scope desired) :=
  (heeds_call _).lift.bind (startRotation_heeds scope desired)

private theorem update_heeds (pages : Nat) (desired latest : Key) (delta : Delta) :
    Heeds FailedUpdate.failure (update pages desired latest delta) := by
  unfold update
  split
  next keyId _ =>
    unfold Heeds
    rw [run_lift_bind]
    refine ((desired.updateTarget keyId).dispatch_heeds .key delta pages .converge).bind ?_ ?_
    · intro failure outcome _ failed
      simp only [failed]
      split
      · exact ⟨_, rfl, ⟨none, failure⟩, rfl, rfl⟩
      · exact ⟨_, rfl, ⟨_, failure⟩, rfl, rfl⟩
    · intro outcome
      split
      · trivial
      · split <;> trivial
  next => trivial

theorem delete_heeds (key : Key) : Heeds id key.delete := by
  unfold delete
  split
  · split
    · split
      · exact (heeds_call _).bind fun _ => trivial
      · trivial
    · trivial
  · trivial

theorem reconcile_heeds (scope : AccountScope) (pages : Nat) (key : Key) :
    Heeds FailedUpdate.failure ((manager scope pages).reconcile key) :=
  Manager.reconcile_heeds (readOne_heeds scope pages key)
    (fun latest => Manager.sync_heeds fun delta => update_heeds pages key latest delta)
    (create_heeds scope key)

private theorem finalize_heeds (scope : AccountScope) (pages : Nat) (key : Key) :
    Heeds id ((manager scope pages).finalize key) :=
  Manager.finalize_heeds (readOne_heeds scope pages key) delete_heeds

theorem reconcile_givesIn (scope : AccountScope) (pages : Nat) (key : Key) :
    GivesIn FailedUpdate.failure ((manager scope pages).reconcile key) :=
  (reconcile_heeds scope pages key).givesIn

end Key

namespace ReplicaKey

theorem readOne_heeds (pages : Nat) (replica : ReplicaKey) :
    Heeds id (readOne pages replica) := by
  unfold readOne
  split
  · refine (heeds_call _).lookup.bind fun metadata => ?_
    dsimp only
    split
    · trivial
    · change Heeds id (if _ then _ else _)
      split
      · trivial
      · refine (TagSet.list_strict pages _).heeds.bind fun tags => ?_
        exact (Policy.get_strict _).heeds.bind fun policy => trivial
  · trivial

theorem delete_heeds (replica : ReplicaKey) : Heeds id replica.delete := by
  unfold delete
  split
  · split
    · split
      · exact (heeds_call _).bind fun _ => trivial
      · trivial
    · trivial
  · trivial

private theorem create_heeds (replica : ReplicaKey) :
    Heeds FailedUpdate.failure (create replica) := by
  unfold create
  split
  · refine (heeds_call _).lift.bind fun metadata => ?_
    refine (TagSet.apply_strict _ _).heeds.result_bind (fun failure _ => ?_) fun result => ?_
    · exact ⟨_, rfl, rfl⟩
    · cases result <;> trivial
  · trivial

theorem reconcile_heeds (pages : Nat) (replica : ReplicaKey) :
    Heeds FailedUpdate.failure ((manager pages).reconcile replica) :=
  Manager.reconcile_heeds (readOne_heeds pages replica)
    (fun _ => Manager.sync_heeds fun _ => trivial) (create_heeds replica)

private theorem finalize_heeds (pages : Nat) (replica : ReplicaKey) :
    Heeds id ((manager pages).finalize replica) :=
  Manager.finalize_heeds (readOne_heeds pages replica) delete_heeds

end ReplicaKey

namespace Alias

private theorem readOne_heeds (scope : AccountScope) (pages : Nat) (resource : Alias) :
    Heeds id (readOne scope pages resource) := by
  refine (heeds_find (fun marker => .call _) _ pages).bind fun entry? => ?_
  cases entry? <;> trivial

private theorem create_heeds (scope : AccountScope) (resource : Alias) :
    Heeds FailedUpdate.failure (create scope resource) := by
  unfold create
  split
  · exact (heeds_call _).lift.bind fun _ => trivial
  · trivial

private theorem update_heeds (desired latest : Alias) (delta : Delta) :
    Heeds FailedUpdate.failure (update desired latest delta) := by
  unfold update
  dsimp only
  split
  · trivial
  · split
    · split
      · exact (heeds_call _).lift.bind fun _ => trivial
      · trivial
    · trivial

private theorem reconcile_heeds (scope : AccountScope) (pages : Nat) (resource : Alias) :
    Heeds FailedUpdate.failure ((manager scope pages).reconcile resource) :=
  Manager.reconcile_heeds (readOne_heeds scope pages resource)
    (fun latest => Manager.sync_heeds fun delta => update_heeds resource latest delta)
    (create_heeds scope resource)

private theorem finalize_heeds (scope : AccountScope) (pages : Nat) (resource : Alias) :
    Heeds id ((manager scope pages).finalize resource) :=
  Manager.finalize_heeds (readOne_heeds scope pages resource) fun _ => (heeds_call _).deletion

end Alias

namespace Grant

private theorem readOne_heeds (scope : AccountScope) (pages : Nat) (grant : Grant) :
    Heeds id (readOne scope pages grant) := by
  unfold readOne
  split
  · split
    · refine (heeds_find (fun marker => .call _) _ pages).lookup.bind fun entry? => ?_
      cases entry? <;> trivial
    · trivial
  · trivial

private theorem create_heeds (scope : AccountScope) (grant : Grant) :
    Heeds FailedUpdate.failure (create scope grant) := by
  unfold create
  split
  · exact (heeds_call _).lift.bind fun _ => trivial
  · trivial

private theorem delete_heeds (grant : Grant) : Heeds id grant.delete := by
  unfold delete
  split
  · split
    · exact (heeds_call _).deletion
    · trivial
  · trivial

theorem reconcile_heeds (scope : AccountScope) (pages : Nat) (grant : Grant) :
    Heeds FailedUpdate.failure ((manager scope pages).reconcile grant) :=
  Manager.reconcile_heeds (readOne_heeds scope pages grant)
    (fun _ => Manager.sync_heeds fun _ => trivial) (create_heeds scope grant)

private theorem finalize_heeds (scope : AccountScope) (pages : Nat) (grant : Grant) :
    Heeds id ((manager scope pages).finalize grant) :=
  Manager.finalize_heeds (readOne_heeds scope pages grant) delete_heeds

end Grant

/-- Every pass of every kind heeds its failures. -/
theorem Kind.reconcile_heeds (kind : Kind) (scope : AccountScope) (pages : Nat)
    (resource : Resource kind.managed.Spec kind.managed.Status) :
    Heeds FailedUpdate.failure
      (@Manager.reconcile _ _ kind.managed.resource (kind.managed.manager scope pages) resource) := by
  cases kind with
  | key => exact Key.reconcile_heeds scope pages resource
  | replicaKey => exact ReplicaKey.reconcile_heeds pages resource
  | keyAlias => exact Alias.reconcile_heeds scope pages resource
  | grant => exact Grant.reconcile_heeds scope pages resource

theorem Kind.readOne_heeds (kind : Kind) (scope : AccountScope) (pages : Nat)
    (resource : Resource kind.managed.Spec kind.managed.Status) :
    Heeds id ((kind.managed.manager scope pages).readOne resource) := by
  cases kind with
  | key => exact Key.readOne_heeds scope pages resource
  | replicaKey => exact ReplicaKey.readOne_heeds pages resource
  | keyAlias => exact Alias.readOne_heeds scope pages resource
  | grant => exact Grant.readOne_heeds scope pages resource

theorem Kind.finalize_heeds (kind : Kind) (scope : AccountScope) (pages : Nat)
    (resource : Resource kind.managed.Spec kind.managed.Status) :
    Heeds id ((kind.managed.manager scope pages).finalize resource) := by
  cases kind with
  | key => exact Key.finalize_heeds scope pages resource
  | replicaKey => exact ReplicaKey.finalize_heeds pages resource
  | keyAlias => exact Alias.finalize_heeds scope pages resource
  | grant => exact Grant.finalize_heeds scope pages resource

end KeySteward
