import KeySteward.Proofs.Finalization
import KeySteward.Proofs.KeyUpdates
import KeySteward.Proofs.PolicyEquivalence
import KeySteward.Proofs.SpecDifferences

/-! A pass over a key that succeeds leaves the key settled: the stored key has what the spec asks for,
and the resource that is left says of the stored key what there is to say. A settled resource shows
no difference that a step is taken for, so the next pass over it only reads. -/

namespace KeySteward

variable {memory after : Memory} {stored : StoredKey} {scope : AccountScope} {pages : Nat}
variable {schedule : Schedule} {run last : Run Memory}

theorem RotationState.observed_eq_iff {enabled : Bool} {desired : Option Bool} :
    (ofStatus (some enabled)).observed desired = desired ↔ enabled = desired.getD false := by
  cases enabled <;> rcases desired with _ | _ | _ <;> simp [ofStatus, observed]

/-- The stored key has the tags, the rotation and the policy of the spec. An empty policy asks for
nothing. -/
structure StoredKey.Follows (stored : StoredKey) (spec : KeySpec) : Prop where
  tags : stored.tags = spec.tags
  rotation : stored.rotationEnabled = spec.enableKeyRotation.getD false
  policy : ∀ policy, spec.policy = some policy → policy ≠ "" →
    ∃ found, stored.policy = some found ∧ Policy.equivalent policy found = true

namespace Key

/-- How a change in place ends when its steps have come to an outcome. -/
def changed (desired latest : Key) (outcome : DispatchOutcome) : Except (FailedUpdate Key) Key :=
  match outcome.failure with
  | none => .ok { latest with spec := desired.spec }
  | some failure =>
    .error ⟨some { latest with spec := latest.spec.applySteps desired.spec outcome.applied }, failure⟩

/-- A change in place is refused, or takes the steps that the difference asks for. Where there is no
difference there are no steps. -/
theorem run_sync {desired latest : Key} {keyId : String} (known : latest.keyId? = some keyId) :
    let delta := Manager.delta desired latest
    let target := desired.updateTarget keyId
    ((manager scope pages).sync desired latest).run =
      match delta.failure? .key with
      | some failure => pure (.error ⟨none, failure⟩)
      | none => target.performAll pages .converge (target.requiredSteps delta) >>= fun outcome =>
          pure (desired.changed latest outcome) := by
  intro delta target
  change (if delta.isEmpty then pure latest else update pages desired latest delta :
    Update Key Key).run = _
  split
  next empty =>
    have same : desired.spec = latest.spec := (KeySpec.delta_isEmpty_iff _ _).mp empty
    have accepted : delta.failure? .key = none :=
      (KeySpec.failure?_eq_none_iff _ _).mpr (by simp [same])
    have none : target.requiredSteps delta = [] :=
      UpdateTarget.requiredSteps_eq_nil (by rw [same]) (by rw [same]) (.inl (by rw [same]))
    rw [accepted, none]
    change _ = Program.done (Except.ok { latest with spec := desired.spec })
    rw [same]
    rfl
  next =>
    simp only [update, known]
    rw [Pass.run_lift_bind, UpdateTarget.dispatch]
    cases decided : delta.failure? .key with
    | some failure => rfl
    | none =>
      refine bind_congr fun outcome => ?_
      unfold changed
      cases outcome.failure with
      | none => rfl
      | some failure => simp

/-- The resource says of the stored key what there is to say, and a living key follows the spec. -/
structure Settled (resource : Key) (scope : AccountScope) (stored : StoredKey) : Prop where
  status : ∃ status : KeyStatus, resource.status = some (status.observe scope stored.metadata)
  shown : resource.spec.observed stored.metadata = resource.spec
  living : stored.metadata.isPendingDeletion = false → stored.Follows resource.spec

namespace Settled

variable {resource : Key}

private theorem keyId? (settled : resource.Settled scope stored) :
    resource.keyId? = some stored.metadata.keyId := by
  obtain ⟨status, recorded⟩ := settled.status
  simp only [Key.keyId?, recorded]
  rfl

/-- A settled resource is found as it is, but for a policy where it asks for the empty one. -/
theorem asFound_eq (settled : resource.Settled scope stored) :
    ∃ policy, resource.asFound scope (some stored.rotationEnabled) stored =
        { resource with spec := { resource.spec with policy } } ∧
      (policy = resource.spec.policy ∨ resource.spec.policy = some "") := by
  obtain ⟨metadata, spec, _⟩ := resource
  obtain ⟨status, rfl⟩ := settled.status
  have shown : spec.observed stored.metadata = spec := settled.shown
  unfold asFound
  simp only [shown]
  split
  next => exact ⟨spec.policy, rfl, .inl rfl⟩
  next living =>
    have follows := settled.living (Bool.eq_false_iff.mpr living)
    have rotation := RotationState.observed_eq_iff.mpr follows.rotation
    refine ⟨Policy.observed spec.policy stored.policy, ?_, ?_⟩
    · simp only [rotation, follows.tags]
      rfl
    · cases asked : spec.policy with
      | none => exact .inl rfl
      | some policy =>
        by_cases empty : policy = ""
        · exact .inr (by rw [empty])
        · exact .inl (Policy.observed_eq_some_iff.mpr (follows.policy policy asked empty))

/-- Where the specs differ at most in a policy that is asked to be empty, no step is taken. -/
theorem sync_of_same (known : resource.keyId?.isSome) {policy : Option String}
    (same : policy = resource.spec.policy ∨ resource.spec.policy = some "") :
    ((manager scope pages).sync resource
      { resource with spec := { resource.spec with policy } }).run = pure (.ok resource) := by
  obtain ⟨keyId, known⟩ := Option.isSome_iff_exists.mp known
  obtain ⟨metadata, spec, status⟩ := resource
  let desired : Key := ⟨metadata, spec, status⟩
  let latest : Key := ⟨metadata, { spec with policy }, status⟩
  let target := desired.updateTarget keyId
  have accepted : (Manager.delta desired latest).failure? .key = none :=
    (KeySpec.failure?_eq_none_iff _ _).mpr ⟨rfl, rfl, rfl, rfl, rfl, rfl⟩
  have none : target.requiredSteps (Manager.delta desired latest) = [] := by
    refine UpdateTarget.requiredSteps_eq_nil rfl rfl (same.imp (fun same => same.symm) fun empty => ?_)
    simp [target, desired, UpdateTarget.policy?, updateTarget, show spec.policy = some "" from empty]
  have named : latest.keyId? = some keyId := known
  have course : ((manager scope pages).sync desired latest).run = _ := run_sync named
  rw [accepted] at course
  dsimp only at course
  rw [none] at course
  exact course

private theorem sync_eq (settled : resource.Settled scope stored) (pages : Nat) :
    ((manager scope pages).sync resource
      (resource.asFound scope (some stored.rotationEnabled) stored)).run = pure (.ok resource) := by
  obtain ⟨policy, found, same⟩ := settled.asFound_eq
  rw [found]
  exact sync_of_same (by simp [settled.keyId?]) same

end Settled

variable {desired settled : Key}

/-- The spec that is found differs from the desired one in nothing that the metadata shows when a key
takes the difference on. -/
theorem observed_of_accepted {rotationStatus : Option Bool}
    (accepted : (Delta.between desired.spec.toJson
      (desired.asFound scope rotationStatus stored).spec.toJson).failure? .key = none) :
    desired.spec.observed stored.metadata = desired.spec := by
  have same := (KeySpec.failure?_eq_none_iff _ _).mp accepted
  let shown := desired.spec.observed stored.metadata
  have kept : desired.spec.customKeyStoreId = shown.customKeyStoreId ∧
      desired.spec.description = shown.description ∧ desired.spec.keySpec = shown.keySpec ∧
      desired.spec.keyUsage = shown.keyUsage ∧ desired.spec.multiRegion = shown.multiRegion ∧
      desired.spec.origin = shown.origin := by
    unfold asFound at same
    dsimp only at same
    split at same <;> exact same
  simp only [shown] at kept
  generalize desired.spec = spec at kept ⊢
  obtain ⟨store, description, keySpec, usage, region, origin⟩ := kept
  cases spec
  simp only [KeySpec.observed, KeySpec.mk.injEq] at *
  simp [← store, ← description, ← keySpec, ← usage, ← region, ← origin]

private theorem follows_of_applied (desired : Key) (scope : AccountScope) (keyId : String)
    (living : stored.metadata.isPendingDeletion = false) :
    let target := desired.updateTarget keyId
    let latest := desired.asFound scope (some stored.rotationEnabled) stored
    let steps := target.requiredSteps (.between desired.spec.toJson latest.spec.toJson)
    (steps.foldl target.applied stored).Follows desired.spec := by
  intro target latest steps
  have found : latest.spec.tags = stored.tags ∧
      latest.spec.enableKeyRotation = (RotationState.ofStatus (some stored.rotationEnabled)).observed
        desired.spec.enableKeyRotation ∧
      latest.spec.policy = Policy.observed desired.spec.policy stored.policy := by
    simp [latest, asFound, living]
  obtain ⟨tags, rotation, policy⟩ := found
  simp only [steps, UpdateTarget.foldl_requiredSteps, UpdateTarget.isRequired_between, tags, rotation,
    policy]
  refine ⟨?_, ?_, fun policy asked nonempty => ?_⟩
  · by_cases same : desired.spec.tags = stored.tags
    · simp [same]
    · simp [same, target, updateTarget]
  · by_cases same : (RotationState.ofStatus (some stored.rotationEnabled)).observed
        desired.spec.enableKeyRotation = desired.spec.enableKeyRotation
    · simp [RotationState.observed_eq_iff.mp same, target, updateTarget]
    · simp [Ne.symm same, target, updateTarget]
  · have wanted : target.policy? = some policy := by
      simp [target, UpdateTarget.policy?, updateTarget, asked, nonempty]
    by_cases same : Policy.observed (some policy) stored.policy = some policy
    · simpa [asked, same] using Policy.observed_eq_some_iff.mp same
    · simpa [asked, Ne.symm same, wanted] using Policy.equivalent_refl policy

private theorem sync_stores (available : memory.rotationStatusUnavailable = false)
    (held : memory.key? stored.metadata.keyId = some stored)
    (yields : Pass.Yields Memory.service ((manager scope pages).sync desired
      (desired.asFound scope (some stored.rotationEnabled) stored)) memory settled after) :
    let target := desired.updateTarget stored.metadata.keyId
    let latest := desired.asFound scope (some stored.rotationEnabled) stored
    let delta := Delta.between desired.spec.toJson latest.spec.toJson
    delta.failure? .key = none ∧ settled = { latest with spec := desired.spec } ∧
      after.key? stored.metadata.keyId =
        some ((target.requiredSteps delta).foldl target.applied stored) := by
  intro target latest delta
  have named : latest.keyId? = some stored.metadata.keyId := by
    simp only [latest, keyId?, asFound_status]
    rfl
  rw [Pass.Yields, run_sync named] at yields
  cases accepted : delta.failure? .key with
  | some failure =>
    rw [show (Manager.delta desired latest).failure? .key = some failure from accepted] at yields
    cases yields
  | none =>
    rw [show (Manager.delta desired latest).failure? .key = none from accepted] at yields
    obtain ⟨outcome, reached, performed, rest⟩ := Program.eval_bind_inv yields
    unfold changed at rest
    cases failed : outcome.failure with
    | some failure =>
      rw [failed] at rest
      cases rest
    | none =>
      rw [failed] at rest
      cases rest
      exact ⟨rfl, rfl, UpdateTarget.performAll_stores available held performed failed⟩

private theorem sync_settles (available : memory.rotationStatusUnavailable = false)
    (held : memory.key? stored.metadata.keyId = some stored)
    (yields : Pass.Yields Memory.service ((manager scope pages).sync desired
      (desired.asFound scope (some stored.rotationEnabled) stored)) memory settled after) :
    ∃ changed, after.key? changed.metadata.keyId = some changed ∧ settled.Settled scope changed ∧
      settled.spec = desired.spec := by
  obtain ⟨accepted, rfl, kept⟩ := sync_stores available held yields
  have shown : desired.spec.observed stored.metadata = desired.spec := observed_of_accepted accepted
  let target := desired.updateTarget stored.metadata.keyId
  let latest := desired.asFound scope (some stored.rotationEnabled) stored
  let steps := target.requiredSteps (.between desired.spec.toJson latest.spec.toJson)
  have metadata : (steps.foldl target.applied stored).metadata = stored.metadata :=
    target.foldl_applied_metadata steps stored
  refine ⟨steps.foldl target.applied stored, ?_, ⟨?_, ?_, fun living => ?_⟩, rfl⟩
  · rw [metadata]
    exact kept
  · rw [metadata]
    exact ⟨_, desired.asFound_status scope _ stored⟩
  · rw [metadata]
    exact shown
  · rw [metadata] at living
    exact follows_of_applied desired scope _ living

theorem observed_createKey (spec : KeySpec) (memory : Memory) :
    spec.observed (memory.createKey spec.newKey).1 = spec := by
  have kept {α : Type} (wanted : Option α) (otherwise : α) :
      KeySteward.observed wanted (some (wanted.getD otherwise)) = wanted := by
    cases wanted <;> rfl
  have same {α : Type} (wanted : Option α) : KeySteward.observed wanted wanted = wanted := by
    cases wanted <;> rfl
  simp only [KeySpec.observed, Memory.createKey, KeySpec.newKey, kept, same]

/-- A key that is created is settled, with a rotation that is started where one is asked for. -/
theorem create_settles (available : memory.rotationStatusUnavailable = false)
    (yields : Pass.Yields Memory.service (create scope desired) memory settled after) :
    ∃ stored, after.key? stored.metadata.keyId = some stored ∧ settled.Settled scope stored ∧
      settled.spec = desired.spec := by
  obtain ⟨metadata, created, called, rest⟩ := Pass.yields_bind.mp yields
  have continues := Memory.yields_continues called
  obtain ⟨-, performed⟩ := Memory.handle_eq_ok.mp (Pass.yields_call.mp (Pass.yields_lift.mp called))
  let stored : StoredKey :=
    { metadata, policy := desired.spec.policy, tags := .ofTags desired.spec.tags.toTags }
  have held : created.key? metadata.keyId = some stored := by
    cases performed
    exact Memory.key?_createKey _ _
  have shown : desired.spec.observed metadata = desired.spec := by
    cases performed
    exact observed_createKey _ _
  have available : created.rotationStatusUnavailable = false :=
    continues.rotationStatusUnavailable.trans available
  let rotated := { stored with rotationEnabled := desired.spec.enableKeyRotation.getD false }
  have kept : after.key? metadata.keyId = some rotated ∧
      settled = desired.observe scope metadata := by
    dsimp only at rest
    split at rest
    next wanted =>
      rcases Pass.yields_result_bind.mp rest with ⟨_, reached, started, rest⟩ | ⟨_, _, _, rest⟩
      · obtain ⟨rfl, rfl⟩ := Pass.yields_pure.mp rest
        exact ⟨Rotation.reconcile_stores available held started, rfl⟩
      · exact absurd rest Pass.yields_throw
    next unwanted =>
      obtain ⟨rfl, rfl⟩ := Pass.yields_pure.mp rest
      have off : desired.spec.enableKeyRotation.getD false = false := by
        revert unwanted
        rcases desired.spec.enableKeyRotation with _ | _ | _ <;> simp
      refine ⟨?_, rfl⟩
      simp only [rotated, off]
      exact held
  obtain ⟨kept, rfl⟩ := kept
  refine ⟨rotated, kept, ⟨⟨_, rfl⟩, shown, fun _ => ⟨TagMap.ofTags_toTags _, rfl, ?_⟩⟩, rfl⟩
  exact fun policy asked _ => ⟨policy, asked, Policy.equivalent_refl policy⟩

private theorem reconcile_settles (keyed : memory.store.IsKeyed)
    (available : memory.rotationStatusUnavailable = false)
    (yields : Pass.Yields Memory.service ((manager scope pages).reconcile desired) memory settled
      after) :
    ∃ stored, after.key? stored.metadata.keyId = some stored ∧ settled.Settled scope stored ∧
      settled.spec = desired.spec := by
  rcases (Manager.yields_reconcile _ _).mp yields with
    ⟨latest, middle, read, synced⟩ | ⟨failure, middle, failed, -, created⟩
  · obtain ⟨name, keyId, stored, -, found, rfl, onward⟩ := readOne_found read
    have held := Memory.key?_of_lookup found
    obtain rfl : stored.metadata.keyId = keyId := keyed _ _ held
    have status : memory.rotationStatus stored = some stored.rotationEnabled := by
      simp [Memory.rotationStatus, available]
    rw [status] at synced
    exact sync_settles (onward.continues.rotationStatusUnavailable.trans available)
      ((onward.key? _).trans held) synced
  · have continues := Memory.eval_continues ((manager scope pages).readOne desired).run memory
    rw [failed] at continues
    exact create_settles (continues.rotationStatusUnavailable.trans available) created

section Again

variable (settles : desired.Settled scope stored)
  (held : run.state.key? stored.metadata.keyId = some stored)

include settles held

private theorem Settled.readOne_ok (available : run.state.rotationStatusUnavailable = false)
    {latest : Key}
    (ends : (readOne scope pages desired).run.run Memory.service schedule run =
      (.finished (.ok latest), last)) :
    latest = desired.asFound scope (some stored.rotationEnabled) stored := by
  have reads : Memory.Reads False (readOne scope pages desired) _ run.state :=
    readOne_reads scope settles.keyId? (Memory.lookup_of_key? held) False.elim False.elim
  obtain ⟨rfl, -⟩ := reads.only (.refl _) ((readOne_heeds scope pages desired).yields ends)
  simp [Memory.rotationStatus, available]

private theorem Settled.readOne_error (unrefused : run.state.refusals = []) {failure : Failure}
    (ends : (readOne scope pages desired).run.run Memory.service schedule run =
      (.finished (.error failure), last)) : failure.isNotFound = false := by
  refine Bool.eq_false_iff.mpr fun missing => ?_
  obtain ⟨_, -, -, error, listed, -⟩ := denied_of_missing held settles.keyId? ends missing
  rw [unrefused] at listed
  cases listed

variable (available : run.state.rotationStatusUnavailable = false)
  (unrefused : run.state.refusals = [])

include available unrefused

/-- However a pass over a settled resource goes, it changes nothing, and it has no other result. -/
theorem Settled.reconcile_quiet (schedule : Schedule) (pages : Nat) :
    (∀ exchange ∈
        ((manager scope pages).reconcile desired).run.exchanges Memory.service schedule run,
      exchange.request.isMutating = false) ∧
    ∀ (result : Key) (last : Run Memory),
      ((manager scope pages).reconcile desired).run.run Memory.service schedule run =
        (.finished (.ok result), last) → result = desired := by
  constructor
  · intro exchange member
    rcases Manager.mem_exchanges_reconcile member with
      first | ⟨latest, middle, read, later⟩ | ⟨failure, middle, read, missing, -⟩
    · exact ((readOne_uses scope pages settles.keyId?).exchanges first).isMutating
    · obtain rfl := settles.readOne_ok held available read
      rw [settles.sync_eq pages] at later
      cases later
    · rw [settles.readOne_error held unrefused read] at missing
      cases missing
  · intro value last ends
    rcases Manager.reconcile_cases ends with
      ⟨latest, middle, read, rest⟩ | ⟨failure, middle, read, missing, -⟩ | ⟨failure, -, -, failed⟩
    · obtain rfl := settles.readOne_ok held available read
      rw [settles.sync_eq pages] at rest
      cases rest
      rfl
    · rw [settles.readOne_error held unrefused read] at missing
      cases missing
    · cases failed

private theorem Settled.reconcile_again (free : run.IsFree) (room : run.state.pageBound ≤ pages)
    (counted : desired.spec.tags.size ≤ Text.greatestWord) :
    ∃ last, ((manager scope pages).reconcile desired).run.run Memory.service .calm run =
        (.finished (.ok desired), last) ∧ run.state.ReadOnly last.state := by
  have reads : Memory.Reads True (readOne scope pages desired)
      (desired.asFound scope (run.state.rotationStatus stored) stored) run.state := by
    refine readOne_reads scope settles.keyId? (Memory.lookup_of_key? held) (fun _ => unrefused)
      fun _ living => ⟨?_, Nat.lt_of_lt_of_le (Memory.tags_lt_pageBound held) room⟩
    rw [(settles.living living).tags]
    exact counted
  obtain ⟨last, ends, onward⟩ := reads.run trivial free
  have status : run.state.rotationStatus stored = some stored.rotationEnabled := by
    simp [Memory.rotationStatus, available]
  rw [status] at ends
  refine ⟨last, ?_, onward⟩
  change ((manager scope pages).readOne desired).run.run _ _ _ = _ at ends
  rw [Manager.run_reconcile, Program.run_bind_finished _ ends]
  dsimp only
  rw [settles.sync_eq pages]
  rfl

end Again

/-- A pass that succeeds leaves a living key with the tags, the rotation and the policy of the spec.
Whatever happens around its calls, the next pass over the resource that is left makes no call that
may change anything and has no other result than that resource; and it has it when nothing cuts the
pass short, a listing has room and a machine word counts the tags. -/
theorem reconcile_converges (reachable : run.state.Reachable) (unrefused : run.state.refusals = [])
    (available : run.state.rotationStatusUnavailable = false)
    (ends : ((manager scope pages).reconcile desired).run.run Memory.service schedule run =
      (.finished (.ok settled), last)) :
    (∃ keyId stored, settled.keyId? = some keyId ∧ last.state.key? keyId = some stored ∧
      (stored.metadata.isPendingDeletion = false → stored.Follows desired.spec)) ∧
    ∀ (pages : Nat) (again : Run Memory), again.state = last.state →
      (∀ schedule : Schedule,
        (∀ exchange ∈
            ((manager scope pages).reconcile settled).run.exchanges Memory.service schedule again,
          exchange.request.isMutating = false) ∧
        ∀ (result : Key) (after : Run Memory),
          ((manager scope pages).reconcile settled).run.run Memory.service schedule again =
            (.finished (.ok result), after) → result = settled) ∧
      (again.IsFree → last.state.pageBound ≤ pages → desired.spec.tags.size ≤ Text.greatestWord →
        ∃ after, ((manager scope pages).reconcile settled).run.run Memory.service .calm again =
          (.finished (.ok settled), after) ∧ again.state.ReadOnly after.state) := by
  have yields := (reconcile_givesIn scope pages desired).yields ends
  obtain ⟨stored, held, settles, same⟩ := reconcile_settles reachable.isKeyed available yields
  have continues := Memory.yields_continues yields
  have onward := continues.rotationStatusUnavailable.trans available
  have none := continues.unrefused unrefused
  refine ⟨⟨_, stored, settles.keyId?, held, fun living => same ▸ settles.living living⟩, ?_⟩
  intro pages again reached
  rw [← reached] at held onward none ⊢
  refine ⟨fun schedule => settles.reconcile_quiet held onward none schedule pages, ?_⟩
  exact fun free room counted =>
    settles.reconcile_again held onward none free room (same ▸ counted)

/-- A key that is not there yet, with the pass that creates it and the next one. -/
theorem reconcile_converges_created :
    let scope : AccountScope := ⟨"us-west-2", "000000000000"⟩
    let run : Run Memory := { state := { config := .numbered } }
    let key : Key :=
      ⟨{ name := "key" },
        { tags := .ofTags [⟨"team", "payments"⟩], enableKeyRotation := some true,
          policy := some "{}" },
        none⟩
    let pass := ((manager scope 3).reconcile key).run.run Memory.service .calm run
    ∃ settled : Key, pass.1 = .finished (.ok settled) ∧
      (∃ keyId stored, settled.keyId? = some keyId ∧ pass.2.state.key? keyId = some stored ∧
        (stored.metadata.isPendingDeletion = false → stored.Follows key.spec)) ∧
      ∃ after, ((manager scope 3).reconcile settled).run.run Memory.service .calm
          { state := pass.2.state } = (.finished (.ok settled), after) ∧
        pass.2.state.ReadOnly after.state := by
  intro scope run key pass
  have reachable : run.state.Reachable := .start _
  have counted : key.spec.tags.size ≤ Text.greatestWord := by decide
  have room : pass.2.state.pageBound ≤ 3 := by decide
  obtain ⟨settled, ends⟩ : ∃ settled : Key, pass.1 = .finished (.ok settled) := by
    simp only [pass, key, run, scope]
    exact ⟨_, rfl⟩
  have converges := reconcile_converges reachable rfl rfl (Prod.ext ends rfl)
  exact ⟨settled, ends, converges.1,
    (converges.2 3 { state := pass.2.state } rfl).2 ⟨rfl, rfl⟩ room counted⟩

end Key

end KeySteward
