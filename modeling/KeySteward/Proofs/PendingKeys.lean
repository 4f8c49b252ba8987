import KeySteward.Proofs.KeyCalls
import KeySteward.Proofs.RecordedMetadata
import KeySteward.Proofs.RepeatedFinalization

/-! Keys that wait for their deletion. Both passes over a key or a replica begin with a description of
the key, and where that says that the key waits they end with it. There is nothing left to delete then,
and of what the spec wants only that counts which the description shows. -/

namespace KeySteward

open Pass

variable {σ τ ρ α : Type} {service : Service ρ} {schedule : Schedule} {run after : Run ρ}

private theorem KeyMetadata.isPendingDeletion_iff {metadata : KeyMetadata} :
    metadata.isPendingDeletion = true ↔
      metadata.keyState = some .pendingDeletion ∨
        metadata.keyState = some .pendingReplicaDeletion := by
  unfold isPendingDeletion
  cases metadata.keyState with
  | none => simp
  | some state => cases state <;> simp [KeyState.isPendingDeletion]

private theorem Pass.lookup_answered {request : Request} {answer : request.Answer}
    (answered : run.call service schedule request = (some (.ok answer), after))
    (next : request.Answer → Pass α) :
    ((Pass.call request).lookup >>= next).run.exchanges service schedule run =
        ⟨request, some (.ok answer)⟩ :: (next answer).run.exchanges service schedule after ∧
      ((Pass.call request).lookup >>= next).run.run service schedule run =
        (next answer).run.run service schedule after := by
  change Program.exchanges _ _ (.call request _) _ = _ ∧ Program.run _ _ (.call request _) _ = _
  simp only [Program.exchanges, Program.run, answered]
  exact ⟨rfl, rfl⟩

namespace Manager

variable [CustomResource σ τ] {manager : Manager σ τ} {desired latest : Resource σ τ}

/-- Both passes over a resource make these calls and no others. Its finalization succeeds, and its
reconciliation has this result. -/
structure LeavesAlone (manager : Manager σ τ) (desired : Resource σ τ) (service : Service ρ)
    (schedule : Schedule) (run : Run ρ) (calls : List Exchange) (after : Run ρ)
    (result : Except (FailedUpdate (Resource σ τ)) (Resource σ τ)) : Prop where
  reconcile_calls : (manager.reconcile desired).run.exchanges service schedule run = calls
  reconcile_ends : (manager.reconcile desired).run.run service schedule run = (.finished result, after)
  finalize_calls : (manager.finalize desired).run.exchanges service schedule run = calls
  finalize_ends : (manager.finalize desired).run.run service schedule run = (.finished (.ok ()), after)

/-- A resource is left alone where nothing but its reading makes a call. -/
theorem leavesAlone_of_read {calls : List Exchange}
    {result : Except (FailedUpdate (Resource σ τ)) (Resource σ τ)}
    (asked : (manager.readOne desired).run.exchanges service schedule run = calls)
    (read : (manager.readOne desired).run.run service schedule run = (.finished (.ok latest), after))
    (synced : (manager.sync desired latest).run = pure result)
    (deleted : manager.delete latest = pure ()) :
    manager.LeavesAlone desired service schedule run calls after result := by
  constructor
  · rw [run_reconcile, Program.exchanges_bind_finished _ read, asked]
    dsimp only
    rw [synced]
    exact List.append_nil calls
  · rw [run_reconcile, Program.run_bind_finished _ read]
    dsimp only
    rw [synced]
    rfl
  · rw [run_finalize, Program.exchanges_bind_finished _ read, asked]
    dsimp only
    rw [deleted]
    exact List.append_nil calls
  · rw [run_finalize, Program.run_bind_finished _ read]
    dsimp only
    rw [deleted]
    rfl

end Manager

namespace Key

variable {metadata : KeyMetadata} {key : Key} (pending : metadata.isPendingDeletion = true)

include pending

private theorem conclusion_pending_of_fits (fits : key.spec.Fits metadata) (scope : AccountScope) :
    key.conclusion (key.asFound scope none { metadata }) = .ok (key.observe scope metadata) := by
  have concluded : key.conclusion (key.asFound scope none { metadata }) = _ :=
    conclusion_of_fits fits scope none
  rw [concluded]
  simp only [asFound, pending, if_true]
  rfl

private theorem conclusion_pending_of_unfit (unfit : ¬ key.spec.Fits metadata) (scope : AccountScope) :
    key.conclusion (key.asFound scope none { metadata }) =
      .error ⟨none, .terminal ("Immutable Spec fields have been modified: " ++
        ",".intercalate (key.spec.immutableChanges (key.spec.observed metadata)))⟩ := by
  have found : (key.asFound scope none { metadata }).spec = key.spec.observed metadata := by
    simp only [asFound, pending, if_true]
  have refused : ((manager scope 0).sync key (key.asFound scope none { metadata })).run = _ :=
    sync_of_unfit unfit scope 0 none
  obtain ⟨message, concluded⟩ : ∃ message, key.conclusion (key.asFound scope none { metadata }) =
      .error ⟨none, .terminal message⟩ := conclusion_of_unfit unfit scope none
  rw [concluded] at refused
  obtain ⟨-, -, rfl⟩ := sync_refused_iff.mp refused
  rw [concluded, found]

end Key

section Pending

variable {keyId : String} {metadata : KeyMetadata}
  (answered : run.call service schedule (.describeKey keyId) = (some (.ok metadata), after))
  (pending : metadata.isPendingDeletion = true)

include answered pending

namespace Key

variable {scope : AccountScope} {pages : Nat} {key : Key} (known : key.keyId? = some keyId)

include known

/-- Of a key that waits no more is read than its description, and then it rests with that. -/
theorem leavesAlone_of_pending :
    (manager scope pages).LeavesAlone key service schedule run
      [⟨.describeKey keyId, some (.ok metadata)⟩] after
      (key.conclusion (key.asFound scope none { metadata })) := by
  have read : (readOne scope pages key).run.exchanges service schedule run =
        [⟨.describeKey keyId, some (.ok metadata)⟩] ∧
      (readOne scope pages key).run.run service schedule run =
        (.finished (.ok (key.asFound scope none { metadata })), after) := by
    simp only [readOne, known]
    rw [(lookup_answered answered _).1, (lookup_answered answered _).2]
    simp only [pending, if_true, asFound]
    exact ⟨rfl, rfl⟩
  have synced : ((manager scope pages).sync key (key.asFound scope none { metadata })).run =
      pure (key.conclusion (key.asFound scope none { metadata })) := by
    by_cases fits : key.spec.Fits metadata
    · exact sync_of_pending fits pending scope pages none
    · exact sync_of_unfit fits scope pages none
  refine Manager.leavesAlone_of_read read.1 read.2 synced ?_
  exact (delete_asFound key scope none _).trans (StoredKey.deletion_of_pending pending _)

end Key

namespace ReplicaKey

variable {pages : Nat} {replica : ReplicaKey} (known : replica.replicaId? = some keyId)

include known

private theorem leavesAlone_of_pending {result : Except (FailedUpdate ReplicaKey) ReplicaKey}
    (synced : ((manager pages).sync replica (replica.asFound { metadata })).run = pure result) :
    (manager pages).LeavesAlone replica service schedule run
      [⟨.describeKey keyId, some (.ok metadata)⟩] after result := by
  have read : (readOne pages replica).run.exchanges service schedule run =
        [⟨.describeKey keyId, some (.ok metadata)⟩] ∧
      (readOne pages replica).run.run service schedule run =
        (.finished (.ok (replica.asFound { metadata })), after) := by
    have named : (replica.replicaId? <|> replica.spec.keyId) = some keyId := by rw [known]; rfl
    simp only [readOne, named]
    rw [(lookup_answered answered _).1, (lookup_answered answered _).2]
    simp only [isReplica, known, Option.isSome_some, Bool.true_or, Bool.not_true, Bool.false_eq_true,
      if_false, pending, if_true, asFound]
    exact ⟨rfl, rfl⟩
  refine Manager.leavesAlone_of_read read.1 read.2 synced ?_
  exact (delete_asFound replica _).trans (StoredKey.deletion_of_pending pending _)

end ReplicaKey

end Pending

namespace ReplicaKey

variable {metadata : KeyMetadata} {replica : ReplicaKey}
  (pending : metadata.isPendingDeletion = true)

include pending

private theorem asFound_pending_spec :
    (replica.asFound { metadata }).spec =
      { replica.spec with description := observed replica.spec.description metadata.description } := by
  simp only [asFound, pending, if_true]

private theorem sync_pending_of_shown (pages : Nat)
    (shown : observed replica.spec.description metadata.description = replica.spec.description) :
    ((manager pages).sync replica (replica.asFound { metadata })).run =
      pure (.ok (replica.observe metadata)) := by
  have same : replica.spec = (replica.asFound { metadata }).spec := by
    rw [asFound_pending_spec pending, shown]
  have settled : replica.asFound { metadata } = replica.observe metadata := by
    simp only [asFound, pending, if_true, shown]
    rfl
  have empty : (Manager.delta replica (replica.asFound { metadata })).isEmpty = true :=
    (ReplicaKeySpec.delta_isEmpty_iff _ _).mpr same
  rw [Manager.sync_of_same empty, settled]
  rfl

private theorem sync_pending_of_hidden (pages : Nat)
    (hidden : observed replica.spec.description metadata.description ≠ replica.spec.description) :
    ((manager pages).sync replica (replica.asFound { metadata })).run =
      pure (.error ⟨none, .terminal "replica key resource does not support updates"⟩) := by
  have differs : (Manager.delta replica (replica.asFound { metadata })).isEmpty = false := by
    refine Bool.eq_false_iff.mpr fun empty => hidden ?_
    have same := (ReplicaKeySpec.delta_isEmpty_iff _ _).mp empty
    rw [asFound_pending_spec pending] at same
    exact (congrArg ReplicaKeySpec.description same).symm
  rw [Manager.sync_of_differing differs]
  change (update replica (replica.asFound { metadata }) _).run = _
  rw [update_refuses]
  rfl

end ReplicaKey

/-- Where the description of a key says that it waits for its deletion, a pass over the key, or over the
replica that it is recorded as, makes no other call. There is nothing left to delete. A reconciliation
records the metadata, each field of them, or it is refused for good where they contradict a field that the
spec sets and that cannot be changed, which of a replica is its description. -/
theorem pending_keys_left_alone {keyId : String} {metadata : KeyMetadata}
    (answered : run.call service schedule (.describeKey keyId) = (some (.ok metadata), after))
    (waits : metadata.keyState = some .pendingDeletion ∨
      metadata.keyState = some .pendingReplicaDeletion) (scope : AccountScope) (pages : Nat) :
    let calls : List Exchange := [⟨.describeKey keyId, some (.ok metadata)⟩]
    (∀ key : Key, key.keyId? = some keyId → ∃ settled : Key,
      settled.Records key scope metadata ∧
      (Key.manager scope pages).LeavesAlone key service schedule run calls after
        (if key.spec.Fits metadata then .ok settled
        else .error ⟨none, .terminal ("Immutable Spec fields have been modified: " ++
          ",".intercalate (key.spec.immutableChanges (key.spec.observed metadata)))⟩)) ∧
    ∀ replica : ReplicaKey, replica.replicaId? = some keyId → ∃ settled : ReplicaKey,
      settled.Records replica metadata ∧
      (ReplicaKey.manager pages).LeavesAlone replica service schedule run calls after
        (if replica.spec.description ≠ none ∧ replica.spec.description ≠ metadata.description then
          .error ⟨none, .terminal "replica key resource does not support updates"⟩
        else .ok settled) := by
  intro calls
  have pending := KeyMetadata.isPendingDeletion_iff.mpr waits
  constructor
  · intro key known
    refine ⟨_, Key.records_iff.mpr rfl, ?_⟩
    have alone : (Key.manager scope pages).LeavesAlone key service schedule run calls after _ :=
      Key.leavesAlone_of_pending answered pending known
    split
    next fits => rwa [Key.conclusion_pending_of_fits pending fits scope] at alone
    next unfit => rwa [Key.conclusion_pending_of_unfit pending unfit scope] at alone
  · intro replica known
    refine ⟨_, ReplicaKey.records_iff.mpr rfl, ?_⟩
    apply ReplicaKey.leavesAlone_of_pending answered pending known
    have shown := observed_eq_self_iff replica.spec.description metadata.description
    split
    next hidden =>
      exact ReplicaKey.sync_pending_of_hidden pending pages fun same => shown.mp same hidden
    next fits => exact ReplicaKey.sync_pending_of_shown pending pages (shown.mpr fits)

/-- A key whose deletion is scheduled, under a spec that asks for other tags, and two replicas that are
recorded as the same key, one of them under a spec that asks for a description that the key does not
have. -/
theorem pending_keys_left_alone_scheduled :
    let memory := (Memory.act { config := .numbered } (.seedKey "k1" {})).act
      (.call (.scheduleKeyDeletion "k1" 7))
    let run : Run Memory := { state := memory }
    let scope : AccountScope := ⟨"us-west-2", "000000000000"⟩
    let key : Key :=
      ⟨{ name := "key" }, { tags := .ofTags [⟨"a", "1"⟩], enableKeyRotation := some true },
        some { keyId := some "k1" }⟩
    let replica (description : Option String) : ReplicaKey :=
      ⟨{ name := "replica" }, { replicaRegion := "eu-west-1", description },
        some { replica := some { keyId := some "k1" } }⟩
    ∃ metadata after, run.call Memory.service .calm (.describeKey "k1") = (some (.ok metadata), after) ∧
      metadata.keyState = some .pendingDeletion ∧
      (∃ settled status, (Key.manager scope 2).LeavesAlone key Memory.service .calm run
          [⟨.describeKey "k1", some (.ok metadata)⟩] after (.ok settled) ∧
        settled.spec = key.spec ∧ settled.status = some status ∧
        status.ownership = some ⟨some "arn:aws:kms:us-west-2:000000000000:key/k1",
          some "000000000000", some "us-west-2"⟩ ∧
        status.keyId = some "k1" ∧ status.keyState = some .pendingDeletion ∧
        status.pendingDeletionWindowInDays = some 7 ∧
        status.deletionDate = metadata.deletionDate ∧ metadata.deletionDate.isSome = true) ∧
      (∃ settled status found, (ReplicaKey.manager 2).LeavesAlone (replica none) Memory.service .calm
          run [⟨.describeKey "k1", some (.ok metadata)⟩] after (.ok settled) ∧
        settled.status = some status ∧ status.replica = some found ∧
        found.arn = some "arn:aws:kms:us-west-2:000000000000:key/k1" ∧
        found.keyState = some .pendingDeletion ∧ found.pendingDeletionWindowInDays = some 7) ∧
      (ReplicaKey.manager 2).LeavesAlone (replica (some "new")) Memory.service .calm run
        [⟨.describeKey "k1", some (.ok metadata)⟩] after
        (.error ⟨none, .terminal "replica key resource does not support updates"⟩) := by
  intro memory run scope key replica
  have answered : run.call Memory.service .calm (.describeKey "k1") = (some (.ok _), _) := rfl
  obtain ⟨keys, replicas⟩ := pending_keys_left_alone answered (.inl rfl) scope 2
  obtain ⟨settled, records, alone⟩ := keys key rfl
  obtain ⟨status, present, describes, -⟩ := records.status
  obtain ⟨other, held, rests⟩ := replicas (replica none) rfl
  obtain ⟨copy, found, there, about, tells, -⟩ := held.status
  obtain ⟨_, -, refused⟩ := replicas (replica (some "new")) rfl
  refine ⟨_, _, answered, rfl, ⟨settled, status, alone, records.kept.2, present, ?_⟩,
    ⟨other, copy, found, rests, there, about, ?_⟩, refused⟩
  · exact ⟨describes.ownership, describes.keyId, describes.keyState,
      describes.pendingDeletionWindowInDays, describes.deletionDate, rfl⟩
  · exact ⟨tells.arn, tells.keyState, tells.pendingDeletionWindowInDays⟩

end KeySteward
