import KeySteward.Proofs.Finalization
import KeySteward.Proofs.SpecDifferences

/-! Which key a replica is taken for. A replica that no status records is looked for under the id of
its primary, and the region in the name of the key that is found decides whether this is the replica.
So the primary itself is taken for it exactly when it lies in the replica's region. -/

namespace KeySteward

variable {memory : Memory} {keyId primaryId : String} {primary stored : StoredKey}
variable {schedule : Schedule} {run last : Run Memory}

namespace Memory

theorem keyArn_eq (memory : Memory) (region keyId : String) :
    memory.keyArn region keyId =
      "arn:aws:kms:" ++ region ++ ":" ++ memory.config.accountId ++ ":key/" ++ keyId :=
  rfl

theorem keyArn_ne (memory : Memory) (region keyId : String) : memory.keyArn region keyId ≠ keyId := by
  intro same
  have length := congrArg String.length same
  simp only [keyArn_eq, String.length_append] at length
  have begins : "arn:aws:kms:".length = 12 := rfl
  omega

theorem arnRegion?_keyArn (memory : Memory) {region : String} (keyId : String) (nonempty : region ≠ "")
    (plain : ':' ∉ region.toList) : arnRegion? (memory.keyArn region keyId) = some region := by
  have parts : (memory.keyArn region keyId).toList =
      "arn".toList ++ ':' :: ("aws".toList ++ ':' :: ("kms".toList ++ ':' :: (region.toList ++
        ':' :: (memory.config.accountId.toList ++ (":key/".toList ++ keyId.toList))))) := by
    simp only [keyArn_eq, String.toList_append, List.append_assoc]
    rfl
  have heads : ["arn", "aws", "kms"].map (fun part => part.toList.splitOn ':') =
      [["arn".toList], ["aws".toList], ["kms".toList]] := by decide
  simp only [List.map_cons, List.map_nil, List.cons.injEq, and_true] at heads
  have characters : region.toList ≠ [] := by simpa using nonempty
  simp only [arnRegion?, parts, List.splitOn_append_cons_self, List.splitOn_eq_singleton plain, heads]
  simp only [List.cons_append, List.nil_append, List.getElem?_cons_succ, List.getElem?_cons_zero]
  simp [Option.filter, characters]

end Memory

namespace ReplicaKey

variable {replica : ReplicaKey} {pages : Nat}

theorem readOne_uses (pages : Nat) (replica : ReplicaKey) :
    (readOne pages replica).run.Uses fun request => ∃ name, request.ReadsKey name := by
  unfold readOne
  split
  · refine Pass.uses_bind (Pass.uses_lookup (Pass.uses_call ⟨_, rfl⟩)) fun metadata => ?_
    dsimp only
    split
    · trivial
    · split
      · trivial
      · refine Pass.uses_bind (TagSet.list_uses pages fun _ => ⟨_, rfl⟩) fun tags => ?_
        exact Pass.uses_bind (Pass.uses_call ⟨_, rfl⟩) fun policy => trivial
  · trivial

theorem readOne_asks (pages : Nat) (replica : ReplicaKey) :
    (readOne pages replica).run.Uses fun request => request.isMutating = false :=
  (readOne_uses pages replica).mono fun _ ⟨_, reads⟩ => reads.isMutating

private theorem readOne_readOnly (pages : Nat) (replica : ReplicaKey) (schedule : Schedule)
    (run : Run Memory) :
    run.state.ReadOnly ((readOne pages replica).run.run Memory.service schedule run).2.state :=
  Memory.run_readOnly (readOne_asks pages replica) schedule run

/-- The resource that a pass leaves, after a failure as far as it has converged. -/
def left? (result : Except (FailedUpdate ReplicaKey) ReplicaKey) : Option ReplicaKey :=
  match result with
  | .ok replica => some replica
  | .error error => error.converged

private theorem create_records {result : Except (FailedUpdate ReplicaKey) ReplicaKey}
    {recorded : ReplicaKey}
    (named : replica.spec.keyId = some primaryId) (held : run.state.key? primaryId = some primary)
    (ends : (create replica).run.run Memory.service schedule run = (.finished result, last))
    (leaves : left? result = some recorded) :
    recorded.replicaId? =
      some (run.state.keyArn replica.spec.replicaRegion primary.metadata.keyId) := by
  simp only [create, named] at ends
  have called := run.call_gives Memory.service schedule (.replicateKey (replica.newReplica primaryId))
  change (Program.call _ _).run _ _ _ = _ at ends
  simp only [Program.run] at ends
  generalize run.call Memory.service schedule (.replicateKey (replica.newReplica primaryId)) = outcome
    at called ends
  obtain ⟨_ | (failure | answer), reached⟩ := outcome
  · cases ends
  · cases ends
    cases leaves
  · change ((TagSet.apply answer.keyId replica.spec.tags).result >>= _ : Update _ _).run.run _ _ _ = _
      at ends
    rw [Pass.run_result_bind] at ends
    obtain ⟨tagging, tagged, -, rest⟩ := Program.run_bind_inv ends
    have shown : recorded.replicaId? = some answer.keyId := by
      cases tagging with
      | ok _ =>
        cases rest
        cases leaves
        rfl
      | error _ =>
        cases rest
        cases leaves
        rfl
    cases called with
    | answered handled =>
      obtain ⟨-, performed⟩ := Memory.handle_eq_ok.mp handled
      obtain ⟨_, _, _, _, found, -, made, -⟩ := Memory.replicateKey_ok performed
      have noted : (run.state.noted (.replicateKey (replica.newReplica primaryId))).key? primaryId =
        some primary := held
      cases found.symm.trans (Memory.lookup_of_key? noted)
      rw [shown, made]
      rfl

section Unrecorded

variable (keyed : run.state.store.IsKeyed) (unrecorded : replica.replicaId? = none)
  (named : replica.spec.keyId = some primaryId) (held : run.state.key? primaryId = some primary)

include keyed unrecorded named held

/-- What is read as the replica is the primary, and it lies in the replica's region. -/
theorem readOne_primary {latest : ReplicaKey}
    (ends : (readOne pages replica).run.run Memory.service schedule run =
      (.finished (.ok latest), last)) :
    latest = replica.asFound primary ∧
      primary.metadata.arn.bind arnRegion? = some replica.spec.replicaRegion := by
  obtain ⟨name, other, same, known, found, accepted, rfl, -⟩ :=
    readOne_found keyed ((readOne_heeds pages replica).yields ends)
  rw [unrecorded] at known
  cases known.symm.trans named
  cases found.symm.trans (Memory.lookup_of_key? held)
  exact ⟨rfl, by simpa [isReplica, unrecorded] using accepted⟩

private theorem finalize_schedules {exchange : Exchange}
    (member : exchange ∈ ((manager pages).finalize replica).run.exchanges Memory.service schedule run)
    {name : String} {days : Int} (scheduled : exchange.request = .scheduleKeyDeletion name days) :
    primary.metadata.arn.bind arnRegion? = some replica.spec.replicaRegion ∧
      primary.metadata.isPendingDeletion = false := by
  rcases Manager.mem_exchanges_finalize member with read | ⟨latest, middle, begun, later⟩
  · obtain ⟨_, reads⟩ := (readOne_uses pages replica).exchanges read
    rw [scheduled] at reads
    cases reads
  · obtain ⟨rfl, lies⟩ := readOne_primary keyed unrecorded named held begun
    refine ⟨lies, Bool.eq_false_iff.mpr fun waits => ?_⟩
    simp only [manager, delete_asFound, StoredKey.deletion, waits, Bool.not_true, Bool.false_eq_true,
      if_false] at later
    cases later

/-- What is left under the id of the primary is what is read as the replica, without a difference to
the spec. -/
theorem reconcile_records {result : Except (FailedUpdate ReplicaKey) ReplicaKey}
    {recorded : ReplicaKey}
    (ends : ((manager pages).reconcile replica).run.run Memory.service schedule run =
      (.finished result, last))
    (leaves : left? result = some recorded) (taken : recorded.replicaId? = some primaryId) :
    primary.metadata.arn.bind arnRegion? = some replica.spec.replicaRegion ∧
      (replica.asFound primary).spec = replica.spec := by
  rcases Manager.reconcile_cases ends with
    ⟨latest, middle, read, rest⟩ | ⟨failure, middle, read, -, rest⟩ | ⟨failure, -, -, rfl⟩
  · obtain ⟨rfl, lies⟩ := readOne_primary keyed unrecorded named held read
    refine ⟨lies, ?_⟩
    simp only [Manager.sync] at rest
    split at rest
    next same => exact ((ReplicaKeySpec.delta_isEmpty_iff _ _).mp same).symm
    next =>
      cases rest
      cases leaves
  · have kept : middle.state.key? primaryId = some primary := by
      have onward := readOne_readOnly pages replica schedule run
      rw [show (readOne pages replica).run.run Memory.service schedule run = _ from read] at onward
      exact (onward.key? primaryId).trans held
    obtain rfl : primary.metadata.keyId = primaryId := keyed _ _ held
    exact absurd (create_records named kept rest leaves ▸ taken) (by
      simpa using Memory.keyArn_ne _ _ _)
  · cases leaves

/-- With room for its tags the primary is read as the replica of its own region. -/
theorem primary_reads (unrefused : run.state.refusals = [])
    (lies : primary.metadata.arn.bind arnRegion? = some replica.spec.replicaRegion) :
    Memory.Reads (primary.tags.size ≤ Text.greatestWord ∧ primary.tags.size < pages)
      (readOne pages replica) (replica.asFound primary) run.state :=
  readOne_reads (by rw [unrecorded, named]; rfl) (Memory.lookup_of_key? held)
    (by simp [isReplica, unrecorded, lies]) keyed (fun _ => unrefused) fun room _ => room

end Unrecorded

/-- A replica without an id of its own is taken for its primary exactly when the primary lies in the
region of the replica. Then its finalization has the deletion of the primary scheduled, unless it is
already, and a pass over it records the primary where it finds no difference to the spec. -/
theorem primary_taken_over_iff (reachable : memory.Reachable) (unrefused : memory.refusals = [])
    (unrecorded : replica.replicaId? = none) (named : replica.spec.keyId = some primaryId)
    (held : memory.key? primaryId = some primary) (counted : primary.tags.size ≤ Text.greatestWord)
    (room : memory.pageBound ≤ pages) :
    ((∃ (schedule : Schedule) (run : Run Memory), run.state = memory ∧
        ∃ exchange ∈ ((manager pages).finalize replica).run.exchanges Memory.service schedule run,
          ∃ days, exchange.request = .scheduleKeyDeletion primaryId days) ↔
      primary.metadata.arn.bind arnRegion? = some replica.spec.replicaRegion ∧
        primary.metadata.isPendingDeletion = false) ∧
    ((∃ (schedule : Schedule) (run last : Run Memory)
        (result : Except (FailedUpdate ReplicaKey) ReplicaKey) (recorded : ReplicaKey),
        run.state = memory ∧
        ((manager pages).reconcile replica).run.run Memory.service schedule run =
          (.finished result, last) ∧
        left? result = some recorded ∧ recorded.replicaId? = some primaryId) ↔
      primary.metadata.arn.bind arnRegion? = some replica.spec.replicaRegion ∧
        (replica.asFound primary).spec = replica.spec) := by
  have keyed := reachable.isKeyed
  obtain rfl : primary.metadata.keyId = primaryId := keyed _ _ held
  have enough : primary.tags.size ≤ Text.greatestWord ∧ primary.tags.size < pages :=
    ⟨counted, Nat.lt_of_lt_of_le (Memory.tags_lt_pageBound held) room⟩
  have undisturbed (lies : primary.metadata.arn.bind arnRegion? = some replica.spec.replicaRegion) :
      ∃ last, ((manager pages).readOne replica).run.run Memory.service .calm { state := memory } =
        (.finished (.ok (replica.asFound primary)), last) := by
    let start : Run Memory := { state := memory }
    have reads : Memory.Reads _ (readOne pages replica) _ start.state :=
      primary_reads keyed unrecorded named held unrefused lies
    obtain ⟨last, ends, -⟩ := reads.run enough ⟨rfl, rfl⟩
    exact ⟨last, ends⟩
  refine ⟨⟨?_, ?_⟩, ⟨?_, ?_⟩⟩
  · rintro ⟨schedule, run, rfl, exchange, member, days, scheduled⟩
    exact finalize_schedules keyed unrecorded named held member scheduled
  · rintro ⟨lies, living⟩
    obtain ⟨last, ends⟩ := undisturbed lies
    refine ⟨.calm, { state := memory }, rfl, ?_⟩
    rw [Manager.run_finalize, Program.exchanges_bind_finished _ ends]
    simp only [manager, delete_asFound, StoredKey.deletion, living, Bool.not_false, if_true]
    obtain ⟨exchange, member, same⟩ := Program.exists_exchange_call
      (.scheduleKeyDeletion primary.metadata.keyId replica.metadata.deletionWindow) _ last
    exact ⟨exchange, List.mem_append_right _ member, _, same⟩
  · rintro ⟨schedule, run, last, result, recorded, rfl, ends, leaves, taken⟩
    exact reconcile_records keyed unrecorded named held ends leaves taken
  · rintro ⟨lies, same⟩
    obtain ⟨last, ends⟩ := undisturbed lies
    refine ⟨.calm, { state := memory }, last, .ok (replica.asFound primary), _, rfl, ?_, rfl, ?_⟩
    · rw [Manager.run_reconcile, Program.run_bind_finished _ ends]
      have equal : (Manager.delta replica (replica.asFound primary)).isEmpty = true :=
        (ReplicaKeySpec.delta_isEmpty_iff _ _).mpr same.symm
      simp only [Manager.sync, equal, if_true]
      rfl
    · obtain ⟨status, shown, replicated⟩ := replica.asFound_status primary
      simp only [replicaId?, shown, Option.bind_some, replicated]
      rfl

/-- A primary that has been created is both recorded and deleted as the replica of its own region. -/
theorem primary_taken_over_iff_created :
    let memory :=
      ({ config := .numbered } : Memory).act (.call (.createKey { multiRegion := some true }))
    let replica : ReplicaKey :=
      ⟨{ name := "replica" }, { keyId := some "key-0", replicaRegion := "us-west-2" }, none⟩
    (∃ (schedule : Schedule) (run : Run Memory), run.state = memory ∧
      ∃ exchange ∈ ((manager 2).finalize replica).run.exchanges Memory.service schedule run,
        ∃ days, exchange.request = .scheduleKeyDeletion "key-0" days) ∧
    ∃ (schedule : Schedule) (run last : Run Memory)
      (result : Except (FailedUpdate ReplicaKey) ReplicaKey) (recorded : ReplicaKey),
      run.state = memory ∧
      ((manager 2).reconcile replica).run.run Memory.service schedule run =
        (.finished result, last) ∧
      left? result = some recorded ∧ recorded.replicaId? = some "key-0" := by
  intro memory replica
  have reachable : memory.Reachable := (Memory.Reachable.start _).act (.call _)
  obtain ⟨primary, held, counted, lies, living, same⟩ :
      ∃ primary, memory.key? "key-0" = some primary ∧ primary.tags.size ≤ Text.greatestWord ∧
        primary.metadata.arn.bind arnRegion? = some replica.spec.replicaRegion ∧
        primary.metadata.isPendingDeletion = false ∧
        (replica.asFound primary).spec = replica.spec :=
    ⟨_, rfl, by decide, by decide, rfl, by decide⟩
  have unrecorded : replica.replicaId? = none := rfl
  have room : memory.pageBound ≤ 2 := by decide
  have taken := primary_taken_over_iff reachable rfl unrecorded rfl held counted room
  exact ⟨taken.1.mpr ⟨lies, living⟩, taken.2.mpr ⟨lies, same⟩⟩

/-- The calls of the finalization, which ends in the deletion of the primary. -/
theorem primary_deleted_as_replica :
    let memory :=
      ({ config := .numbered } : Memory).act (.call (.createKey { multiRegion := some true }))
    let replica : ReplicaKey :=
      ⟨{ name := "replica" }, { keyId := some "key-0", replicaRegion := "us-west-2" }, none⟩
    let pass := ((manager 2).finalize replica).run.exchanges Memory.service .calm { state := memory }
    memory.Reachable ∧ memory.refusals = [] ∧ replica.replicaId? = none ∧
      ((memory.key? "key-0").bind fun key =>
        key.metadata.multiRegionConfiguration.bind MultiRegion.keyType) = some "PRIMARY" ∧
      pass.map Exchange.request =
        [.describeKey "key-0", .listResourceTags "key-0" none, .getKeyPolicy "key-0" "default",
          .scheduleKeyDeletion "key-0" 7] := by
  refine ⟨?_, rfl, rfl, by decide, by decide⟩
  exact (Memory.Reachable.start _).act (.call _)

end ReplicaKey

end KeySteward
