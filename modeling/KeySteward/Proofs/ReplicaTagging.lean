import KeySteward.Proofs.ImmutableChanges
import KeySteward.Proofs.KeyConvergence
import KeySteward.Proofs.MemoryFaults
import KeySteward.Proofs.ReplicaIdentity

/-! What becomes of a replica whose tags cannot be put on. A replica is created without tags and gets
them by a second call. A pass that fails in between leaves the replica recorded, and no later pass puts
the tags on, since a replica takes on no difference. -/

namespace KeySteward

variable {memory after : Memory} {request : Request} {keyId primaryId : String} {stored : StoredKey}
variable {schedule : Schedule} {run last : Run Memory}

namespace Memory

theorem replicateKey_stores {input : NewReplica} {answer : KeyMetadata}
    (performed : memory.replicateKey input = .ok (answer, after)) :
    after.key? answer.keyId =
        some { metadata := answer, policy := input.policy, tags := .ofTags input.tags } ∧
      answer.description = some (input.description.getD "") ∧ answer.isPendingDeletion = false := by
  obtain ⟨primaryId, primary, -, -, rfl, rfl⟩ := replicateKey_inv performed
  exact ⟨by simp [key?, withStore], rfl, rfl⟩

theorem handle_error_store {fault : Fault}
    (failed : service.handle request memory = (.error fault, after)) : after.store = memory.store := by
  simp only [service, handle] at failed
  split at failed
  · cases failed
    rfl
  · split at failed
    · cases failed
    · cases failed
      rfl

private theorem handle_tagResource (held : memory.key? keyId = some stored) (tags : List Tag) :
    let after := (service.handle (.tagResource keyId tags) memory).2
    after.key? keyId = some stored ∨
      after.key? keyId = some { stored with tags := stored.tags.insertAll tags } := by
  intro after
  rcases handled : service.handle (.tagResource keyId tags) memory with ⟨fault | answer, reached⟩
  · left
    simp only [after, handled, key?, handle_error_store handled]
    exact held
  · right
    obtain ⟨-, performed⟩ := handle_eq_ok.mp handled
    simp only [perform, changeKey_eq_ok] at performed
    obtain ⟨other, key, found, rfl⟩ := performed
    have known : memory.lookup keyId = .ok (other, key) := found
    cases known.symm.trans (lookup_of_key? held)
    simp [after, handled, key?, withStore, noted]

/-- A call for the tags of a key that fails leaves them as they are, unless the deadline has passed
before its answer arrives. -/
theorem call_tagResource_failed (held : run.state.key? keyId = some stored) {tags : List Tag}
    {failure : Failure}
    (called : run.call service schedule (.tagResource keyId tags) = (some (.error failure), last)) :
    last.state.key? keyId = some stored ∨ failure = .deadlineExceeded ∧
      last.state.key? keyId = some { stored with tags := stored.tags.insertAll tags } := by
  have gives := run.call_gives service schedule (.tagResource keyId tags)
  rw [called] at gives
  generalize reached : last.state = state at gives ⊢
  cases gives with
  | interrupted interruption left =>
    rcases Run.call_interrupted interruption called with same | ⟨-, late⟩
    · exact .inl (reached ▸ same ▸ held)
    · rcases left with rfl | rfl
      · exact .inl held
      · exact (handle_tagResource held tags).imp_right fun worked => ⟨late, worked⟩
  | refused handled =>
    left
    simp only [key?, handle_error_store handled]
    exact held

end Memory

/-- The stored replica is as the spec has it, but for its tags. -/
structure StoredKey.Renders (stored : StoredKey) (spec : ReplicaKeySpec) : Prop where
  description : ∀ text, spec.description = some text → stored.metadata.description = some text
  policy : stored.policy = spec.policy
  living : stored.metadata.isPendingDeletion = false

namespace ReplicaKey

variable {desired : ReplicaKey} {pages : Nat}

def created (desired : ReplicaKey) (metadata : KeyMetadata) : ReplicaKey :=
  (desired.observe metadata).withPolicy desired.spec.policy

private theorem run_create (named : desired.spec.keyId = some primaryId)
    (tagged : desired.spec.tags.isEmpty = false) :
    (create desired).run = .call (.replicateKey (desired.newReplica primaryId)) fun
      | .ok metadata => .call (.tagResource metadata.keyId desired.spec.tags.toTags) fun
        | .ok _ => .done (.ok (desired.created metadata))
        | .error failure => .done (.error ⟨some (desired.created metadata), failure⟩)
      | .error failure => .done (.error ⟨none, failure⟩) := by
  simp only [create, named]
  change Program.call _ _ = _
  congr 1
  funext result
  cases result with
  | error failure => rfl
  | ok metadata =>
    change ((TagSet.apply metadata.keyId desired.spec.tags).result >>= _ : Update _ _).run = _
    rw [Pass.run_result_bind, TagSet.apply]
    simp only [tagged, Bool.not_false, if_true]
    change Program.call _ _ = _
    congr 1
    funext result
    cases result <;> rfl

private theorem renders_replica {metadata : KeyMetadata}
    (replicated : memory.replicateKey (desired.newReplica primaryId) = .ok (metadata, after))
    (tags : TagMap) :
    ({ metadata, policy := desired.spec.policy, tags } : StoredKey).Renders desired.spec := by
  obtain ⟨-, described, living⟩ := Memory.replicateKey_stores replicated
  refine ⟨fun text wanted => ?_, rfl, living⟩
  rw [described]
  simp [newReplica, wanted]

private theorem create_untagged (tagged : desired.spec.tags.isEmpty = false)
    {failed : FailedUpdate ReplicaKey} {input : NewReplica} {metadata : KeyMetadata}
    (replicated : (⟨.replicateKey input, some (.ok metadata)⟩ : Exchange) ∈
      (create desired).run.exchanges Memory.service schedule run)
    (ends : (create desired).run.run Memory.service schedule run =
      (.finished (.error failed), last)) :
    failed.converged = some (desired.created metadata) ∧
    ∃ stored, last.state.key? metadata.keyId = some stored ∧ stored.metadata = metadata ∧
      stored.Renders desired.spec ∧
      (stored.tags = {} ∨ failed.failure = .deadlineExceeded ∧ stored.tags = desired.spec.tags) := by
  cases named : desired.spec.keyId with
  | none =>
    simp only [create, named] at replicated
    cases replicated
  | some primaryId =>
    rw [run_create named tagged] at replicated ends
    have called := run.call_gives Memory.service schedule (.replicateKey (desired.newReplica primaryId))
    simp only [Program.run, Program.exchanges] at replicated ends
    generalize run.call Memory.service schedule (.replicateKey (desired.newReplica primaryId)) = outcome
      at called replicated ends
    obtain ⟨_ | (failure | answer), middle⟩ := outcome
    · cases ends
    · simp [Program.exchanges] at replicated
    · cases called with
      | answered handled =>
        -- The replica is stored and has no tags yet. What is left is the call that puts them on.
        obtain ⟨-, performed⟩ := Memory.handle_eq_ok.mp handled
        have held := (Memory.replicateKey_stores performed).1
        simp only [Program.run, Program.exchanges] at replicated ends
        generalize second : middle.call Memory.service schedule
          (.tagResource answer.keyId desired.spec.tags.toTags) = outcome at replicated ends
        obtain ⟨_ | (failure | done), reached⟩ := outcome
        · cases ends
        · cases ends
          obtain ⟨-, rfl⟩ : input = desired.newReplica primaryId ∧ metadata = answer := by
            simpa [Program.exchanges] using replicated
          refine ⟨rfl, ?_⟩
          rcases Memory.call_tagResource_failed held second with kept | ⟨late, worked⟩
          · exact ⟨_, kept, rfl, renders_replica performed _, .inl rfl⟩
          · refine ⟨_, worked, rfl, renders_replica performed _, .inr ⟨late, ?_⟩⟩
            exact TagMap.insertAll_eraseAll {} desired.spec.tags
        · cases ends

private theorem reconcile_untagged (tagged : desired.spec.tags.isEmpty = false)
    {failed : FailedUpdate ReplicaKey} {input : NewReplica} {metadata : KeyMetadata}
    (replicated : (⟨.replicateKey input, some (.ok metadata)⟩ : Exchange) ∈
      ((manager pages).reconcile desired).run.exchanges Memory.service schedule run)
    (ends : ((manager pages).reconcile desired).run.run Memory.service schedule run =
      (.finished (.error failed), last)) :
    failed.converged = some (desired.created metadata) ∧
    ∃ stored, last.state.key? metadata.keyId = some stored ∧ stored.metadata = metadata ∧
      stored.Renders desired.spec ∧
      (stored.tags = {} ∨ failed.failure = .deadlineExceeded ∧ stored.tags = desired.spec.tags) := by
  rcases Manager.mem_exchanges_reconcile replicated with
    first | ⟨latest, middle, -, later⟩ | ⟨failure, middle, read, missing, later⟩
  · obtain ⟨_, reads⟩ := (readOne_uses pages desired).exchanges first
    cases reads
  · simp only [Manager.sync] at later
    split at later <;> cases later
  · rw [Manager.run_reconcile, Program.run_bind_finished _ read] at ends
    simp only [missing, if_true] at ends
    exact create_untagged tagged later ends

private theorem asFound_spec (renders : stored.Renders desired.spec) :
    (desired.asFound stored).spec = { desired.spec with tags := stored.tags } := by
  have description : observed desired.spec.description stored.metadata.description =
      desired.spec.description := by
    cases wanted : desired.spec.description with
    | none => rfl
    | some text => exact renders.description text wanted
  have policy : Policy.observed desired.spec.policy stored.policy = desired.spec.policy := by
    rw [renders.policy]
    cases wanted : desired.spec.policy with
    | none => rfl
    | some policy =>
      exact Policy.observed_eq_some_iff.mpr ⟨policy, rfl, Policy.equivalent_refl policy⟩
  simp only [asFound, renders.living, Bool.false_eq_true, if_false, description, policy]

/-- An undisturbed pass over a replica that is recorded succeeds if the tags are on. It changes
nothing, and fails for good if they are not. -/
theorem reconcile_recorded (keyed : run.state.store.IsKeyed) (unrefused : run.state.refusals = [])
    (free : run.IsFree) (known : desired.replicaId? = some keyId)
    (held : run.state.key? keyId = some stored) (renders : stored.Renders desired.spec)
    (room : stored.tags.size ≤ Text.greatestWord ∧ stored.tags.size < pages) :
    ∃ result after, ((manager pages).reconcile desired).run.run Memory.service .calm run =
        (.finished result, after) ∧ run.state.ReadOnly after.state ∧
      if stored.tags = desired.spec.tags then ∃ settled, result = .ok settled
      else result = .error ⟨none, .terminal "replica key resource does not support updates"⟩ := by
  have reads : Memory.Reads True (readOne pages desired) (desired.asFound stored) run.state :=
    readOne_reads (name_of_known known) (Memory.lookup_of_key? held)
      (isReplica_of_known known _) keyed (fun _ => unrefused) fun _ _ => room
  obtain ⟨middle, read, onward⟩ := reads.run trivial free
  change ((manager pages).readOne desired).run.run _ _ _ = _ at read
  rw [Manager.run_reconcile, Program.run_bind_finished _ read]
  have empty : (Manager.delta desired (desired.asFound stored)).isEmpty = true ↔
      stored.tags = desired.spec.tags := by
    refine (ReplicaKeySpec.delta_isEmpty_iff _ _).trans ?_
    rw [asFound_spec renders]
    refine ⟨fun same => ?_, fun same => by rw [same]⟩
    exact (congrArg ReplicaKeySpec.tags same).symm
  dsimp only [Manager.sync]
  by_cases same : stored.tags = desired.spec.tags
  · simp only [if_pos (empty.mpr same), if_pos same]
    exact ⟨_, middle, rfl, onward, _, rfl⟩
  · simp only [if_neg (mt empty.mp same), if_neg same]
    refine ⟨_, middle, ?_, onward, rfl⟩
    change (update desired (desired.asFound stored) _).run.run _ _ _ = _
    rw [update_refuses]
    rfl

/-- A pass that replicates the primary and then fails leaves the replica without its tags, unless the
deadline has passed once they are on. Only in that case the next pass succeeds, even if nothing disturbs
it. In every other it fails for good, and the replica stays without tags. -/
theorem reconcile_recovers_iff (reachable : run.state.Reachable)
    (tagged : desired.spec.tags.isEmpty = false)
    (room : desired.spec.tags.size ≤ Text.greatestWord ∧ desired.spec.tags.size < pages)
    {failed : FailedUpdate ReplicaKey} {input : NewReplica} {metadata : KeyMetadata}
    (replicated : (⟨.replicateKey input, some (.ok metadata)⟩ : Exchange) ∈
      ((manager pages).reconcile desired).run.exchanges Memory.service schedule run)
    (ends : ((manager pages).reconcile desired).run.run Memory.service schedule run =
      (.finished (.error failed), last)) :
    ∃ recorded stored, failed.converged = some recorded ∧
      recorded.replicaId? = some metadata.keyId ∧ last.state.key? metadata.keyId = some stored ∧
      (stored.tags = {} ∨ failed.failure = .deadlineExceeded ∧ stored.tags = desired.spec.tags) ∧
      ∀ again : Run Memory, again.state = last.state.withoutRefusals → again.IsFree →
        ∃ result after,
          ((manager pages).reconcile { desired with status := recorded.status }).run.run
            Memory.service .calm again = (.finished result, after) ∧
          again.state.ReadOnly after.state ∧
          if stored.tags = desired.spec.tags then ∃ settled, result = .ok settled
          else result = .error ⟨none, .terminal "replica key resource does not support updates"⟩ := by
  obtain ⟨converged, stored, held, -, renders, tags⟩ := reconcile_untagged tagged replicated ends
  have keyed := Memory.run_isKeyed ((manager pages).reconcile desired).run schedule reachable.isKeyed
  rw [ends] at keyed
  refine ⟨_, stored, converged, rfl, held, tags, fun again begins free => ?_⟩
  have size : stored.tags.size ≤ desired.spec.tags.size := by
    rcases tags with none | ⟨-, all⟩
    · rw [none]
      exact Nat.zero_le _
    · exact Nat.le_of_eq (congrArg SortedMap.size all)
  have still : again.state.store.IsKeyed := by
    rw [begins]
    exact keyed
  have there : again.state.key? metadata.keyId = some stored := by
    rw [begins]
    exact held
  let resumed : ReplicaKey := { desired with status := (desired.created metadata).status }
  have known : resumed.replicaId? = some metadata.keyId := rfl
  have renders : stored.Renders resumed.spec := renders
  exact reconcile_recorded still (by rw [begins]; rfl) free known there renders
    ⟨Nat.le_trans size room.1, Nat.lt_of_le_of_lt size room.2⟩

/-- A replica in another region whose tags are refused once. -/
theorem reconcile_recovers_iff_throttled :
    let memory := (({ config := .numbered } : Memory).act
      (.call (.createKey { multiRegion := some true }))).act
        (.failNext "TagResource" (.api "ThrottlingException" "slow down"))
    let replica : ReplicaKey :=
      ⟨{ name := "replica" },
        { keyId := some "key-0", replicaRegion := "eu-west-1", tags := .ofTags [⟨"env", "test"⟩] },
        none⟩
    ∃ (failed : FailedUpdate ReplicaKey) (last : Run Memory) (metadata : KeyMetadata),
      ((manager 2).reconcile replica).run.run Memory.service .calm { state := memory } =
        (.finished (.error failed), last) ∧
      ∃ recorded stored, failed.converged = some recorded ∧
        recorded.replicaId? = some metadata.keyId ∧
        last.state.key? metadata.keyId = some stored ∧ stored.tags = {} := by
  intro memory replica
  let run : Run Memory := { state := memory }
  have reachable : run.state.Reachable := ((Memory.Reachable.start _).act (.call _)).act (.failNext _ _)
  obtain ⟨failed, last, ends, throttled⟩ : ∃ (failed : FailedUpdate ReplicaKey) (last : Run Memory),
      ((manager 2).reconcile replica).run.run Memory.service .calm run =
        (.finished (.error failed), last) ∧
      failed.failure = .service (.api "ThrottlingException" "slow down") :=
    ⟨_, _, rfl, rfl⟩
  obtain ⟨metadata, replicated⟩ : ∃ metadata,
      (⟨.replicateKey (replica.newReplica "key-0"), some (.ok metadata)⟩ : Exchange) ∈
        ((manager 2).reconcile replica).run.exchanges Memory.service .calm run :=
    ⟨_, .tail _ (.head _)⟩
  have room : replica.spec.tags.size ≤ Text.greatestWord ∧ replica.spec.tags.size < 2 := by decide
  obtain ⟨recorded, stored, converged, known, held, tags, -⟩ :=
    reconcile_recovers_iff reachable rfl room replicated ends
  refine ⟨failed, last, metadata, ends, recorded, stored, converged, known, held, ?_⟩
  exact tags.resolve_right fun late => by cases throttled.symm.trans late.1

/-- The tags are refused once, for a reason that passes, and the next pass fails for good. -/
theorem tags_never_put_on :
    let memory := (({ config := .numbered } : Memory).act
      (.call (.createKey { multiRegion := some true }))).act
        (.failNext "TagResource" (.api "ThrottlingException" "slow down"))
    let replica : ReplicaKey :=
      ⟨{ name := "replica" },
        { keyId := some "key-0", replicaRegion := "eu-west-1", tags := .ofTags [⟨"env", "test"⟩] },
        none⟩
    let pass := (manager 2).reconcile replica
    let throttled := Failure.service (.api "ThrottlingException" "slow down")
    memory.Reachable ∧ throttled.isTerminal Kind.replicaKey.terminalCodes = false ∧
    (pass.run.exchanges Memory.service .calm { state := memory }).map
        (fun exchange => (exchange.request.operation, exchange.code?)) =
      [("DescribeKey", none), ("ReplicateKey", none), ("TagResource", some "ThrottlingException")] ∧
    ∃ recorded last, pass.run.run Memory.service .calm { state := memory } =
        (.finished (.error ⟨some recorded, throttled⟩), last) ∧
      last.state.refusals = [] ∧
      ∃ after, ((manager 2).reconcile { replica with status := recorded.status }).run.run
          Memory.service .calm { state := last.state } =
        (.finished (.error ⟨none, .terminal "replica key resource does not support updates"⟩),
          after) := by
  intro memory replica pass throttled
  let run : Run Memory := { state := memory }
  have reachable : run.state.Reachable := ((Memory.Reachable.start _).act (.call _)).act (.failNext _ _)
  refine ⟨reachable, by decide, by decide, ?_⟩
  obtain ⟨recorded, last, ends, unrefused⟩ : ∃ recorded last, pass.run.run Memory.service .calm run =
        (.finished (.error ⟨some recorded, throttled⟩), last) ∧ last.state.refusals = [] :=
    ⟨_, _, rfl, rfl⟩
  obtain ⟨metadata, replicated⟩ : ∃ metadata,
      (⟨.replicateKey (replica.newReplica "key-0"), some (.ok metadata)⟩ : Exchange) ∈
        pass.run.exchanges Memory.service .calm run :=
    ⟨_, .tail _ (.head _)⟩
  obtain ⟨converged, stored, held, -, renders, tags⟩ := reconcile_untagged rfl replicated ends
  have untagged : stored.tags = {} := tags.resolve_right fun late => by cases late.1
  have apart : ({} : TagMap) ≠ replica.spec.tags := by decide
  have kept := Memory.run_isKeyed pass.run .calm reachable.isKeyed
  rw [ends] at kept
  cases converged
  let again : Run Memory := { state := last.state }
  have keyed : again.state.store.IsKeyed := kept
  have free : again.IsFree := ⟨rfl, rfl⟩
  let resumed : ReplicaKey := { replica with status := (replica.created metadata).status }
  have known : resumed.replicaId? = some metadata.keyId := rfl
  have there : again.state.key? metadata.keyId = some stored := held
  have renders : stored.Renders resumed.spec := renders
  have room : stored.tags.size ≤ Text.greatestWord ∧ stored.tags.size < 2 := by
    rw [untagged]
    decide
  obtain ⟨result, after, finished, -, refused⟩ :=
    reconcile_recorded keyed unrefused free known there renders room
  rw [untagged, if_neg apart] at refused
  exact ⟨_, last, ends, unrefused, after, refused ▸ finished⟩

end ReplicaKey

end KeySteward
