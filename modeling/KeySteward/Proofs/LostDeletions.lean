import KeySteward.Proofs.PassChanges
import KeySteward.Proofs.PassEndings

/-! When a finalization succeeds and leaves its key living. It does so where one of the calls that read
the key is answered that something does not exist: any such answer passes for the answer that there is no
key, also one about the tags, the rotation or the policy of a key that has just been described. -/

namespace KeySteward

variable {σ τ α β : Type} {keyId : String} {stored : StoredKey} {schedule : Schedule} {run : Run Memory}

private theorem Exchange.IsNotFound.not_answered {call : Exchange} (denied : call.IsNotFound) :
    ¬ call.IsAnswered := by
  intro ⟨answer, answered⟩
  obtain ⟨failure, failed, -⟩ := denied.failure
  cases answered.symm.trans failed

/-- A call that is denied ends a look-up, and strict readings after it too. -/
private theorem Pass.getLast?_lookup {service : Service σ} {request : Request}
    {next : request.Answer → Pass β} (strict : ∀ answer, (next answer).Strict) {run : Run σ}
    {call : Exchange} (denied : call.IsNotFound)
    (member : call ∈ ((Pass.call request).lookup >>= next).run.exchanges service schedule run) :
    (((Pass.call request).lookup >>= next).run.exchanges service schedule run).getLast? =
      some call := by
  rw [run_lookup_bind] at member ⊢
  simp only [Program.exchanges] at member ⊢
  generalize run.call service schedule request = outcome at member ⊢
  rcases outcome with ⟨_ | (failure | answer), middle⟩
  · cases List.mem_singleton.mp member
    rfl
  · cases List.mem_singleton.mp member
    rfl
  · rcases List.mem_cons.mp member with rfl | later
    · exact absurd ⟨answer, rfl⟩ denied.not_answered
    · have last := (strict answer).getLast?_exchanges later denied.not_answered
      dsimp only
      rw [List.getLast?_cons, last]
      rfl

private theorem Memory.ReadOnly.awaitsDeletion_iff {memory after : Memory}
    (onward : memory.ReadOnly after) :
    after.AwaitsDeletion keyId ↔ memory.AwaitsDeletion keyId := by
  simp only [Memory.AwaitsDeletion, onward.key?]

namespace Manager

def reading (manager : Manager σ τ) (resource : Resource σ τ) (schedule : Schedule)
    (run : Run Memory) : List Exchange :=
  (manager.readOne resource).run.exchanges Memory.service schedule run

variable [CustomResource σ τ]

/-- The finalization succeeds, and the stored key does not wait for its deletion. -/
def Abandons (manager : Manager σ τ) (resource : Resource σ τ) (schedule : Schedule)
    (run : Run Memory) (keyId : String) : Prop :=
  ∃ last, (manager.finalize resource).run.run Memory.service schedule run =
    (.finished (.ok ()), last) ∧ ¬ last.state.AwaitsDeletion keyId

/-- A key is abandoned where it lives and a call that reads it is denied. That the description of the
key is denied means that there is no key. All other abandoned keys have been described, and then the
reading has been denied something else. -/
structure AbandonsWhereDenied (manager : Manager σ τ) (resource : Resource σ τ) (schedule : Schedule)
    (run : Run Memory) (keyId : String) : Prop where
  told : ∀ call ∈ manager.reading resource schedule run, call.IsNotFound →
    run.state.Denies call.request.operation
  abandons_iff : manager.Abandons resource schedule run keyId ↔
    ¬ run.state.AwaitsDeletion keyId ∧
      ∃ call ∈ manager.reading resource schedule run, call.IsNotFound
  described_iff :
    (manager.Abandons resource schedule run keyId ∧
      ∀ call ∈ manager.reading resource schedule run, call.IsNotFound →
        call.request ≠ .describeKey keyId) ↔
    ¬ run.state.AwaitsDeletion keyId ∧
      ∃ call ∈ manager.reading resource schedule run, call.IsNotFound ∧
        call.request ≠ .describeKey keyId

omit [CustomResource σ τ] in
/-- Where a finalization deletes what it finds, and the reading changes nothing and calls the key missing
where one of its calls is denied, as one at most is, the key is abandoned just where it lives and a call
is denied. -/
private theorem abandonsWhereDenied {manager : Manager σ τ} {resource : Resource σ τ}
    (told : ∀ call ∈ manager.reading resource schedule run, call.IsNotFound →
      run.state.Denies call.request.operation)
    (last : ∀ call ∈ manager.reading resource schedule run, call.IsNotFound →
      (manager.reading resource schedule run).getLast? = some call)
    (asks : (manager.readOne resource).run.Uses fun request => request.isMutating = false)
    (missing_iff : (∃ failure last,
      (manager.readOne resource).run.run Memory.service schedule run =
        (.finished (.error failure), last) ∧ failure.isNotFound = true) ↔
      ∃ call ∈ manager.reading resource schedule run, call.IsNotFound)
    (deletes : ∀ latest middle last,
      (manager.readOne resource).run.run Memory.service schedule run =
        (.finished (.ok latest), middle) →
      (manager.delete latest).run.run Memory.service schedule middle = (.finished (.ok ()), last) →
      last.state.AwaitsDeletion keyId) :
    manager.AbandonsWhereDenied resource schedule run keyId := by
  have abandons_iff : manager.Abandons resource schedule run keyId ↔
      ¬ run.state.AwaitsDeletion keyId ∧
        ∃ call ∈ manager.reading resource schedule run, call.IsNotFound := by
    have onward := Memory.run_readOnly asks schedule run
    constructor
    · intro ⟨last, ends, living⟩
      rcases Manager.finalize_cases ends with
        ⟨latest, middle, read, rest⟩ | ⟨failure, read, ⟨missing, -⟩ | ⟨-, result⟩⟩
      · exact absurd (deletes latest middle last read rest) living
      · rw [read] at onward
        exact ⟨mt onward.awaitsDeletion_iff.mpr living, missing_iff.mp ⟨failure, last, read, missing⟩⟩
      · cases result
    · intro ⟨living, denied⟩
      obtain ⟨failure, last, read, missing⟩ := missing_iff.mpr denied
      rw [read] at onward
      refine ⟨last, ?_, mt onward.awaitsDeletion_iff.mp living⟩
      rw [run_finalize, Program.run_bind_finished _ read]
      dsimp only
      rw [if_pos missing]
      rfl
  refine ⟨told, abandons_iff, ?_⟩
  rw [abandons_iff]
  constructor
  · intro ⟨⟨living, call, member, denied⟩, described⟩
    exact ⟨living, call, member, denied, described call member denied⟩
  · intro ⟨living, call, member, denied, apart⟩
    refine ⟨⟨living, call, member, denied⟩, ?_⟩
    intro other also missing
    cases (last other also missing).symm.trans (last call member denied)
    exact apart

end Manager

private theorem Key.finalize_abandons (scope : AccountScope) (pages : Nat) {key : Key}
    (keyed : run.state.store.IsKeyed) (held : run.state.key? keyId = some stored)
    (known : key.keyId? = some keyId) :
    (manager scope pages).AbandonsWhereDenied key schedule run keyId := by
  refine Manager.abandonsWhereDenied ?told ?last (readOne_asks scope pages key) ?missing ?deletes
  case told =>
    intro call member denied
    exact Memory.denies_of_reading (readOne_uses scope pages known) held member denied
  case last =>
    obtain ⟨next, reads, strict⟩ := readOne_lookup scope pages known
    simp only [Manager.reading, manager, reads]
    intro call member denied
    exact Pass.getLast?_lookup strict denied member
  case missing =>
    refine (readOne_not_found_iff scope pages key run).trans ?_
    simp only [known, reduceCtorEq, false_or]
    rfl
  case deletes =>
    intro latest middle last read rest
    obtain ⟨name, other, same, named, found, rfl, onward⟩ :=
      readOne_found ((readOne_heeds scope pages key).yields read)
    cases named.symm.trans known
    cases found.symm.trans (Memory.lookup_of_key? held)
    cases keyed _ _ held
    exact delete_awaits ((onward.key? _).trans held) ((delete_heeds _).yields rest)

private theorem ReplicaKey.finalize_abandons (pages : Nat) {replica : ReplicaKey}
    (keyed : run.state.store.IsKeyed) (held : run.state.key? keyId = some stored)
    (known : replica.replicaId? = some keyId) :
    (manager pages).AbandonsWhereDenied replica schedule run keyId := by
  refine Manager.abandonsWhereDenied ?told ?last (readOne_asks pages replica) ?missing ?deletes
  case told =>
    intro call member denied
    exact denies_of_reading keyed held known member denied
  case last =>
    obtain ⟨next, reads, strict⟩ := readOne_lookup pages known
    simp only [Manager.reading, manager, reads]
    intro call member denied
    exact Pass.getLast?_lookup strict denied member
  case missing => exact readOne_not_found_iff pages known run
  case deletes =>
    intro latest middle last read rest
    obtain ⟨name, other, same, named, found, -, rfl, onward⟩ :=
      readOne_found keyed ((readOne_heeds pages replica).yields read)
    cases named.symm.trans (name_of_known known)
    cases found.symm.trans (Memory.lookup_of_key? held)
    cases keyed _ _ held
    exact delete_awaits ((onward.key? _).trans held) ((delete_heeds _).yields rest)

/-- A finalization over a stored key, whatever refusals the service has been told of and whatever happens
around the calls, abandons the key just where it lives and one of the calls that read it is denied. Only
the denial of its description means that there is no key. A key that has been described is abandoned just
where it lives and its tags, its rotation or its policy are denied. -/
theorem finalize_abandons_iff (schedule : Schedule) (reachable : run.state.Reachable)
    (held : run.state.key? keyId = some stored) (scope : AccountScope) (pages : Nat) :
    (∀ key : Key, key.keyId? = some keyId →
      (Key.manager scope pages).AbandonsWhereDenied key schedule run keyId) ∧
    ∀ replica : ReplicaKey, replica.replicaId? = some keyId →
      (ReplicaKey.manager pages).AbandonsWhereDenied replica schedule run keyId := by
  constructor
  · intro key known
    exact Key.finalize_abandons scope pages reachable.isKeyed held known
  · intro replica known
    exact ReplicaKey.finalize_abandons pages reachable.isKeyed held known

/-- A living key is abandoned, as itself and as a replica, when its tags are denied and its description
is not. -/
theorem finalize_abandons_iff_untagged :
    let run : Run Memory :=
      { state := (({ config := .numbered } : Memory).seedKey "k1" {}).failNext "ListResourceTags"
          (.api ServiceError.notFoundCode "gone") }
    let keys := Key.manager ⟨"us-west-2", "000000000000"⟩ 2
    let replicas := ReplicaKey.manager 2
    let key : Key := ⟨{ name := "key" }, {}, some { keyId := some "k1" }⟩
    let replica : ReplicaKey :=
      ⟨{ name := "replica" }, { replicaRegion := "eu-west-1" },
        some { replica := some { keyId := some "k1" } }⟩
    run.state.Denies "ListResourceTags" ∧
      (keys.Abandons key .calm run "k1" ∧ ∀ call ∈ keys.reading key .calm run, call.IsNotFound →
        call.request ≠ .describeKey "k1") ∧
      (replicas.Abandons replica .calm run "k1" ∧ ∀ call ∈ replicas.reading replica .calm run,
        call.IsNotFound → call.request ≠ .describeKey "k1") := by
  intro run keys replicas key replica
  have reachable : run.state.Reachable :=
    ((Memory.Reachable.start _).act (.seedKey "k1" {})).act (.failNext _ _)
  obtain ⟨stored, held⟩ := Option.isSome_iff_exists.mp
    (show (run.state.key? "k1").isSome = true by decide)
  have living : ¬ run.state.AwaitsDeletion "k1" := by decide
  let denied : Exchange := ⟨.listResourceTags "k1" none,
    some (.error (.service (.api ServiceError.notFoundCode "gone")))⟩
  obtain ⟨ofKeys, ofReplicas⟩ :=
    finalize_abandons_iff .calm reachable held ⟨"us-west-2", "000000000000"⟩ 2
  refine ⟨(ofKeys key rfl).told denied (.tail _ (.head _)) rfl, ?_, ?_⟩
  · apply (ofKeys key rfl).described_iff.mpr
    exact ⟨living, denied, .tail _ (.head _), rfl, nofun⟩
  · apply (ofReplicas replica rfl).described_iff.mpr
    exact ⟨living, denied, .tail _ (.head _), rfl, nofun⟩

/-- The finalization of a key that has just been described succeeds, and the key lives on, when the
service has been told to deny its tags. -/
theorem finalize_of_denied_tags :
    let memory := (({ config := .numbered } : Memory).seedKey "k1" {}).failNext "ListResourceTags"
      (.api ServiceError.notFoundCode "gone")
    let run : Run Memory := { state := memory }
    let key : Key := ⟨{ name := "key" }, {}, some { keyId := some "k1" }⟩
    let pass := (Key.manager ⟨"us-west-2", "000000000000"⟩ 2).finalize key
    memory.Reachable ∧ (memory.key? "k1").isSome = true ∧
      (pass.run.run Memory.service .calm run).1 = .finished (.ok ()) ∧
      (pass.run.exchanges Memory.service .calm run).map
          (fun call => (call.request.operation, call.code?)) =
        [("DescribeKey", none), ("ListResourceTags", some "NotFoundException")] ∧
      ¬ (pass.run.run Memory.service .calm run).2.state.AwaitsDeletion "k1" := by
  refine ⟨?_, by decide, rfl, by decide, by decide⟩
  exact ((Memory.Reachable.start _).act (.seedKey "k1" {})).act (.failNext _ _)

end KeySteward
