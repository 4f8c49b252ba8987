import KeySteward.Proofs.KeyCreation
import KeySteward.Proofs.MemoryChanges
import KeySteward.Proofs.MemoryReadings

/-! Deletion over the service in memory. A deletion that succeeds leaves the stored key waiting for it. A
key that is stored counts as missing only where one of the calls that read it is answered that something
does not exist, and about a stored key the service says so only where it has been told to. -/

namespace KeySteward

variable {α : Type} {memory after : Memory} {keyId : String} {stored : StoredKey}
variable {schedule : Schedule} {run last : Run Memory}

/-- A deletion of the stored key, which is one call unless the key waits for it already. -/
def StoredKey.deletion (stored : StoredKey) (days : Int) : Pass Unit := do
  if !stored.metadata.isPendingDeletion then
    let _ ← Pass.call (.scheduleKeyDeletion stored.metadata.keyId days)

namespace Memory

/-- The key is stored and waits for its deletion. -/
def AwaitsDeletion (memory : Memory) (keyId : String) : Prop :=
  ∃ stored, memory.key? keyId = some stored ∧ stored.metadata.isPendingDeletion = true

instance (memory : Memory) (keyId : String) : Decidable (memory.AwaitsDeletion keyId) :=
  decidable_of_iff ((memory.key? keyId).any fun stored => stored.metadata.isPendingDeletion) (by
    simp [AwaitsDeletion, Option.any_eq_true])

/-- The service has been told to answer a call of the operation that something does not exist. -/
def Denies (memory : Memory) (operation : String) : Prop :=
  ∃ error, (operation, error) ∈ memory.refusals ∧ error.isNotFound = true

private theorem perform_stored {request : Request} {error : ServiceError}
    (held : memory.key? keyId = some stored) (reads : request.ReadsKey keyId)
    (refused : perform request memory = .error (.refused error)) : error.isNotFound = false := by
  have found := lookup_of_key? held
  cases request
  case listResourceTags name marker =>
    cases reads
    have listed : memory.listing keyId marker (fun key => key.tags.toTags) = _ := refused
    exact listing_refused found listed
  case describeKey | getKeyRotationStatus | getKeyPolicy =>
    cases reads
    simp only [perform, found] at refused
    cases refused
  all_goals cases reads

/-- A call that the service itself does not refuse so is answered so only when it has been told to. -/
theorem denies_of_missing {request : Request} {result : Option (Except Failure request.Answer)}
    (known : ∀ error, perform request (memory.noted request) = .error (.refused error) →
      error.isNotFound = false)
    (gives : service.Gives request memory result after)
    (missing : (Exchange.mk request result).IsNotFound) : memory.Denies request.operation := by
  cases gives with
  | interrupted interruption _ => rcases interruption with rfl | rfl <;> cases missing
  | answered _ => cases missing
  | crashed _ => cases missing
  | @refused error _ handled =>
    have coded : error.isNotFound = true := by
      simpa [Exchange.IsNotFound, Exchange.code?, Failure.code?, ServiceError.isNotFound] using missing
    simp only [service, handle] at handled
    split at handled
    next taken =>
      cases handled
      exact ⟨error, (takeRefusal?_eq_some taken).1, coded⟩
    next =>
      split at handled
      next => cases handled
      next performed =>
        cases handled
        rw [known error performed] at coded
        cases coded

theorem denies_of_exchange {program : Program α} {asked : Request → Prop} (uses : program.Uses asked)
    (asks : ∀ request, asked request → request.isMutating = false)
    (known : ∀ reached, run.state.ReadOnly reached → ∀ request, asked request → ∀ error,
      perform request (reached.noted request) = .error (.refused error) → error.isNotFound = false)
    {exchange : Exchange} (member : exchange ∈ program.exchanges service schedule run)
    (missing : exchange.IsNotFound) : run.state.Denies exchange.request.operation := by
  obtain ⟨allowed, reached, after, onward, gives⟩ := uses.exchange_gives ReadOnly.refl ReadOnly.trans
    (fun request memory allowed => handle_readOnly (asks request allowed) memory) member
  obtain ⟨error, listed, coded⟩ := denies_of_missing (known reached onward _ allowed) gives missing
  exact ⟨error, onward.refusals listed, coded⟩

/-- A program that only reads a stored key is denied nothing but what the service has been told to deny. -/
theorem denies_of_reading {program : Program α} (uses : program.Uses (Request.ReadsKey keyId))
    (held : run.state.key? keyId = some stored) {exchange : Exchange}
    (member : exchange ∈ program.exchanges service schedule run) (missing : exchange.IsNotFound) :
    run.state.Denies exchange.request.operation := by
  refine denies_of_exchange uses (fun request reads => reads.isMutating) ?_ member missing
  intro reached onward request reads error refused
  have noted : (reached.noted request).key? keyId = some stored := (onward.key? keyId).trans held
  exact perform_stored noted reads refused

/-- By a name that the key had before its deletion it is found afterwards, and waits. -/
theorem deletion_found {name : String} {days : Int}
    (found : memory.lookup name = .ok (stored.metadata.keyId, stored))
    (yields : Pass.Yields service (stored.deletion days) memory () after) :
    ∃ changed, after.lookup name = .ok (stored.metadata.keyId, changed) ∧
      changed.metadata.arn = stored.metadata.arn ∧ changed.metadata.isPendingDeletion = true := by
  have held := key?_of_lookup found
  unfold StoredKey.deletion at yields
  split at yields
  next =>
    obtain ⟨answer, reached, scheduled, rest⟩ := Pass.yields_bind.mp yields
    obtain ⟨-, rfl⟩ := Pass.yields_pure.mp rest
    obtain ⟨-, performed⟩ := handle_eq_ok.mp (Pass.yields_call.mp scheduled)
    obtain ⟨other, key, changed, itself, rfl, id, arn, -, pending⟩ := scheduleKeyDeletion_ok performed
    have known : memory.lookup stored.metadata.keyId = .ok (other, key) := itself
    rw [lookup_of_key? held] at known
    cases known
    refine ⟨changed, lookup_eq_ok.mpr ⟨?_, ?_⟩, arn, pending⟩
    · exact (KeyStore.resolve?_insert_named held id arn name).trans (lookup_eq_ok.mp found).1
    · simp [key?, withStore, noted]
  next waits =>
    obtain ⟨-, rfl⟩ := Pass.yields_pure.mp yields
    exact ⟨stored, found, rfl, by simpa using waits⟩

private theorem deletion_awaits {days : Int} (held : memory.key? stored.metadata.keyId = some stored)
    (yields : Pass.Yields service (stored.deletion days) memory () after) :
    after.AwaitsDeletion stored.metadata.keyId := by
  obtain ⟨changed, found, -, pending⟩ := deletion_found (lookup_of_key? held) yields
  exact ⟨changed, key?_of_lookup found, pending⟩

end Memory

namespace Key

theorem delete_asFound (key : Key) (scope : AccountScope) (rotationStatus : Option Bool)
    (stored : StoredKey) :
    (key.asFound scope rotationStatus stored).delete =
      stored.deletion key.metadata.deletionWindow := by
  have kept : (key.asFound scope rotationStatus stored).metadata = key.metadata := by
    unfold asFound
    dsimp only
    split <;> rfl
  simp only [delete, asFound_status]
  rw [kept]
  rfl

theorem delete_awaits {key : Key} {scope : AccountScope} {rotationStatus : Option Bool}
    (held : memory.key? stored.metadata.keyId = some stored)
    (yields : Pass.Yields Memory.service (key.asFound scope rotationStatus stored).delete memory ()
      after) : after.AwaitsDeletion stored.metadata.keyId := by
  rw [delete_asFound] at yields
  exact Memory.deletion_awaits held yields

theorem denied_of_missing {scope : AccountScope} {pages : Nat} {key : Key} {failure : Failure}
    (held : run.state.key? keyId = some stored) (known : key.keyId? = some keyId)
    (ends : (readOne scope pages key).run.run Memory.service schedule run =
      (.finished (.error failure), last)) (missing : failure.isNotFound = true) :
    ∃ exchange ∈ (readOne scope pages key).run.exchanges Memory.service schedule run,
      exchange.IsNotFound ∧ run.state.Denies exchange.request.operation := by
  rcases (readOne_not_found_iff scope pages key run).mp ⟨failure, last, ends, missing⟩ with
    unknown | ⟨exchange, member, absent⟩
  · rw [known] at unknown
    cases unknown
  · exact ⟨exchange, member, absent,
      Memory.denies_of_reading (readOne_uses scope pages known) held member absent⟩

end Key

namespace ReplicaKey

theorem readOne_lookup (pages : Nat) {replica : ReplicaKey}
    (known : replica.replicaId? = some keyId) :
    ∃ next : KeyMetadata → Pass ReplicaKey,
      readOne pages replica = (Pass.call (.describeKey keyId)).lookup >>= next ∧
        ∀ metadata, (next metadata).Strict := by
  simp only [readOne, name_of_known known]
  refine ⟨_, rfl, fun metadata => ?_⟩
  simp only [isReplica_of_known known, Bool.not_true, Bool.false_eq_true, if_false]
  split
  · exact .pure _
  · refine (TagSet.list_strict pages _).bind fun tags => ?_
    exact (Policy.get_strict _).bind fun policy => .pure _

/-- Reading a recorded replica fails as something not found does exactly when one of the calls is
answered so. -/
theorem readOne_not_found_iff {service : Service α} (pages : Nat) {replica : ReplicaKey}
    (known : replica.replicaId? = some keyId) (run : Run α) :
    (∃ failure after, (readOne pages replica).run.run service schedule run =
        (.finished (.error failure), after) ∧ failure.isNotFound = true) ↔
      ∃ exchange ∈ (readOne pages replica).run.exchanges service schedule run,
        exchange.IsNotFound := by
  obtain ⟨next, reads, strict⟩ := readOne_lookup pages known
  rw [reads]
  exact Pass.lookup_not_found_iff strict run

theorem denies_of_reading {pages : Nat} {replica : ReplicaKey} (keyed : run.state.store.IsKeyed)
    (held : run.state.key? keyId = some stored) (known : replica.replicaId? = some keyId)
    {exchange : Exchange}
    (member : exchange ∈ (readOne pages replica).run.exchanges Memory.service schedule run)
    (missing : exchange.IsNotFound) : run.state.Denies exchange.request.operation := by
  have described : (Pass.call (.describeKey keyId)).lookup.run.Uses (Request.ReadsKey keyId) :=
    Pass.uses_lookup (Pass.uses_call rfl)
  simp only [readOne, name_of_known known, ExceptT.run_bind] at member
  rcases Program.mem_exchanges_bind member with first | ⟨result, middle, begun, later⟩
  · exact Memory.denies_of_reading described held first missing
  · cases result with
    | error failure => cases later
    | ok metadata =>
      have yields := (Pass.heeds_call _).lookup.yields begun
      have reads : Memory.Reads False _ stored.metadata run.state :=
        (Memory.describeKey_reads False.elim (Memory.lookup_of_key? held)).lookup
      obtain ⟨rfl, onward⟩ := reads.only (.refl _) yields
      cases keyed _ _ held
      simp only [isReplica_of_known known, Bool.not_true, Bool.false_eq_true, if_false] at later
      have denied : middle.state.Denies exchange.request.operation := by
        refine Memory.denies_of_reading ?_ ((onward.key? _).trans held) later missing
        split
        · trivial
        · refine Pass.uses_bind (TagSet.list_uses pages fun _ => rfl) fun tags => ?_
          exact Pass.uses_bind (Pass.uses_call rfl) fun policy => trivial
      obtain ⟨error, listed, coded⟩ := denied
      exact ⟨error, onward.refusals listed, coded⟩

theorem delete_asFound (replica : ReplicaKey) (stored : StoredKey) :
    (replica.asFound stored).delete = stored.deletion replica.metadata.deletionWindow := by
  have kept : (replica.asFound stored).metadata = replica.metadata := by
    unfold asFound
    dsimp only
    split <;> rfl
  obtain ⟨status, shown, replicated⟩ := replica.asFound_status stored
  simp only [delete, replicaId?, ReplicaKeyStatus.keyState?, shown, Option.bind_some, replicated]
  rw [kept]
  rfl

theorem delete_awaits {replica : ReplicaKey} (held : memory.key? stored.metadata.keyId = some stored)
    (yields : Pass.Yields Memory.service (replica.asFound stored).delete memory () after) :
    after.AwaitsDeletion stored.metadata.keyId := by
  rw [delete_asFound] at yields
  exact Memory.deletion_awaits held yields

end ReplicaKey

end KeySteward
