import KeySteward.Manager.Basic
import KeySteward.Resource.ReplicaKey
import KeySteward.Update.Policy
import KeySteward.Update.TagSet

/-! The manager of replicas. A replica is known by the id in its status. Without one the key that
the spec names is looked at, and it counts as the replica only if it lies in the replica's region.
Replicas are created and deleted, but never changed. -/

namespace KeySteward

/-- The region in an ARN: its fourth part, where that is not empty. -/
def arnRegion? (arn : String) : Option String :=
  (((arn.toList.splitOn ':')[3]?).filter fun region => !region.isEmpty).map String.ofList

def ReplicaKeyMetadata.ofKey (metadata : KeyMetadata) : ReplicaKeyMetadata where
  awsAccountId := metadata.awsAccountId
  arn := metadata.arn
  creationDate := metadata.creationDate
  deletionDate := metadata.deletionDate
  description := metadata.description
  enabled := metadata.enabled
  keyId := some metadata.keyId
  keySpec := metadata.keySpec
  keyState := metadata.keyState
  keyUsage := metadata.keyUsage
  multiRegionConfiguration := metadata.multiRegionConfiguration
  origin := metadata.origin
  pendingDeletionWindowInDays := metadata.pendingDeletionWindowInDays

namespace ReplicaKey

/-- The resource with a status that says what the metadata says. -/
def observe (replica : ReplicaKey) (metadata : KeyMetadata) : ReplicaKey :=
  { replica with
    status := some { replica.statusOrFresh with replica := some (.ofKey metadata) } }

def withPolicy (replica : ReplicaKey) (policy : Option String) : ReplicaKey :=
  { replica with status := replica.status.map fun status => { status with policy } }

/-- A key that the spec names, and no status, is the replica only in the replica's region. -/
def isReplica (replica : ReplicaKey) (metadata : KeyMetadata) : Bool :=
  replica.replicaId?.isSome ||
    metadata.arn.bind arnRegion? == some replica.spec.replicaRegion

def readOne (pages : Nat) (replica : ReplicaKey) : Pass ReplicaKey := do
  let some keyId := replica.replicaId? <|> replica.spec.keyId | throw .notFound
  let metadata ← (Pass.call (.describeKey keyId)).lookup
  if !replica.isReplica metadata then
    throw .notFound
  let description := observed replica.spec.description metadata.description
  let found : ReplicaKey :=
    { replica.observe metadata with spec := { replica.spec with description } }
  if metadata.isPendingDeletion then
    return found
  let tags ← TagSet.list pages metadata.keyId
  let policy ← Policy.get metadata.keyId
  let spec :=
    { found.spec with tags, policy := Policy.observed replica.spec.policy policy }
  return { found.withPolicy policy with spec }

/-- The call that replicates a primary key. Its tags are put on in a step of their own. -/
def newReplica (desired : ReplicaKey) (primary : String) : NewReplica where
  keyId := primary
  replicaRegion := desired.spec.replicaRegion
  description := desired.spec.description
  policy := desired.spec.policy
  bypassPolicyLockoutSafetyCheck := desired.spec.bypassPolicyLockoutSafetyCheck

/-- Tags that cannot be put on leave the replica created. -/
def create (desired : ReplicaKey) : Update ReplicaKey ReplicaKey := do
  let some primary := desired.spec.keyId
    | throw ⟨none, .terminal "keyID of the primary key is required"⟩
  let metadata ← Pass.call (.replicateKey (desired.newReplica primary))
  let created := (desired.observe metadata).withPolicy desired.spec.policy
  match ← (TagSet.apply metadata.keyId desired.spec.tags).result with
  | .ok () => return created
  | .error failure => throw ⟨some created, failure⟩

def update (_desired _latest : ReplicaKey) (delta : Delta) : Update ReplicaKey ReplicaKey :=
  let unsupported := Failure.terminal "replica key resource does not support updates"
  throw ⟨none, (delta.failure? .replicaKey).getD unsupported⟩

/-- Schedules the deletion of a replica that does not wait for it yet. -/
def delete (replica : ReplicaKey) : Pass Unit := do
  let some status := replica.status | throw .notFound
  let some keyId := replica.replicaId? | throw .notFound
  if !status.keyState?.any KeyState.isPendingDeletion then
    let _ ← Pass.call (.scheduleKeyDeletion keyId replica.metadata.deletionWindow)

/-- The manager of replicas, which reads at most so many pages of a listing. -/
def manager (pages : Nat) : Manager ReplicaKeySpec ReplicaKeyStatus where
  readOne := readOne pages
  create := create
  update := update
  delete := delete

end ReplicaKey

end KeySteward
