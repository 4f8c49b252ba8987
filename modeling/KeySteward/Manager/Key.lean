import KeySteward.Manager.Basic
import KeySteward.Resource.Key
import KeySteward.Update.Dispatch

/-! The manager of keys. A key is known by the id in its status, and one that waits for its deletion
is only described. -/

namespace KeySteward

/-- The spec as a key's metadata shows it; what the metadata does not show is as it is desired. -/
def KeySpec.observed (desired : KeySpec) (metadata : KeyMetadata) : KeySpec :=
  { desired with
    customKeyStoreId := KeySteward.observed desired.customKeyStoreId metadata.customKeyStoreId
    description := KeySteward.observed desired.description metadata.description
    keySpec := KeySteward.observed desired.keySpec metadata.keySpec
    keyUsage := KeySteward.observed desired.keyUsage metadata.keyUsage
    multiRegion := KeySteward.observed desired.multiRegion metadata.multiRegion
    origin := KeySteward.observed desired.origin metadata.origin }

/-- The call that creates a key as the spec has it. -/
def KeySpec.newKey (spec : KeySpec) : NewKey where
  bypassPolicyLockoutSafetyCheck := spec.bypassPolicyLockoutSafetyCheck
  customKeyStoreId := spec.customKeyStoreId
  description := spec.description
  keySpec := spec.keySpec
  keyUsage := spec.keyUsage
  multiRegion := spec.multiRegion
  origin := spec.origin
  policy := spec.policy
  tags := spec.tags.toTags

/-- The spec with the parts that a step sets as they are desired. -/
def KeySpec.applyStep (spec desired : KeySpec) : UpdateStep → KeySpec
  | .policy =>
    { spec with
      policy := desired.policy
      bypassPolicyLockoutSafetyCheck := desired.bypassPolicyLockoutSafetyCheck }
  | .tags => { spec with tags := desired.tags }
  | .rotation => { spec with enableKeyRotation := desired.enableKeyRotation }

def KeySpec.applySteps (spec desired : KeySpec) (steps : List UpdateStep) : KeySpec :=
  steps.foldl (fun spec step => spec.applyStep desired step) spec

/-- Takes over everything that a key's metadata says. The conditions stay. -/
def KeyStatus.observe (status : KeyStatus) (scope : AccountScope) (metadata : KeyMetadata) :
    KeyStatus where
  ownership := some (scope.ownership metadata.arn metadata.awsAccountId)
  conditions := status.conditions
  awsAccountId := metadata.awsAccountId
  cloudHsmClusterId := metadata.cloudHsmClusterId
  creationDate := metadata.creationDate
  deletionDate := metadata.deletionDate
  enabled := metadata.enabled
  encryptionAlgorithms := metadata.encryptionAlgorithms
  expirationModel := metadata.expirationModel
  keyId := some metadata.keyId
  keyManager := metadata.keyManager
  keyState := metadata.keyState
  macAlgorithms := metadata.macAlgorithms
  multiRegionConfiguration := metadata.multiRegionConfiguration
  pendingDeletionWindowInDays := metadata.pendingDeletionWindowInDays
  signingAlgorithms := metadata.signingAlgorithms
  validTo := metadata.validTo

namespace Key

/-- The resource with a status that says what the metadata says. -/
def observe (key : Key) (scope : AccountScope) (metadata : KeyMetadata) : Key :=
  { key with status := some (key.statusOrFresh.observe scope metadata) }

def readOne (scope : AccountScope) (pages : Nat) (key : Key) : Pass Key := do
  let some keyId := key.keyId? | throw .notFound
  let metadata ← (Pass.call (.describeKey keyId)).lookup
  let found : Key := { key.observe scope metadata with spec := key.spec.observed metadata }
  if metadata.isPendingDeletion then
    return found
  let tags ← TagSet.list pages keyId
  let rotation ← Rotation.observe keyId
  let policy ← Policy.get keyId
  return {
    found with
      spec := {
        found.spec with
          tags
          enableKeyRotation := rotation.observed key.spec.enableKeyRotation
          policy := Policy.observed key.spec.policy policy } }

/-- A rotation that fails to start leaves the key created. -/
def create (scope : AccountScope) (desired : Key) : Update Key Key := do
  let metadata ← Pass.call (.createKey desired.spec.newKey)
  let created := desired.observe scope metadata
  if desired.spec.enableKeyRotation = some true then
    match ← (Rotation.reconcile metadata.keyId desired.spec.enableKeyRotation).result with
    | .ok _ => return created
    | .error failure => throw ⟨some created, failure⟩
  else return created

def updateTarget (desired : Key) (keyId : String) : UpdateTarget where
  keyId
  policy := desired.spec.policy
  bypassPolicyLockoutSafetyCheck := desired.spec.bypassPolicyLockoutSafetyCheck
  tags := desired.spec.tags
  enableKeyRotation := desired.spec.enableKeyRotation

/-- A step that fails leaves the key with the steps before it. A refused change leaves nothing. -/
def update (pages : Nat) (desired latest : Key) (delta : Delta) : Update Key Key := do
  let some keyId := latest.keyId? | throw ⟨none, .notFound⟩
  let outcome ← (desired.updateTarget keyId).dispatch .key delta pages .converge
  match outcome.failure with
  | none => return { latest with spec := desired.spec }
  | some failure =>
    if outcome.applied.isEmpty && (delta.failure? .key).isSome then throw ⟨none, failure⟩
    throw ⟨some { latest with spec := latest.spec.applySteps desired.spec outcome.applied }, failure⟩

/-- Schedules the deletion of a key that does not wait for it yet. -/
def delete (key : Key) : Pass Unit := do
  let some status := key.status | throw .notFound
  let some keyId := status.keyId | throw .notFound
  if !status.keyState.any KeyState.isPendingDeletion then
    let _ ← Pass.call (.scheduleKeyDeletion keyId key.metadata.deletionWindow)

/-- The manager of the keys of an account, which reads at most so many pages of a listing. -/
def manager (scope : AccountScope) (pages : Nat) : Manager KeySpec KeyStatus where
  readOne := readOne scope pages
  create := create scope
  update := update pages
  delete := delete

end Key

end KeySteward
