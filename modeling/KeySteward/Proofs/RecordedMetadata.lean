import KeySteward.Manager.Key
import KeySteward.Manager.ReplicaKey

/-! What a status records of the metadata of a key. A status describes the key when each of its fields
says what the metadata says, its conditions apart, and there is one such status for given conditions: the
one that takes over the metadata. -/

namespace KeySteward

variable {scope : AccountScope} {metadata : KeyMetadata}

/-- Every field that the service has a say in is as the metadata has it. -/
structure KeyStatus.Describes (status : KeyStatus) (scope : AccountScope) (metadata : KeyMetadata) :
    Prop where
  ownership : status.ownership = some {
    arn := metadata.arn
    ownerAccountId := some (metadata.awsAccountId.getD scope.accountId)
    region := some scope.region }
  awsAccountId : status.awsAccountId = metadata.awsAccountId
  cloudHsmClusterId : status.cloudHsmClusterId = metadata.cloudHsmClusterId
  creationDate : status.creationDate = metadata.creationDate
  deletionDate : status.deletionDate = metadata.deletionDate
  enabled : status.enabled = metadata.enabled
  encryptionAlgorithms : status.encryptionAlgorithms = metadata.encryptionAlgorithms
  expirationModel : status.expirationModel = metadata.expirationModel
  keyId : status.keyId = some metadata.keyId
  keyManager : status.keyManager = metadata.keyManager
  keyState : status.keyState = metadata.keyState
  macAlgorithms : status.macAlgorithms = metadata.macAlgorithms
  multiRegionConfiguration : status.multiRegionConfiguration = metadata.multiRegionConfiguration
  pendingDeletionWindowInDays :
    status.pendingDeletionWindowInDays = metadata.pendingDeletionWindowInDays
  signingAlgorithms : status.signingAlgorithms = metadata.signingAlgorithms
  validTo : status.validTo = metadata.validTo

/-- The part of the status that is about the replica is as the metadata has it. -/
structure ReplicaKeyMetadata.Describes (replica : ReplicaKeyMetadata) (metadata : KeyMetadata) :
    Prop where
  awsAccountId : replica.awsAccountId = metadata.awsAccountId
  arn : replica.arn = metadata.arn
  creationDate : replica.creationDate = metadata.creationDate
  deletionDate : replica.deletionDate = metadata.deletionDate
  description : replica.description = metadata.description
  enabled : replica.enabled = metadata.enabled
  keyId : replica.keyId = some metadata.keyId
  keySpec : replica.keySpec = metadata.keySpec
  keyState : replica.keyState = metadata.keyState
  keyUsage : replica.keyUsage = metadata.keyUsage
  multiRegionConfiguration : replica.multiRegionConfiguration = metadata.multiRegionConfiguration
  origin : replica.origin = metadata.origin
  pendingDeletionWindowInDays :
    replica.pendingDeletionWindowInDays = metadata.pendingDeletionWindowInDays

/-- A status describes a key when there is nothing to take over from its metadata. -/
theorem KeyStatus.describes_iff {status : KeyStatus} :
    status.Describes scope metadata ↔ status.observe scope metadata = status := by
  constructor
  · intro describes
    cases status
    simp only [observe, mk.injEq, true_and]
    exact {
      left := describes.ownership.symm
      right := ⟨describes.awsAccountId.symm, describes.cloudHsmClusterId.symm,
        describes.creationDate.symm, describes.deletionDate.symm, describes.enabled.symm,
        describes.encryptionAlgorithms.symm, describes.expirationModel.symm, describes.keyId.symm,
        describes.keyManager.symm, describes.keyState.symm, describes.macAlgorithms.symm,
        describes.multiRegionConfiguration.symm, describes.pendingDeletionWindowInDays.symm,
        describes.signingAlgorithms.symm, describes.validTo.symm⟩ }
  · intro same
    rw [← same]
    constructor <;> rfl

private theorem ReplicaKeyMetadata.describes_iff {replica : ReplicaKeyMetadata} :
    replica.Describes metadata ↔ replica = .ofKey metadata := by
  constructor
  · intro describes
    cases replica
    simp only [ofKey, mk.injEq]
    exact ⟨describes.awsAccountId, describes.arn, describes.creationDate, describes.deletionDate,
      describes.description, describes.enabled, describes.keyId, describes.keySpec,
      describes.keyState, describes.keyUsage, describes.multiRegionConfiguration, describes.origin,
      describes.pendingDeletionWindowInDays⟩
  · intro same
    rw [same]
    constructor <;> rfl

/-- The resource differs from the other one only in its status, which describes the key. -/
structure Key.Records (settled key : Key) (scope : AccountScope) (metadata : KeyMetadata) : Prop where
  kept : settled.metadata = key.metadata ∧ settled.spec = key.spec
  status : ∃ status, settled.status = some status ∧ status.Describes scope metadata ∧
    status.conditions = key.conditions

/-- The resource differs from the other one only in its status, and there only in the part about the
replica, which describes the key. -/
structure ReplicaKey.Records (settled replica : ReplicaKey) (metadata : KeyMetadata) : Prop where
  kept : settled.metadata = replica.metadata ∧ settled.spec = replica.spec
  status : ∃ status found, settled.status = some status ∧ status.replica = some found ∧
    found.Describes metadata ∧ status.conditions = replica.conditions ∧
    status.policy = replica.statusOrFresh.policy

/-- To observe a key is to record what its metadata says, and nothing else. -/
theorem Key.records_iff {settled key : Key} :
    settled.Records key scope metadata ↔ settled = key.observe scope metadata := by
  constructor
  · intro ⟨⟨named, wanted⟩, status, present, describes, conditions⟩
    obtain ⟨_, _, _⟩ := settled
    cases named
    cases wanted
    cases present
    have taken : status = key.statusOrFresh.observe scope metadata := by
      rw [← KeyStatus.describes_iff.mp describes]
      simp only [KeyStatus.observe, conditions]
      rfl
    rw [taken]
    rfl
  · intro same
    rw [same]
    refine ⟨⟨rfl, rfl⟩, _, rfl, ?_, rfl⟩
    exact KeyStatus.describes_iff.mpr rfl

theorem ReplicaKey.records_iff {settled replica : ReplicaKey} :
    settled.Records replica metadata ↔ settled = replica.observe metadata := by
  constructor
  · intro ⟨⟨named, wanted⟩, status, found, present, about, describes, conditions, policy⟩
    obtain ⟨_, _, _⟩ := settled
    cases named
    cases wanted
    cases present
    have taken : status = { replica.statusOrFresh with replica := some (.ofKey metadata) } := by
      cases status
      cases about
      cases conditions
      cases policy
      rw [ReplicaKeyMetadata.describes_iff.mp describes]
    rw [taken]
    rfl
  · intro same
    rw [same]
    refine ⟨⟨rfl, rfl⟩, _, _, rfl, rfl, ?_, rfl, rfl⟩
    exact ReplicaKeyMetadata.describes_iff.mpr rfl

end KeySteward
