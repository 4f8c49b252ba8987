import KeySteward.Service.Request

/-! The key service kept in memory. It holds keys, aliases and grants, writes every call into its
journal, and can be told to refuse the next call of an operation. A call that it refuses changes
nothing but the journal and the list of refusals. -/

namespace KeySteward

structure StoredKey where
  metadata : KeyMetadata
  rotationEnabled : Bool := false
  policy : Option String := none
  tags : TagMap := {}
  deriving DecidableEq

structure StoredAlias where
  targetKeyId : String
  created : Timestamp
  updated : Timestamp
  deriving DecidableEq

/-- What the service holds: keys by id, aliases by name, and the grants in the order of their
creation. -/
structure KeyStore where
  keys : SortedMap StoredKey := {}
  aliases : SortedMap StoredAlias := {}
  grants : List GrantEntry := []
  deriving DecidableEq

namespace KeyStore

/-- The id of the key that an id, an alias or an ARN stands for. -/
def resolve? (store : KeyStore) (name : String) : Option String :=
  if store.keys.contains name then some name
  else match store.aliases.get? name with
    | some entry => some entry.targetKeyId
    | none => (store.keys.values.find? fun key => key.metadata.arn == some name).map
        fun key => key.metadata.keyId

/-- The key that an id, an alias or an ARN stands for. -/
def find? (store : KeyStore) (name : String) : Option StoredKey :=
  (store.resolve? name).bind store.keys.get?

def modifyKey (store : KeyStore) (keyId : String) (change : StoredKey → StoredKey) : KeyStore :=
  { store with keys := store.keys.modify keyId change }

/-- The grants on the key with exactly this id. -/
def grantsOf (store : KeyStore) (keyId : String) : List GrantEntry :=
  store.grants.filter fun grant => grant.keyId == keyId

end KeyStore

/-- The ids that the service gives to what it creates: the n-th key and the n-th grant. -/
structure IdSource where
  key : Nat → String
  grant : Nat → String

structure Memory.Config where
  region : String
  accountId : String
  /-- The most items of a page; zero counts as one. -/
  pageSize : Nat
  /-- The time that is stamped on what changes. -/
  now : Timestamp
  ids : IdSource

structure Memory where
  config : Memory.Config
  store : KeyStore := {}
  /-- Refusals to come, each with the operation that it is for. -/
  refusals : List (String × ServiceError) := []
  rotationStatusUnavailable : Bool := false
  issuedKeys : Nat := 0
  issuedGrants : Nat := 0
  journal : List Request := []

namespace Memory

/-- The name of a key in a region. -/
def keyArn (memory : Memory) (region keyId : String) : String :=
  "arn:aws:kms:" ++ region ++ ":" ++ memory.config.accountId ++ ":key/" ++ keyId

/-! ### Preparation and inspection, apart from any call -/

def insertKey (memory : Memory) (metadata : KeyMetadata) : Memory :=
  { memory with
    store := { memory.store with keys := memory.store.keys.insert metadata.keyId { metadata } } }

/-- Puts in an enabled symmetric key. -/
def seedKey (memory : Memory) (keyId : String) (tags : TagMap) : Memory :=
  let metadata : KeyMetadata := {
    awsAccountId := some memory.config.accountId
    arn := some (memory.keyArn memory.config.region keyId)
    creationDate := some memory.config.now
    enabled := some true
    encryptionAlgorithms := ["SYMMETRIC_DEFAULT"]
    keyId
    keyManager := some "CUSTOMER"
    keySpec := some "SYMMETRIC_DEFAULT"
    keyState := some .enabled
    keyUsage := some "ENCRYPT_DECRYPT"
    multiRegion := some false
    origin := some "AWS_KMS" }
  { memory with
    store := { memory.store with keys := memory.store.keys.insert keyId { metadata, tags } } }

def setRotation (memory : Memory) (keyId : String) (enabled : Bool) : Memory :=
  { memory with
    store := memory.store.modifyKey keyId fun key => { key with rotationEnabled := enabled } }

def setPolicy (memory : Memory) (keyId policy : String) : Memory :=
  { memory with
    store := memory.store.modifyKey keyId fun key => { key with policy := some policy } }

def setRotationStatusUnavailable (memory : Memory) (unavailable : Bool) : Memory :=
  { memory with rotationStatusUnavailable := unavailable }

/-- Has the next call of an operation refused, after those that are to be refused already. -/
def failNext (memory : Memory) (operation : String) (error : ServiceError) : Memory :=
  { memory with refusals := memory.refusals ++ [(operation, error)] }

def key? (memory : Memory) (keyId : String) : Option StoredKey :=
  memory.store.keys.get? keyId

def aliasTarget? (memory : Memory) (aliasName : String) : Option String :=
  (memory.store.aliases.get? aliasName).map StoredAlias.targetKeyId

def mutatingCalls (memory : Memory) : List Request :=
  memory.journal.filter Request.isMutating

def clearJournal (memory : Memory) : Memory :=
  { memory with journal := [] }

/-! ### Calls -/

def keyNotFound (name : String) : Fault :=
  .refused (.api ServiceError.notFoundCode ("Key '" ++ name ++ "' does not exist"))

def aliasNotFound (name : String) : Fault :=
  .refused (.api ServiceError.notFoundCode ("Alias " ++ name ++ " does not exist"))

def grantNotFound (grantId : String) : Fault :=
  .refused (.api ServiceError.notFoundCode ("Grant " ++ grantId ++ " does not exist"))

/-- A key with the id under which it is stored. -/
def lookup (memory : Memory) (name : String) : Except Fault (String × StoredKey) :=
  match memory.store.resolve? name with
  | none => .error (keyNotFound name)
  | some keyId =>
    match memory.store.keys.get? keyId with
    | none => .error (keyNotFound name)
    | some key => .ok (keyId, key)

def withStore (memory : Memory) (store : KeyStore) : Memory :=
  { memory with store }

/-- Changes the key that a name stands for. -/
def changeKey (memory : Memory) (name : String) (change : StoredKey → StoredKey) :
    Except Fault (Unit × Memory) := do
  let (keyId, key) ← memory.lookup name
  let keys := memory.store.keys.insert keyId (change key)
  return ((), memory.withStore { memory.store with keys })

/-- The page of a listing that starts behind `start` items. -/
def page {α : Type} (memory : Memory) (items : List α) (start : Nat) : Page α :=
  let stop := min (start + max memory.config.pageSize 1) items.length
  { items := (items.take stop).drop start
    nextMarker := if stop < items.length then some (toString stop) else none
    truncated := stop < items.length }

def marker? (text : String) : Option Nat :=
  Text.unsigned? Text.greatestWord text

/-- The place of a marker; without one a listing starts at its beginning. -/
def startOf (marker : Option String) : Except Fault Nat :=
  match marker with
  | none => .ok 0
  | some text =>
    match marker? text with
    | some start => .ok start
    | none => .error (.refused (.api "InvalidMarkerException" ("invalid marker " ++ text)))

def createKey (memory : Memory) (input : NewKey) : KeyMetadata × Memory :=
  let keyId := memory.config.ids.key memory.issuedKeys
  let arn := memory.keyArn memory.config.region keyId
  let multiRegion := input.multiRegion.getD false
  let origin := input.origin.getD "AWS_KMS"
  let metadata : KeyMetadata := {
    awsAccountId := some memory.config.accountId
    arn := some arn
    creationDate := some memory.config.now
    customKeyStoreId := input.customKeyStoreId
    description := some (input.description.getD "")
    enabled := some (origin != "EXTERNAL")
    keyId
    keyManager := some "CUSTOMER"
    keySpec := some (input.keySpec.getD "SYMMETRIC_DEFAULT")
    keyState := some (if origin = "EXTERNAL" then .pendingImport else .enabled)
    keyUsage := some (input.keyUsage.getD "ENCRYPT_DECRYPT")
    multiRegion := some multiRegion
    multiRegionConfiguration :=
      if multiRegion then
        some {
          keyType := some "PRIMARY"
          primaryKey := some { arn := some arn, region := some memory.config.region } }
      else none
    origin := some origin }
  let key : StoredKey := { metadata, policy := input.policy, tags := .ofTags input.tags }
  (metadata, {
    memory with
      issuedKeys := memory.issuedKeys + 1
      store := { memory.store with keys := memory.store.keys.insert keyId key } })

/-- A replica is stored under its ARN, which is also its id. -/
def replicateKey (memory : Memory) (input : NewReplica) :
    Except Fault (KeyMetadata × Memory) := do
  let (primaryId, primary) ← memory.lookup input.keyId
  if primary.metadata.multiRegion ≠ some true then
    throw <| .refused <|
      .api "UnsupportedOperationException" (input.keyId ++ " is not a multi-Region key")
  let arn := memory.keyArn input.replicaRegion primary.metadata.keyId
  let reference : KeyReference := { arn := some arn, region := some input.replicaRegion }
  let metadata : KeyMetadata := {
    primary.metadata with
      arn := some arn
      creationDate := some memory.config.now
      description := some (input.description.getD "")
      keyId := arn
      keyState := some .enabled
      multiRegionConfiguration := some {
        keyType := some "REPLICA"
        primaryKey :=
          some { arn := primary.metadata.arn, region := some memory.config.region }
        replicaKeys := [reference] } }
  let regions := primary.metadata.multiRegionConfiguration.map fun regions =>
    { regions with replicaKeys := regions.replicaKeys ++ [reference] }
  let known : StoredKey :=
    { primary with metadata := { primary.metadata with multiRegionConfiguration := regions } }
  let replica : StoredKey := { metadata, policy := input.policy, tags := .ofTags input.tags }
  let keys := (memory.store.keys.insert primaryId known).insert arn replica
  return (metadata, memory.withStore { memory.store with keys })

/-- The service breaks off where the calendar does not reach the day of the deletion. -/
def scheduleKeyDeletion (memory : Memory) (name : String) (days : Int) :
    Except Fault (ScheduledDeletion × Memory) := do
  let (keyId, key) ← memory.lookup name
  if key.metadata.isPendingDeletion then
    throw (.refused (.api "KMSInvalidStateException" (name ++ " is pending deletion")))
  let some date := memory.config.now.addDays? days | throw .crashed
  let metadata : KeyMetadata := {
    key.metadata with
      keyState := some .pendingDeletion
      enabled := some false
      deletionDate := some date
      pendingDeletionWindowInDays := some days }
  let keys := memory.store.keys.insert keyId { key with metadata }
  let answer : ScheduledDeletion := {
    keyId := metadata.keyId
    keyState := metadata.keyState
    deletionDate := some date
    pendingWindowInDays := some days }
  return (answer, memory.withStore { memory.store with keys })

def createAlias (memory : Memory) (aliasName target : String) :
    Except Fault (Unit × Memory) := do
  if memory.store.aliases.contains aliasName then
    throw (.refused (.api "AlreadyExistsException" (aliasName ++ " already exists")))
  let (_, key) ← memory.lookup target
  let entry : StoredAlias :=
    ⟨key.metadata.keyId, memory.config.now, memory.config.now⟩
  let aliases := memory.store.aliases.insert aliasName entry
  return ((), memory.withStore { memory.store with aliases })

def updateAlias (memory : Memory) (aliasName target : String) :
    Except Fault (Unit × Memory) := do
  let (_, key) ← memory.lookup target
  let some entry := memory.store.aliases.get? aliasName | throw (aliasNotFound aliasName)
  let entry := { entry with targetKeyId := key.metadata.keyId, updated := memory.config.now }
  let aliases := memory.store.aliases.insert aliasName entry
  return ((), memory.withStore { memory.store with aliases })

def deleteAlias (memory : Memory) (aliasName : String) :
    Except Fault (Unit × Memory) :=
  if memory.store.aliases.contains aliasName then
    let aliases := memory.store.aliases.erase aliasName
    .ok ((), memory.withStore { memory.store with aliases })
  else .error (aliasNotFound aliasName)

/-- Every alias, as a listing shows it. -/
def aliasEntries (memory : Memory) : List AliasEntry :=
  memory.store.aliases.entries.map fun (aliasName, entry) => {
    aliasName
    aliasArn := some ("arn:aws:kms:" ++ memory.config.region ++ ":" ++ memory.config.accountId ++
      ":" ++ aliasName)
    targetKeyId := some entry.targetKeyId
    creationDate := some entry.created
    lastUpdatedDate := some entry.updated }

def grantToken (grantId : String) : String :=
  "token-" ++ grantId

/-- A name that a grant of the key already has stands for that grant. -/
def createGrant (memory : Memory) (input : NewGrant) :
    Except Fault (CreatedGrant × Memory) := do
  if input.operations.isEmpty then
    throw (.refused (.api "ValidationException" "at least one grant operation is required"))
  let (_, key) ← memory.lookup input.keyId
  let keyId := key.metadata.keyId
  let existing := input.name.bind fun name =>
    (memory.store.grantsOf keyId).find? fun grant => grant.name == some name
  match existing with
  | some grant => return (⟨grant.grantId, some (grantToken grant.grantId)⟩, memory)
  | none =>
    let grantId := memory.config.ids.grant memory.issuedGrants
    let entry : GrantEntry := {
      grantId
      keyId
      name := input.name
      granteePrincipal := some input.granteePrincipal
      retiringPrincipal := input.retiringPrincipal
      operations := input.operations
      creationDate := some memory.config.now }
    return (⟨grantId, some (grantToken grantId)⟩, {
      memory with
        issuedGrants := memory.issuedGrants + 1
        store := { memory.store with grants := memory.store.grants ++ [entry] } })

def retireGrant (memory : Memory) (name grantId : String) :
    Except Fault (Unit × Memory) := do
  let (_, key) ← memory.lookup name
  let matching := fun (grant : GrantEntry) =>
    grant.grantId == grantId && grant.keyId == key.metadata.keyId
  if memory.store.grants.any matching then
    let grants := memory.store.grants.filter fun grant => !matching grant
    return ((), memory.withStore { memory.store with grants })
  else throw (grantNotFound grantId)

/-- What a call answers and leaves behind, if it is not refused. -/
def perform (request : Request) (memory : Memory) : Except Fault (request.Answer × Memory) :=
  match request with
  | .describeKey name => do
    let (_, key) ← memory.lookup name
    return (key.metadata, memory)
  | .createKey input => .ok (memory.createKey input)
  | .replicateKey input => memory.replicateKey input
  | .scheduleKeyDeletion name days => memory.scheduleKeyDeletion name days
  | .getKeyRotationStatus name => do
    let (_, key) ← memory.lookup name
    return (if memory.rotationStatusUnavailable then none else some key.rotationEnabled, memory)
  | .enableKeyRotation name => memory.changeKey name fun key => { key with rotationEnabled := true }
  | .disableKeyRotation name =>
    memory.changeKey name fun key => { key with rotationEnabled := false }
  | .getKeyPolicy name _ => do
    let (_, key) ← memory.lookup name
    return (key.policy, memory)
  | .putKeyPolicy change =>
    memory.changeKey change.keyId fun key => { key with policy := some change.policy }
  | .listResourceTags name marker => do
    let (_, key) ← memory.lookup name
    return (memory.page key.tags.toTags (← startOf marker), memory)
  | .tagResource name tags =>
    memory.changeKey name fun key => { key with tags := key.tags.insertAll tags }
  | .untagResource name tagKeys =>
    memory.changeKey name fun key => { key with tags := key.tags.eraseAll tagKeys }
  | .createAlias aliasName target => memory.createAlias aliasName target
  | .updateAlias aliasName target => memory.updateAlias aliasName target
  | .deleteAlias aliasName => memory.deleteAlias aliasName
  | .listAliases marker =>
    .ok (memory.page memory.aliasEntries ((marker.bind marker?).getD 0), memory)
  | .createGrant input => memory.createGrant input
  | .listGrants name marker => do
    let (_, key) ← memory.lookup name
    return (memory.page (memory.store.grantsOf key.metadata.keyId) (← startOf marker), memory)
  | .retireGrant name grantId => memory.retireGrant name grantId

/-- The first refusal for an operation, and the refusals without it. -/
def takeRefusal? (operation : String) :
    List (String × ServiceError) → Option (ServiceError × List (String × ServiceError))
  | [] => none
  | refusal :: rest =>
    if refusal.1 = operation then some (refusal.2, rest)
    else (takeRefusal? operation rest).map fun taken => (taken.1, refusal :: taken.2)

/-- Answers a call. -/
def handle (request : Request) (memory : Memory) : Except Fault request.Answer × Memory :=
  let memory := { memory with journal := memory.journal ++ [request] }
  match takeRefusal? request.operation memory.refusals with
  | some (error, refusals) => (.error (.refused error), { memory with refusals })
  | none =>
    match memory.perform request with
    | .ok (answer, after) => (.ok answer, after)
    | .error fault => (.error fault, memory)

def service : Service Memory := ⟨handle⟩

/-- More pages than any listing of this service has. -/
def pageBound (memory : Memory) : Nat :=
  memory.store.keys.values.foldr (fun key tags => key.tags.size + tags) 0 +
    memory.store.aliases.size + memory.store.grants.length + 1

end Memory

end KeySteward
