import KeySteward.Service.Error
import KeySteward.Service.KeyMetadata
import KeySteward.Tag

/-! Calls to the key service. `Request` has one constructor for each operation and `Request.Answer`
is the type of what the operation answers with. -/

namespace KeySteward

structure NewKey where
  bypassPolicyLockoutSafetyCheck : Option Bool := none
  customKeyStoreId : Option String := none
  description : Option String := none
  keySpec : Option String := none
  keyUsage : Option String := none
  multiRegion : Option Bool := none
  origin : Option String := none
  policy : Option String := none
  tags : List Tag := []
  deriving DecidableEq

structure NewReplica where
  keyId : String
  replicaRegion : String
  description : Option String := none
  policy : Option String := none
  bypassPolicyLockoutSafetyCheck : Option Bool := none
  tags : List Tag := []
  deriving DecidableEq

structure PolicyChange where
  keyId : String
  policyName : String
  policy : String
  bypassPolicyLockoutSafetyCheck : Bool
  deriving DecidableEq

structure NewGrant where
  keyId : String
  granteePrincipal : String
  operations : List String
  retiringPrincipal : Option String := none
  name : Option String := none
  grantTokens : List String := []
  encryptionContextEquals : SortedMap String := {}
  encryptionContextSubset : SortedMap String := {}
  deriving DecidableEq

structure ScheduledDeletion where
  keyId : String
  keyState : Option KeyState
  deletionDate : Option Timestamp
  pendingWindowInDays : Option Int
  deriving DecidableEq

structure AliasEntry where
  aliasName : String
  aliasArn : Option String
  targetKeyId : Option String
  creationDate : Option Timestamp
  lastUpdatedDate : Option Timestamp
  deriving DecidableEq

structure GrantEntry where
  grantId : String
  keyId : String
  name : Option String
  granteePrincipal : Option String
  retiringPrincipal : Option String
  operations : List String
  creationDate : Option Timestamp
  deriving DecidableEq

structure CreatedGrant where
  grantId : String
  grantToken : Option String
  deriving DecidableEq

/-- One page of a listing. -/
structure Page (α : Type) where
  items : List α
  nextMarker : Option String
  truncated : Bool
  deriving DecidableEq

/-- The marker of the page that follows, if there is one. -/
def Page.next? {α : Type} (page : Page α) : Option String :=
  if page.truncated then page.nextMarker else none

inductive Request where
  | describeKey (keyId : String)
  | createKey (key : NewKey)
  | replicateKey (replica : NewReplica)
  | scheduleKeyDeletion (keyId : String) (days : Int)
  | getKeyRotationStatus (keyId : String)
  | enableKeyRotation (keyId : String)
  | disableKeyRotation (keyId : String)
  | getKeyPolicy (keyId policyName : String)
  | putKeyPolicy (change : PolicyChange)
  | listResourceTags (keyId : String) (marker : Option String)
  | tagResource (keyId : String) (tags : List Tag)
  | untagResource (keyId : String) (tagKeys : List String)
  | createAlias (aliasName targetKeyId : String)
  | updateAlias (aliasName targetKeyId : String)
  | deleteAlias (aliasName : String)
  | listAliases (marker : Option String)
  | createGrant (grant : NewGrant)
  | listGrants (keyId : String) (marker : Option String)
  | retireGrant (keyId grantId : String)
  deriving DecidableEq

namespace Request

/-- What an operation answers with when it succeeds. A rotation status may be missing. -/
@[reducible] def Answer : Request → Type
  | describeKey _ | createKey _ | replicateKey _ => KeyMetadata
  | scheduleKeyDeletion _ _ => ScheduledDeletion
  | getKeyRotationStatus _ => Option Bool
  | getKeyPolicy _ _ => Option String
  | listResourceTags _ _ => Page Tag
  | listAliases _ => Page AliasEntry
  | createGrant _ => CreatedGrant
  | listGrants _ _ => Page GrantEntry
  | enableKeyRotation _ | disableKeyRotation _ | putKeyPolicy _ | tagResource _ _
  | untagResource _ _ | createAlias _ _ | updateAlias _ _ | deleteAlias _ | retireGrant _ _ => Unit

/-- The name of the operation. -/
def operation : Request → String
  | describeKey _ => "DescribeKey"
  | createKey _ => "CreateKey"
  | replicateKey _ => "ReplicateKey"
  | scheduleKeyDeletion _ _ => "ScheduleKeyDeletion"
  | getKeyRotationStatus _ => "GetKeyRotationStatus"
  | enableKeyRotation _ => "EnableKeyRotation"
  | disableKeyRotation _ => "DisableKeyRotation"
  | getKeyPolicy _ _ => "GetKeyPolicy"
  | putKeyPolicy _ => "PutKeyPolicy"
  | listResourceTags _ _ => "ListResourceTags"
  | tagResource _ _ => "TagResource"
  | untagResource _ _ => "UntagResource"
  | createAlias _ _ => "CreateAlias"
  | updateAlias _ _ => "UpdateAlias"
  | deleteAlias _ => "DeleteAlias"
  | listAliases _ => "ListAliases"
  | createGrant _ => "CreateGrant"
  | listGrants _ _ => "ListGrants"
  | retireGrant _ _ => "RetireGrant"

/-- The operation may change what the service holds. -/
def isMutating : Request → Bool
  | describeKey _ | getKeyRotationStatus _ | getKeyPolicy _ _ | listResourceTags _ _
  | listAliases _ | listGrants _ _ => false
  | _ => true

end Request

/-- Why a call has no answer: the service refused it, or broke off in the middle of it. -/
inductive Fault where
  | refused (error : ServiceError)
  | crashed
  deriving DecidableEq

/-- Something that answers calls. -/
structure Service (σ : Type) where
  handle : (request : Request) → σ → Except Fault request.Answer × σ

end KeySteward
