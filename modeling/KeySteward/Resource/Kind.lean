/-! The kinds of resource, and for each one what may change after its creation and which errors of
the service no further attempt can mend. -/

namespace KeySteward

inductive Kind where
  | key
  | replicaKey
  | keyAlias
  | grant
  deriving DecidableEq, Repr

namespace Kind

def all : List Kind := [key, replicaKey, keyAlias, grant]

def name : Kind → String
  | key => "Key"
  | replicaKey => "ReplicaKey"
  | keyAlias => "Alias"
  | grant => "Grant"

def ofName? (name : String) : Option Kind :=
  all.find? fun kind => kind.name == name

/-- What may change after creation: the listed paths, or nothing, with the words that say so. -/
inductive Updates where
  | allowed (paths : List String)
  | unsupported (message : String)
  deriving DecidableEq

structure Profile where
  updates : Updates
  terminalCodes : List String
  deriving DecidableEq

def profile : Kind → Profile
  | key => {
      updates := .allowed
        ["Spec.Policy", "Spec.Tags", "Spec.EnableKeyRotation",
          "Spec.BypassPolicyLockoutSafetyCheck"]
      terminalCodes :=
        ["MalformedPolicyDocumentException", "TagException", "UnsupportedOperationException",
          "InvalidArnException"] }
  | replicaKey => {
      updates := .unsupported "replica key resource does not support updates"
      terminalCodes :=
        ["MalformedPolicyDocumentException", "TagException", "UnsupportedOperationException",
          "InvalidArnException", "AlreadyExistsException"] }
  | keyAlias => {
      updates := .allowed ["Spec.TargetKeyID"]
      terminalCodes := ["AlreadyExistsException", "InvalidAliasNameException"] }
  | grant => {
      updates := .unsupported "grant resource does not support updates"
      terminalCodes :=
        ["InvalidArnException", "InvalidGrantTokenException", "UnsupportedOperationException"] }

def terminalCodes (kind : Kind) : List String :=
  kind.profile.terminalCodes

/-- Whether a path may change after creation. -/
def isMutable (kind : Kind) (path : String) : Bool :=
  match kind.profile.updates with
  | .allowed paths => paths.contains path
  | .unsupported _ => false

end Kind

end KeySteward
