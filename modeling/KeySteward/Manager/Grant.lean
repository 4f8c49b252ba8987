import KeySteward.Manager.Basic
import KeySteward.Pass.Listing
import KeySteward.Resource.Grant

/-! The manager of grants. A grant is known by the id in its status, among the grants of the key
that the spec names. Grants are created and retired, but never changed. -/

namespace KeySteward.Grant

/-- The order and the repetition of operations do not matter. -/
def sameOperations (a b : List String) : Bool :=
  a.all b.contains && b.all a.contains

/-- The key that the grant is for, which may not be empty. -/
def keyId? (grant : Grant) : Option String :=
  grant.spec.keyId.filter fun keyId => !keyId.isEmpty

def missingKey : Failure :=
  .terminal "keyID is required"

/-- The ARN of the key, which the spec may give instead of an id. -/
def keyArn (scope : AccountScope) (keyId : String) : String :=
  if keyId.startsWith "arn:" then keyId
  else "arn:aws:kms:" ++ scope.region ++ ":" ++ scope.accountId ++ ":key/" ++ keyId

/-- The spec as a grant of the service shows it. -/
def observedSpec (desired : GrantSpec) (entry : GrantEntry) : GrantSpec :=
  { desired with
    operations :=
      if sameOperations desired.operations entry.operations then desired.operations
      else entry.operations
    granteePrincipal := entry.granteePrincipal.getD desired.granteePrincipal
    retiringPrincipal := observed desired.retiringPrincipal entry.retiringPrincipal
    name := observed desired.name entry.name }

def readOne (scope : AccountScope) (pages : Nat) (grant : Grant) : Pass Grant := do
  let some grantId := grant.grantId? | throw .notFound
  let some keyId := grant.keyId? | throw missingKey
  let isEntry := fun (entry : GrantEntry) => entry.grantId == grantId
  let entry? ←
    (Pass.find (fun marker => .call (.listGrants keyId marker)) isEntry pages).lookup
  let some entry := entry? | throw .notFound
  let status := grant.statusOrFresh
  let ownership := status.ownership.getD (scope.ownership (some (keyArn scope keyId)) none)
  return {
    grant with
      spec := observedSpec grant.spec entry
      status := some { status with ownership := some ownership } }

/-- The call that creates a grant as the spec has it. -/
def newGrant (desired : Grant) (keyId : String) : NewGrant :=
  let constraints := desired.spec.constraints.getD {}
  { keyId
    granteePrincipal := desired.spec.granteePrincipal
    operations := desired.spec.operations
    retiringPrincipal := desired.spec.retiringPrincipal
    name := desired.spec.name
    grantTokens := desired.spec.grantTokens
    encryptionContextEquals := constraints.encryptionContextEquals
    encryptionContextSubset := constraints.encryptionContextSubset }

def create (scope : AccountScope) (desired : Grant) : Update Grant Grant := do
  let some keyId := desired.keyId? | throw ⟨none, missingKey⟩
  let created ← Pass.call (.createGrant (desired.newGrant keyId))
  return {
    desired with
      status := some {
        desired.statusOrFresh with
          ownership := some (scope.ownership (some (keyArn scope keyId)) none)
          grantId := some created.grantId
          grantToken := created.grantToken } }

def update (_desired _latest : Grant) (delta : Delta) : Update Grant Grant :=
  let unsupported := Failure.terminal "grant resource does not support updates"
  throw ⟨none, (delta.failure? .grant).getD unsupported⟩

def delete (grant : Grant) : Pass Unit := do
  let some grantId := grant.grantId? | throw .notFound
  let some keyId := grant.keyId? | throw missingKey
  (Pass.call (.retireGrant keyId grantId)).deletion

/-- The manager of the grants of an account, which reads at most so many pages of a listing. -/
def manager (scope : AccountScope) (pages : Nat) : Manager GrantSpec GrantStatus where
  readOne := readOne scope pages
  create := create scope
  update := update
  delete := delete

end KeySteward.Grant
