import KeySteward.Manager.Basic
import KeySteward.Pass.Listing
import KeySteward.Resource.Alias

/-! The manager of aliases. An alias is known by its canonical name. -/

namespace KeySteward.Alias

/-- The name as the service knows it. -/
def remoteName (resource : Alias) : String :=
  AliasSpec.canonicalName resource.spec.name

/-- Whether a wanted target, which may be an ARN, is the key that is found. -/
def isSameTarget (desired found : String) : Bool :=
  desired == found || desired.endsWith ("/" ++ found)

/-- The target that is found, in the words of the one that is wanted where they agree. -/
def observedTarget (desired found : Option String) : Option String :=
  match desired, found with
  | some desired, some found => some (if isSameTarget desired found then desired else found)
  | _, found => found

/-- The key that the alias is to point to, which may not be empty. -/
def target? (resource : Alias) : Option String :=
  resource.spec.targetKeyId.filter fun target => !target.isEmpty

def missingTarget : Failure :=
  .terminal "targetKeyID is required"

def readOne (scope : AccountScope) (pages : Nat) (resource : Alias) : Pass Alias := do
  let isEntry := fun (entry : AliasEntry) => entry.aliasName == resource.remoteName
  let entry? ← Pass.find (fun marker => .call (.listAliases marker)) isEntry pages
  let some entry := entry? | throw .notFound
  return {
    resource with
      spec := {
        resource.spec with
          targetKeyId := observedTarget resource.spec.targetKeyId entry.targetKeyId }
      status := some {
        resource.statusOrFresh with
          ownership := some (scope.ownership entry.aliasArn none)
          creationDate := entry.creationDate
          lastUpdatedDate := entry.lastUpdatedDate } }

def create (scope : AccountScope) (desired : Alias) : Update Alias Alias := do
  let some target := desired.target? | throw ⟨none, missingTarget⟩
  Pass.call (.createAlias desired.remoteName target)
  let arn := "arn:aws:kms:" ++ scope.region ++ ":" ++ scope.accountId ++ ":" ++ desired.remoteName
  return {
    desired with
      status := some {
        desired.statusOrFresh with ownership := some (scope.ownership (some arn) none) } }

/-- Only the target of an alias may change. -/
def update (desired latest : Alias) (delta : Delta) : Update Alias Alias := do
  if let some failure := delta.failure? .keyAlias then
    throw ⟨none, failure⟩
  if delta.differsAt "Spec.TargetKeyID" then
    let some target := desired.target? | throw ⟨none, missingTarget⟩
    Pass.call (.updateAlias desired.remoteName target)
  return { latest with spec := desired.spec }

def delete (resource : Alias) : Pass Unit :=
  (Pass.call (.deleteAlias resource.remoteName)).deletion

/-- The manager of the aliases of an account, which reads at most so many pages of a listing. -/
def manager (scope : AccountScope) (pages : Nat) : Manager AliasSpec AliasStatus where
  readOne := readOne scope pages
  create := create scope
  update := update
  delete := delete

end KeySteward.Alias
