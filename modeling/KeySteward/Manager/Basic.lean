import KeySteward.Delta.Mutability
import KeySteward.Pass.Program
import KeySteward.Resource.Basic

/-! Managers. A manager knows how to read, create, change and delete what a kind of resource stands
for; from these come the two passes over a resource: `Manager.reconcile` makes the remote side what
the spec says, and `Manager.finalize` takes it away. -/

namespace KeySteward

structure Manager (σ τ : Type) where
  /-- The resource as it is found. It is not found when nothing says which one it is. -/
  readOne : Resource σ τ → Pass (Resource σ τ)
  create : Resource σ τ → Update (Resource σ τ) (Resource σ τ)
  /-- Makes a delta of the spec true; the second resource is the one that was found. -/
  update : (desired latest : Resource σ τ) → Delta → Update (Resource σ τ) (Resource σ τ)
  delete : Resource σ τ → Pass Unit

namespace Manager

variable {σ τ : Type} [CustomResource σ τ]

/-- What differs between the specs of two resources. -/
def delta (desired latest : Resource σ τ) : Delta :=
  .between desired.specToJson latest.specToJson

/-- Makes the difference between two resources true. Without one nothing is called. -/
def sync (manager : Manager σ τ) (desired latest : Resource σ τ) :
    Update (Resource σ τ) (Resource σ τ) :=
  let delta := delta desired latest
  if delta.isEmpty then pure latest else manager.update desired latest delta

/-- Creates what is not found and changes what is. -/
def reconcile (manager : Manager σ τ) (desired : Resource σ τ) :
    Update (Resource σ τ) (Resource σ τ) := do
  match ← (manager.readOne desired).result with
  | .ok latest => manager.sync desired latest
  | .error failure =>
    if failure.isNotFound then manager.create desired else throw ⟨none, failure⟩

/-- Deletes what is found; nothing is left to do where nothing is. -/
def finalize (manager : Manager σ τ) (resource : Resource σ τ) : Pass Unit := do
  match ← (manager.readOne resource).result with
  | .ok latest => manager.delete latest
  | .error failure => if failure.isNotFound then return else throw failure

end Manager

/-- The remote value of a field that a spec may leave open. A field that is left open is not
reported. -/
def observed {α β : Type} (desired : Option α) (found : Option β) : Option β :=
  desired.bind fun _ => found

end KeySteward
