import KeySteward.Manager.Alias
import KeySteward.Manager.Grant
import KeySteward.Manager.Key
import KeySteward.Manager.ReplicaKey

/-! The manager of every kind of resource. -/

namespace KeySteward

/-- A kind of resource with its types and its manager, for an account and a greatest number of pages
of a listing. -/
structure ManagedKind where
  Spec : Type
  Status : Type
  resource : CustomResource Spec Status
  manager : AccountScope → Nat → Manager Spec Status

def Kind.managed : Kind → ManagedKind
  | .key => ⟨KeySpec, KeyStatus, inferInstance, Key.manager⟩
  | .replicaKey => ⟨ReplicaKeySpec, ReplicaKeyStatus, inferInstance, fun _ => ReplicaKey.manager⟩
  | .keyAlias => ⟨AliasSpec, AliasStatus, inferInstance, Alias.manager⟩
  | .grant => ⟨GrantSpec, GrantStatus, inferInstance, Grant.manager⟩

/-- Managed kinds are named as they are. -/
theorem Kind.managed_kind (kind : Kind) :
    kind.managed.resource.kind = kind := by
  cases kind <;> rfl

end KeySteward
