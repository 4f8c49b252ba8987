import KeySteward.Proofs.ImmutableChanges

/-! The resource that a reconciliation gives back. It is put together from what was found, so its status
may be another one; but its metadata and its conditions are those of the resource that the pass began
with, and after a success so is its spec, whatever the service has answered. -/

namespace KeySteward

open Pass

variable {σ τ ρ α β ε : Type}

namespace Program

private theorem ensures_any (program : Program α) : program.Ensures fun _ => True := by
  induction program with
  | done value => trivial
  | unfinished => trivial
  | call request next ih => exact fun result _ => ih result

end Program

namespace Pass.EndsIn

theorem any (pass : ExceptT ε Program α) : EndsIn (fun _ => True) (fun _ => True) pass := by
  refine pass.run.ensures_any.mono fun result _ => ?_
  cases result <;> trivial

end Pass.EndsIn

namespace Resource

variable [CustomResource σ τ]

/-- Another resource has the metadata and the conditions of this one. -/
structure Keeps (resource left : Resource σ τ) : Prop where
  metadata : left.metadata = resource.metadata
  conditions : left.conditions = resource.conditions

/-- What a pass over a resource may give back: the resource with a status of its own. -/
structure Preserves (resource settled : Resource σ τ) : Prop extends resource.Keeps settled where
  spec : settled.spec = resource.spec

/-- What a pass over a resource may leave when it fails. -/
def FailsWith (resource : Resource σ τ) (failed : FailedUpdate (Resource σ τ)) : Prop :=
  ∀ left, failed.converged = some left → resource.Keeps left

private theorem FailsWith.nothing (resource : Resource σ τ) (failure : Failure) :
    resource.FailsWith ⟨none, failure⟩ := by
  intro left same
  cases same

private theorem FailsWith.keeping {resource left : Resource σ τ} (kept : resource.Keeps left)
    (failure : Failure) : resource.FailsWith ⟨some left, failure⟩ := by
  intro other same
  exact Option.some.inj same ▸ kept

end Resource

namespace Manager

variable [CustomResource σ τ] {manager : Manager σ τ} {desired : Resource σ τ}

private theorem endsIn_behind (pass : Pass α) {next : α → Update (Resource σ τ) (Resource σ τ)}
    (rest : ∀ value, EndsIn desired.Preserves desired.FailsWith (next value)) :
    EndsIn desired.Preserves desired.FailsWith ((liftM pass : Update (Resource σ τ) α) >>= next) := by
  have first : EndsIn (fun _ => True) desired.FailsWith (liftM pass : Update (Resource σ τ) α) := by
    refine Program.Ensures.bind pass.run.ensures_any fun result _ => ?_
    cases result with
    | ok value => trivial
    | error failure => exact .nothing _ failure
  exact first.bind fun value _ => rest value

private theorem reconcile_preserves
    (reads : EndsIn desired.Keeps (fun _ => True) (manager.readOne desired))
    (tells : ∀ latest, (delta desired latest).isEmpty = true → latest.spec = desired.spec)
    (updates : ∀ latest delta, desired.Keeps latest →
      EndsIn desired.Preserves desired.FailsWith (manager.update desired latest delta))
    (creates : EndsIn desired.Preserves desired.FailsWith (manager.create desired)) :
    EndsIn desired.Preserves desired.FailsWith (manager.reconcile desired) := by
  refine reconcile_endsIn reads (fun latest kept => ?_) creates fun failure _ _ => .nothing _ failure
  cases same : (delta desired latest).isEmpty with
  | true =>
    rw [sync_of_same same]
    exact ⟨kept, tells latest same⟩
  | false =>
    rw [sync_of_differing same]
    exact updates latest _ kept

end Manager

namespace Key

private theorem readOne_keeps (scope : AccountScope) (pages : Nat) (key : Key) :
    EndsIn key.Keeps (fun _ => True) (readOne scope pages key) := by
  unfold readOne
  split
  · refine (EndsIn.any _).bind fun metadata _ => ?_
    dsimp only
    split
    · exact ⟨rfl, rfl⟩
    · refine (EndsIn.any _).bind fun tags _ => ?_
      refine (EndsIn.any _).bind fun rotation _ => ?_
      refine (EndsIn.any _).bind fun policy _ => ?_
      exact ⟨rfl, rfl⟩
  · trivial

private theorem create_preserves (scope : AccountScope) (desired : Key) :
    EndsIn desired.Preserves desired.FailsWith (create scope desired) := by
  refine Manager.endsIn_behind _ fun metadata => ?_
  have kept : desired.Keeps (desired.observe scope metadata) := ⟨rfl, rfl⟩
  dsimp only
  split
  · refine (EndsIn.any _).result_bind (fun _ _ => ?_) fun failure _ => ?_
    · exact ⟨kept, rfl⟩
    · exact .keeping kept failure
  · exact ⟨kept, rfl⟩

private theorem update_preserves (pages : Nat) {desired latest : Key} (delta : Delta)
    (kept : desired.Keeps latest) :
    EndsIn desired.Preserves desired.FailsWith (update pages desired latest delta) := by
  unfold update
  split
  · unfold EndsIn
    rw [run_lift_bind]
    refine (Program.ensures_any _).bind fun outcome _ => ?_
    split
    · exact ⟨⟨kept.metadata, kept.conditions⟩, rfl⟩
    · split
      · exact .nothing _ _
      · have partly : desired.Keeps
            { latest with spec := latest.spec.applySteps desired.spec outcome.applied } :=
          ⟨kept.metadata, kept.conditions⟩
        exact .keeping partly _
  · exact .nothing _ _

private theorem reconcile_preserves (scope : AccountScope) (pages : Nat) (desired : Key) :
    EndsIn desired.Preserves desired.FailsWith ((manager scope pages).reconcile desired) :=
  Manager.reconcile_preserves (readOne_keeps scope pages desired)
    (fun _ same => ((KeySpec.delta_isEmpty_iff _ _).mp same).symm)
    (fun _ delta => update_preserves pages delta) (create_preserves scope desired)

end Key

namespace ReplicaKey

private theorem readOne_keeps (pages : Nat) (replica : ReplicaKey) :
    EndsIn replica.Keeps (fun _ => True) (readOne pages replica) := by
  unfold readOne
  split
  · refine (EndsIn.any _).bind fun metadata _ => ?_
    dsimp only
    split
    · trivial
    · split
      · exact ⟨rfl, rfl⟩
      · refine (EndsIn.any _).bind fun tags _ => ?_
        refine (EndsIn.any _).bind fun policy _ => ?_
        exact ⟨rfl, rfl⟩
  · trivial

private theorem create_preserves (desired : ReplicaKey) :
    EndsIn desired.Preserves desired.FailsWith (create desired) := by
  unfold create
  split
  · refine Manager.endsIn_behind _ fun metadata => ?_
    have kept : desired.Keeps ((desired.observe metadata).withPolicy desired.spec.policy) := ⟨rfl, rfl⟩
    refine (EndsIn.any _).result_bind (fun _ _ => ?_) fun failure _ => ?_
    · exact ⟨kept, rfl⟩
    · exact .keeping kept failure
  · exact .nothing _ _

private theorem reconcile_preserves (pages : Nat) (desired : ReplicaKey) :
    EndsIn desired.Preserves desired.FailsWith ((manager pages).reconcile desired) :=
  Manager.reconcile_preserves (readOne_keeps pages desired)
    (fun _ same => ((ReplicaKeySpec.delta_isEmpty_iff _ _).mp same).symm)
    (fun _ _ _ => .nothing _ _) (create_preserves desired)

end ReplicaKey

namespace Alias

private theorem readOne_keeps (scope : AccountScope) (pages : Nat) (resource : Alias) :
    EndsIn resource.Keeps (fun _ => True) (readOne scope pages resource) := by
  refine (EndsIn.any _).bind fun entry? _ => ?_
  cases entry? with
  | none => trivial
  | some entry => exact ⟨rfl, rfl⟩

private theorem create_preserves (scope : AccountScope) (desired : Alias) :
    EndsIn desired.Preserves desired.FailsWith (create scope desired) := by
  unfold create
  split
  · exact Manager.endsIn_behind _ fun _ => ⟨⟨rfl, rfl⟩, rfl⟩
  · exact .nothing _ _

private theorem update_preserves {desired latest : Alias} (delta : Delta) (kept : desired.Keeps latest) :
    EndsIn desired.Preserves desired.FailsWith (update desired latest delta) := by
  have preserves : desired.Preserves { latest with spec := desired.spec } :=
    ⟨⟨kept.metadata, kept.conditions⟩, rfl⟩
  unfold update
  dsimp only
  split
  · exact .nothing _ _
  · split
    · split
      · exact Manager.endsIn_behind _ fun _ => preserves
      · exact .nothing _ _
    · exact preserves

private theorem reconcile_preserves (scope : AccountScope) (pages : Nat) (desired : Alias) :
    EndsIn desired.Preserves desired.FailsWith ((manager scope pages).reconcile desired) :=
  Manager.reconcile_preserves (readOne_keeps scope pages desired)
    (fun _ same => ((AliasSpec.delta_isEmpty_iff _ _).mp same).symm)
    (fun _ delta => update_preserves delta) (create_preserves scope desired)

end Alias

namespace Grant

private theorem readOne_keeps (scope : AccountScope) (pages : Nat) (grant : Grant) :
    EndsIn grant.Keeps (fun _ => True) (readOne scope pages grant) := by
  unfold readOne
  split
  · split
    · refine (EndsIn.any _).bind fun entry? _ => ?_
      cases entry? with
      | none => trivial
      | some entry => exact ⟨rfl, rfl⟩
    · trivial
  · trivial

private theorem create_preserves (scope : AccountScope) (desired : Grant) :
    EndsIn desired.Preserves desired.FailsWith (create scope desired) := by
  unfold create
  split
  · exact Manager.endsIn_behind _ fun _ => ⟨⟨rfl, rfl⟩, rfl⟩
  · exact .nothing _ _

private theorem reconcile_preserves (scope : AccountScope) (pages : Nat) (desired : Grant) :
    EndsIn desired.Preserves desired.FailsWith ((manager scope pages).reconcile desired) :=
  Manager.reconcile_preserves (readOne_keeps scope pages desired)
    (fun _ same => ((GrantSpec.delta_isEmpty_iff _ _).mp same).symm)
    (fun _ _ _ => .nothing _ _) (create_preserves scope desired)

end Grant

namespace Kind

variable (kind : Kind) (scope : AccountScope) (pages : Nat)
  (desired : Resource kind.managed.Spec kind.managed.Status)

private theorem reconcile_preserves :
    let _ := kind.managed.resource
    EndsIn desired.Preserves desired.FailsWith ((kind.managed.manager scope pages).reconcile desired) := by
  cases kind with
  | key => exact Key.reconcile_preserves scope pages desired
  | replicaKey => exact ReplicaKey.reconcile_preserves pages desired
  | keyAlias => exact Alias.reconcile_preserves scope pages desired
  | grant => exact Grant.reconcile_preserves scope pages desired

private theorem conditions_of_no_status (absent : desired.status = none) :
    let _ := kind.managed.resource
    desired.conditions = {} := by
  simp only [Resource.conditions, Resource.statusOrFresh, absent]
  cases kind <;> rfl

/-- Whatever the service answers and whatever happens around the calls, a reconciliation that succeeds
gives back the spec that it was given, and whatever resource it leaves, also behind a failure, has the
metadata and the conditions that it was given. A resource without a status has no conditions. -/
theorem reconcile_keeps {σ : Type} (service : Service σ) (schedule : Schedule) (run : Run σ) :
    let _ := kind.managed.resource
    (desired.status = none → desired.conditions = {}) ∧
    match (((kind.managed.manager scope pages).reconcile desired).run.run service schedule run).1 with
    | .finished (.ok settled) =>
      settled.spec = desired.spec ∧ settled.metadata = desired.metadata ∧
        settled.conditions = desired.conditions
    | .finished (.error failed) =>
      ∀ left, failed.converged = some left →
        left.metadata = desired.metadata ∧ left.conditions = desired.conditions
    | _ => True := by
  intro _
  refine ⟨kind.conditions_of_no_status desired, ?_⟩
  have preserves := kind.reconcile_preserves scope pages desired
  rcases ended : ((kind.managed.manager scope pages).reconcile desired).run.run service schedule run
    with ⟨(failed | settled) | _ | _, last⟩
  · intro left same
    have kept := preserves.run_error ended left same
    exact ⟨kept.metadata, kept.conditions⟩
  · have kept := preserves.run_ok ended
    exact ⟨kept.spec, kept.metadata, kept.conditions⟩
  · trivial
  · trivial

end Kind

end KeySteward
