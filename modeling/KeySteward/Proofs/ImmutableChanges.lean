import KeySteward.Proofs.ManagerPasses
import KeySteward.Proofs.MemoryHistory
import KeySteward.Proofs.SpecDifferences

/-! Changes that are refused before anything is called. What a manager finds and what it is to make of
it differ in a field that may not change, and the pass fails at once with a terminal failure, which
names all such fields where the kind has others that may change. -/

namespace KeySteward

open Pass

theorem observed_eq_self_iff {α : Type} (desired found : Option α) :
    observed desired found = desired ↔ ¬ (desired ≠ none ∧ desired ≠ found) := by
  cases desired with
  | none => simp [observed]
  | some value => simp [observed, eq_comm]

variable {σ ρ α β : Type} {service : Service σ} {schedule : Schedule}

namespace Program

private theorem bind_eq_done {program : Program α} {next : α → Program β} {value : β}
    (ends : program >>= next = .done value) :
    ∃ middle, program = .done middle ∧ next middle = .done value := by
  cases program with
  | done middle => exact ⟨middle, rfl, ends⟩
  | call request rest => cases ends
  | unfinished => cases ends

private theorem run_done_iff {program : Program α} {run : Run σ} {value : α} :
    (program.run service schedule run = (.finished value, run) ∧
      program.exchanges service schedule run = []) ↔ program = .done value := by
  constructor
  · rintro ⟨ends, quiet⟩
    cases program with
    | done other =>
      cases ends
      rfl
    | call request next =>
      have begins : ∃ exchange ∈ (call request next).exchanges service schedule run,
          exchange.request = request := exists_exchange_call request next run
      simp [quiet] at begins
    | unfinished => cases ends
  · rintro rfl
    exact ⟨rfl, rfl⟩

end Program

private theorem UpdateTarget.performAll_done {target : UpdateTarget} {pages : Nat}
    {strategy : TagStrategy}
    {steps : List UpdateStep} {outcome : DispatchOutcome}
    (ends : target.performAll pages strategy steps = .done outcome) : outcome.failure = none := by
  induction steps generalizing outcome with
  | nil =>
    cases ends
    rfl
  | cons step rest ih =>
    obtain ⟨result, performed, rest⟩ := Program.bind_eq_done ends
    have strict := target.perform_strict pages strategy step
    unfold Strict at strict
    rw [performed] at strict
    obtain ⟨value, rfl⟩ := strict
    obtain ⟨others, later, same⟩ := Program.bind_eq_done rest
    cases same
    change others.failure = none
    exact ih later

/-- A pass is refused at once: nothing is called, and it fails with a terminal failure that has no
resource with it. -/
def Pass.RefusesAtOnce (service : Service σ) (schedule : Schedule) (update : Update ρ α) (run : Run σ)
    (message : String) : Prop :=
  update.run.run service schedule run = (.finished (.error ⟨none, .terminal message⟩), run) ∧
    update.run.exchanges service schedule run = []

private theorem Pass.refusesAtOnce_iff {update : Update ρ α} {run : Run σ} {message : String} :
    RefusesAtOnce service schedule update run message ↔
      update.run = .done (.error ⟨none, .terminal message⟩) :=
  Program.run_done_iff

namespace Manager

variable {σ τ : Type} [CustomResource σ τ] {manager : Manager σ τ} {desired latest : Resource σ τ}

theorem sync_of_same (same : (delta desired latest).isEmpty = true) :
    manager.sync desired latest = pure latest := by
  simp only [sync, same, if_true]

theorem sync_of_differing (differs : (delta desired latest).isEmpty = false) :
    manager.sync desired latest = manager.update desired latest (delta desired latest) := by
  simp only [sync, differs, Bool.false_eq_true, if_false]

end Manager

namespace KeySpec

/-- The fields that stay as a key was created with them, by their paths, and whether two specs differ
there. -/
def fixedFields (desired latest : KeySpec) : List (String × Bool) := [
  ("Spec.CustomKeyStoreID", desired.customKeyStoreId != latest.customKeyStoreId),
  ("Spec.Description", desired.description != latest.description),
  ("Spec.KeySpec", desired.keySpec != latest.keySpec),
  ("Spec.KeyUsage", desired.keyUsage != latest.keyUsage),
  ("Spec.MultiRegion", desired.multiRegion != latest.multiRegion),
  ("Spec.Origin", desired.origin != latest.origin)]

/-- The paths at which a change asks for what cannot be had. -/
def immutableChanges (desired latest : KeySpec) : List String :=
  ((fixedFields desired latest).filter Prod.snd).map Prod.fst

theorem unsupported_between (desired latest : KeySpec) :
    (Delta.between desired.toJson latest.toJson).unsupported .key =
      desired.immutableChanges latest := by
  have ascending : ((members desired latest).map Delta.Member.name).Pairwise (· < ·) := by
    simp only [members, List.map_cons, List.map_nil]
    decide
  refine (Delta.unsupported_record ascending .key).trans ?_
  have fields : (members desired latest).map Delta.Member.field = [
      ("Spec.BypassPolicyLockoutSafetyCheck",
        desired.bypassPolicyLockoutSafetyCheck != latest.bypassPolicyLockoutSafetyCheck),
      ("Spec.CustomKeyStoreID", desired.customKeyStoreId != latest.customKeyStoreId),
      ("Spec.Description", desired.description != latest.description),
      ("Spec.EnableKeyRotation", desired.enableKeyRotation != latest.enableKeyRotation),
      ("Spec.KeySpec", desired.keySpec != latest.keySpec),
      ("Spec.KeyUsage", desired.keyUsage != latest.keyUsage),
      ("Spec.MultiRegion", desired.multiRegion != latest.multiRegion),
      ("Spec.Origin", desired.origin != latest.origin),
      ("Spec.Policy", desired.policy != latest.policy),
      ("Spec.Tags", desired.tags != latest.tags)] := by
    simp only [members, List.map_cons, List.map_nil, Delta.Member.field, Delta.Member.differs,
      Json.optional_text_beq, Json.optional_flag_beq, Json.optional_tags_beq]
    rfl
  rw [fields]
  rfl

end KeySpec

namespace AliasSpec

private theorem unsupported_between (desired latest : AliasSpec) :
    (Delta.between desired.toJson latest.toJson).unsupported .keyAlias =
      if desired.name = latest.name then [] else ["Spec.Name"] := by
  have ascending : ((members desired latest).map Delta.Member.name).Pairwise (· < ·) := by
    simp only [members, List.map_cons, List.map_nil]
    decide
  refine (Delta.unsupported_record ascending .keyAlias).trans ?_
  have fields : (members desired latest).map Delta.Member.field = [
      ("Spec.Name", desired.name != latest.name),
      ("Spec.TargetKeyID", desired.targetKeyId != latest.targetKeyId)] := by
    simp only [members, List.map_cons, List.map_nil, Delta.Member.field, Delta.Member.differs,
      Option.getD_some, Json.string_beq, Json.optional_text_beq]
    rfl
  rw [fields]
  change ([("Spec.Name", desired.name != latest.name)].filter Prod.snd).map Prod.fst = _
  by_cases same : desired.name = latest.name <;> simp [same]

theorem mem_paths (desired latest : AliasSpec) (path : String) :
    path ∈ (Delta.between desired.toJson latest.toJson).paths ↔
      ("Spec.Name" = path ∧ desired.name ≠ latest.name) ∨
      ("Spec.TargetKeyID" = path ∧ desired.targetKeyId ≠ latest.targetKeyId) := by
  have distinct : ((members desired latest).map Delta.Member.name).Nodup := by
    simp [members]
  refine (Delta.mem_paths_record distinct).trans ?_
  simp only [members, List.mem_cons, List.not_mem_nil, or_false, exists_eq_or_imp, exists_eq_left,
    Delta.Member.differs, Option.getD_some, Json.string_beq, Json.optional_text_beq,
    Bool.not_eq_true', beq_eq_false_iff_ne]
  exact Iff.rfl

end AliasSpec

namespace Key

variable {scope : AccountScope} {pages : Nat} {desired latest : Key} {message : String}

theorem update_of_refused {keyId : String} (known : latest.keyId? = some keyId) {delta : Delta}
    {failure : Failure} (refused : delta.failure? .key = some failure) :
    (update pages desired latest delta).run = .done (.error ⟨none, failure⟩) := by
  simp only [update, known]
  rw [run_lift_bind, UpdateTarget.dispatch, refused]
  rfl

private theorem update_of_accepted {keyId : String} (known : latest.keyId? = some keyId) {delta : Delta}
    (accepted : delta.failure? .key = none) (failed : FailedUpdate Key) :
    (update pages desired latest delta).run ≠ .done (.error failed) := by
  intro ends
  simp only [update, known] at ends
  rw [run_lift_bind, UpdateTarget.dispatch, accepted] at ends
  obtain ⟨outcome, performed, rest⟩ := Program.bind_eq_done ends
  rw [UpdateTarget.performAll_done performed] at rest
  cases rest

/-- A key is refused a change of fixed fields, as far as its id is known. -/
theorem sync_refused_iff :
    ((manager scope pages).sync desired latest).run = .done (.error ⟨none, .terminal message⟩) ↔
      latest.keyId?.isSome ∧ desired.spec.immutableChanges latest.spec ≠ [] ∧
        message = "Immutable Spec fields have been modified: " ++
          ",".intercalate (desired.spec.immutableChanges latest.spec) := by
  have changes : (Manager.delta desired latest).unsupported .key =
      desired.spec.immutableChanges latest.spec := KeySpec.unsupported_between _ _
  have refusal : (Manager.delta desired latest).failure? .key = _ :=
    Delta.failure?_of_allowed rfl _
  rw [changes] at refusal
  cases same : (Manager.delta desired latest).isEmpty with
  | true =>
    have none : desired.spec.immutableChanges latest.spec = [] := by
      rw [← changes, List.isEmpty_iff.mp same]
      rfl
    rw [Manager.sync_of_same same]
    simp only [none, ne_eq, not_true_eq_false, false_and, and_false, iff_false]
    exact nofun
  | false =>
    rw [Manager.sync_of_differing same]
    change (update pages desired latest _).run = _ ↔ _
    cases known : latest.keyId? with
    | none =>
      simp only [update, known]
      constructor
      · exact nofun
      · exact fun refused => by cases refused.1
    | some keyId =>
      by_cases none : desired.spec.immutableChanges latest.spec = []
      · rw [if_pos none] at refusal
        simp only [none, ne_eq, not_true_eq_false, false_and, and_false, iff_false]
        exact update_of_accepted known refusal _
      · rw [if_neg none] at refusal
        rw [update_of_refused known refusal]
        simp [none, eq_comm]

private theorem sync_of_unknown (unknown : latest.keyId? = none) (differ : desired.spec ≠ latest.spec) :
    ((manager scope pages).sync desired latest).run = .done (.error ⟨none, .notFound⟩) := by
  have same : (Manager.delta desired latest).isEmpty = false :=
    Bool.eq_false_iff.mpr fun empty => differ ((KeySpec.delta_isEmpty_iff _ _).mp empty)
  rw [Manager.sync_of_differing same]
  change (update pages desired latest _).run = _
  simp only [update, unknown]
  rfl

end Key

namespace Alias

variable {scope : AccountScope} {pages : Nat} {desired latest : Alias} {message : String}

/-- Under the same name only the target can differ, and an alias takes on another one. -/
theorem sync_of_same_name (named : desired.spec.name = latest.spec.name) :
    (manager scope pages).sync desired latest =
      if desired.spec.targetKeyId = latest.spec.targetKeyId then pure latest
      else match desired.target? with
        | none => throw ⟨none, missingTarget⟩
        | some target => do
          Pass.call (.updateAlias desired.remoteName target)
          return { latest with spec := desired.spec } := by
  by_cases kept : desired.spec.targetKeyId = latest.spec.targetKeyId
  · have equal : desired.spec = latest.spec := by
      cases left : desired.spec
      cases right : latest.spec
      simp only [left, right] at named kept
      rw [named, kept]
    have same : (Manager.delta desired latest).isEmpty = true :=
      (AliasSpec.delta_isEmpty_iff _ _).mpr equal
    rw [if_pos kept, Manager.sync_of_same same]
  · have differs : (Manager.delta desired latest).isEmpty = false := by
      refine Bool.eq_false_iff.mpr fun empty => kept ?_
      have equal := (AliasSpec.delta_isEmpty_iff _ _).mp empty
      exact congrArg AliasSpec.targetKeyId equal
    have accepted : (Manager.delta desired latest).failure? .keyAlias = none := by
      rw [Delta.failure?_of_allowed rfl _, show (Manager.delta desired latest).unsupported .keyAlias = _
        from AliasSpec.unsupported_between _ _, if_pos named, if_pos rfl]
    have retargets : (Manager.delta desired latest).differsAt "Spec.TargetKeyID" = true :=
      (Delta.differsAt_iff _ _).mpr ((AliasSpec.mem_paths _ _ _).mpr (.inr ⟨rfl, kept⟩))
    rw [if_neg kept, Manager.sync_of_differing differs]
    change update desired latest _ = _
    simp only [update, accepted, retargets, if_true]
    cases desired.target? <;> rfl

private theorem sync_of_other_name (renamed : desired.spec.name ≠ latest.spec.name) :
    (manager scope pages).sync desired latest =
      throw ⟨none, .terminal "Immutable Spec fields have been modified: Spec.Name"⟩ := by
  have differs : (Manager.delta desired latest).isEmpty = false := by
    refine Bool.eq_false_iff.mpr fun empty => renamed ?_
    have equal := (AliasSpec.delta_isEmpty_iff _ _).mp empty
    exact congrArg AliasSpec.name equal
  have refused : (Manager.delta desired latest).failure? .keyAlias =
      some (.terminal "Immutable Spec fields have been modified: Spec.Name") := by
    rw [Delta.failure?_of_allowed rfl _, show (Manager.delta desired latest).unsupported .keyAlias = _
      from AliasSpec.unsupported_between _ _, if_neg renamed, if_neg (by simp)]
    rfl
  rw [Manager.sync_of_differing differs]
  change update desired latest _ = _
  simp only [update, refused]
  rfl

private theorem sync_refused_iff :
    ((manager scope pages).sync desired latest).run = .done (.error ⟨none, .terminal message⟩) ↔
      (desired.spec.name ≠ latest.spec.name ∧
        message = "Immutable Spec fields have been modified: Spec.Name") ∨
      (desired.spec.name = latest.spec.name ∧ desired.spec.targetKeyId ≠ latest.spec.targetKeyId ∧
        desired.target? = none ∧ message = "targetKeyID is required") := by
  by_cases named : desired.spec.name = latest.spec.name
  · rw [sync_of_same_name named]
    simp only [named, ne_eq, not_true_eq_false, false_and, true_and, false_or]
    by_cases kept : desired.spec.targetKeyId = latest.spec.targetKeyId
    · simp only [kept, if_true, not_true_eq_false, false_and, iff_false]
      exact nofun
    · simp only [kept, if_false, not_false_eq_true, true_and]
      cases desired.target? with
      | none =>
        change Program.done (Except.error (FailedUpdate.mk none missingTarget)) = _ ↔ _
        simp [missingTarget, eq_comm]
      | some target =>
        simp only [reduceCtorEq, false_and, iff_false]
        exact nofun
  · rw [sync_of_other_name named]
    change Program.done (Except.error (FailedUpdate.mk none (.terminal _))) = _ ↔ _
    simp [named, eq_comm]

end Alias

theorem Manager.sync_refused_iff {σ τ : Type} [CustomResource σ τ] {manager : Manager σ τ}
    {desired latest : Resource σ τ} {stated message : String}
    (tells : (Manager.delta desired latest).isEmpty = true ↔ desired.spec = latest.spec)
    (refuses : ∀ delta, manager.update desired latest delta = throw ⟨none, .terminal stated⟩) :
    (manager.sync desired latest).run = .done (.error ⟨none, .terminal message⟩) ↔
      desired.spec ≠ latest.spec ∧ message = stated := by
  cases same : (Manager.delta desired latest).isEmpty with
  | true =>
    rw [Manager.sync_of_same same]
    simp only [tells.mp same, ne_eq, not_true_eq_false, false_and, iff_false]
    exact nofun
  | false =>
    have differ : desired.spec ≠ latest.spec := fun equal => by
      rw [tells.mpr equal] at same
      cases same
    rw [Manager.sync_of_differing same, refuses]
    change Program.done (Except.error (FailedUpdate.mk none (.terminal stated))) = _ ↔ _
    simp [differ, eq_comm]

theorem ReplicaKey.update_refuses (desired latest : ReplicaKey) (delta : Delta) :
    update desired latest delta =
      throw ⟨none, .terminal "replica key resource does not support updates"⟩ := by
  rw [update, delta.failure?_of_unsupported rfl]

theorem Grant.update_refuses (desired latest : Grant) (delta : Delta) :
    update desired latest delta =
      throw ⟨none, .terminal "grant resource does not support updates"⟩ := by
  rw [update, delta.failure?_of_unsupported rfl]

/-- Two resources whose specs are equal leave nothing to be done, whatever their kind is. -/
theorem Kind.sync_of_same_spec (kind : Kind) (scope : AccountScope) (pages : Nat)
    (desired latest : Resource kind.managed.Spec kind.managed.Status)
    (same : desired.spec = latest.spec) :
    let _ := kind.managed.resource
    (kind.managed.manager scope pages).sync desired latest = pure latest := by
  intro _
  refine Manager.sync_of_same ?_
  cases kind with
  | key => exact (KeySpec.delta_isEmpty_iff _ _).mpr same
  | replicaKey => exact (ReplicaKeySpec.delta_isEmpty_iff _ _).mpr same
  | keyAlias => exact (AliasSpec.delta_isEmpty_iff _ _).mpr same
  | grant => exact (GrantSpec.delta_isEmpty_iff _ _).mpr same

/-- Which changes are refused at once, and in which words. A key whose id is not recorded is not found
instead, and equal specs leave what was found as it is. -/
theorem sync_refuses_iff (service : Service σ) (schedule : Schedule) (run : Run σ)
    (scope : AccountScope) (pages : Nat) (message : String) :
    (∀ desired latest : Key,
      let sync := (Key.manager scope pages).sync desired latest
      let changes := desired.spec.immutableChanges latest.spec
      (RefusesAtOnce service schedule sync run message ↔
        latest.keyId?.isSome ∧ changes ≠ [] ∧
          message = "Immutable Spec fields have been modified: " ++ ",".intercalate changes) ∧
      (latest.keyId? = none → desired.spec ≠ latest.spec →
        sync.run.run service schedule run = (.finished (.error ⟨none, .notFound⟩), run) ∧
          sync.run.exchanges service schedule run = [])) ∧
    (∀ desired latest : Alias,
      RefusesAtOnce service schedule ((Alias.manager scope pages).sync desired latest) run message ↔
        (desired.spec.name ≠ latest.spec.name ∧
          message = "Immutable Spec fields have been modified: Spec.Name") ∨
        (desired.spec.name = latest.spec.name ∧
          desired.spec.targetKeyId ≠ latest.spec.targetKeyId ∧ desired.target? = none ∧
          message = "targetKeyID is required")) ∧
    (∀ desired latest : ReplicaKey,
      RefusesAtOnce service schedule ((ReplicaKey.manager pages).sync desired latest) run message ↔
        desired.spec ≠ latest.spec ∧
          message = "replica key resource does not support updates") ∧
    (∀ desired latest : Grant,
      RefusesAtOnce service schedule ((Grant.manager scope pages).sync desired latest) run message ↔
        desired.spec ≠ latest.spec ∧ message = "grant resource does not support updates") ∧
    ∀ (kind : Kind) (desired latest : Resource kind.managed.Spec kind.managed.Status),
      let _ := kind.managed.resource
      let sync := (kind.managed.manager scope pages).sync desired latest
      desired.spec = latest.spec →
        sync.run.run service schedule run = (.finished (.ok latest), run) ∧
          sync.run.exchanges service schedule run = [] := by
  refine ⟨fun desired latest => ⟨?_, fun unknown differ => ?_⟩, fun desired latest => ?_,
    fun desired latest => ?_, fun desired latest => ?_, ?_⟩
  · exact refusesAtOnce_iff.trans Key.sync_refused_iff
  · exact Program.run_done_iff.mpr (Key.sync_of_unknown unknown differ)
  · exact refusesAtOnce_iff.trans Alias.sync_refused_iff
  · exact refusesAtOnce_iff.trans (Manager.sync_refused_iff
      (ReplicaKeySpec.delta_isEmpty_iff _ _) (ReplicaKey.update_refuses desired latest))
  · exact refusesAtOnce_iff.trans (Manager.sync_refused_iff
      (GrantSpec.delta_isEmpty_iff _ _) (Grant.update_refuses desired latest))
  · intro kind desired latest _ sync same
    have quiet := kind.sync_of_same_spec scope pages desired latest same
    exact Program.run_done_iff.mpr (congrArg ExceptT.run quiet)

/-- A key without a recorded id is not refused a change of its description, but not found. -/
theorem sync_of_unrecorded_key :
    let desired : Key := ⟨{ name := "key" }, { description := some "new" }, none⟩
    let latest : Key := ⟨{ name := "key" }, { description := some "old" }, none⟩
    let sync := (Key.manager ⟨"us-west-2", "000000000000"⟩ 2).sync desired latest
    let run : Run Memory := { state := { config := .numbered } }
    desired.spec.immutableChanges latest.spec = ["Spec.Description"] ∧
      (¬ ∃ message, RefusesAtOnce Memory.service .calm sync run message) ∧
      sync.run.run Memory.service .calm run = (.finished (.error ⟨none, .notFound⟩), run) := by
  intro desired latest sync run
  have changes : desired.spec.immutableChanges latest.spec = ["Spec.Description"] := by decide
  have ends : sync.run = .done (.error ⟨none, .notFound⟩) :=
    Key.sync_of_unknown rfl (by decide)
  refine ⟨changes, ?_, (Program.run_done_iff.mpr ends).1⟩
  rintro ⟨message, refused⟩
  have other := refusesAtOnce_iff.mp refused
  rw [ends] at other
  cases other

end KeySteward
