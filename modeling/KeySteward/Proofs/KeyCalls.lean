import KeySteward.Proofs.ImmutableChanges
import KeySteward.Proofs.KeyConvergence
import KeySteward.Proofs.MemoryChanges

/-! The changes that a spec needs of a stored key, and the pass that makes them. What is needed is
said about the spec and the key alone: a policy where the key has no equivalent one, the tags where
they differ, and the rotation where it is known to be other than it is wanted. A pass makes the calls
for these and no others, or none at all where the metadata contradict the spec. -/

namespace KeySteward

variable {memory : Memory} {stored : StoredKey} {scope : AccountScope} {pages : Nat}

namespace KeySpec

/-- The metadata show every field that cannot be changed as the spec has it, if the spec sets it. -/
structure Fits (spec : KeySpec) (metadata : KeyMetadata) : Prop where
  customKeyStoreId : ∀ wanted, spec.customKeyStoreId = some wanted →
    metadata.customKeyStoreId = some wanted
  description : ∀ wanted, spec.description = some wanted → metadata.description = some wanted
  keySpec : ∀ wanted, spec.keySpec = some wanted → metadata.keySpec = some wanted
  keyUsage : ∀ wanted, spec.keyUsage = some wanted → metadata.keyUsage = some wanted
  multiRegion : ∀ wanted, spec.multiRegion = some wanted → metadata.multiRegion = some wanted
  origin : ∀ wanted, spec.origin = some wanted → metadata.origin = some wanted

theorem observed_eq_iff (spec : KeySpec) (metadata : KeyMetadata) :
    spec.observed metadata = spec ↔ spec.Fits metadata := by
  have field {α : Type} (wanted found : Option α) : KeySteward.observed wanted found = wanted ↔
      ∀ value, wanted = some value → found = some value := by
    cases wanted <;> simp [KeySteward.observed]
  constructor
  · intro same
    have fields : ∀ {α : Type} (part : KeySpec → α), part (spec.observed metadata) = part spec :=
      fun part => congrArg part same
    exact {
      customKeyStoreId := (field _ _).mp (fields KeySpec.customKeyStoreId)
      description := (field _ _).mp (fields KeySpec.description)
      keySpec := (field _ _).mp (fields KeySpec.keySpec)
      keyUsage := (field _ _).mp (fields KeySpec.keyUsage)
      multiRegion := (field _ _).mp (fields KeySpec.multiRegion)
      origin := (field _ _).mp (fields KeySpec.origin) }
  · intro fits
    simp only [KeySpec.observed, (field _ _).mpr fits.customKeyStoreId,
      (field _ _).mpr fits.description, (field _ _).mpr fits.keySpec, (field _ _).mpr fits.keyUsage,
      (field _ _).mpr fits.multiRegion, (field _ _).mpr fits.origin]

instance (spec : KeySpec) (metadata : KeyMetadata) : Decidable (spec.Fits metadata) :=
  decidable_of_iff _ (spec.observed_eq_iff metadata)

/-- A policy is put in place where one is asked for that the key does not have. -/
def policyCalls (spec : KeySpec) (stored : StoredKey) : List Request :=
  match spec.policy with
  | none => []
  | some policy =>
    if policy = "" ∨ stored.policy.any (Policy.equivalent policy) then []
    else [.putKeyPolicy {
      keyId := stored.metadata.keyId
      policyName := "default"
      policy
      bypassPolicyLockoutSafetyCheck := spec.bypassPolicyLockoutSafetyCheck.getD false }]

/-- Tags that differ are taken off where they are not wanted, and then all that are wanted go on. -/
def tagCalls (spec : KeySpec) (stored : StoredKey) : List Request :=
  if stored.tags = spec.tags then []
  else
    let stale := stored.tags.keys.filter fun key => !spec.tags.contains key
    (if stale = [] then [] else [.untagResource stored.metadata.keyId stale]) ++
      if spec.tags.isEmpty then [] else [.tagResource stored.metadata.keyId spec.tags.toTags]

/-- A rotation whose status is available is turned on or off where it is not as it is wanted. -/
def rotationCalls (spec : KeySpec) (available : Bool) (stored : StoredKey) : List Request :=
  if available then
    match spec.enableKeyRotation.getD false, stored.rotationEnabled with
    | true, false => [.enableKeyRotation stored.metadata.keyId]
    | false, true => [.disableKeyRotation stored.metadata.keyId]
    | true, true | false, false => []
  else []

/-- The calls that make a key what the spec asks for, in their order. -/
def requiredCalls (spec : KeySpec) (available : Bool) (stored : StoredKey) : List Request :=
  spec.policyCalls stored ++ spec.tagCalls stored ++ spec.rotationCalls available stored

/-- The calls that a pass makes about a key that is found: none where the metadata contradict the spec
or the key waits for its deletion. -/
def adjustments (spec : KeySpec) (available : Bool) (stored : StoredKey) : List Request :=
  if spec.Fits stored.metadata ∧ stored.metadata.isPendingDeletion = false then
    spec.requiredCalls available stored
  else []

variable {spec : KeySpec}

theorem policyCalls_eq_nil (same : Policy.observed spec.policy stored.policy = spec.policy) :
    spec.policyCalls stored = [] := by
  unfold policyCalls
  split
  next => rfl
  next policy asked =>
    rw [asked] at same
    obtain ⟨found, held, equivalent⟩ := Policy.observed_eq_some_iff.mp same
    exact if_pos (.inr (by simp [held, equivalent]))

private theorem policyCalls_of_unasked
    (unasked : spec.policy.filter (fun policy => !policy.isEmpty) = none) :
    spec.policyCalls stored = [] := by
  unfold policyCalls
  split
  next => rfl
  next policy asked => exact if_pos (.inl (by simpa [asked] using unasked))

private theorem policyCalls_of_differing {policy : String} (asked : spec.policy = some policy)
    (nonempty : policy ≠ "") (differs : Policy.observed spec.policy stored.policy ≠ spec.policy) :
    spec.policyCalls stored = [.putKeyPolicy {
      keyId := stored.metadata.keyId
      policyName := "default"
      policy
      bypassPolicyLockoutSafetyCheck := spec.bypassPolicyLockoutSafetyCheck.getD false }] := by
  have apart : ¬ stored.policy.any (Policy.equivalent policy) = true := by
    intro equivalent
    obtain ⟨found, held, same⟩ := (Option.any_eq_true _ _).mp equivalent
    rw [asked] at differs
    exact differs (Policy.observed_eq_some_iff.mpr ⟨found, held, same⟩)
  simp only [policyCalls, asked]
  exact if_neg (by simp [nonempty, apart])

private theorem rotationCalls_eq (spec : KeySpec) (memory : Memory) (stored : StoredKey) :
    spec.rotationCalls (!memory.rotationStatusUnavailable) stored =
      match RotationChange.plan? spec.enableKeyRotation (.ofStatus (memory.rotationStatus stored)) with
      | none => []
      | some .enable => [.enableKeyRotation stored.metadata.keyId]
      | some .disable => [.disableKeyRotation stored.metadata.keyId] := by
  unfold rotationCalls Memory.rotationStatus
  cases memory.rotationStatusUnavailable with
  | true => rfl
  | false => cases stored.rotationEnabled <;> rcases spec.enableKeyRotation with _ | _ | _ <;> rfl

private theorem rotationCalls_eq_nil
    (same : (RotationState.ofStatus (memory.rotationStatus stored)).observed spec.enableKeyRotation =
      spec.enableKeyRotation) :
    spec.rotationCalls (!memory.rotationStatusUnavailable) stored = [] := by
  unfold rotationCalls
  cases unavailable : memory.rotationStatusUnavailable with
  | true => rfl
  | false =>
    simp only [Memory.rotationStatus, unavailable, Bool.false_eq_true, if_false] at same
    rw [← RotationState.observed_eq_iff.mp same]
    cases stored.rotationEnabled <;> rfl

private theorem rotationCalls_congr {changed : StoredKey} (spec : KeySpec) (available : Bool)
    (named : changed.metadata.keyId = stored.metadata.keyId)
    (same : changed.rotationEnabled = stored.rotationEnabled) :
    spec.rotationCalls available changed = spec.rotationCalls available stored := by
  simp only [rotationCalls, named, same]

def policyOver (spec : KeySpec) (policy : Option String) : Option String :=
  match spec.policy with
  | none => policy
  | some wanted =>
    if wanted = "" ∨ policy.any (Policy.equivalent wanted) then policy else some wanted

private theorem foldl_policyCalls (spec : KeySpec) (stored : StoredKey) :
    (spec.policyCalls stored).foldl StoredKey.after stored =
      { stored with policy := spec.policyOver stored.policy } := by
  cases asked : spec.policy with
  | none => simp only [policyCalls, policyOver, asked, List.foldl_nil]
  | some wanted =>
    simp only [policyCalls, policyOver, asked]
    split <;> rfl

private theorem foldl_tagCalls (spec : KeySpec) {changed : StoredKey}
    (same : changed.tags = stored.tags) :
    (spec.tagCalls stored).foldl StoredKey.after changed = { changed with tags := spec.tags } := by
  by_cases wanted : stored.tags = spec.tags
  · rw [tagCalls, if_pos wanted, ← wanted, ← same]
    rfl
  · let stale := stored.tags.removedKeys spec.tags
    let keyId := stored.metadata.keyId
    have erased : (if stale = [] then [] else [Request.untagResource keyId stale]).foldl
        StoredKey.after changed = { changed with tags := changed.tags.eraseAll stale } := by
      split
      next clean =>
        rw [clean]
        rfl
      next => rfl
    have added (key : StoredKey) :
        (if spec.tags.isEmpty then [] else [Request.tagResource keyId spec.tags.toTags]).foldl
          StoredKey.after key = { key with tags := key.tags.insertAll spec.tags.toTags } := by
      split
      next none =>
        have empty : spec.tags.toTags = [] := by simpa [TagMap.toTags, SortedMap.isEmpty] using none
        rw [empty]
        rfl
      next => rfl
    rw [tagCalls, if_neg wanted]
    change ((if stale = [] then [] else [Request.untagResource keyId stale]) ++ _).foldl _ _ = _
    rw [List.foldl_append, erased, added, same, TagMap.insertAll_eraseAll]

private theorem foldl_rotationCalls (spec : KeySpec) (available : Bool) {changed : StoredKey}
    (same : changed.rotationEnabled = stored.rotationEnabled) :
    (spec.rotationCalls available stored).foldl StoredKey.after changed =
      { changed with
        rotationEnabled :=
          if available then spec.enableKeyRotation.getD false else stored.rotationEnabled } := by
  obtain ⟨metadata, on, policy, tags⟩ := changed
  obtain rfl : on = stored.rotationEnabled := same
  unfold rotationCalls
  generalize stored.rotationEnabled = on
  cases available <;> cases spec.enableKeyRotation.getD false <;> cases on <;> rfl

/-- The key that the required calls lead to. -/
def required (spec : KeySpec) (available : Bool) (stored : StoredKey) : StoredKey :=
  { stored with
    policy := spec.policyOver stored.policy
    tags := spec.tags
    rotationEnabled :=
      if available then spec.enableKeyRotation.getD false else stored.rotationEnabled }

theorem foldl_requiredCalls (spec : KeySpec) (available : Bool) (stored : StoredKey) :
    (spec.requiredCalls available stored).foldl StoredKey.after stored =
      spec.required available stored := by
  rw [requiredCalls, List.foldl_append, List.foldl_append, foldl_policyCalls, foldl_tagCalls,
    foldl_rotationCalls]
  all_goals rfl

end KeySpec

section Steps

variable {keyId : String} (unrefused : memory.refusals = [])
  (held : memory.key? keyId = some stored)

include unrefused held

private theorem TagSet.apply_makes (desired : TagMap) :
    Memory.Makes (apply keyId desired).run keyId stored
      (if desired.isEmpty then [] else [.tagResource keyId desired.toTags]) (.ok ()) memory := by
  by_cases none : desired.isEmpty = true
  · simp only [apply, none, Bool.not_true, Bool.false_eq_true, if_false, if_true]
    exact .pure held _
  · simp only [apply, none, Bool.not_false, if_true, if_false, Bool.false_eq_true]
    exact .call (.tagResource keyId desired.toTags) rfl rfl unrefused held ()

private theorem TagSet.reconcile_makes (desired : TagMap)
    (room : stored.tags.size ≤ Text.greatestWord ∧ stored.tags.size < pages) :
    let stale := stored.tags.removedKeys desired
    Memory.Makes (reconcile pages keyId desired).run keyId stored
      ((if stale = [] then [] else [.untagResource keyId stale]) ++
        if desired.isEmpty then [] else [.tagResource keyId desired.toTags]) (.ok ()) memory := by
  intro stale
  have listed : Memory.Makes (list pages keyId).run keyId stored [] (.ok stored.tags) memory :=
    .of_reads (list_reads (fun _ => unrefused) (Memory.lookup_of_key? held) fun _ => room)
      (list_uses pages fun _ => rfl) held
  refine listed.bind_ok fun reached stands => ?_
  have none := stands.continues.unrefused unrefused
  change Memory.Makes (if !stale.isEmpty then _ else _ : Pass Unit).run _ _ _ _ _
  by_cases clean : stale = []
  · simp only [clean, List.isEmpty_nil, Bool.not_true, Bool.false_eq_true, if_false, if_true]
    exact apply_makes none stands.held desired
  · have stained : (!stale.isEmpty) = true := by simpa using clean
    rw [if_neg clean, if_pos stained]
    have erased := Memory.Makes.call (.untagResource keyId stale) rfl rfl none stands.held ()
    refine erased.bind_ok fun untagged onward => ?_
    exact apply_makes (onward.continues.unrefused none) onward.held desired

theorem Rotation.reconcile_makes (spec : KeySpec) (named : stored.metadata.keyId = keyId) :
    ∃ change?, Memory.Makes (reconcile keyId spec.enableKeyRotation).run keyId stored
      (spec.rotationCalls (!memory.rotationStatusUnavailable) stored) (.ok change?) memory := by
  have observed : Memory.Makes (observe keyId).run keyId stored []
      (.ok (.ofStatus (memory.rotationStatus stored))) memory :=
    .of_reads (observe_reads (fun _ => unrefused) (Memory.lookup_of_key? held))
      (observe_uses rfl) held
  rw [KeySpec.rotationCalls_eq, named]
  refine ⟨RotationChange.plan? spec.enableKeyRotation (.ofStatus (memory.rotationStatus stored)), ?_⟩
  refine observed.bind_ok fun reached stands => ?_
  have none := stands.continues.unrefused unrefused
  dsimp only
  cases RotationChange.plan? spec.enableKeyRotation (.ofStatus (memory.rotationStatus stored)) with
  | none => exact .pure stands.held _
  | some change =>
    cases change with
    | enable =>
      have enabled := Memory.Makes.call (.enableKeyRotation keyId) rfl rfl none stands.held ()
      exact enabled.bind_ok fun last onward => .pure onward.held _
    | disable =>
      have disabled := Memory.Makes.call (.disableKeyRotation keyId) rfl rfl none stands.held ()
      exact disabled.bind_ok fun last onward => .pure onward.held _

end Steps

namespace UpdateTarget

/-- A step that is taken makes the calls, and for one that is skipped there are none to make. -/
structure StepMakes (target : UpdateTarget) (pages : Nat) (step : UpdateStep) (taken : Bool)
    (keyId : String) (stored : StoredKey) (calls : List Request) (memory : Memory) : Prop where
  skipped : taken = false → calls = []
  makes : taken = true →
    Memory.Makes (target.perform pages .converge step).run keyId stored calls (.ok ()) memory

private theorem performAll_makes {keyId : String} {target : UpdateTarget} {taken : UpdateStep → Bool}
    {step : UpdateStep} {steps : List UpdateStep} {early late : List Request}
    (held : memory.key? keyId = some stored)
    (first : target.StepMakes pages step (taken step) keyId stored early memory)
    (rest : ∀ reached, memory.Stands keyId stored early reached →
      Memory.Makes (target.performAll pages .converge (steps.filter taken)) keyId
        (early.foldl StoredKey.after stored) late { applied := steps.filter taken } reached) :
    Memory.Makes (target.performAll pages .converge ((step :: steps).filter taken)) keyId stored
      (early ++ late) { applied := (step :: steps).filter taken } memory := by
  cases wanted : taken step with
  | false =>
    obtain rfl := first.skipped wanted
    rw [List.filter_cons_of_neg (by simp [wanted])]
    exact rest memory ((Memory.ReadOnly.refl memory).stands held)
  | true =>
    rw [List.filter_cons_of_pos wanted]
    unfold performAll
    refine (first.makes wanted).bind fun reached stands => ?_
    rw [← List.append_nil late]
    exact (rest reached stands).bind fun last onward => .pure onward.held _

end UpdateTarget

namespace Key

variable {desired : Key}

section Steps

variable {latest : Key} {changed : StoredKey} (unrefused : memory.refusals = [])

include unrefused

private theorem policyStep_makes (held : memory.key? stored.metadata.keyId = some stored)
    (observed : latest.spec.policy = Policy.observed desired.spec.policy stored.policy) :
    let target := desired.updateTarget stored.metadata.keyId
    target.StepMakes pages .policy (target.isRequired (Manager.delta desired latest) .policy)
      stored.metadata.keyId stored (desired.spec.policyCalls stored) memory := by
  intro target
  have required := target.isRequired_between desired.spec latest.spec .policy
  change target.isRequired (Manager.delta desired latest) .policy = _ at required
  rw [required, observed]
  constructor
  · intro skipped
    by_cases same : Policy.observed desired.spec.policy stored.policy = desired.spec.policy
    · exact KeySpec.policyCalls_eq_nil same
    · have unasked : target.policy? = none := by simpa [Ne.symm same] using skipped
      exact KeySpec.policyCalls_of_unasked unasked
  · intro taken
    obtain ⟨differs, asked⟩ := Bool.and_eq_true_iff.mp taken
    obtain ⟨wanted, asked⟩ := Option.isSome_iff_exists.mp asked
    obtain ⟨named, nonempty⟩ := Option.filter_eq_some_iff.mp asked
    rw [KeySpec.policyCalls_of_differing named (by simpa using nonempty)
      (Ne.symm (of_decide_eq_true differs))]
    simp only [UpdateTarget.perform, asked]
    exact .call (.putKeyPolicy _) rfl rfl unrefused held ()

private theorem tagStep_makes (held : memory.key? stored.metadata.keyId = some changed)
    (same : changed.tags = stored.tags)
    (room : stored.tags.size ≤ Text.greatestWord ∧ stored.tags.size < pages)
    (observed : latest.spec.tags = stored.tags) :
    let target := desired.updateTarget stored.metadata.keyId
    target.StepMakes pages .tags (target.isRequired (Manager.delta desired latest) .tags)
      stored.metadata.keyId changed (desired.spec.tagCalls stored) memory := by
  intro target
  have required := target.isRequired_between desired.spec latest.spec .tags
  change target.isRequired (Manager.delta desired latest) .tags = _ at required
  rw [required, observed]
  constructor
  · intro skipped
    have same : desired.spec.tags = stored.tags := by simpa using skipped
    exact if_pos same.symm
  · intro taken
    have differs : stored.tags ≠ desired.spec.tags := Ne.symm (of_decide_eq_true taken)
    have made := TagSet.reconcile_makes unrefused held desired.spec.tags (same ▸ room)
    rw [same] at made
    rw [KeySpec.tagCalls, if_neg differs]
    exact made

private theorem rotationStep_makes (held : memory.key? stored.metadata.keyId = some changed)
    (named : changed.metadata.keyId = stored.metadata.keyId)
    (same : changed.rotationEnabled = stored.rotationEnabled)
    (observed : latest.spec.enableKeyRotation =
      (RotationState.ofStatus (memory.rotationStatus stored)).observed desired.spec.enableKeyRotation) :
    let target := desired.updateTarget stored.metadata.keyId
    target.StepMakes pages .rotation (target.isRequired (Manager.delta desired latest) .rotation)
      stored.metadata.keyId changed
      (desired.spec.rotationCalls (!memory.rotationStatusUnavailable) stored) memory := by
  intro target
  have required := target.isRequired_between desired.spec latest.spec .rotation
  change target.isRequired (Manager.delta desired latest) .rotation = _ at required
  rw [required, observed]
  constructor
  · intro skipped
    have same : desired.spec.enableKeyRotation =
        (RotationState.ofStatus (memory.rotationStatus stored)).observed
          desired.spec.enableKeyRotation := by simpa using skipped
    exact KeySpec.rotationCalls_eq_nil same.symm
  · intro taken
    obtain ⟨change?, made⟩ := Rotation.reconcile_makes unrefused held desired.spec named
    rw [KeySpec.rotationCalls_congr desired.spec _ named same] at made
    rw [← List.append_nil (desired.spec.rotationCalls _ _)]
    exact made.bind_ok fun reached stands => .pure stands.held _

end Steps

private theorem performAll_makes (desired : Key) (scope : AccountScope)
    (unrefused : memory.refusals = [])
    (held : memory.key? stored.metadata.keyId = some stored)
    (living : stored.metadata.isPendingDeletion = false)
    (room : stored.tags.size ≤ Text.greatestWord ∧ stored.tags.size < pages) :
    let target := desired.updateTarget stored.metadata.keyId
    let latest := desired.asFound scope (memory.rotationStatus stored) stored
    let steps := target.requiredSteps (Manager.delta desired latest)
    Memory.Makes (target.performAll pages .converge steps) stored.metadata.keyId stored
      (desired.spec.requiredCalls (!memory.rotationStatusUnavailable) stored) { applied := steps }
      memory := by
  intro target latest steps
  have found : latest.spec.tags = stored.tags ∧
      latest.spec.enableKeyRotation =
        (RotationState.ofStatus (memory.rotationStatus stored)).observed
          desired.spec.enableKeyRotation ∧
      latest.spec.policy = Policy.observed desired.spec.policy stored.policy := by
    simp [latest, asFound, living]
  obtain ⟨tags, rotation, policy⟩ := found
  rw [KeySpec.requiredCalls, List.append_assoc]
  -- No step touches what a later one compares, so each of them still meets what the pass has read.
  let first := (desired.spec.policyCalls stored).foldl StoredKey.after stored
  have sameTags : first.tags = stored.tags := by
    simp only [first, KeySpec.foldl_policyCalls]
  have sameRotation : ((desired.spec.tagCalls stored).foldl StoredKey.after first).rotationEnabled =
      stored.rotationEnabled := by
    rw [desired.spec.foldl_tagCalls sameTags]
    simp only [first, KeySpec.foldl_policyCalls]
  refine UpdateTarget.performAll_makes held (policyStep_makes unrefused held policy)
    fun reached stands => ?_
  have none := stands.continues.unrefused unrefused
  refine UpdateTarget.performAll_makes stands.held
    (tagStep_makes none stands.held sameTags room tags) fun last onward => ?_
  have unavailable := onward.continues.rotationStatusUnavailable.trans
    stands.continues.rotationStatusUnavailable
  rw [← stands.rotationStatus, ← onward.rotationStatus] at rotation
  rw [← List.append_nil (desired.spec.rotationCalls _ _), ← unavailable]
  exact UpdateTarget.performAll_makes onward.held
    (rotationStep_makes (onward.continues.unrefused none) onward.held (by simp) sameRotation rotation)
    fun final done => .pure done.held _

theorem asFound_keyId? (key : Key) (scope : AccountScope) (rotationStatus : Option Bool)
    (stored : StoredKey) :
    (key.asFound scope rotationStatus stored).keyId? = some stored.metadata.keyId := by
  rw [Key.keyId?, asFound_status]
  rfl

theorem accepted_iff (desired : Key) (scope : AccountScope) (rotationStatus : Option Bool)
    (stored : StoredKey) :
    (Manager.delta desired (desired.asFound scope rotationStatus stored)).failure? .key = none ↔
      desired.spec.Fits stored.metadata := by
  constructor
  · intro accepted
    exact (desired.spec.observed_eq_iff _).mp (observed_of_accepted accepted)
  · intro fits
    have same := (desired.spec.observed_eq_iff _).mpr fits
    refine (KeySpec.failure?_eq_none_iff _ _).mpr ?_
    unfold asFound
    dsimp only
    split <;> simp only [same, and_self]

/-- How a change ends that nothing disturbs. -/
def conclusion (desired latest : Key) : Except (FailedUpdate Key) Key :=
  match (Manager.delta desired latest).failure? .key with
  | some failure => .error ⟨none, failure⟩
  | none => .ok { latest with spec := desired.spec }

theorem conclusion_of_fits (fits : desired.spec.Fits stored.metadata) (scope : AccountScope)
    (rotationStatus : Option Bool) :
    let latest := desired.asFound scope rotationStatus stored
    desired.conclusion latest = .ok { latest with spec := desired.spec } := by
  simp only [conclusion, (accepted_iff desired scope rotationStatus stored).mpr fits]

theorem conclusion_of_unfit (unfit : ¬ desired.spec.Fits stored.metadata) (scope : AccountScope)
    (rotationStatus : Option Bool) :
    ∃ message, desired.conclusion (desired.asFound scope rotationStatus stored) =
      .error ⟨none, .terminal message⟩ := by
  have refused : (Manager.delta desired (desired.asFound scope rotationStatus stored)).failure? .key ≠
      none := fun accepted => unfit ((accepted_iff desired scope rotationStatus stored).mp accepted)
  obtain ⟨failure, refused⟩ := Option.ne_none_iff_exists'.mp refused
  obtain ⟨message, -, rfl⟩ := Option.map_eq_some_iff.mp refused
  exact ⟨message, by simp only [conclusion, refused]⟩

theorem sync_of_unfit (unfit : ¬ desired.spec.Fits stored.metadata) (scope : AccountScope)
    (pages : Nat) (rotationStatus : Option Bool) :
    let latest := desired.asFound scope rotationStatus stored
    ((manager scope pages).sync desired latest).run = pure (desired.conclusion latest) := by
  intro latest
  have refused : (Manager.delta desired latest).failure? .key ≠ none :=
    fun accepted => unfit ((accepted_iff desired scope rotationStatus stored).mp accepted)
  obtain ⟨failure, refused⟩ := Option.ne_none_iff_exists'.mp refused
  have differs : (Manager.delta desired latest).isEmpty = false := by
    refine Bool.eq_false_iff.mpr fun empty => ?_
    rw [List.isEmpty_iff.mp empty] at refused
    cases refused
  have named : latest.keyId? = some stored.metadata.keyId := asFound_keyId? desired scope _ stored
  have ends : (update pages desired latest _).run = _ := update_of_refused named refused
  rw [Manager.sync_of_differing differs, conclusion, refused]
  exact ends

/-- A key that waits for its deletion is left alone where the metadata fit the spec. -/
theorem sync_of_pending (fits : desired.spec.Fits stored.metadata)
    (pending : stored.metadata.isPendingDeletion = true) (scope : AccountScope) (pages : Nat)
    (rotationStatus : Option Bool) :
    let latest := desired.asFound scope rotationStatus stored
    ((manager scope pages).sync desired latest).run = pure (desired.conclusion latest) := by
  intro latest
  have same : desired.spec = latest.spec := by
    simp only [latest, asFound, pending, if_true]
    exact ((desired.spec.observed_eq_iff _).mpr fits).symm
  have empty : (Manager.delta desired latest).isEmpty = true :=
    (KeySpec.delta_isEmpty_iff _ _).mpr same
  rw [conclusion_of_fits fits scope rotationStatus]
  simp only [Manager.sync, empty, if_true, same]
  rfl

private theorem sync_of_living (fits : desired.spec.Fits stored.metadata) (scope : AccountScope)
    (unrefused : memory.refusals = []) (held : memory.key? stored.metadata.keyId = some stored)
    (living : stored.metadata.isPendingDeletion = false)
    (room : stored.tags.size ≤ Text.greatestWord ∧ stored.tags.size < pages) :
    let latest := desired.asFound scope (memory.rotationStatus stored) stored
    Memory.Makes ((manager scope pages).sync desired latest).run stored.metadata.keyId stored
      (desired.spec.requiredCalls (!memory.rotationStatusUnavailable) stored)
      (desired.conclusion latest) memory := by
  intro latest
  let delta := Manager.delta desired latest
  let target := desired.updateTarget stored.metadata.keyId
  let steps := target.requiredSteps delta
  have performed : Memory.Makes (target.performAll pages .converge steps) stored.metadata.keyId stored
      _ { applied := steps } memory := performAll_makes desired scope unrefused held living room
  have named : latest.keyId? = some stored.metadata.keyId := asFound_keyId? desired scope _ stored
  have accepted : delta.failure? .key = none := (accepted_iff desired scope _ stored).mpr fits
  rw [← List.append_nil (desired.spec.requiredCalls _ _), conclusion_of_fits fits scope,
    run_sync named, accepted]
  exact performed.bind fun reached stands => .pure stands.held _

private theorem sync_makes (desired : Key) (scope : AccountScope) (unrefused : memory.refusals = [])
    (held : memory.key? stored.metadata.keyId = some stored)
    (room : stored.metadata.isPendingDeletion = false →
      stored.tags.size ≤ Text.greatestWord ∧ stored.tags.size < pages) :
    let latest := desired.asFound scope (memory.rotationStatus stored) stored
    Memory.Makes ((manager scope pages).sync desired latest).run stored.metadata.keyId stored
      (desired.spec.adjustments (!memory.rotationStatusUnavailable) stored)
      (desired.conclusion latest) memory := by
  intro latest
  by_cases fits : desired.spec.Fits stored.metadata
  · cases living : stored.metadata.isPendingDeletion with
    | false =>
      rw [KeySpec.adjustments, if_pos ⟨fits, living⟩]
      exact sync_of_living fits scope unrefused held living (room living)
    | true =>
      rw [KeySpec.adjustments, if_neg (by simp [living]),
        sync_of_pending fits living scope pages (memory.rotationStatus stored)]
      exact .pure held _
  · rw [KeySpec.adjustments, if_neg (by simp [fits]),
      sync_of_unfit fits scope pages (memory.rotationStatus stored)]
    exact .pure held _

variable {name keyId : String}

theorem reconcile_makes (desired : Key) (scope : AccountScope) (keyed : memory.store.IsKeyed)
    (known : desired.keyId? = some name) (found : memory.lookup name = .ok (keyId, stored))
    (unrefused : memory.refusals = [])
    (room : stored.metadata.isPendingDeletion = false →
      stored.tags.size ≤ Text.greatestWord ∧ stored.tags.size < pages) :
    Memory.Makes ((manager scope pages).reconcile desired).run keyId stored
      (desired.spec.adjustments (!memory.rotationStatusUnavailable) stored)
      (desired.conclusion (desired.asFound scope (memory.rotationStatus stored) stored)) memory := by
  have held := Memory.key?_of_lookup found
  obtain rfl : stored.metadata.keyId = keyId := keyed _ _ held
  have read : Memory.Makes (readOne scope pages desired).run _ stored [] (.ok _) memory :=
    .of_reads (readOne_reads scope known found (fun _ => unrefused) fun _ => room)
      ((readOne_uses scope pages known).mono fun _ reads => reads.isMutating) held
  rw [Manager.run_reconcile]
  refine read.bind fun reached stands => ?_
  have synced := sync_makes desired scope (stands.continues.unrefused unrefused) stands.held room
  rwa [stands.rotationStatus, stands.continues.rotationStatusUnavailable] at synced

/-- The calls of an undisturbed pass over a living key that may change anything are the ones that the
spec requires of the stored key, and the pass succeeds; but where the metadata contradict a field that
cannot be changed there are none, and the failure is terminal. -/
theorem reconcile_adjusts {run : Run Memory} (reachable : run.state.Reachable)
    (unrefused : run.state.refusals = []) (free : run.IsFree) (known : desired.keyId? = some name)
    (found : run.state.lookup name = .ok (keyId, stored))
    (living : stored.metadata.isPendingDeletion = false)
    (counted : stored.tags.size ≤ Text.greatestWord) (room : run.state.pageBound ≤ pages) :
    ∃ result last, ((manager scope pages).reconcile desired).run.run Memory.service .calm run =
        (.finished result, last) ∧
      if desired.spec.Fits stored.metadata then
        (∃ settled, result = .ok settled) ∧ last.state.mutatingCalls = run.state.mutatingCalls ++
          desired.spec.requiredCalls (!run.state.rotationStatusUnavailable) stored
      else (∃ message, result = .error ⟨none, .terminal message⟩) ∧
        last.state.mutatingCalls = run.state.mutatingCalls := by
  have enough : stored.tags.size ≤ Text.greatestWord ∧ stored.tags.size < pages :=
    ⟨counted, Nat.lt_of_lt_of_le (Memory.tags_lt_pageBound (Memory.key?_of_lookup found)) room⟩
  have makes := reconcile_makes desired scope reachable.isKeyed known found unrefused fun _ => enough
  obtain ⟨last, ends, stands⟩ := makes.run free
  refine ⟨_, last, ends, ?_⟩
  have made := stands.mutatingCalls
  by_cases fits : desired.spec.Fits stored.metadata
  · rw [KeySpec.adjustments, if_pos ⟨fits, living⟩] at made
    rw [if_pos fits]
    exact ⟨⟨_, conclusion_of_fits fits scope _⟩, made⟩
  · rw [KeySpec.adjustments, if_neg (by simp [fits]), List.append_nil] at made
    rw [if_neg fits]
    exact ⟨conclusion_of_unfit fits scope _, made⟩

/-- A seeded key that needs each of the changes. -/
theorem reconcile_adjusts_seeded :
    let memory := (({ config := .numbered } : Memory).act
      (.seedKey "k1" (.ofTags [⟨"env", "test"⟩, ⟨"team", "core"⟩]))).act (.setRotation "k1" true)
    let key : Key :=
      ⟨{ name := "key" }, { tags := .ofTags [⟨"team", "payments"⟩], policy := some "{}" },
        some { keyId := some "k1" }⟩
    ∃ result last, ((manager ⟨"us-west-2", "000000000000"⟩ 3).reconcile key).run.run Memory.service
        .calm { state := memory } = (.finished result, last) ∧
      (∃ settled, result = .ok settled) ∧
      last.state.mutatingCalls = [
        .putKeyPolicy ⟨"k1", "default", "{}", false⟩,
        .untagResource "k1" ["env"],
        .tagResource "k1" [⟨"team", "payments"⟩],
        .disableKeyRotation "k1"] := by
  intro memory key
  let run : Run Memory := { state := memory }
  have reachable : run.state.Reachable :=
    ((Memory.Reachable.start _).act (.seedKey _ _)).act (.setRotation _ _)
  obtain ⟨stored, found, living, counted, fits, calls⟩ :
      ∃ stored, memory.lookup "k1" = .ok ("k1", stored) ∧
        stored.metadata.isPendingDeletion = false ∧ stored.tags.size ≤ Text.greatestWord ∧
        key.spec.Fits stored.metadata ∧
        key.spec.requiredCalls (!memory.rotationStatusUnavailable) stored = [
          .putKeyPolicy ⟨"k1", "default", "{}", false⟩, .untagResource "k1" ["env"],
          .tagResource "k1" [⟨"team", "payments"⟩], .disableKeyRotation "k1"] :=
    ⟨_, rfl, rfl, by decide, by decide, by decide⟩
  have room : run.state.pageBound ≤ 3 := by decide
  have known : key.keyId? = some "k1" := rfl
  obtain ⟨result, last, ends, made⟩ :=
    reconcile_adjusts reachable rfl ⟨rfl, rfl⟩ known found living counted room
  rw [if_pos fits, show KeySpec.requiredCalls _ _ _ = _ from calls] at made
  exact ⟨result, last, ends, made⟩

end Key

end KeySteward
