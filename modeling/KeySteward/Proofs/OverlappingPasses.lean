import KeySteward.Proofs.SharedChanges

/-! Two passes over one resource whose calls overlap. Either pass may read the key while the other one
changes it, and decide on what is no longer so. It takes a step that was taken already without harm, and
skips a step only where the key is as it is wanted by then; so both end as one pass alone would have
ended, and leave the key as it would have. -/

namespace KeySteward

open Pass (Delivers)

namespace KeySpec

variable {spec : KeySpec} {wanted : String}

private theorem policyOver_of_unasked
    (unasked : spec.policy.filter (fun policy => !policy.isEmpty) = none)
    (policy : Option String) : spec.policyOver policy = policy := by
  unfold policyOver
  split
  next => rfl
  next wanted asked => exact if_pos (.inl (by simpa [asked] using unasked))

private theorem policyOver_of_observed {policy : Option String}
    (same : Policy.observed spec.policy policy = spec.policy) : spec.policyOver policy = policy := by
  unfold policyOver
  split
  next => rfl
  next wanted asked =>
    rw [asked] at same
    obtain ⟨found, held, equivalent⟩ := Policy.observed_eq_some_iff.mp same
    exact if_pos (.inr (by simp [held, equivalent]))

private theorem policyOver_of_differing (asked : spec.policy = some wanted) (nonempty : wanted ≠ "")
    {policy : Option String} (differs : Policy.observed spec.policy policy ≠ spec.policy) :
    spec.policyOver policy = some wanted := by
  have apart : ¬ policy.any (Policy.equivalent wanted) = true := by
    intro equivalent
    obtain ⟨found, held, same⟩ := (Option.any_eq_true _ _).mp equivalent
    rw [asked] at differs
    exact differs (Policy.observed_eq_some_iff.mpr ⟨found, held, same⟩)
  simp only [policyOver, asked]
  exact if_neg (by simp [nonempty, apart])

private theorem observed_policyOver (asked : spec.policy = some wanted) (nonempty : wanted ≠ "")
    (policy : Option String) :
    Policy.observed spec.policy (spec.policyOver policy) = spec.policy := by
  by_cases same : Policy.observed spec.policy policy = spec.policy
  · rwa [policyOver_of_observed same]
  · rw [policyOver_of_differing asked nonempty same, asked]
    exact Policy.observed_eq_some_iff.mpr ⟨wanted, rfl, Policy.equivalent_refl wanted⟩

private theorem tags_foldl_adjustments (spec : KeySpec) (available : Bool) (stored : StoredKey) :
    ((spec.adjustments available stored).foldl StoredKey.after stored).tags = stored.tags ∨
      ((spec.adjustments available stored).foldl StoredKey.after stored).tags = spec.tags := by
  unfold adjustments
  split
  · rw [foldl_requiredCalls]
    exact .inr rfl
  · exact .inl rfl

end KeySpec

namespace Journey

variable {journey : Journey} {side : Side} {look last : Progress} {name : String} {pages : Nat}
  {seen : StoredKey}

/-- What may have been read of the key, part by part, on the way to where it is now. -/
structure Glimpsed (journey : Journey) (seen : StoredKey) (last : Progress) : Prop where
  metadata : seen.metadata = journey.stored.metadata
  policy : ∃ met : Progress, met.Le last ∧ seen.policy = (journey.key met).policy
  rotation : ∃ met : Progress, met.Le last ∧ seen.rotationEnabled = (journey.key met).rotationEnabled
  tags : journey.Listed seen.tags last

private theorem Glimpsed.stored (journey : Journey) (last : Progress) :
    journey.Glimpsed journey.stored last where
  metadata := rfl
  policy := ⟨{}, last.none_le, rfl⟩
  rotation := ⟨{}, last.none_le, rfl⟩
  tags := ⟨fun _ _ => rfl, fun _ _ _ there => there⟩

end Journey

namespace Key

variable {journey : Journey} {side : Side} {look last : Progress} {name : String} {pages : Nat}
  {seen stored : StoredKey} {desired : Key}

open Journey (Arrived Glimpsed)

private theorem readOne_shared (scope : AccountScope) (known : desired.keyId? = some name)
    (named : journey.memory.lookup name = .ok (journey.keyId, journey.stored))
    (enough : journey.HasRoom pages) :
    Delivers Memory.service journey.accord side (readOne scope pages desired)
      (fun latest last => ∃ seen, journey.Glimpsed seen last ∧
        latest = desired.asFound scope (journey.memory.rotationStatus seen) seen) look := by
  simp only [readOne, known]
  refine Journey.bind (Journey.describe_shared named).lookup ?_
  rintro _ described rfl
  split
  next pending =>
    refine .pure fun last _ _ => ⟨journey.stored, .stored journey last, ?_⟩
    simp only [asFound, pending, if_true]
  next living =>
    refine Journey.bind (Journey.list_shared named enough) fun tags first listed => ?_
    refine Journey.bind (Journey.observe_shared named) ?_
    rintro _ second ⟨met, turned, rfl⟩
    refine Journey.bind (Journey.getPolicy_shared named) ?_
    rintro _ third ⟨other, put, rfl⟩
    refine .pure fun last _ onward later further _ => ?_
    let seen : StoredKey := {
      metadata := journey.stored.metadata
      rotationEnabled := (journey.key met).rotationEnabled
      policy := (journey.key other).policy
      tags }
    refine ⟨seen, ⟨rfl, ⟨other, put.trans onward, rfl⟩, ⟨met, turned.trans later, rfl⟩,
      listed.mono further⟩, ?_⟩
    simp only [asFound, seen, living]
    rfl

/-- The key is on its way to what the spec requires of it. -/
def IsGoal (desired : Key) (journey : Journey) : Prop :=
  journey.goal =
    desired.spec.required (!journey.memory.rotationStatusUnavailable) journey.stored

namespace IsGoal

variable (wanted : desired.IsGoal journey)

include wanted

private theorem policy : journey.goal.policy = desired.spec.policyOver journey.stored.policy :=
  congrArg StoredKey.policy wanted

private theorem tags : journey.goal.tags = desired.spec.tags :=
  congrArg StoredKey.tags wanted

private theorem rotationEnabled : journey.goal.rotationEnabled =
    if journey.memory.rotationStatusUnavailable then journey.stored.rotationEnabled
    else desired.spec.enableKeyRotation.getD false := by
  refine (congrArg StoredKey.rotationEnabled wanted).trans ?_
  simp only [KeySpec.required]
  cases journey.memory.rotationStatusUnavailable <;> rfl

end IsGoal

private theorem isRequired_asFound (desired : Key) (scope : AccountScope) (rotationStatus : Option Bool)
    (living : seen.metadata.isPendingDeletion = false) (target : UpdateTarget) (step : UpdateStep) :
    target.isRequired (Manager.delta desired (desired.asFound scope rotationStatus seen)) step =
      match step with
      | .policy =>
        decide (desired.spec.policy ≠ Policy.observed desired.spec.policy seen.policy) &&
          target.policy?.isSome
      | .tags => decide (desired.spec.tags ≠ seen.tags)
      | .rotation =>
        decide (desired.spec.enableKeyRotation ≠
          (RotationState.ofStatus rotationStatus).observed desired.spec.enableKeyRotation) := by
  refine (target.isRequired_between _ _ step).trans ?_
  cases step <;> simp [asFound, living]

section Steps

variable (wanted : desired.IsGoal journey) (scope : AccountScope)
  (glimpsed : journey.Glimpsed seen look) (living : journey.stored.metadata.isPendingDeletion = false)

include wanted glimpsed living

/-- A step that the reading asks for brings its part of the key to the goal. -/
theorem perform_shared (enough : journey.HasRoom pages) {step : UpdateStep}
    (required : (desired.updateTarget journey.keyId).isRequired (Manager.delta desired
      (desired.asFound scope (journey.memory.rotationStatus seen) seen)) step = true)
    (later : Progress) :
    Delivers Memory.service journey.accord side
      ((desired.updateTarget journey.keyId).perform pages .converge step)
      (fun _ last => journey.Arrived last step) later := by
  rw [isRequired_asFound desired scope _ (glimpsed.metadata ▸ living)] at required
  cases step with
  | policy =>
    obtain ⟨differs, asked⟩ := Bool.and_eq_true_iff.mp required
    obtain ⟨policy, asked⟩ := Option.isSome_iff_exists.mp asked
    obtain ⟨named, nonempty⟩ := Option.filter_eq_some_iff.mp asked
    have named : desired.spec.policy = some policy := named
    have nonempty : policy ≠ "" := by simpa using nonempty
    have differs := Ne.symm (of_decide_eq_true differs)
    obtain ⟨met, -, same⟩ := glimpsed.policy
    have unmet : met.policy = false := by
      refine Bool.eq_false_iff.mpr fun put => differs ?_
      rw [same]
      simp only [Journey.key, put, if_true, wanted.policy]
      exact KeySpec.observed_policyOver named nonempty _
    simp only [Journey.key, unmet, Bool.false_eq_true, if_false] at same
    rw [same] at differs
    simp only [UpdateTarget.perform, asked]
    exact Journey.putPolicy_shared
      (wanted.policy.trans (KeySpec.policyOver_of_differing named nonempty differs)) _
  | tags =>
    change Delivers _ _ _ (TagSet.reconcile pages journey.keyId desired.spec.tags) _ _
    rw [← wanted.tags]
    exact Journey.reconcileTags_shared enough
  | rotation =>
    refine Journey.bind (Journey.reconcileRotation_shared wanted.rotationEnabled)
      fun _ middle arrived => ?_
    exact .pure fun last _ onward => arrived.mono onward

private theorem arrived_of_skipped {step : UpdateStep}
    (skipped : (desired.updateTarget journey.keyId).isRequired (Manager.delta desired
      (desired.asFound scope (journey.memory.rotationStatus seen) seen)) step = false) :
    journey.Arrived look step := by
  rw [isRequired_asFound desired scope _ (glimpsed.metadata ▸ living)] at skipped
  cases step with
  | policy =>
    obtain ⟨met, begun, same⟩ := glimpsed.policy
    refine Arrived.mono (.policy_of ?_) begun
    cases put : met.policy with
    | true => exact .inr rfl
    | false =>
      simp only [Journey.key, put, Bool.false_eq_true, if_false] at same
      left
      rw [wanted.policy]
      rcases Bool.and_eq_false_iff.mp skipped with equal | unasked
      · have observed := Decidable.of_not_not (of_decide_eq_false equal)
        rw [same] at observed
        exact (KeySpec.policyOver_of_observed observed.symm).symm
      · have unasked := Option.isSome_eq_false_iff.mp unasked
        exact (KeySpec.policyOver_of_unasked (Option.isNone_iff_eq_none.mp unasked) _).symm
  | tags =>
    have same : seen.tags = journey.goal.tags := by
      rw [wanted.tags]
      exact (Decidable.of_not_not (of_decide_eq_false skipped)).symm
    have listed := glimpsed.tags
    rw [same] at listed
    refine Journey.arrived_tags_iff.mpr ⟨?_, ?_⟩
    · cases cleaned : look.cleaned with
      | true => exact .inr (.inl cleaned)
      | false =>
        cases tagged : look.tagged with
        | true => exact .inl tagged
        | false =>
          refine .inr (.inr ?_)
          rw [← listed.whole cleaned tagged, TagMap.removedKeys_self]
    · cases tagged : look.tagged with
      | true => exact .inl rfl
      | false => exact .inr (Journey.cleanedTags_eq (listed.stored tagged))
  | rotation =>
    obtain ⟨met, begun, same⟩ := glimpsed.rotation
    refine Arrived.mono ?_ begun
    have observed := (Decidable.of_not_not (of_decide_eq_false skipped)).symm
    cases unavailable : journey.memory.rotationStatusUnavailable with
    | true =>
      refine .rotation_of (.inl ?_)
      rw [wanted.rotationEnabled, if_pos unavailable]
    | false =>
      simp only [Memory.rotationStatus, unavailable, Bool.false_eq_true, if_false] at observed
      have turned := RotationState.observed_eq_iff.mp observed
      rw [same] at turned
      change (journey.key met).rotationEnabled = journey.goal.rotationEnabled
      rw [turned, wanted.rotationEnabled, if_neg (by simp [unavailable])]

end Steps

private theorem performAll_shared {target : UpdateTarget} {steps : List UpdateStep}
    (each : ∀ step ∈ steps, ∀ later, Delivers Memory.service journey.accord side
      (target.perform pages .converge step) (fun _ last => journey.Arrived last step) later) :
    (target.performAll pages .converge steps).Abides Memory.service journey.accord side
      (fun ending last => ending = .finished { applied := steps } ∧
        ∀ step ∈ steps, journey.Arrived last step) look := by
  induction steps generalizing look with
  | nil => exact fun last _ => ⟨rfl, nofun⟩
  | cons step rest ih =>
    unfold UpdateTarget.performAll
    refine (each step List.mem_cons_self look).bind_run fun _ middle arrived => ?_
    have others : (target.performAll pages .converge rest).Abides Memory.service journey.accord side
        _ middle := ih fun step member => each step (List.mem_cons_of_mem _ member)
    have onward := (Journey.further others).mono fun _ _ => and_assoc.mp
    refine onward.bind_value fun reached after last moved => ?_
    obtain ⟨held, later⟩ := after last moved
    exact ⟨rfl, List.forall_mem_cons.mpr ⟨arrived.mono later, held⟩⟩

/-! ### Passes -/

/-- How a change ends that nothing disturbs is all in the metadata of the key. -/
theorem conclusion_asFound (desired : Key) (scope : AccountScope)
    (same : seen.metadata = stored.metadata) (first second : Option Bool) :
    desired.conclusion (desired.asFound scope first seen) =
      desired.conclusion (desired.asFound scope second stored) := by
  have changes (status : Option Bool) (key : StoredKey) :
      desired.spec.immutableChanges (desired.asFound scope status key).spec =
        desired.spec.immutableChanges (desired.spec.observed key.metadata) := by
    simp only [asFound]
    split <;> rfl
  have refused : (Manager.delta desired (desired.asFound scope first seen)).failure? .key =
      (Manager.delta desired (desired.asFound scope second stored)).failure? .key := by
    change (Delta.between desired.spec.toJson (desired.asFound scope first seen).spec.toJson).failure?
        .key =
      (Delta.between desired.spec.toJson (desired.asFound scope second stored).spec.toJson).failure?
        .key
    rw [Delta.failure?_of_allowed rfl, Delta.failure?_of_allowed rfl, KeySpec.unsupported_between,
      KeySpec.unsupported_between, changes, changes, same]
  have settled : ({ desired.asFound scope first seen with spec := desired.spec } : Key) =
      { desired.asFound scope second stored with spec := desired.spec } := by
    simp only [asFound, same]
    split <;> rfl
  rw [conclusion, conclusion, refused, settled]

section Changes

variable (scope : AccountScope) (glimpsed : journey.Glimpsed seen look)
  (enough : journey.HasRoom pages)

include glimpsed enough

/-- The steps that the reading asks for are all that is missing. -/
theorem performAll_reaches (wanted : desired.IsGoal journey)
    (living : journey.stored.metadata.isPendingDeletion = false) :
    let target := desired.updateTarget journey.keyId
    let steps := target.requiredSteps
      (Manager.delta desired (desired.asFound scope (journey.memory.rotationStatus seen) seen))
    journey.Completes side (target.performAll pages .converge steps) { applied := steps } look := by
  intro target steps
  have taken : (target.performAll pages .converge steps).Abides Memory.service journey.accord side
      _ look := performAll_shared fun step member =>
    perform_shared wanted scope glimpsed living enough (List.mem_filter.mp member).2
  refine (Journey.further taken).mono ?_
  rintro ending last ⟨⟨ended, arrived⟩, later⟩
  refine ⟨ended, Journey.eq_goal_of_arrived fun step => ?_⟩
  by_cases member : step ∈ steps
  · exact arrived step member
  · have skipped : target.isRequired (Manager.delta desired
        (desired.asFound scope (journey.memory.rotationStatus seen) seen)) step = false := by
      refine Bool.eq_false_iff.mpr fun required => member (List.mem_filter.mpr ⟨?_, required⟩)
      cases step <;> decide
    exact (arrived_of_skipped wanted scope glimpsed living skipped).mono later

private theorem sync_living_shared (named : journey.stored.metadata.keyId = journey.keyId)
    (wanted : desired.IsGoal journey)
    (fits : desired.spec.Fits journey.stored.metadata)
    (living : journey.stored.metadata.isPendingDeletion = false) :
    let latest := desired.asFound scope (journey.memory.rotationStatus seen) seen
    journey.Completes side ((manager scope pages).sync desired latest).run (desired.conclusion latest)
      look := by
  intro latest
  let delta := Manager.delta desired latest
  let target := desired.updateTarget journey.keyId
  let steps := target.requiredSteps delta
  have performed : journey.Completes side (target.performAll pages .converge steps) _ look :=
    performAll_reaches scope glimpsed enough wanted living
  have same : seen.metadata = journey.stored.metadata := glimpsed.metadata
  have fits : desired.spec.Fits seen.metadata := same ▸ fits
  have known : latest.keyId? = some journey.keyId := by
    rw [← named, ← same]
    exact asFound_keyId? desired scope _ seen
  have accepted : delta.failure? .key = none := (accepted_iff desired scope _ seen).mpr fits
  rw [conclusion_of_fits fits scope, run_sync known, accepted]
  exact performed.bind_pure rfl

/-- A pass whose reading stands somewhere on the way makes the rest of the way. -/
theorem sync_shared (named : journey.stored.metadata.keyId = journey.keyId)
    (goal : journey.goal = (desired.spec.adjustments (!journey.memory.rotationStatusUnavailable)
      journey.stored).foldl StoredKey.after journey.stored) :
    let latest := desired.asFound scope (journey.memory.rotationStatus seen) seen
    journey.Completes side ((manager scope pages).sync desired latest).run (desired.conclusion latest)
      look := by
  intro latest
  have same : seen.metadata = journey.stored.metadata := glimpsed.metadata
  by_cases changes : desired.spec.Fits journey.stored.metadata ∧
      journey.stored.metadata.isPendingDeletion = false
  · obtain ⟨fits, living⟩ := changes
    rw [KeySpec.adjustments, if_pos ⟨fits, living⟩, KeySpec.foldl_requiredCalls] at goal
    exact sync_living_shared scope glimpsed enough named goal fits living
  · rw [KeySpec.adjustments, if_neg changes] at goal
    have ends : ((manager scope pages).sync desired latest).run = pure (desired.conclusion latest) := by
      rw [← same] at changes
      by_cases fits : desired.spec.Fits seen.metadata
      · have pending : seen.metadata.isPendingDeletion = true := by simpa [fits] using changes
        exact sync_of_pending fits pending scope pages _
      · exact sync_of_unfit fits scope pages _
    rw [ends]
    exact fun last _ => ⟨rfl, Journey.key_of_settled goal⟩

end Changes

/-- A pass ends as it ends alone, and only when the key is at its goal. -/
theorem reconcile_shared (named : journey.stored.metadata.keyId = journey.keyId)
    (scope : AccountScope) (known : desired.keyId? = some name)
    (found : journey.memory.lookup name = .ok (journey.keyId, journey.stored))
    (goal : journey.goal = (desired.spec.adjustments (!journey.memory.rotationStatusUnavailable)
      journey.stored).foldl StoredKey.after journey.stored)
    (enough : journey.HasRoom pages) :
    journey.Completes side ((manager scope pages).reconcile desired).run
      (desired.conclusion
        (desired.asFound scope (journey.memory.rotationStatus journey.stored) journey.stored))
      look := by
  rw [Manager.run_reconcile]
  refine (readOne_shared scope known found enough).bind_run ?_
  rintro _ middle ⟨seen, glimpsed, rfl⟩
  rw [← conclusion_asFound desired scope glimpsed.metadata (journey.memory.rotationStatus seen)]
  exact sync_shared scope glimpsed enough named goal

variable {memory : Memory} {scope : AccountScope} {keyId : String}

/-- Two passes over one resource do not disturb each other. In whatever order their calls are made,
both end as a single pass ends, in success or in a terminal failure, and all but the journal of the
service is left as that pass leaves it. -/
theorem reconcile_overlaps (reachable : memory.Reachable) (unrefused : memory.refusals = [])
    (known : desired.keyId? = some name) (found : memory.lookup name = .ok (keyId, stored))
    (counted : stored.tags.size ≤ Text.greatestWord ∧ desired.spec.tags.size ≤ Text.greatestWord)
    (room : memory.pageBound ≤ pages ∧ desired.spec.tags.size < pages) (turns : List Side) :
    let pass := ((manager scope pages).reconcile desired).run
    ∃ (result : Except (FailedUpdate Key) Key) (single : Run Memory) (last : Memory),
      pass.run Memory.service .calm { state := memory } = (.finished result, single) ∧
      Program.interleave Memory.service turns pass pass memory =
        ((.finished result, .finished result), last) ∧
      last.Matches single.state ∧
      ((∃ settled, result = .ok settled) ∨ ∃ message, result = .error ⟨none, .terminal message⟩) := by
  intro pass
  have held := Memory.key?_of_lookup found
  let calls := desired.spec.adjustments (!memory.rotationStatusUnavailable) stored
  let journey : Journey := {
    memory, keyId, stored, unrefused, held
    goal := calls.foldl StoredKey.after stored
    metadata := stored.foldl_after_metadata calls }
  have enough : journey.HasRoom pages := by
    have size : stored.tags.size < pages := Nat.lt_of_lt_of_le (Memory.tags_lt_pageBound held) room.1
    have tags : journey.goal.tags = stored.tags ∨ journey.goal.tags = desired.spec.tags :=
      KeySpec.tags_foldl_adjustments _ _ _
    refine .of_sizes ⟨counted.1, ?_⟩ ⟨size, ?_⟩
    · rcases tags with same | same
      · exact same ▸ counted.1
      · exact same ▸ counted.2
    · rcases tags with same | same
      · exact same ▸ size
      · exact same ▸ room.2
  have named : journey.stored.metadata.keyId = journey.keyId := reachable.isKeyed keyId stored held
  have completes (side : Side) : journey.Completes side pass _ {} :=
    reconcile_shared named scope known found rfl enough
  have begun : journey.accord.shows {} memory := by
    change memory.Matches (memory.withKey keyId stored)
    rw [Memory.withKey_self held]
    exact .refl memory
  obtain ⟨alone, -, left, ended⟩ := Program.Abides.eval begun (completes .left)
  obtain ⟨finished, whole⟩ := ended alone (journey.accord.refl _ alone)
  obtain ⟨together, reached, ⟨first, same⟩, second, -⟩ :=
    Program.Abides.interleave turns (completes .left) (completes .right) begun
  have ends : pass.eval Memory.service memory = (.finished _, _) := Prod.ext finished rfl
  obtain ⟨single, ends, settled⟩ := Program.run_calm_from ends
  refine ⟨_, single, _, ends, Prod.ext (Prod.ext first second) rfl, ?_, ?_⟩
  · rw [settled]
    have goal : journey.key together = journey.key alone := same.trans whole.symm
    have reached : Memory.Matches _ (memory.withKey keyId (journey.key together)) := reached
    rw [goal] at reached
    exact reached.trans left.symm
  · by_cases fits : desired.spec.Fits stored.metadata
    · exact .inl ⟨_, conclusion_of_fits fits scope _⟩
    · exact .inr (conclusion_of_unfit fits scope _)

/-- A seeded key whose tags are listed one to a page. The right pass asks for the first page before the
left one takes a tag off, and for the next page before the left one puts the wanted tag on. -/
theorem reconcile_overlaps_seeded :
    let memory := Memory.act { config := { Memory.Config.numbered with pageSize := 1 } }
      (.seedKey "k1" (.ofTags [⟨"env", "test"⟩, ⟨"team", "core"⟩]))
    let desired : Key :=
      ⟨{ name := "key" },
        { tags := .ofTags [⟨"team", "payments"⟩], policy := some "{}", enableKeyRotation := some true },
        some { keyId := some "k1" }⟩
    let pass := ((manager ⟨"us-west-2", "000000000000"⟩ 3).reconcile desired).run
    ∃ (result : Except (FailedUpdate Key) Key) (single : Run Memory) (last : Memory),
      pass.run Memory.service .calm { state := memory } = (.finished result, single) ∧
      Program.interleave Memory.service
        ([.right, .right] ++ List.replicate 9 .left ++ [.right, .left, .right]) pass pass memory =
        ((.finished result, .finished result), last) ∧
      last.Matches single.state ∧
      ((∃ settled, result = .ok settled) ∨ ∃ message, result = .error ⟨none, .terminal message⟩) := by
  intro memory desired pass
  have reachable : memory.Reachable := (Memory.Reachable.start _).act (.seedKey _ _)
  obtain ⟨stored, found, counted⟩ : ∃ stored, memory.lookup "k1" = .ok ("k1", stored) ∧
      stored.tags.size ≤ Text.greatestWord := ⟨_, rfl, by decide⟩
  have known : desired.keyId? = some "k1" := rfl
  have wanted : desired.spec.tags.size ≤ Text.greatestWord := by decide
  have room : memory.pageBound ≤ 3 ∧ desired.spec.tags.size < 3 := by decide
  exact @reconcile_overlaps "k1" 3 stored desired memory _ "k1" reachable rfl known found
    ⟨counted, wanted⟩ room _

end Key

end KeySteward
