import KeySteward.Proofs.KeyConvergence
import KeySteward.Proofs.TagReconciliation

/-! What the resource that a failed change leaves says of its key. It has the parts that succeeded, and
a part that fails leaves the stored key as it was, with one exception. Tags are changed by two calls,
so where tags have come off and the wanted ones then fail to go on, the resource still has the tags
that are gone. -/

namespace KeySteward

open Pass

variable {schedule : Schedule}

namespace Exchange

def TakesTags (exchange : Exchange) : Prop :=
  ∃ keyId tagKeys answer, exchange = ⟨.untagResource keyId tagKeys, some (.ok answer)⟩

def FailsToTag (exchange : Exchange) : Prop :=
  ∃ keyId tags failure, exchange = ⟨.tagResource keyId tags, some (.error failure)⟩

end Exchange

/-- Tags have come off a key, and the call that puts tags on has failed. -/
def TearsTags (exchanges : List Exchange) : Prop :=
  (∃ exchange ∈ exchanges, exchange.TakesTags) ∧ ∃ exchange ∈ exchanges, exchange.FailsToTag

def Request.ChangesTags : Request → Prop
  | tagResource _ _ | untagResource _ _ => True
  | _ => False

private theorem Request.not_changesTags {request : Request} (asks : request.isMutating = false) :
    ¬ request.ChangesTags := by
  cases request <;> first | exact id | cases asks

private theorem Request.ChangesTags.step {request : Request} (changes : request.ChangesTags) :
    request.step? = some .tags := by
  cases request <;> first | rfl | cases changes

section TearsTags

variable {early late : List Exchange}

private theorem Exchange.TakesTags.changesTags {exchange : Exchange} (takes : exchange.TakesTags) :
    exchange.request.ChangesTags := by
  obtain ⟨_, _, _, rfl⟩ := takes
  trivial

private theorem Exchange.FailsToTag.changesTags {exchange : Exchange} (fails : exchange.FailsToTag) :
    exchange.request.ChangesTags := by
  obtain ⟨_, _, _, rfl⟩ := fails
  trivial

private theorem tearsTags_append (aside : ∀ exchange ∈ early, ¬ exchange.request.ChangesTags) :
    TearsTags (early ++ late) ↔ TearsTags late := by
  have untaken : ¬ ∃ exchange ∈ early, exchange.TakesTags :=
    fun ⟨exchange, member, takes⟩ => aside exchange member takes.changesTags
  have unfailed : ¬ ∃ exchange ∈ early, exchange.FailsToTag :=
    fun ⟨exchange, member, fails⟩ => aside exchange member fails.changesTags
  simp only [TearsTags, List.mem_append, or_and_right, exists_or, untaken, unfailed, false_or]

private theorem not_tearsTags (aside : ∀ exchange ∈ early, ¬ exchange.request.ChangesTags) :
    ¬ TearsTags early :=
  fun ⟨⟨exchange, member, takes⟩, _⟩ => aside exchange member takes.changesTags

private theorem not_tearsTags_failed (request : Request) (failure : Failure) :
    ¬ TearsTags [⟨request, some (.error failure)⟩] := by
  rintro ⟨⟨exchange, member, _, _, _, rfl⟩, -⟩
  cases List.mem_singleton.mp member

end TearsTags

/-- What has converged where an update has failed. -/
def Ending.converged? {ρ : Type} : Ending (Except (FailedUpdate ρ) ρ) → Option ρ
  | .finished (.error failed) => failed.converged
  | _ => none

private theorem Ending.converged?_eq_some {ρ : Type} {ending : Ending (Except (FailedUpdate ρ) ρ)}
    {converged : ρ} :
    ending.converged? = some converged ↔
      ∃ failure, ending = .finished (.error ⟨some converged, failure⟩) := by
  constructor
  · intro left
    unfold converged? at left
    split at left
    next failed =>
      obtain ⟨_, failure⟩ := failed
      obtain rfl := left
      exact ⟨failure, rfl⟩
    next => cases left
  · rintro ⟨failure, rfl⟩
    rfl

variable {run last : Run Memory} {failure : Failure} {keyId : String} {stored : StoredKey} {pages : Nat}

private theorem Pass.Strict.punctual {σ α : Type} {service : Service σ} {pass : Pass α}
    {run last : Run σ}
    (strict : pass.Strict) (unlimited : run.deadline = none)
    (ends : pass.run.run service schedule run = (.finished (.error failure), last)) :
    failure ≠ .deadlineExceeded := by
  unfold Pass.Strict at strict
  generalize pass.run = program at strict ends
  induction program generalizing run with
  | done result =>
    obtain ⟨value, rfl⟩ := strict
    cases ends
  | unfinished => cases ends
  | call request next ih =>
    obtain ⟨still, inTime⟩ := run.call_unlimited service schedule request unlimited
    simp only [Program.run] at ends
    generalize run.call service schedule request = outcome at ends still inTime
    obtain ⟨_ | (other | answer), middle⟩ := outcome
    · cases ends
    · simp only [strict.2 other, Program.run] at ends
      cases ends
      exact fun late => inTime (late ▸ rfl)
    · exact ih _ still (strict.1 answer) ends

/-- The key is still stored, and is as it was but for its tags where they are torn. -/
def Memory.Spares (memory : Memory) (keyId : String) (stored : StoredKey) (exchanges : List Exchange) :
    Prop :=
  ∃ tags, memory.key? keyId = some { stored with tags } ∧ (stored.tags = tags ↔ ¬ TearsTags exchanges)

private theorem Memory.spares_of_store {exchanges : List Exchange} {memory after : Memory}
    (held : memory.key? keyId = some stored) (same : after.store = memory.store)
    (whole : ¬ TearsTags exchanges) : after.Spares keyId stored exchanges := by
  refine ⟨stored.tags, ?_, iff_of_true rfl whole⟩
  rw [key?, same, ← key?, held]

namespace TagSet

/-- Where tags have not been put on, the others are torn if any of them have come off. -/
theorem Halts.tearsTags_iff {latest desired tags : TagMap} {exchanges : List Exchange}
    (halts : Halts keyId latest desired failure exchanges tags) :
    latest = tags ↔ ¬ TearsTags exchanges := by
  have aside (read : List (Page Tag)) :
      ∀ exchange ∈ fetched keyId none read, ¬ exchange.request.ChangesTags := by
    intro exchange member
    obtain ⟨marker, listing⟩ := mem_fetched member
    rw [listing]
    exact id
  cases halts with
  | listing read marker | untagging read | tagging read _ =>
    rw [tearsTags_append (aside read)]
    exact iff_of_true rfl (not_tearsTags_failed _ _)
  | retagging read stale =>
    rw [tearsTags_append (aside read)]
    have torn : TearsTags
        [⟨.untagResource keyId (latest.removedKeys desired), some (.ok ())⟩,
          ⟨.tagResource keyId desired.toTags, some (.error failure)⟩] :=
      ⟨⟨_, List.mem_cons_self, _, _, _, rfl⟩,
        ⟨_, List.mem_cons_of_mem _ List.mem_cons_self, _, _, _, rfl⟩⟩
    exact iff_of_false (TagMap.eraseAll_removedKeys_ne stale) (not_not.mpr torn)

end TagSet

private theorem Rotation.reconcile_fails {desired : Option Bool}
    (settled : failure = .deadlineExceeded → schedule.Prompt)
    (ends : (reconcile keyId desired).run.run Memory.service schedule run =
      (.finished (.error failure), last)) : last.state.store = run.state.store := by
  have asks : (observe keyId).run.Uses fun request => request.isMutating = false := observe_uses rfl
  have reads := Memory.run_readOnly asks schedule run
  rcases Pass.run_bind_fails ends with ⟨observing, -⟩ | ⟨state, observed, observing, rest, -⟩
  · rw [observing] at reads
    exact reads.store
  · rw [observing] at reads
    dsimp only at rest
    split at rest
    next change _ =>
      rcases Pass.run_bind_fails rest with ⟨changing, -⟩ | ⟨_, _, _, rest, -⟩
      · cases change <;> exact (Memory.call_fails settled changing).1.trans reads.store
      · cases rest
    next => cases rest

namespace UpdateTarget

variable {target : UpdateTarget} {step : UpdateStep} {steps : List UpdateStep}

private theorem perform_spares (other : step ≠ .tags) :
    (target.perform pages .converge step).run.Uses fun request => ¬ request.ChangesTags :=
  (target.perform_requests pages .converge step).mono fun _ serves changes =>
    other (Option.some.inj (serves.2.symm.trans changes.step))

/-- A step that fails leaves the stored key as it was, but for its tags where they are torn. -/
theorem perform_fails (unlimited : run.deadline = none)
    (held : run.state.key? target.keyId = some stored)
    (ends : (target.perform pages .converge step).run.run Memory.service schedule run =
      (.finished (.error failure), last)) :
    last.state.Spares target.keyId stored
      ((target.perform pages .converge step).run.exchanges Memory.service schedule run) := by
  have whole (other : step ≠ .tags) : ¬ TearsTags
      ((target.perform pages .converge step).run.exchanges Memory.service schedule run) :=
    not_tearsTags fun exchange member => (perform_spares other).exchanges member
  have settled : failure = .deadlineExceeded → schedule.Prompt := fun late =>
    absurd late ((target.perform_strict pages .converge step).punctual unlimited ends)
  cases step with
  | policy =>
    refine Memory.spares_of_store held ?_ (whole (by decide))
    simp only [perform] at ends
    split at ends
    · exact (Memory.call_fails settled ends).1
    · cases ends
  | tags =>
    obtain ⟨tags, kept, halts⟩ := TagSet.reconcile_fails settled held ends
    exact ⟨tags, kept, halts.tearsTags_iff⟩
  | rotation =>
    refine Memory.spares_of_store held ?_ (whole (by decide))
    rcases Pass.run_bind_fails ends with ⟨reconciling, -⟩ | ⟨_, _, _, rest, -⟩
    · exact Rotation.reconcile_fails settled reconciling
    · cases rest

/-- No step that has succeeded tears the tags, nor does it for one of the other steps after it. -/
theorem tearsTags_behind {middle : Run Memory} {value : Unit}
    (performed : (target.perform pages .converge step).run.run Memory.service schedule run =
      (.finished (.ok value), middle))
    (once : step ∉ steps) :
    TearsTags ((target.perform pages .converge step).run.exchanges Memory.service schedule run ++
        (target.performAll pages .converge steps).exchanges Memory.service schedule middle) ↔
      TearsTags
        ((target.performAll pages .converge steps).exchanges Memory.service schedule middle) := by
  by_cases tags : step = .tags
  · have aside : (target.performAll pages .converge steps).Uses fun request =>
        ¬ request.ChangesTags :=
      performAll_requests fun other member =>
        perform_spares fun same => once (tags.trans same.symm ▸ member)
    refine iff_of_false ?_ (not_tearsTags fun exchange member => aside.exchanges member)
    rintro ⟨-, exchange, member, fails⟩
    rcases List.mem_append.mp member with early | late
    · obtain ⟨_, _, failure, rfl⟩ := fails
      exact (target.perform_strict pages .converge step).unfailed performed early failure rfl
    · exact aside.exchanges late fails.changesTags
  · exact tearsTags_append fun exchange member => (perform_spares tags).exchanges member

end UpdateTarget

/-- The spec says of a key what a reading finds of it, but for tags that are torn. -/
structure KeySpec.Tells (spec desired : KeySpec) (rotationStatus : Option Bool) (stored : StoredKey)
    (torn : Prop) : Prop where
  tags : spec.tags = stored.tags ↔ ¬ torn
  rotation : spec.enableKeyRotation =
    (RotationState.ofStatus rotationStatus).observed desired.enableKeyRotation
  policy : spec.policy = Policy.observed desired.policy stored.policy

namespace Key

variable {scope : AccountScope} {desired : Key} {spec : KeySpec} {rotationStatus : Option Bool}
variable {steps : List UpdateStep}

private theorem asFound_tells (desired : Key) (scope : AccountScope) (rotationStatus : Option Bool)
    (living : stored.metadata.isPendingDeletion = false) :
    (desired.asFound scope rotationStatus stored).spec.Tells desired.spec rotationStatus stored False := by
  constructor <;> simp [asFound, living]

private theorem tells_applied (keyId : String)
    (tells : spec.Tells desired.spec rotationStatus stored False) {step : UpdateStep}
    (unturned : step ≠ .rotation)
    (asked : step = .policy → (desired.updateTarget keyId).policy?.isSome) :
    (spec.applyStep desired.spec step).Tells desired.spec rotationStatus
      ((desired.updateTarget keyId).applied stored step) False := by
  obtain ⟨tags, rotation, policy⟩ := tells
  cases step with
  | policy =>
    obtain ⟨wanted, named⟩ := Option.isSome_iff_exists.mp (asked rfl)
    have same : desired.spec.policy = some wanted := (Option.filter_eq_some_iff.mp named).1
    refine ⟨tags, rotation, ?_⟩
    simp only [KeySpec.applyStep, UpdateTarget.applied, named, Option.some_or, same]
    exact (Policy.observed_eq_some_iff.mpr ⟨wanted, rfl, Policy.equivalent_refl wanted⟩).symm
  | tags => exact ⟨iff_of_true rfl id, rotation, policy⟩
  | rotation => exact absurd rfl unturned

/-- Steps of which one fails leave a key that the steps before it tell of. -/
theorem performAll_fails {outcome : DispatchOutcome}
    (order : steps.Pairwise fun step later => step ≠ later ∧ step ≠ .rotation)
    (asked : .policy ∈ steps → (desired.updateTarget keyId).policy?.isSome)
    (unlimited : run.deadline = none) (held : run.state.key? keyId = some stored)
    (tells : spec.Tells desired.spec rotationStatus stored False)
    (ends : ((desired.updateTarget keyId).performAll pages .converge steps).run Memory.service schedule
      run = (.finished outcome, last)) (failed : outcome.failure = some failure) :
    ∃ changed, last.state.key? keyId = some changed ∧ changed.metadata = stored.metadata ∧
      changed.rotationEnabled = stored.rotationEnabled ∧
      (spec.applySteps desired.spec outcome.applied).Tells desired.spec rotationStatus changed
        (TearsTags (((desired.updateTarget keyId).performAll pages .converge steps).exchanges
          Memory.service schedule run)) := by
  induction steps generalizing run stored spec outcome with
  | nil =>
    cases ends
    cases failed
  | cons step rest ih =>
    obtain ⟨first, order⟩ := List.pairwise_cons.mp order
    unfold UpdateTarget.performAll at ends ⊢
    obtain ⟨result, middle, performed, ends⟩ := Program.run_bind_inv ends
    rw [Program.exchanges_bind_finished _ performed]
    cases result with
    | error other =>
      cases ends
      obtain ⟨tags, kept, same⟩ := UpdateTarget.perform_fails unlimited held performed
      change ∃ changed, _ ∧ _ ∧ _ ∧ KeySpec.Tells _ _ _ _ (TearsTags (_ ++ []))
      rw [List.append_nil]
      rw [← tells.tags.mpr id] at same
      exact ⟨{ stored with tags }, kept, rfl, rfl, same, tells.rotation, tells.policy⟩
    | ok value =>
      obtain ⟨others, reached, ends, joined⟩ := Program.run_bind_inv ends
      cases joined
      -- The rotation is the last step, and nothing fails after the last step.
      have unturned : step ≠ .rotation := by
        cases rest with
        | nil =>
          cases ends
          cases failed
        | cons later _ => exact (first later List.mem_cons_self).2
      have stores := UpdateTarget.perform_stores (fun same => absurd same unturned) held
        (((desired.updateTarget keyId).perform_strict pages .converge step).heeds.yields performed)
      have told := tells_applied keyId tells unturned fun same => asked (same ▸ List.mem_cons_self)
      obtain ⟨changed, kept, metadata, rotation, telling⟩ := ih order
        (fun member => asked (List.mem_cons_of_mem _ member))
        (Program.run_unlimited performed unlimited) stores told ends failed
      refine ⟨changed, kept, metadata.trans ?_, rotation.trans ?_, ?_⟩
      · cases step <;> rfl
      · cases step
        · rfl
        · rfl
        · exact absurd rfl unturned
      · dsimp only
        rw [Program.exchanges_bind_finished _ ends]
        change KeySpec.Tells _ _ _ _ (TearsTags (_ ++ (_ ++ [])))
        rw [List.append_nil]
        have behind := UpdateTarget.tearsTags_behind performed fun member => (first step member).1 rfl
        exact ⟨telling.tags.trans (not_congr behind.symm), telling.rotation, telling.policy⟩

/-- A change that fails with a resource has taken steps, and the resource has what those before the one
that failed have set. -/
theorem sync_fails {latest converged : Key}
    (ends : ((manager scope pages).sync desired latest).run.run Memory.service schedule run =
      (.finished (.error ⟨some converged, failure⟩), last)) :
    ∃ keyId outcome,
      let target := desired.updateTarget keyId
      let delta := Manager.delta desired latest
      let program := target.performAll pages .converge (target.requiredSteps delta)
      latest.keyId? = some keyId ∧
        program.run Memory.service schedule run = (.finished outcome, last) ∧
        outcome.failure = some failure ∧
        converged = { latest with spec := latest.spec.applySteps desired.spec outcome.applied } ∧
        ((manager scope pages).sync desired latest).run.exchanges Memory.service schedule run =
          program.exchanges Memory.service schedule run := by
  cases known : latest.keyId? with
  | none =>
    unfold Manager.sync at ends
    dsimp only at ends
    split at ends
    · cases ends
    · simp only [manager, update, known] at ends
      cases ends
  | some keyId =>
    rw [run_sync known] at ends ⊢
    cases decided : (Manager.delta desired latest).failure? .key with
    | some refusal =>
      rw [decided] at ends
      cases ends
    | none =>
      rw [decided] at ends
      dsimp only at ends ⊢
      obtain ⟨outcome, middle, performed, rest⟩ := Program.run_bind_inv ends
      unfold changed at rest
      cases failed : outcome.failure with
      | none =>
        rw [failed] at rest
        cases rest
      | some other =>
        rw [failed] at rest
        cases rest
        refine ⟨keyId, outcome, rfl, performed, failed, rfl, ?_⟩
        rw [Program.exchanges_bind_finished _ performed]
        exact List.append_nil _

/-- The resource that a failed change leaves tells of the key, which all names still stand for. -/
theorem sync_tells {converged : Key} {rotationStatus : Option Bool} (unlimited : run.deadline = none)
    (held : run.state.key? stored.metadata.keyId = some stored)
    (ends : ((manager scope pages).sync desired (desired.asFound scope rotationStatus stored)).run.run
      Memory.service schedule run = (.finished (.error ⟨some converged, failure⟩), last)) :
    stored.metadata.isPendingDeletion = false ∧
    ∃ changed, last.state.key? stored.metadata.keyId = some changed ∧
      changed.metadata = stored.metadata ∧ changed.rotationEnabled = stored.rotationEnabled ∧
      (∀ name, last.state.store.resolve? name = run.state.store.resolve? name) ∧
      converged.spec.Tells desired.spec rotationStatus changed
        (TearsTags (((manager scope pages).sync desired (desired.asFound scope rotationStatus
          stored)).run.exchanges Memory.service schedule run)) := by
  obtain ⟨keyId, outcome, named, performed, failed, rfl, exchanges⟩ := sync_fails ends
  simp only [keyId?, asFound_status] at named
  obtain rfl : stored.metadata.keyId = keyId := Option.some.inj named
  let target := desired.updateTarget stored.metadata.keyId
  let latest := desired.asFound scope rotationStatus stored
  let steps := target.requiredSteps (.between desired.spec.toJson latest.spec.toJson)
  -- Of a key that waits for its deletion no step is asked for that could fail.
  have living : stored.metadata.isPendingDeletion = false := by
    by_contra pending
    have shown : latest.spec = desired.spec.observed stored.metadata := by
      simp only [latest, asFound, Bool.eq_true_of_not_eq_false pending, if_true]
    have none : steps = [] := by
      apply UpdateTarget.requiredSteps_eq_nil
      · rw [shown]
        rfl
      · rw [shown]
        rfl
      · rw [shown]
        exact .inl rfl
    change (target.performAll pages .converge steps).run _ _ _ = _ at performed
    rw [none] at performed
    cases performed
    cases failed
  refine ⟨living, ?_⟩
  have tells : latest.spec.Tells desired.spec rotationStatus stored False :=
    asFound_tells desired scope rotationStatus living
  have order : steps.Pairwise fun step later => step ≠ later ∧ step ≠ .rotation :=
    List.Pairwise.filter _ (by decide)
  have asked (member : .policy ∈ steps) : target.policy?.isSome := by
    have required := (List.mem_filter.mp member).2
    exact (Bool.and_eq_true_iff.mp required).2
  obtain ⟨changed, kept, metadata, rotation, telling⟩ :=
    performAll_fails order asked unlimited held tells performed failed
  have uses : (target.performAll pages .converge steps).Uses
      (Request.TouchesKey stored.metadata.keyId) :=
    (target.performAll_uses pages .converge steps).mono fun _ => .inl
  have changes := Memory.run_changesKey uses schedule ⟨stored, held⟩
  change (target.performAll pages .converge steps).run _ _ _ = _ at performed
  rw [performed] at changes
  refine ⟨changed, kept, metadata, rotation, changes.resolve? held kept metadata, ?_⟩
  rw [exchanges]
  exact telling

private theorem tearsTags_reconcile {latest : Key} {middle : Run Memory}
    (read : (readOne scope pages desired).run.run Memory.service schedule run =
      (.finished (.ok latest), middle)) :
    TearsTags (((manager scope pages).reconcile desired).run.exchanges Memory.service schedule run) ↔
      TearsTags (((manager scope pages).sync desired latest).run.exchanges Memory.service schedule
        middle) := by
  have aside : (readOne scope pages desired).run.Uses fun request => ¬ request.ChangesTags :=
    (readOne_asks scope pages desired).mono fun _ => Request.not_changesTags
  change ((manager scope pages).readOne desired).run.run _ _ _ = _ at read
  rw [Manager.run_reconcile, Program.exchanges_bind_finished _ read]
  exact tearsTags_append fun exchange member => aside.exchanges member

/-- A failed update leaves a resource with the policy and the rotation that the next reading finds, and
with the tags that it finds unless the update has torn them. -/
theorem failed_update_tells {latest converged : Key} {middle : Run Memory}
    (reachable : run.state.Reachable) (unlimited : run.deadline = none)
    (read : (readOne scope pages desired).run.run Memory.service schedule run =
      (.finished (.ok latest), middle))
    (ends : ((manager scope pages).reconcile desired).run.run Memory.service schedule run =
      (.finished (.error ⟨some converged, failure⟩), last))
    {enough : Nat} (room : last.state.pageBound ≤ enough)
    (counted : last.state.pageBound ≤ Text.greatestWord) :
    ∃ seen after, (readOne scope enough desired).run.run Memory.service .calm
        { state := last.state.withoutRefusals } = (.finished (.ok seen), after) ∧
      converged.spec.policy = seen.spec.policy ∧
      converged.spec.enableKeyRotation = seen.spec.enableKeyRotation ∧
      (converged.spec.tags = seen.spec.tags ↔ ¬ TearsTags
        (((manager scope pages).reconcile desired).run.exchanges Memory.service schedule run)) := by
  rcases Manager.reconcile_cases ends with
    ⟨_, _, again, rest⟩ | ⟨_, _, again, -⟩ | ⟨_, again, -⟩
  all_goals cases read.symm.trans again
  obtain ⟨name, keyId, stored, known, found, rfl, onward⟩ :=
    readOne_found ((readOne_heeds scope pages desired).yields read)
  obtain rfl : stored.metadata.keyId = keyId := reachable.isKeyed _ _ (Memory.key?_of_lookup found)
  have held := (onward.key? _).trans (Memory.key?_of_lookup found)
  obtain ⟨living, changed, kept, metadata, rotation, resolved, tells⟩ :=
    sync_tells (Program.run_unlimited read unlimited) held rest
  have named : last.state.withoutRefusals.lookup name = .ok (stored.metadata.keyId, changed) := by
    refine Memory.lookup_eq_ok.mpr ⟨?_, kept⟩
    have stood := (Memory.lookup_eq_ok.mp ((onward.lookup name).trans found)).1
    exact (resolved name).trans stood
  have available : last.state.rotationStatusUnavailable = run.state.rotationStatusUnavailable := by
    have continues := Memory.run_continues ((manager scope pages).reconcile desired).run schedule run
    rw [ends] at continues
    exact continues.rotationStatusUnavailable
  have status : last.state.withoutRefusals.rotationStatus changed = run.state.rotationStatus stored := by
    simp only [Memory.rotationStatus, Memory.withoutRefusals, available, rotation]
  have size := Memory.tags_lt_pageBound kept
  have reads : Memory.Reads True (readOne scope enough desired) _ last.state.withoutRefusals :=
    readOne_reads scope known named (fun _ => rfl) fun _ _ =>
      ⟨Nat.le_trans (Nat.le_of_lt size) counted, Nat.lt_of_lt_of_le size room⟩
  rw [status] at reads
  have free : ({ state := last.state.withoutRefusals } : Run Memory).IsFree := ⟨rfl, rfl⟩
  obtain ⟨after, seen, -⟩ := reads.run trivial free
  refine ⟨_, after, seen, ?_⟩
  have told := asFound_tells desired scope (run.state.rotationStatus stored) (metadata ▸ living)
  rw [told.policy, told.rotation, told.tags.mpr id, tearsTags_reconcile read]
  exact ⟨tells.policy, tells.rotation, tells.tags⟩

/-- A key whose policy is put in place before putting its tags on is throttled. -/
theorem failed_update_tells_throttled :
    let scope : AccountScope := ⟨"us-west-2", "000000000000"⟩
    let memory := (Memory.act { config := .numbered } (.seedKey "k1" {})).act
      (.failNext "TagResource" (.api "ThrottlingException" "Rate exceeded"))
    let key : Key :=
      ⟨{ name := "key" },
        { policy := some "{}", tags := .ofTags [⟨"a", "1"⟩], enableKeyRotation := some true },
        some { keyId := some "k1" }⟩
    let pass := ((manager scope 3).reconcile key).run
    ∃ converged failure last,
      pass.run Memory.service .calm { state := memory } =
        (.finished (.error ⟨some converged, failure⟩), last) ∧
      ∃ seen after, (readOne scope 3 key).run.run Memory.service .calm
          { state := last.state.withoutRefusals } = (.finished (.ok seen), after) ∧
        converged.spec.policy = seen.spec.policy ∧
        converged.spec.enableKeyRotation = seen.spec.enableKeyRotation ∧
        (converged.spec.tags = seen.spec.tags ↔
          ¬ TearsTags (pass.exchanges Memory.service .calm { state := memory })) := by
  intro scope memory key pass
  let run : Run Memory := { state := memory }
  have reachable : run.state.Reachable :=
    ((Memory.Reachable.start _).act (.seedKey _ _)).act (.failNext _ _)
  have read : (readOne scope 3 key).run.run Memory.service .calm run = (.finished (.ok _), _) := rfl
  let outcome := pass.run Memory.service .calm run
  have left : outcome.1.converged?.isSome := by decide +kernel
  have room : outcome.2.state.pageBound ≤ 3 := by decide +kernel
  have ends : pass.run Memory.service .calm run = outcome := rfl
  generalize outcome = reached at left room ends
  obtain ⟨ending, last⟩ := reached
  obtain ⟨converged, left⟩ := Option.isSome_iff_exists.mp left
  obtain ⟨failure, rfl⟩ := Ending.converged?_eq_some.mp left
  exact ⟨converged, failure, last, ends,
    failed_update_tells reachable rfl read ends room (Nat.le_trans room (by decide))⟩

/-- The tags that came off a key are still said to be on it, where putting the wanted ones on is
throttled. -/
theorem torn_tags_reported :
    let scope : AccountScope := ⟨"us-west-2", "000000000000"⟩
    let memory := (Memory.act { config := .numbered } (.seedKey "k1" (.ofTags [⟨"b", "2"⟩]))).act
      (.failNext "TagResource" (.api "ThrottlingException" "Rate exceeded"))
    let key : Key :=
      ⟨{ name := "key" }, { tags := .ofTags [⟨"a", "1"⟩] }, some { keyId := some "k1" }⟩
    memory.Reachable ∧ ∃ converged failure last seen after,
      ((manager scope 3).reconcile key).run.run Memory.service .calm { state := memory } =
        (.finished (.error ⟨some converged, failure⟩), last) ∧
      (readOne scope 3 key).run.run Memory.service .calm { state := last.state.withoutRefusals } =
        (.finished (.ok seen), after) ∧
      converged.spec.tags = .ofTags [⟨"b", "2"⟩] ∧ seen.spec.tags = {} := by
  intro scope memory key
  refine ⟨((Memory.Reachable.start _).act (.seedKey _ _)).act (.failNext _ _), ?_⟩
  let outcome := ((manager scope 3).reconcile key).run.run Memory.service .calm { state := memory }
  have reported : outcome.1.converged?.map (fun key => key.spec.tags) = some (.ofTags [⟨"b", "2"⟩]) := by
    decide +kernel
  have bare : (outcome.2.state.key? "k1").map (fun stored =>
      (stored.tags, stored.metadata.isPendingDeletion)) = some ({}, false) := by
    decide +kernel
  have ends : ((manager scope 3).reconcile key).run.run Memory.service .calm { state := memory } =
      outcome := rfl
  generalize outcome = reached at reported bare ends
  obtain ⟨ending, last⟩ := reached
  obtain ⟨converged, left, tags⟩ := Option.map_eq_some_iff.mp reported
  obtain ⟨failure, rfl⟩ := Ending.converged?_eq_some.mp left
  obtain ⟨stored, held, same⟩ := Option.map_eq_some_iff.mp bare
  obtain ⟨gone, living⟩ := Prod.mk.inj same
  have reads : Memory.Reads True (readOne scope 3 key) _ last.state.withoutRefusals :=
    readOne_reads scope rfl (Memory.lookup_of_key? held) (fun _ => rfl) fun _ _ => by
      rw [gone]
      decide
  have free : ({ state := last.state.withoutRefusals } : Run Memory).IsFree := ⟨rfl, rfl⟩
  obtain ⟨after, seen, -⟩ := reads.run trivial free
  refine ⟨converged, failure, last, _, after, ends, seen, tags, ?_⟩
  rw [(asFound_tells key scope _ living).tags.mpr id, gone]

end Key

end KeySteward
