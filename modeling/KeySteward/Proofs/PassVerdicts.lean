import KeySteward.Controller.Watch
import KeySteward.Proofs.ConditionHistory
import KeySteward.Proofs.PassRuns
import KeySteward.Proofs.MemoryHistory

/-! What a pass writes and when the next one is due. The conditions tell a reader how the reconcile went
and the action decides when the controller looks again; the two are computed apart, and here they are
shown to come from one judgement of the reconcile. -/

namespace KeySteward

theorem KeyState.ofName?_name (state : KeyState) : KeyState.ofName? state.name = some state := by
  cases state <;> rfl

private theorem KeyState.name_inj {state other : KeyState} :
    state.name = other.name ↔ state = other := by
  refine ⟨fun same => ?_, congrArg _⟩
  have found := state.ofName?_name
  rw [same, other.ofName?_name] at found
  exact (Option.some.inj found).symm

namespace Conditions

def Holds (conditions : Conditions) (type : ConditionType) (message : Option String) : Prop :=
  ∃ state, conditions.get? type = some state ∧ state.Shows true message

def Fails (conditions : Conditions) (type : ConditionType) (message : Option String) : Prop :=
  ∃ state, conditions.get? type = some state ∧ state.Shows false message

/-- There is no condition of the type, or it says that something is not the case. -/
def Clear (conditions : Conditions) (type : ConditionType) : Prop :=
  ∀ state, conditions.get? type = some state → state.status = .ofBool false

variable {conditions : Conditions} {type : ConditionType} {message other : Option String}

private theorem Holds.not_clear (holds : conditions.Holds type message) : ¬ conditions.Clear type := by
  obtain ⟨state, present, shows⟩ := holds
  intro clear
  cases shows.status.symm.trans (clear state present)

private theorem Holds.not_fails (holds : conditions.Holds type message) :
    ¬ conditions.Fails type other := by
  obtain ⟨state, present, shows⟩ := holds
  rintro ⟨_, again, shown⟩
  cases present.symm.trans again
  cases shows.status.symm.trans shown.status

private theorem Holds.message_eq (holds : conditions.Holds type message)
    (again : conditions.Holds type other) : message = other := by
  obtain ⟨state, present, shows⟩ := holds
  obtain ⟨_, found, shown⟩ := again
  cases present.symm.trans found
  exact shows.message.symm.trans shown.message

private theorem Fails.message_eq (fails : conditions.Fails type message)
    (again : conditions.Fails type other) : message = other := by
  obtain ⟨state, present, shows⟩ := fails
  obtain ⟨_, found, shown⟩ := again
  cases present.symm.trans found
  exact shows.message.symm.trans shown.message

end Conditions

/-- What a reconcile comes to. -/
inductive Judgement where
  /-- It failed in a way that only a change of the spec can mend. -/
  | stopped (message : String)
  /-- It failed in a way that another pass may mend. -/
  | failed (message : String)
  /-- It succeeded on a key that the service is still changing. -/
  | unsettled (state : KeyState)
  | converged
  deriving DecidableEq, Repr

namespace Judgement

def of (terminalCodes : List String) (failure : Option Failure) (unsettled? : Option KeyState) :
    Judgement :=
  match failure, unsettled? with
  | some failure, _ =>
    if failure.isTerminal terminalCodes then stopped failure.message else failed failure.message
  | none, some state => unsettled state
  | none, none => converged

/-- The conditions and the action that go with a judgement. -/
def IsShown (settings : Settings) (conditions : Conditions) (action : Action) : Judgement → Prop
  | stopped message =>
    conditions.Holds .terminal message ∧ conditions.Fails .synced message ∧ action = .awaitChange
  | failed message =>
    conditions.Clear .terminal ∧ conditions.Holds .recoverable message ∧
      conditions.Fails .synced message ∧ action = .requeue settings.retryPeriod
  | unsettled state =>
    conditions.Clear .terminal ∧ conditions.Clear .recoverable ∧
      conditions.Fails .synced ("resource is " ++ state.name) ∧
      action = .requeue settings.unsettledPeriod
  | converged =>
    conditions.Clear .terminal ∧ conditions.Clear .recoverable ∧ conditions.Holds .synced none ∧
      action = .requeue settings.resyncPeriod

variable {settings : Settings} {conditions : Conditions} {action : Action}

/-- No conditions and action go with two judgements, even where the periods of the settings are alike. -/
theorem IsShown.unique {judgement other : Judgement}
    (shown : judgement.IsShown settings conditions action)
    (again : other.IsShown settings conditions action) : judgement = other := by
  cases judgement with
  | stopped message =>
    obtain ⟨hard, fails, -⟩ := shown
    cases other with
    | stopped => exact congrArg stopped (Option.some.inj (hard.message_eq again.1))
    | failed => exact absurd again.1 hard.not_clear
    | unsettled => exact absurd again.1 hard.not_clear
    | converged => exact absurd again.1 hard.not_clear
  | failed message =>
    obtain ⟨clear, soft, fails, -⟩ := shown
    cases other with
    | stopped => exact absurd clear again.1.not_clear
    | failed => exact congrArg failed (Option.some.inj (soft.message_eq again.2.1))
    | unsettled => exact absurd again.2.1 soft.not_clear
    | converged => exact absurd again.2.1 soft.not_clear
  | unsettled state =>
    obtain ⟨clear, calm, fails, -⟩ := shown
    cases other with
    | stopped => exact absurd clear again.1.not_clear
    | failed => exact absurd calm again.2.1.not_clear
    | unsettled state' =>
      have same := Option.some.inj (fails.message_eq again.2.2.1)
      exact congrArg unsettled (KeyState.name_inj.mp ((String.append_right_inj _).mp same))
    | converged => exact absurd fails again.2.2.1.not_fails
  | converged =>
    obtain ⟨clear, calm, holds, -⟩ := shown
    cases other with
    | stopped => exact absurd clear again.1.not_clear
    | failed => exact absurd calm again.2.1.not_clear
    | unsettled => exact absurd again.2.2.1 holds.not_fails
    | converged => rfl

end Judgement

section Recording

variable {σ τ : Type} [CustomResource σ τ] [LawfulStatus σ]

private theorem Conditions.Effect.clear_apply (now : Timestamp) (before : Option ConditionState)
    {state : ConditionState} (present : Effect.clear.apply now before = some state) :
    state.status = .ofBool false := by
  obtain ⟨earlier, -, rfl⟩ := Option.map_eq_some_iff.mp present
  exact (earlier.shows_set now false none).status

/-- The conditions that a reconcile leaves on a resource show how it went, with the action that follows. -/
theorem Resource.recordOutcome_isShown (settings : Settings) (resource : Resource σ τ) (now : Timestamp)
    (failure : Option Failure) :
    (Judgement.of resource.kind.terminalCodes failure resource.unsettledState?).IsShown settings
      (resource.recordOutcome now failure).conditions
      (.afterPass settings resource.kind.terminalCodes resource.isSettled failure) := by
  -- The record is a case of a history of one pass, the resource's own conditions being the first ones.
  let outcome : Outcome σ τ := ⟨resource, now, failure⟩
  have recorded (type : ConditionType) :
      (resource.recordOutcome now failure).conditions.get? type =
        (outcome.effect type).apply now (resource.conditions.get? type) := by
    have left := outcome.get?_record resource.conditions type
    simp only [Outcome.record, Resource.conditions_recordOutcome, Resource.conditions_withConditions,
      Resource.unsyncedReason?_withConditions, Resource.kind_withConditions, outcome] at left
    rw [Resource.conditions_recordOutcome]
    exact left
  have synced := recorded .synced
  have terminal := recorded .terminal
  have recoverable := recorded .recoverable
  simp only [Outcome.effect, Outcome.terminal?, outcome] at synced terminal recoverable
  cases failure with
  | some failure =>
    cases hard : failure.isTerminal resource.kind.terminalCodes with
    | true =>
      simp only [Option.filter, hard, if_true] at terminal
      simp only [Judgement.of, Action.afterPass, hard, if_true]
      exact ⟨⟨_, terminal, ConditionState.shows_set _ _ _ _⟩,
        ⟨_, synced, ConditionState.shows_set _ _ _ _⟩, rfl⟩
    | false =>
      simp only [Option.filter, hard, Bool.false_eq_true, if_false, Option.isSome_none]
        at terminal recoverable
      simp only [Judgement.of, Action.afterPass, hard, Bool.false_eq_true, if_false]
      exact ⟨fun state present => Conditions.Effect.clear_apply _ _ (terminal.symm.trans present),
        ⟨_, recoverable, ConditionState.shows_set _ _ _ _⟩,
        ⟨_, synced, ConditionState.shows_set _ _ _ _⟩, rfl⟩
  | none =>
    have clears : (resource.recordOutcome now none).conditions.Clear .terminal ∧
        (resource.recordOutcome now none).conditions.Clear .recoverable :=
      ⟨fun state present => Conditions.Effect.clear_apply _ _ (terminal.symm.trans present),
        fun state present => Conditions.Effect.clear_apply _ _ (recoverable.symm.trans present)⟩
    cases unsettled : resource.unsettledState? with
    | some state =>
      simp only [Resource.unsyncedReason?, unsettled] at synced
      simp only [Judgement.of, Action.afterPass, Resource.isSettled, unsettled]
      exact ⟨clears.1, clears.2, ⟨_, synced, ConditionState.shows_set _ _ _ _⟩, rfl⟩
    | none =>
      simp only [Resource.unsyncedReason?, unsettled] at synced
      simp only [Judgement.of, Action.afterPass, Resource.isSettled, unsettled]
      exact ⟨clears.1, clears.2, ⟨_, synced, ConditionState.shows_set _ _ _ _⟩, rfl⟩

omit [LawfulStatus σ] in
private theorem Resource.status_recordOutcome (resource : Resource σ τ) (now : Timestamp)
    (failure : Option Failure) :
    (resource.recordOutcome now failure).status =
      some (resource.recordOutcome now failure).statusOrFresh := rfl

namespace Controller

variable {δ : Type} {service : Service δ} {schedule : Schedule} {start last : Run δ}

omit [LawfulStatus σ] in
theorem apply_finished {settings : Settings} {now : Timestamp} {manager : Manager σ τ}
    {resource : Resource σ τ} {place : Place} {verdict : Verdict}
    (ends : (apply settings now manager resource place).run service schedule start =
      (.finished verdict, last)) :
    ∃ result, (manager.reconcile resource).run.run service schedule start =
        (.finished result, last) ∧
      Controller.verdict settings now resource place result = verdict := by
  obtain ⟨result, after, reconciled, rest⟩ := Program.run_bind_inv ends
  cases rest
  exact ⟨result, reconciled, rfl⟩

omit [LawfulStatus σ] in
theorem status_recorded (now : Timestamp) (resource : Resource σ τ)
    (result : Except (FailedUpdate (Resource σ τ)) (Resource σ τ)) :
    (recorded now resource result).status = some (recorded now resource result).statusOrFresh := by
  cases result <;> exact Resource.status_recordOutcome _ _ _

omit [LawfulStatus σ] in
theorem patch_statusWrite (now : Timestamp) (resource : Resource σ τ) (place : Place)
    (result : Except (FailedUpdate (Resource σ τ)) (Resource σ τ)) :
    (statusWrite (recorded now resource result) place).patch = .merge (.ofMembers [("status",
      CustomResource.statusToJson σ (recorded now resource result).statusOrFresh)]) := by
  rw [statusWrite, write, Resource.statusToJson?, status_recorded]
  rfl

/-- The resource that a reconcile is recorded on shows how the reconcile went, with the action that
follows: it may be what was converged before the failure or the resource of the start, and the codes are
those of its kind in either case. -/
theorem recorded_isShown (settings : Settings) (now : Timestamp) (resource : Resource σ τ)
    (place : Place) (result : Except (FailedUpdate (Resource σ τ)) (Resource σ τ)) :
    (Judgement.of resource.kind.terminalCodes (failure? result)
        (recorded now resource result).unsettledState?).IsShown settings
      (recorded now resource result).conditions
      (Controller.verdict settings now resource place result).action := by
  cases result with
  | ok converged =>
    have shown := converged.recordOutcome_isShown settings now none
    simp only [Controller.verdict, recorded, failure?, Resource.isSettled,
      Resource.unsettledState?_recordOutcome] at shown ⊢
    exact shown
  | error failed =>
    have shown :=
      (failed.converged.getD resource).recordOutcome_isShown settings now (some failed.failure)
    simp only [Controller.verdict, recorded, failure?, Resource.isSettled,
      Resource.unsettledState?_recordOutcome] at shown ⊢
    exact shown

private theorem Watch.sent_of_accepted {write : ObjectWrite} {watch : Watch δ}
    (accepted : (watch.send write).1 = true) :
    ∃ path, write.path? = some path ∧ (watch.send write).2.sent =
      watch.sent ++ [⟨watch.run.clock, watch.run.state, path, write.patch⟩] := by
  unfold send at accepted ⊢
  cases named : write.path? with
  | none => simp [named] at accepted
  | some path =>
    refine ⟨path, rfl, ?_⟩
    dsimp only
    split <;> rfl

private theorem Watch.conclude_accepted (settings : Settings) {verdict : Verdict} {write : ObjectWrite}
    {watch : Watch δ} (writes : verdict.write = some write) (accepted : (watch.send write).1 = true) :
    watch.conclude settings verdict = (verdict.action, (watch.send write).2) := by
  unfold Watch.conclude
  rw [writes]
  dsimp only
  generalize watch.send write = sent at accepted ⊢
  obtain ⟨_, after⟩ := sent
  cases accepted
  rfl

end Controller

end Recording

/-- However the reconcile of a pass goes, the pass writes a status. Where the write is accepted, it has
been sent, and there is exactly one judgement that goes with the conditions of that status and with the
action that follows: the one that the result of the reconcile calls for. A success calls for another look
while the key state in that status is one that the service leaves on its own. -/
theorem Kind.apply_isShown (kind : Kind) (scope : AccountScope) (pages : Nat) :
    let _ := kind.managed.resource
    let manager := kind.managed.manager scope pages
    ∀ {δ : Type} {service : Service δ} {schedule : Schedule} {start last : Run δ} (settings : Settings)
      (now : Timestamp) (resource : Resource kind.managed.Spec kind.managed.Status)
      (place : Controller.Place) (verdict : Verdict),
    (Controller.apply settings now manager resource place).run service schedule start =
      (.finished verdict, last) →
    ∃ result write status,
      (manager.reconcile resource).run.run service schedule start = (.finished result, last) ∧
      (Controller.recorded now resource result).status = some status ∧
      verdict.write = some write ∧ write.part = .status ∧
      write.patch = .merge (.ofMembers [("status",
        CustomResource.statusToJson kind.managed.Spec status)]) ∧
      (∀ state, (Controller.recorded now resource result).unsettledState? = some state ↔
        CustomResource.keyState? kind.managed.Spec status = some state ∧
          (state = .creating ∨ state = .updating)) ∧
      ∀ watch : Controller.Watch δ, (watch.send write).1 = true →
        (∃ path, write.path? = some path ∧ (watch.conclude settings verdict).2.sent =
          watch.sent ++ [⟨watch.run.clock, watch.run.state, path, write.patch⟩]) ∧
        ∀ judgement : Judgement,
          judgement.IsShown settings (CustomResource.conditions kind.managed.Spec status)
              (watch.conclude settings verdict).1 ↔
            judgement = .of kind.terminalCodes (Controller.failure? result)
              (Controller.recorded now resource result).unsettledState? := by
  intro _ manager δ service schedule start last settings now resource place verdict ends
  have := kind.lawfulStatus
  obtain ⟨result, reconciled, rfl⟩ := Controller.apply_finished ends
  have shown := Controller.recorded_isShown settings now resource place result
  rw [show resource.kind = kind from kind.managed_kind] at shown
  have status := Controller.status_recorded now resource result
  have patch := Controller.patch_statusWrite now resource place result
  refine ⟨result, _, _, reconciled, status, rfl, rfl, patch, fun state => ?_, fun watch accepted => ?_⟩
  · simp only [Resource.unsettledState?_eq_some_iff, status, Option.some.injEq, exists_eq_left']
  · rw [Controller.Watch.conclude_accepted settings rfl accepted]
    dsimp only
    refine ⟨Controller.Watch.sent_of_accepted accepted, fun judgement => ?_⟩
    constructor
    · intro again
      exact again.unique shown
    · intro same
      exact same ▸ shown

/-- Four keys: one that the service refuses to create, since it can make nothing of the policy, one whose
creation it throttles, one that it is still creating, and one that is there. -/
theorem Kind.apply_isShown_each :
    let scope : AccountScope := ⟨"us-west-2", "000000000000"⟩
    let unmade : Key := ⟨{ name := "key", namespaceName := "default" }, { policy := some "\x7b" }, none⟩
    let made : Key :=
      ⟨{ name := "key", namespaceName := "default" }, {}, some { keyId := some "k1" }⟩
    let fresh : Memory := { config := .numbered }
    let apply (key : Key) (memory : Memory) :=
      (Controller.apply {} ⟨0, 0⟩ (Key.manager scope 3) key ⟨"default", "key"⟩).run Memory.service .calm
        { state := memory }
    let Tells (key : Key) (memory : Memory) (judgement : Judgement) : Prop :=
      let watch : Controller.Watch Memory := { run := (apply key memory).2 }
      ∃ verdict write status, (apply key memory).1 = .finished verdict ∧ verdict.write = some write ∧
        write.patch = .merge (.ofMembers [("status", CustomResource.statusToJson KeySpec status)]) ∧
        (watch.conclude {} verdict).2.sent = [⟨watch.run.clock, watch.run.state,
          "/apis/kms.keyops.dev/v1alpha1/namespaces/default/keys/key/status", write.patch⟩] ∧
        ∀ other : Judgement,
          other.IsShown {} (CustomResource.conditions KeySpec status) (watch.conclude {} verdict).1 ↔
            other = judgement
    Tells unmade (fresh.failNext "CreateKey" (.api "MalformedPolicyDocumentException" "no policy"))
        (.stopped "MalformedPolicyDocumentException: no policy") ∧
      Tells unmade (fresh.failNext "CreateKey" (.api "ThrottlingException" "later"))
        (.failed "ThrottlingException: later") ∧
      Tells made (fresh.insertKey { keyId := "k1", keyState := some .creating })
        (.unsettled .creating) ∧
      Tells made (fresh.seedKey "k1" {}) .converged := by
  intro scope unmade made fresh apply Tells
  have path? (key : Key) : (Controller.statusWrite key ⟨"default", "key"⟩).path? =
      some "/apis/kms.keyops.dev/v1alpha1/namespaces/default/keys/key/status" := by
    change Text.Target.path? "/apis/kms.keyops.dev/v1alpha1/namespaces/default/keys/key/status?" = _
    decide
  have tells {key : Key} {memory : Memory} {judgement : Judgement}
      (judged : ∃ result last, ((Key.manager scope 3).reconcile key).run.run Memory.service .calm
          { state := memory } = (.finished result, last) ∧
        .of Kind.key.terminalCodes (Controller.failure? result)
          (Controller.recorded ⟨0, 0⟩ key result).unsettledState? = judgement) :
      Tells key memory judgement := by
    obtain ⟨result, last, reconciled, rfl⟩ := judged
    obtain ⟨verdict, judged, ends⟩ : ∃ verdict,
        Controller.verdict {} ⟨0, 0⟩ key ⟨"default", "key"⟩ result = verdict ∧
        apply key memory = (.finished verdict, last) :=
      ⟨_, rfl, Program.run_bind_finished _ reconciled⟩
    let watch : Controller.Watch Memory := { run := (apply key memory).2 }
    obtain ⟨_, write, status, again, -, writes, -, patch, -, shows⟩ :=
      Kind.apply_isShown .key scope 3 {} ⟨0, 0⟩ key ⟨"default", "key"⟩ verdict ends
    cases again.symm.trans reconciled
    have named : write.path? = _ :=
      Option.some.inj ((congrArg Verdict.write judged).trans writes) ▸ path? _
    have accepted : (watch.send write).1 = true := by
      simp only [Controller.Watch.send, named, watch]
    obtain ⟨⟨path, same, sent⟩, only⟩ := shows watch accepted
    cases named.symm.trans same
    exact ⟨verdict, write, status, congrArg Prod.fst ends, writes, patch, sent, only⟩
  exact ⟨tells ⟨_, _, rfl, rfl⟩, tells ⟨_, _, rfl, rfl⟩, tells ⟨_, _, rfl, rfl⟩, tells ⟨_, _, rfl, rfl⟩⟩

end KeySteward
