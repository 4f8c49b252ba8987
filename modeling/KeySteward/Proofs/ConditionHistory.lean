import KeySteward.Manager.Managed
import KeySteward.Manager.Outcome

/-! What becomes of the conditions of a resource over a series of passes. A pass leaves the condition of
a type as it is, takes it back or sets it, and which of these it does depends on how it went and on
nothing that came before. So the conditions at the end are those of the last pass, but for `recoverable`,
which is that of the last pass without a terminal failure. -/

namespace KeySteward

/-- A status keeps its conditions apart from all else that it says. -/
class LawfulStatus (σ : Type) {τ : outParam Type} [CustomResource σ τ] : Prop where
  conditions_withConditions (status : τ) (conditions : Conditions) :
    CustomResource.conditions σ (CustomResource.withConditions σ status conditions) = conditions
  keyState?_withConditions (status : τ) (conditions : Conditions) :
    CustomResource.keyState? σ (CustomResource.withConditions σ status conditions) =
      CustomResource.keyState? σ status
  keyState?_fresh : CustomResource.keyState? σ (CustomResource.freshStatus σ) = none

instance : LawfulStatus KeySpec where
  conditions_withConditions _ _ := rfl
  keyState?_withConditions _ _ := rfl
  keyState?_fresh := rfl

instance : LawfulStatus ReplicaKeySpec where
  conditions_withConditions _ _ := rfl
  keyState?_withConditions _ _ := rfl
  keyState?_fresh := rfl

instance : LawfulStatus AliasSpec where
  conditions_withConditions _ _ := rfl
  keyState?_withConditions _ _ := rfl
  keyState?_fresh := rfl

instance : LawfulStatus GrantSpec where
  conditions_withConditions _ _ := rfl
  keyState?_withConditions _ _ := rfl
  keyState?_fresh := rfl

theorem Kind.lawfulStatus (kind : Kind) :
    @LawfulStatus kind.managed.Spec kind.managed.Status kind.managed.resource := by
  cases kind
  · exact inferInstanceAs (LawfulStatus KeySpec)
  · exact inferInstanceAs (LawfulStatus ReplicaKeySpec)
  · exact inferInstanceAs (LawfulStatus AliasSpec)
  · exact inferInstanceAs (LawfulStatus GrantSpec)

variable {σ τ : Type} [CustomResource σ τ]

namespace Resource

variable (resource : Resource σ τ) (now : Timestamp) (failure : Option Failure)

@[simp] theorem kind_withConditions (conditions : Conditions) :
    (resource.withConditions conditions).kind = resource.kind := rfl

variable {resource} in
/-- A resource is unsettled while the key state that it records is one that the service leaves on its
own. -/
theorem unsettledState?_eq_some_iff {state : KeyState} :
    resource.unsettledState? = some state ↔
      (∃ status, resource.status = some status ∧ CustomResource.keyState? σ status = some state) ∧
        (state = .creating ∨ state = .updating) := by
  have moving : state.isTransitional = true ↔ state = .creating ∨ state = .updating := by
    cases state <;> simp [KeyState.isTransitional]
  simp only [unsettledState?, Option.filter_eq_some_iff, Option.bind_eq_some_iff, moving]

variable [LawfulStatus σ]

@[simp] theorem conditions_withConditions (conditions : Conditions) :
    (resource.withConditions conditions).conditions = conditions :=
  LawfulStatus.conditions_withConditions _ _

@[simp] theorem unsettledState?_withConditions (conditions : Conditions) :
    (resource.withConditions conditions).unsettledState? = resource.unsettledState? := by
  simp only [unsettledState?, withConditions, Option.bind_some, statusOrFresh,
    LawfulStatus.keyState?_withConditions]
  cases resource.status with
  | none => simp [LawfulStatus.keyState?_fresh]
  | some status => rfl

@[simp] theorem unsyncedReason?_withConditions (conditions : Conditions) :
    (resource.withConditions conditions).unsyncedReason? failure = resource.unsyncedReason? failure := by
  cases failure with
  | none => simp [unsyncedReason?]
  | some failure => rfl

@[simp] theorem unsettledState?_recordOutcome :
    (resource.recordOutcome now failure).unsettledState? = resource.unsettledState? := by
  simp [recordOutcome, recordConditions]

/-- What a pass records depends on the conditions before it, on how it went and on the state that the
resource is in. -/
theorem conditions_recordOutcome :
    (resource.recordOutcome now failure).conditions =
      (resource.conditions.record now resource.kind.terminalCodes failure).set now .synced
        (resource.unsyncedReason? failure).isNone (resource.unsyncedReason? failure) := by
  simp [recordOutcome, recordConditions]

end Resource

/-- The condition has a status other than unknown, and this message. -/
structure ConditionState.Shows (state : ConditionState) (status : Bool) (message : Option String) :
    Prop where
  status : state.status = .ofBool status
  message : state.message = message

theorem ConditionState.shows_set (state : ConditionState) (now : Timestamp) (status : Bool)
    (message : Option String) : (state.set now status message).Shows status message := by
  unfold set
  split
  next same => exact ⟨same, rfl⟩
  next => exact ⟨rfl, rfl⟩

namespace Conditions

private theorem get?_set (conditions : Conditions) (now : Timestamp) (type other : ConditionType)
    (status : Bool) (message : Option String) :
    (conditions.set now type status message).get? other =
      if type = other then some (((conditions.get? other).getD {}).set now status message)
      else conditions.get? other := by
  simp only [set, get?_put]
  split
  next same => rw [same]
  next => rfl

private theorem get?_clear (conditions : Conditions) (now : Timestamp) (type other : ConditionType) :
    (conditions.clear now type).get? other =
      if type = other then (conditions.get? other).map fun state => state.set now false none
      else conditions.get? other := by
  unfold clear
  split
  next state present =>
    rw [get?_put]
    split
    next same => rw [← same, present, Option.map_some]
    next => rfl
  next absent =>
    split
    next same => rw [← same, absent, Option.map_none]
    next => rfl

/-- What a pass does to the condition of one type. -/
inductive Effect where
  | leave
  /-- Takes the condition back, if there is one. -/
  | clear
  /-- Sets the condition, whether there was one or not. -/
  | set (status : Bool) (message : Option String)
  deriving DecidableEq

namespace Effect

def apply (effect : Effect) (now : Timestamp) (state : Option ConditionState) :
    Option ConditionState :=
  match effect with
  | leave => state
  | clear => state.map fun state => state.set now false none
  | set status message => some ((state.getD {}).set now status message)

def isSet : Effect → Bool
  | set .. => true
  | _ => false

variable (effect : Effect) (now : Timestamp) (before : Option ConditionState)

private theorem isSome_apply :
    (effect.apply now before).isSome ↔ before.isSome ∨ effect.isSet = true := by
  cases effect <;> simp [apply, isSet]

/-- The time moves where the status changes, and nowhere else. -/
theorem transition_apply :
    (effect.apply now before).bind ConditionState.lastTransitionTime =
      if (effect.apply now before).map ConditionState.status = before.map ConditionState.status then
        before.bind ConditionState.lastTransitionTime
      else some now := by
  have moves (state : ConditionState) (status : Bool) (message : Option String) :
      (state.set now status message).lastTransitionTime =
        if (state.set now status message).status = state.status then state.lastTransitionTime
        else some now := by
    unfold ConditionState.set
    split
    next => simp
    next differs => simp [Ne.symm differs]
  cases effect with
  | leave => simp [apply]
  | clear =>
    cases before with
    | none => rfl
    | some state => simp [apply, moves]
  | set status message =>
    cases before with
    | none =>
      -- A condition that is new is of unknown status before it is set.
      cases status <;> rfl
    | some state => simp [apply, moves]

end Effect

end Conditions

/-- How a pass went, and the resource that it left. -/
structure Outcome (σ τ : Type) where
  resource : Resource σ τ
  now : Timestamp
  failure : Option Failure

namespace Outcome

/-- The failure, if it is one that no further pass over the same spec can mend. -/
def terminal? (outcome : Outcome σ τ) : Option Failure :=
  outcome.failure.filter (Failure.isTerminal outcome.resource.kind.terminalCodes)

/-- The failure, if a further pass may mend it. -/
def recoverable? (outcome : Outcome σ τ) : Option Failure :=
  outcome.failure.filter fun failure => !failure.isTerminal outcome.resource.kind.terminalCodes

/-- The conditions that the pass leaves when it is recorded on its resource, which had these. -/
def record (conditions : Conditions) (outcome : Outcome σ τ) : Conditions :=
  ((outcome.resource.withConditions conditions).recordOutcome outcome.now outcome.failure).conditions

open Conditions (Effect)

/-- What the pass does to the condition of a type. -/
def effect (outcome : Outcome σ τ) : ConditionType → Effect
  | .terminal =>
    match outcome.terminal? with
    | some failure => .set true failure.message
    | none => .clear
  | .recoverable =>
    if outcome.terminal?.isSome then .leave
    else match outcome.failure with
      | some failure => .set true failure.message
      | none => .clear
  | .synced =>
    let reason? := outcome.resource.unsyncedReason? outcome.failure
    .set reason?.isNone reason?

variable [LawfulStatus σ]

omit [LawfulStatus σ] in
private theorem isSet_terminal (outcome : Outcome σ τ) :
    (outcome.effect .terminal).isSet = outcome.terminal?.isSome := by
  unfold effect
  cases outcome.terminal? <;> rfl

omit [LawfulStatus σ] in
private theorem isSet_recoverable (outcome : Outcome σ τ) :
    (outcome.effect .recoverable).isSet = outcome.recoverable?.isSome := by
  obtain ⟨resource, now, failure⟩ := outcome
  simp only [effect, terminal?, recoverable?]
  cases failure with
  | none => rfl
  | some failure =>
    cases hard : failure.isTerminal resource.kind.terminalCodes <;>
      simp [Option.filter, hard, Effect.isSet]

theorem get?_record (outcome : Outcome σ τ) (conditions : Conditions) (type : ConditionType) :
    (outcome.record conditions).get? type =
      (outcome.effect type).apply outcome.now (conditions.get? type) := by
  obtain ⟨resource, now, failure⟩ := outcome
  have recorded := (resource.withConditions conditions).conditions_recordOutcome now failure
  simp only [Resource.conditions_withConditions, Resource.unsyncedReason?_withConditions,
    Resource.kind_withConditions] at recorded
  simp only [record, recorded, Conditions.get?_set, Conditions.record, effect, terminal?]
  cases failure with
  | none =>
    cases type <;>
      simp [Conditions.get?_clear, Effect.apply]
  | some failure =>
    cases hard : failure.isTerminal resource.kind.terminalCodes <;> cases type <;>
      simp [Conditions.get?_clear, Conditions.get?_set, Effect.apply, Option.filter, hard]

end Outcome

/-- The conditions after a series of passes. -/
def Conditions.after (initial : Conditions) (outcomes : List (Outcome σ τ)) : Conditions :=
  outcomes.foldl (fun conditions outcome => outcome.record conditions) initial

namespace Conditions

variable (initial : Conditions)

private theorem after_concat (earlier : List (Outcome σ τ)) (last : Outcome σ τ) :
    initial.after (earlier ++ [last]) = last.record (initial.after earlier) := by
  rw [after, List.foldl_append]
  rfl

variable [LawfulStatus σ]

private theorem isSome_after (outcomes : List (Outcome σ τ)) (type : ConditionType) :
    ((initial.after outcomes).get? type).isSome ↔
      (initial.get? type).isSome ∨ ∃ outcome ∈ outcomes, (outcome.effect type).isSet = true := by
  induction outcomes generalizing initial with
  | nil => simp [after]
  | cons outcome rest ih =>
    refine (ih (outcome.record initial)).trans ?_
    rw [Outcome.get?_record, Effect.isSome_apply]
    simp [or_assoc]

variable (earlier : List (Outcome σ τ)) (last : Outcome σ τ) {state : ConditionState}

private theorem terminal_after (present : (initial.after (earlier ++ [last])).terminal = some state) :
    state.Shows last.terminal?.isSome (last.terminal?.map Failure.message) := by
  rw [after_concat] at present
  have recorded := last.get?_record (initial.after earlier) .terminal
  rw [show (last.record _).get? .terminal = some state from present] at recorded
  simp only [Outcome.effect] at recorded
  cases failure : last.terminal? with
  | none =>
    rw [failure] at recorded
    obtain ⟨before, -, rfl⟩ := Option.map_eq_some_iff.mp recorded.symm
    exact before.shows_set _ _ _
  | some failed =>
    rw [failure] at recorded
    cases recorded
    exact ConditionState.shows_set _ _ _ _

private theorem recoverable_of_terminal (hard : last.terminal?.isSome) (conditions : Conditions) :
    (last.record conditions).recoverable = conditions.recoverable := by
  have recorded := last.get?_record conditions .recoverable
  simp only [Outcome.effect, if_pos hard] at recorded
  exact recorded

private theorem recoverable_of_terminals (outcomes : List (Outcome σ τ))
    (hard : ∀ outcome ∈ outcomes, outcome.terminal?.isSome) :
    (initial.after outcomes).recoverable = initial.recoverable := by
  induction outcomes generalizing initial with
  | nil => rfl
  | cons outcome rest ih =>
    calc (initial.after (outcome :: rest)).recoverable
        = (outcome.record initial).recoverable := ih _ fun other inside => hard other (by simp [inside])
      _ = initial.recoverable := recoverable_of_terminal outcome (hard outcome (by simp)) initial

/-- `recoverable` says whether the last pass without a terminal failure has failed. -/
theorem recoverable_after {before later : List (Outcome σ τ)} {outcome : Outcome σ τ}
    (soft : outcome.terminal?.isNone) (hard : ∀ other ∈ later, other.terminal?.isSome)
    (present : (initial.after (before ++ outcome :: later)).recoverable = some state) :
    state.Shows outcome.failure.isSome (outcome.failure.map Failure.message) := by
  have split : initial.after (before ++ outcome :: later) =
      (outcome.record (initial.after before)).after later := by
    rw [after, List.foldl_append]
    rfl
  rw [split, recoverable_of_terminals _ later hard] at present
  have recorded := outcome.get?_record (initial.after before) .recoverable
  rw [show (outcome.record _).get? .recoverable = some state from present] at recorded
  simp only [Outcome.effect, Option.isNone_iff_eq_none.mp soft] at recorded
  cases failure : outcome.failure with
  | none =>
    rw [failure] at recorded
    obtain ⟨before, -, rfl⟩ := Option.map_eq_some_iff.mp recorded.symm
    exact before.shows_set _ _ _
  | some failed =>
    rw [failure] at recorded
    cases recorded
    exact ConditionState.shows_set _ _ _ _

/-- `synced` is there after any pass, and says whether the last one has left all as it should be. -/
theorem synced_after :
    ∃ state, (initial.after (earlier ++ [last])).synced = some state ∧
      state.Shows (last.resource.unsyncedReason? last.failure).isNone
        (last.resource.unsyncedReason? last.failure) := by
  rw [after_concat]
  exact ⟨_, last.get?_record (initial.after earlier) .synced, ConditionState.shows_set _ _ _ _⟩

end Conditions

/-- What the conditions of a resource of any kind say after a series of passes, and how each pass of the
series has changed them. -/
theorem Kind.conditions_after (kind : Kind) :
    let _ := kind.managed.resource
    ∀ (initial : Conditions) (earlier : List (Outcome kind.managed.Spec kind.managed.Status))
      (last : Outcome kind.managed.Spec kind.managed.Status),
    let outcomes := earlier ++ [last]
    let final := initial.after outcomes
    (∀ type, (initial.get? type).isSome → (final.get? type).isSome) ∧
    (final.terminal.isSome ↔
      initial.terminal.isSome ∨ ∃ outcome ∈ outcomes, outcome.terminal?.isSome) ∧
    (∀ state, final.terminal = some state →
      state.Shows last.terminal?.isSome (last.terminal?.map Failure.message)) ∧
    (final.recoverable.isSome ↔
      initial.recoverable.isSome ∨ ∃ outcome ∈ outcomes, outcome.recoverable?.isSome) ∧
    ((∀ outcome ∈ outcomes, outcome.terminal?.isSome) → final.recoverable = initial.recoverable) ∧
    (∀ before outcome later, outcomes = before ++ outcome :: later →
      outcome.terminal?.isNone → (∀ other ∈ later, other.terminal?.isSome) →
      ∀ state, final.recoverable = some state →
        state.Shows outcome.failure.isSome (outcome.failure.map Failure.message)) ∧
    (∃ state, final.synced = some state ∧
      match last.failure, last.resource.unsettledState? with
      | some failure, _ => state.Shows false (some failure.message)
      | none, some keyState => state.Shows false (some ("resource is " ++ keyState.name))
      | none, none => state.Shows true none) ∧
    (∀ keyState, last.resource.unsettledState? = some keyState ↔
      (∃ status, last.resource.status = some status ∧
        CustomResource.keyState? kind.managed.Spec status = some keyState) ∧
      (keyState = .creating ∨ keyState = .updating)) ∧
    ∀ before outcome later, outcomes = before ++ outcome :: later →
      let old := initial.after before
      let new := initial.after (before ++ [outcome])
      (outcome.terminal?.isSome → new.recoverable = old.recoverable) ∧
      ∀ type, (new.get? type).bind ConditionState.lastTransitionTime =
        if (new.get? type).map ConditionState.status = (old.get? type).map ConditionState.status then
          (old.get? type).bind ConditionState.lastTransitionTime
        else some outcome.now := by
  intro _ initial earlier last outcomes final
  have := kind.lawfulStatus
  have present (type : ConditionType) : (final.get? type).isSome ↔ _ :=
    initial.isSome_after outcomes type
  refine ⟨fun type there => (present type).mpr (.inl there), ?_, ?_, ?_, ?_, ?_, ?_,
    fun _ => Resource.unsettledState?_eq_some_iff, ?_⟩
  · simp only [← Outcome.isSet_terminal]
    exact present .terminal
  · exact fun state shown => initial.terminal_after earlier last shown
  · simp only [← Outcome.isSet_recoverable]
    exact present .recoverable
  · exact initial.recoverable_of_terminals outcomes
  · intro before outcome later split soft hard state shown
    simp only [final, split] at shown
    exact initial.recoverable_after soft hard shown
  · obtain ⟨state, there, shows⟩ := initial.synced_after earlier last
    refine ⟨state, there, ?_⟩
    cases failure : last.failure with
    | some failed => rwa [failure] at shows
    | none =>
      rw [failure] at shows
      cases unsettled : last.resource.unsettledState? with
      | some keyState => rwa [Resource.unsyncedReason?, unsettled] at shows
      | none => rwa [Resource.unsyncedReason?, unsettled] at shows
  · intro before outcome later _ old new
    have recorded : new = outcome.record old := initial.after_concat before outcome
    rw [recorded]
    refine ⟨fun hard => Conditions.recoverable_of_terminal outcome hard old, fun type => ?_⟩
    rw [Outcome.get?_record]
    exact Conditions.Effect.transition_apply _ _ _

end KeySteward
