import KeySteward.Proofs.KeyRequests
import KeySteward.Proofs.PassEndings
import KeySteward.Proofs.SpecDifferences

/-! The steps of a change in place, in their order. The steps before the one that fails have been taken
with all of their calls, no call belongs to a step behind it, and the steps that the outcome names are
those that have been taken; so it is a truthful record of what was done to the key. -/

namespace KeySteward

open Pass

variable {σ : Type}

def RotationChange.made (keyId : String) : RotationChange → Exchange
  | enable => ⟨.enableKeyRotation keyId, some (.ok ())⟩
  | disable => ⟨.disableKeyRotation keyId, some (.ok ())⟩

namespace TagSet

def putOn (keyId : String) (desired : TagMap) : List Exchange :=
  if desired.isEmpty then [] else [⟨.tagResource keyId desired.toTags, some (.ok ())⟩]

def takenOff (keyId : String) (stale : List String) : List Exchange :=
  if stale.isEmpty then [] else [⟨.untagResource keyId stale, some (.ok ())⟩]

end TagSet

/-- The outcome of a change in which these steps have been taken and the next one has come to this. -/
def DispatchOutcome.behind (applied : List UpdateStep) : Except Failure Unit → DispatchOutcome
  | .ok _ => ⟨applied, none⟩
  | .error failure => ⟨applied, some failure⟩

namespace UpdateTarget

/-- The answered calls that a step consists of. -/
inductive StepCalls (target : UpdateTarget) : TagStrategy → UpdateStep → List Exchange → Prop where
  | policy {strategy policy} (wanted : target.policy = some policy) :
      StepCalls target strategy .policy [⟨.putKeyPolicy {
        keyId := target.keyId
        policyName := "default"
        policy
        bypassPolicyLockoutSafetyCheck := target.bypassPolicyLockoutSafetyCheck.getD false },
        some (.ok ())⟩]
  | converge {read} (listing : Page.AreAll read) :
      StepCalls target .converge .tags (TagSet.fetched target.keyId none read ++
        (TagSet.takenOff target.keyId
            (TagMap.removedKeys (.ofTags (read.flatMap Page.items)) target.tags) ++
          TagSet.putOn target.keyId target.tags))
  | additive : StepCalls target .additive .tags (TagSet.putOn target.keyId target.tags)
  | rotation {strategy status} :
      StepCalls target strategy .rotation
        (⟨.getKeyRotationStatus target.keyId, some (.ok status)⟩ ::
          ((RotationChange.plan? target.enableKeyRotation (.ofStatus status)).map
            (RotationChange.made target.keyId)).toList)

/-- The differences and the policy that is wanted ask for the step. -/
def Requires (target : UpdateTarget) (delta : Delta) : UpdateStep → Prop
  | .policy => "Spec.Policy" ∈ delta.paths ∧ ∃ policy, target.policy = some policy ∧ policy ≠ ""
  | .tags => "Spec.Tags" ∈ delta.paths
  | .rotation => "Spec.EnableKeyRotation" ∈ delta.paths

private theorem policy?_eq_some {target : UpdateTarget} {policy : String} :
    target.policy? = some policy ↔ target.policy = some policy ∧ policy ≠ "" := by
  simp [policy?, Option.filter_eq_some_iff]

private theorem mem_requiredSteps (target : UpdateTarget) (delta : Delta) (step : UpdateStep) :
    step ∈ target.requiredSteps delta ↔ target.Requires delta step := by
  have listed : step ∈ [UpdateStep.policy, .tags, .rotation] := by cases step <;> decide
  rw [requiredSteps, List.mem_filter, and_iff_right listed]
  cases step with
  | policy =>
    simp only [isRequired, Bool.and_eq_true, Delta.differsAt_iff, Option.isSome_iff_exists,
      policy?_eq_some, Requires]
  | tags => exact Delta.differsAt_iff delta _
  | rotation => exact Delta.differsAt_iff delta _

private theorem requiredSteps_sublist (target : UpdateTarget) (delta : Delta) :
    (target.requiredSteps delta).Sublist [.policy, .tags, .rotation] :=
  List.filter_sublist

private theorem policy?_of_required {target : UpdateTarget} {delta : Delta}
    (required : .policy ∈ target.requiredSteps delta) : target.policy?.isSome := by
  obtain ⟨-, policy, wanted⟩ := (target.mem_requiredSteps delta .policy).mp required
  exact Option.isSome_iff_exists.mpr ⟨policy, policy?_eq_some.mpr wanted⟩

private theorem dispatch_of_refused {kind : Kind} {delta : Delta} {message : String}
    (refused : delta.refusal? kind = some message) (target : UpdateTarget) (pages : Nat)
    (strategy : TagStrategy) :
    target.dispatch kind delta pages strategy = pure ⟨[], some (.terminal message)⟩ := by
  simp only [dispatch, Delta.failure?, refused, Option.map_some]

private theorem dispatch_of_accepted {kind : Kind} {delta : Delta}
    (accepted : delta.refusal? kind = none)
    (target : UpdateTarget) (pages : Nat) (strategy : TagStrategy) :
    target.dispatch kind delta pages strategy =
      target.performAll pages strategy (target.requiredSteps delta) := by
  simp only [dispatch, Delta.failure?, accepted, Option.map_none]

section Performed

variable {service : Service σ} {schedule : Schedule} {run last : Run σ} {pages : Nat}

private theorem apply_calls {keyId : String} {desired : TagMap}
    (ends : (TagSet.apply keyId desired).run.run service schedule run = (.finished (.ok ()), last)) :
    (TagSet.apply keyId desired).run.exchanges service schedule run =
      TagSet.putOn keyId desired := by
  unfold TagSet.apply TagSet.putOn at *
  cases bare : desired.isEmpty with
  | true => rfl
  | false =>
    simp only [bare, Bool.not_false, if_true] at ends
    exact (run_call ends).2

private theorem reconcile_calls {keyId : String} {desired : TagMap}
    (ends : (TagSet.reconcile pages keyId desired).run.run service schedule run =
      (.finished (.ok ()), last)) :
    ∃ read, Page.AreAll read ∧
      (TagSet.reconcile pages keyId desired).run.exchanges service schedule run =
        TagSet.fetched keyId none read ++
          (TagSet.takenOff keyId (TagMap.removedKeys (.ofTags (read.flatMap Page.items)) desired) ++
            TagSet.putOn keyId desired) := by
  obtain ⟨latest, listed, listing, rest, calls⟩ := run_bind_succeeds ends
  obtain ⟨read, fetching, whole, rfl⟩ := TagSet.list_all listing
  refine ⟨read, whole, ?_⟩
  rw [TagSet.reconcile, calls, fetching]
  refine congrArg _ ?_
  generalize TagMap.removedKeys (.ofTags (read.flatMap Page.items)) desired = stale at rest ⊢
  cases clean : stale.isEmpty with
  | true =>
    simp only [clean, Bool.not_true, Bool.false_eq_true, if_false] at rest ⊢
    rw [apply_calls rest, TagSet.takenOff, if_pos clean, List.nil_append]
  | false =>
    simp only [clean, Bool.not_false, if_true] at rest ⊢
    obtain ⟨answer, untagged, untagging, rest, calls⟩ := run_bind_succeeds rest
    rw [calls, (run_call untagging).2, apply_calls rest, TagSet.takenOff, clean]
    rfl

private theorem rotation_calls {keyId : String} {desired : Option Bool} {change? : Option RotationChange}
    (ends : (Rotation.reconcile keyId desired).run.run service schedule run =
      (.finished (.ok change?), last)) :
    ∃ status, (Rotation.reconcile keyId desired).run.exchanges service schedule run =
      ⟨.getKeyRotationStatus keyId, some (.ok status)⟩ ::
        ((RotationChange.plan? desired (.ofStatus status)).map (RotationChange.made keyId)).toList := by
  obtain ⟨state, observed, observing, rest, calls⟩ := run_bind_succeeds ends
  obtain ⟨status, asked, asking, found, exchanges⟩ := run_bind_succeeds observing
  cases found
  refine ⟨status, ?_⟩
  rw [Rotation.reconcile, calls, Rotation.observe, exchanges, (run_call asking).2]
  refine congrArg (_ :: ·) ?_
  dsimp only at rest ⊢
  cases plan : RotationChange.plan? desired (.ofStatus status) with
  | none => rfl
  | some change =>
    simp only [plan] at rest
    obtain ⟨answer, changed, changing, -, calls⟩ := run_bind_succeeds rest
    cases change
    · exact calls.trans (congrArg (· ++ []) (run_call changing).2)
    · exact calls.trans (congrArg (· ++ []) (run_call changing).2)

private theorem perform_calls {target : UpdateTarget} {strategy : TagStrategy} {step : UpdateStep}
    (asked : step = .policy → target.policy?.isSome)
    (ends : (target.perform pages strategy step).run.run service schedule run =
      (.finished (.ok ()), last)) :
    target.StepCalls strategy step
      ((target.perform pages strategy step).run.exchanges service schedule run) := by
  cases step with
  | policy =>
    obtain ⟨policy, wanted⟩ := Option.isSome_iff_exists.mp (asked rfl)
    simp only [perform, wanted] at ends ⊢
    rw [Policy.put, (run_call ends).2]
    exact .policy (policy?_eq_some.mp wanted).1
  | tags =>
    cases strategy with
    | converge =>
      obtain ⟨read, whole, calls⟩ := reconcile_calls ends
      rw [perform, calls]
      exact .converge whole
    | additive =>
      rw [perform, apply_calls ends]
      exact .additive
  | rotation =>
    obtain ⟨change?, middle, reconciling, -, calls⟩ := run_bind_succeeds ends
    obtain ⟨status, same⟩ := rotation_calls reconciling
    rw [perform, calls, same]
    exact (List.append_nil _).symm ▸ .rotation

end Performed

private theorem perform_roomy (target : UpdateTarget) (pages : Nat) (strategy : TagStrategy)
    (step : UpdateStep) : (target.perform pages strategy step).run.Roomy pages := by
  cases step with
  | policy =>
    simp only [perform]
    split
    · exact roomy_call _ pages
    · trivial
  | tags =>
    cases strategy with
    | converge => exact TagSet.reconcile_roomy pages target.keyId target.tags
    | additive => exact TagSet.apply_roomy target.keyId target.tags pages
  | rotation => exact roomy_bind (Rotation.reconcile_roomy _ _ pages) fun _ => trivial

section Course

variable (target : UpdateTarget) (pages : Nat) (strategy : TagStrategy) (service : Service σ)
variable (schedule : Schedule)

/-- Steps that are taken one after the other between two runs, and the calls that they consist of. -/
inductive Takes : List UpdateStep → Run σ → List Exchange → Run σ → Prop where
  | nothing {run} : Takes [] run [] run
  | step {step rest run early middle calls last}
      (taken : (target.perform pages strategy step).run.run service schedule run =
        (.finished (.ok ()), middle))
      (course : (target.perform pages strategy step).run.exchanges service schedule run = early)
      (made : target.StepCalls strategy step early) (onward : Takes rest middle calls last) :
      Takes (step :: rest) run (early ++ calls) last

/-- How a change goes that has these steps to take: it takes all of them, or it ends with the first one
that does not succeed. -/
inductive Course (steps : List UpdateStep) (run : Run σ) :
    List Exchange → Ending DispatchOutcome × Run σ → Prop where
  | complete {calls last} (taken : Takes target pages strategy service schedule steps run calls last) :
      Course steps run calls (.finished ⟨steps, none⟩, last)
  | stopped {applied step later early middle ending last} (order : steps = applied ++ step :: later)
      (taken : Takes target pages strategy service schedule applied run early middle)
      (tried : (target.perform pages strategy step).run.run service schedule middle = (ending, last))
      (stops : ending ≠ .finished (.ok ())) :
      Course steps run
        (early ++ (target.perform pages strategy step).run.exchanges service schedule middle)
        (ending.map (DispatchOutcome.behind applied), last)

end Course

section Course

variable {target : UpdateTarget} {pages : Nat} {strategy : TagStrategy} {service : Service σ}
variable {schedule : Schedule} {steps : List UpdateStep} {run last : Run σ} {calls : List Exchange}

private theorem Takes.answered
    (taken : target.Takes pages strategy service schedule steps run calls last) :
    ∀ call ∈ calls, call.IsAnswered := by
  induction taken with
  | nothing => exact List.forall_mem_nil _
  | @step step _ run _ _ _ _ taken course _ _ ih =>
    have strict := (target.perform_strict pages strategy step).calls service schedule run
    rw [taken, course] at strict
    exact List.forall_mem_append.mpr ⟨strict, ih⟩

private theorem Takes.belongs
    (taken : target.Takes pages strategy service schedule steps run calls last) :
    ∀ call ∈ calls, ∃ step ∈ steps, call.request.step? = some step := by
  induction taken with
  | nothing => exact List.forall_mem_nil _
  | @step step rest run _ _ _ _ _ course _ _ ih =>
    refine List.forall_mem_append.mpr ⟨fun call member => ?_, fun call member => ?_⟩
    · rw [← course] at member
      exact ⟨step, List.mem_cons_self,
        ((target.perform_requests pages strategy step).exchanges member).2⟩
    · obtain ⟨other, later, belongs⟩ := ih call member
      exact ⟨other, List.mem_cons_of_mem _ later, belongs⟩

theorem Course.behind {step : UpdateStep} {early : List Exchange} {middle : Run σ}
    {reached : Ending DispatchOutcome × Run σ}
    (taken : (target.perform pages strategy step).run.run service schedule run =
      (.finished (.ok ()), middle))
    (course : (target.perform pages strategy step).run.exchanges service schedule run = early)
    (made : target.StepCalls strategy step early)
    (onward : target.Course pages strategy service schedule steps middle calls reached) :
    target.Course pages strategy service schedule (step :: steps) run (early ++ calls)
      (reached.1.map fun outcome => { outcome with applied := step :: outcome.applied },
        reached.2) := by
  cases onward with
  | complete others => exact .complete (.step taken course made others)
  | @stopped _ _ _ _ _ ending _ order others tried stops =>
    rw [← List.append_assoc]
    have order : step :: steps = (step :: _) ++ _ := congrArg (step :: ·) order
    have stopped := Course.stopped order (.step taken course made others) tried stops
    rcases ending with (_ | _) | _ | _ <;> exact stopped

private theorem performAll_course (target : UpdateTarget) (pages : Nat) (strategy : TagStrategy)
    (service : Service σ) (schedule : Schedule) {steps : List UpdateStep}
    (asked : .policy ∈ steps → target.policy?.isSome) (run : Run σ) :
    target.Course pages strategy service schedule steps run
      ((target.performAll pages strategy steps).exchanges service schedule run)
      ((target.performAll pages strategy steps).run service schedule run) := by
  induction steps generalizing run with
  | nil => exact .complete .nothing
  | cons step rest ih =>
    unfold performAll
    rw [Program.exchanges_bind, Program.run_bind]
    rcases tried : (target.perform pages strategy step).run.run service schedule run with
      ⟨(failure | value) | _ | _, middle⟩
    · change target.Course pages strategy service schedule _ _ (_ ++ [])
        (.finished ⟨[], some failure⟩, middle)
      rw [List.append_nil]
      exact .stopped (List.nil_append _).symm .nothing tried (by simp)
    · have made := perform_calls (fun same => asked (same ▸ List.mem_cons_self)) tried
      have onward := ih (fun member => asked (List.mem_cons_of_mem _ member)) middle
      dsimp only
      rw [bind_pure_comp, Program.exchanges_map, Program.run_map]
      exact .behind tried rfl made onward
    · rw [List.append_nil]
      exact .stopped (List.nil_append _).symm .nothing tried (by simp)
    · rw [List.append_nil]
      exact .stopped (List.nil_append _).symm .nothing tried (by simp)

private theorem Course.applied_isPrefix {outcome : DispatchOutcome}
    (course : target.Course pages strategy service schedule steps run calls
      (.finished outcome, last)) : outcome.applied <+: steps := by
  generalize ends : (Ending.finished outcome, last) = reached at course
  cases course with
  | complete =>
    cases ends
    exact List.prefix_refl _
  | @stopped applied _ _ _ _ ending _ order =>
    subst order
    rcases ending with (_ | _) | _ | _ <;> cases ends <;> exact List.prefix_append applied _

/-- The steps behind the one that is tried last are not begun. -/
theorem Takes.later_untouched {applied later : List UpdateStep} {step : UpdateStep}
    {early : List Exchange} {middle : Run σ} (distinct : (applied ++ step :: later).Nodup)
    (taken : target.Takes pages strategy service schedule applied run early middle) :
    ∀ call ∈ early ++ (target.perform pages strategy step).run.exchanges service schedule middle,
      ∀ other ∈ later, call.request.step? ≠ some other := by
  obtain ⟨-, behind, apart⟩ := List.nodup_append.mp distinct
  intro call member other behindStep same
  rcases List.mem_append.mp member with before | trying
  · obtain ⟨first, begun, belongs⟩ := taken.belongs call before
    cases same.symm.trans belongs
    exact apart other begun other (List.mem_cons_of_mem _ behindStep) rfl
  · obtain ⟨-, belongs⟩ := (target.perform_requests pages strategy step).exchanges trying
    cases same.symm.trans belongs
    exact (List.nodup_cons.mp behind).1 behindStep

/-- What the calls come to where a step does not succeed behind others that have been taken. -/
theorem Takes.stops {applied : List UpdateStep} {step : UpdateStep} {early : List Exchange}
    {middle : Run σ} {ending : Ending (Except Failure Unit)}
    (taken : target.Takes pages strategy service schedule applied run early middle)
    (tried : (target.perform pages strategy step).run.run service schedule middle = (ending, last)) :
    let calls := early ++ (target.perform pages strategy step).run.exchanges service schedule middle
    match ending with
    | .finished (.error failure) => StopsWith calls (some failure) ∧ failure.IsOfCall
    | .finished (.ok _) => True
    | .crashed => StopsWith calls none
    | .unfinished => pages ≤ calls.length := by
  have ends := (target.perform_strict pages strategy step).calls service schedule middle
  rw [tried] at ends
  rcases ending with (failure | value) | _ | _
  · have ⟨_, _, same, _⟩ := ends
    have failed : failure.IsOfCall := Program.exchange_failure (same ▸ List.mem_concat_self) rfl
    exact ⟨ends.behind taken.answered, failed⟩
  · trivial
  · exact ends.behind taken.answered
  · have room := (target.perform_roomy pages strategy step).le_length (congrArg Prod.fst tried)
    exact room.trans (List.suffix_append early _).length_le

/-- A change that its kind does not take on fails with that and makes no call. Any other has some of the
three steps to take, in their order, and either it takes all of them or it fails with a call of one of
them. The outcome names the steps that have been taken, each with all of its calls, and behind the step
that has failed none is begun. No outcome comes of a change in which the service breaks off, or which
lacks room for a page of the tags. -/
theorem dispatch_in_order (target : UpdateTarget) (kind : Kind) (delta : Delta) (pages : Nat)
    (strategy : TagStrategy) (service : Service σ) (schedule : Schedule) (run : Run σ) :
    let program := target.dispatch kind delta pages strategy
    let calls := program.exchanges service schedule run
    let take (step : UpdateStep) := (target.perform pages strategy step).run
    (∀ outcome last, program.run service schedule run = (.finished outcome, last) →
      outcome.applied.Sublist [.policy, .tags, .rotation]) ∧
    ((∃ path ∈ delta.paths, kind.isMutable path = false) →
      calls = [] ∧ ∃ message, delta.refusal? kind = some message ∧
        program.run service schedule run = (.finished ⟨[], some (.terminal message)⟩, run)) ∧
    ((∀ path ∈ delta.paths, kind.isMutable path = true) →
      ∃ required : List UpdateStep, required.Sublist [.policy, .tags, .rotation] ∧
        (∀ step, step ∈ required ↔ target.Requires delta step) ∧
        match program.run service schedule run with
        | (.finished ⟨applied, none⟩, last) =>
          applied = required ∧
            target.Takes pages strategy service schedule required run calls last
        | (.finished ⟨applied, some failure⟩, last) =>
          ∃ step later early middle, required = applied ++ step :: later ∧
            target.Takes pages strategy service schedule applied run early middle ∧
            (take step).run service schedule middle = (.finished (.error failure), last) ∧
            calls = early ++ (take step).exchanges service schedule middle ∧
            StopsWith calls (some failure) ∧ failure.IsOfCall ∧
            ∀ call ∈ calls, ∀ other ∈ later, call.request.step? ≠ some other
        | (.crashed, _) => StopsWith calls none
        | (.unfinished, _) => pages ≤ calls.length) := by
  intro program calls take
  have mutable_iff : delta.refusal? kind = none ↔ ∀ path ∈ delta.paths, kind.isMutable path = true :=
    Option.map_eq_none_iff.symm.trans (delta.failure?_eq_none_iff kind)
  cases refusal : delta.refusal? kind with
  | some message =>
    simp only [calls, program, dispatch_of_refused refusal]
    refine ⟨fun outcome last ends => ?_, fun _ => ⟨rfl, message, rfl, rfl⟩, fun mutable => ?_⟩
    · cases ends
      exact List.nil_sublist _
    · cases refusal.symm.trans (mutable_iff.mpr mutable)
  | none =>
    have order := target.requiredSteps_sublist delta
    have distinct : (target.requiredSteps delta).Nodup := order.nodup (by decide)
    have course : target.Course pages strategy service schedule (target.requiredSteps delta) run calls
        (program.run service schedule run) := by
      simp only [calls, program, dispatch_of_accepted refusal]
      exact target.performAll_course pages strategy service schedule policy?_of_required run
    have required := target.mem_requiredSteps delta
    generalize target.requiredSteps delta = steps at course order distinct required
    generalize calls = made at course ⊢
    generalize program.run service schedule run = reached at course ⊢
    refine ⟨fun outcome last ends => ?_, fun ⟨path, member, immutable⟩ => ?_,
      fun _ => ⟨steps, order, required, ?_⟩⟩
    · subst ends
      exact course.applied_isPrefix.sublist.trans order
    · cases (mutable_iff.mp refusal path member).symm.trans immutable
    · cases course with
      | complete taken => exact ⟨rfl, taken⟩
      | @stopped _ _ _ _ _ ending _ split taken tried stops =>
        subst split
        have untouched := taken.later_untouched distinct
        have ends := taken.stops tried
        rcases ending with (failure | value) | _ | _
        · exact ⟨_, _, _, _, rfl, taken, tried, rfl, ends.1, ends.2, untouched⟩
        · cases stops rfl
        · exact ends
        · exact ends

end Course

end UpdateTarget

end KeySteward
