import KeySteward.Proofs.PassRules
import KeySteward.Update.Dispatch

/-! Strict passes. The first call of a strict pass that fails ends it in the failure of that call,
and nothing else makes it fail; so its failures can be read off its exchanges. All parts of an
update in place are strict, as are the readings that a key is observed by. -/

namespace KeySteward

variable {σ α β : Type} {service : Service σ} {schedule : Schedule}

def Program.Strict : Program (Except Failure α) → Prop
  | .done result => ∃ value, result = .ok value
  | .call _ next =>
    (∀ answer, (next (.ok answer)).Strict) ∧
      ∀ failure, next (.error failure) = .done (.error failure)
  | .unfinished => True

theorem Program.exchange_failure {program : Program α} {run : Run σ} {exchange : Exchange}
    (member : exchange ∈ program.exchanges service schedule run) {failure : Failure}
    (failed : exchange.result = some (.error failure)) : failure.IsOfCall := by
  induction program generalizing run with
  | done value => cases member
  | unfinished => cases member
  | call request next ih =>
    have called := run.call_gives service schedule request
    simp only [Program.exchanges] at member
    split at member
    next result after same =>
      rcases List.mem_cons.mp member with rfl | inside
      · obtain rfl : result = .error failure := Option.some.inj failed
        simp only [same] at called
        exact called.isOfCall
      · exact ih result inside
    next =>
      rw [List.mem_singleton] at member
      subst member
      cases failed

theorem Exchange.IsNotFound.of_failure {program : Program α} {run : Run σ} {exchange : Exchange}
    (member : exchange ∈ program.exchanges service schedule run) {failure : Failure}
    (failed : exchange.result = some (.error failure)) (missing : failure.isNotFound = true) :
    exchange.IsNotFound := by
  rcases Program.exchange_failure member failed with interruption | ⟨error, rfl⟩
  · rw [interruption.isNotFound] at missing
    cases missing
  · simpa [Exchange.IsNotFound, Exchange.code?, failed, Failure.code?, Failure.isNotFound,
      ServiceError.isNotFound] using missing

theorem Exchange.IsNotFound.failure {exchange : Exchange} (missing : exchange.IsNotFound) :
    ∃ failure, exchange.result = some (.error failure) ∧ failure.isNotFound = true := by
  unfold IsNotFound code? at missing
  split at missing
  next failure failed =>
    refine ⟨failure, failed, ?_⟩
    cases failure with
    | service error => simpa [Failure.code?, Failure.isNotFound, ServiceError.isNotFound] using missing
    | _ => cases missing
  next => cases missing

namespace Pass

def Strict (pass : Pass α) : Prop :=
  pass.run.Strict

theorem Strict.pure (value : α) : Strict (pure value) :=
  ⟨value, rfl⟩

theorem Strict.call (request : Request) : Strict (Pass.call request) :=
  ⟨fun answer => ⟨answer, rfl⟩, fun _ => rfl⟩

private theorem Strict.unfinished : Strict (Pass.unfinished : Pass α) :=
  trivial

theorem Strict.bind {pass : Pass α} {next : α → Pass β} (first : Strict pass)
    (rest : ∀ value, Strict (next value)) : Strict (pass >>= next) := by
  unfold Strict at first ⊢
  rw [ExceptT.run_bind]
  generalize pass.run = program at first ⊢
  induction program with
  | done result =>
    obtain ⟨value, rfl⟩ := first
    exact rest value
  | unfinished => trivial
  | call request after ih =>
    refine ⟨fun answer => ih _ (first.1 answer), fun failure => ?_⟩
    change (after (.error failure)).bind _ = _
    rw [first.2 failure]
    rfl

theorem Strict.heeds {pass : Pass α} (strict : Strict pass) : Heeds id pass := by
  unfold Strict at strict
  unfold Heeds
  generalize pass.run = program at strict ⊢
  induction program with
  | done result => trivial
  | unfinished => trivial
  | call request next ih =>
    refine ⟨fun failure _ => ⟨_, strict.2 failure, failure, rfl, rfl⟩, fun result => ?_⟩
    cases result with
    | ok answer => exact ih _ (strict.1 answer)
    | error failure =>
      rw [strict.2 failure]
      trivial

theorem Strict.endsIn {pass : Pass α} (strict : Strict pass) :
    EndsIn (fun _ => True) Failure.IsOfCall pass := by
  unfold Strict at strict
  unfold EndsIn
  generalize pass.run = program at strict ⊢
  induction program with
  | done result =>
    obtain ⟨value, rfl⟩ := strict
    trivial
  | unfinished => trivial
  | call request next ih =>
    intro result ofCall
    cases result with
    | ok answer => exact ih _ (strict.1 answer)
    | error failure =>
      rw [strict.2 failure]
      exact ofCall failure rfl

/-- A strict pass fails with what one of its calls fails with. -/
theorem Strict.failure_iff {pass : Pass α} (strict : Strict pass) (service : Service σ)
    (schedule : Schedule) (run : Run σ) (failure : Failure) :
    (∃ after, pass.run.run service schedule run = (.finished (.error failure), after)) ↔
      ∃ exchange ∈ pass.run.exchanges service schedule run,
        exchange.result = some (.error failure) := by
  unfold Strict at strict
  generalize pass.run = program at strict ⊢
  induction program generalizing run with
  | done result =>
    obtain ⟨value, rfl⟩ := strict
    constructor
    · rintro ⟨after, ends⟩
      cases ends
    · rintro ⟨exchange, member, _⟩
      cases member
  | unfinished =>
    constructor
    · rintro ⟨after, ends⟩
      cases ends
    · rintro ⟨exchange, member, _⟩
      cases member
  | call request next ih =>
    simp only [Program.run, Program.exchanges]
    rcases run.call service schedule request with ⟨_ | (other | answer), middle⟩
    · simp
    · simp [strict.2 other, Program.run, Program.exchanges]
    · simp [ih _ middle (strict.1 answer)]

theorem Strict.unfailed {pass : Pass α} (strict : Strict pass) {run last : Run σ} {value : α}
    (ends : pass.run.run service schedule run = (.finished (.ok value), last)) {exchange : Exchange}
    (member : exchange ∈ pass.run.exchanges service schedule run) (failure : Failure) :
    exchange.result ≠ some (.error failure) := by
  intro failed
  obtain ⟨after, fails⟩ :=
    (strict.failure_iff service schedule run failure).mpr ⟨exchange, member, failed⟩
  cases ends.symm.trans fails

end Pass

private theorem Pass.items_strict {fetch : Option String → Pass (Page α)}
    (strict : ∀ marker, (fetch marker).Strict) (enough : List α → Bool) (pages : Nat) :
    ∀ marker, (Pass.items fetch enough pages marker).Strict := by
  induction pages with
  | zero => exact fun _ => .unfinished
  | succ pages ih =>
    intro marker
    unfold Pass.items
    refine (strict marker).bind fun page => ?_
    split
    · exact .pure _
    · split
      · exact .pure _
      · exact (ih _).bind fun _ => .pure _

theorem Pass.find_strict {fetch : Option String → Pass (Page α)}
    (strict : ∀ marker, (fetch marker).Strict) (condition : α → Bool) (pages : Nat) :
    (Pass.find fetch condition pages).Strict :=
  (Pass.items_strict strict _ pages none).bind fun _ => .pure _

theorem TagSet.list_strict (pages : Nat) (keyId : String) : (TagSet.list pages keyId).Strict :=
  (Pass.items_strict (fun _ => .call _) _ pages none).bind fun _ => .pure _

theorem TagSet.apply_strict (keyId : String) (desired : TagMap) :
    (TagSet.apply keyId desired).Strict := by
  unfold TagSet.apply
  split
  · exact .call _
  · exact .pure _

theorem TagSet.reconcile_strict (pages : Nat) (keyId : String) (desired : TagMap) :
    (TagSet.reconcile pages keyId desired).Strict := by
  refine (TagSet.list_strict pages keyId).bind fun latest => ?_
  dsimp only
  split
  · exact (Pass.Strict.call _).bind fun _ => TagSet.apply_strict keyId desired
  · exact TagSet.apply_strict keyId desired

theorem Rotation.observe_strict (keyId : String) : (Rotation.observe keyId).Strict :=
  (Pass.Strict.call _).bind fun _ => .pure _

theorem Rotation.reconcile_strict (keyId : String) (desired : Option Bool) :
    (Rotation.reconcile keyId desired).Strict := by
  refine (Rotation.observe_strict keyId).bind fun state => ?_
  dsimp only
  split
  next change _ =>
    have applied : (change.apply keyId).Strict := by cases change <;> exact .call _
    exact applied.bind fun _ => .pure _
  next => exact .pure _

theorem Policy.get_strict (keyId : String) : (Policy.get keyId).Strict :=
  .call _

theorem UpdateTarget.perform_strict (target : UpdateTarget) (pages : Nat) (strategy : TagStrategy)
    (step : UpdateStep) : (target.perform pages strategy step).Strict := by
  cases step with
  | policy =>
    simp only [UpdateTarget.perform]
    split
    · exact .call _
    · exact .pure _
  | tags =>
    cases strategy with
    | converge => exact TagSet.reconcile_strict pages target.keyId target.tags
    | additive => exact TagSet.apply_strict target.keyId target.tags
  | rotation =>
    exact (Rotation.reconcile_strict target.keyId target.enableKeyRotation).bind fun _ => .pure _

end KeySteward
