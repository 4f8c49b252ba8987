import KeySteward.Proofs.TagListings

/-! How a run comes to its end, told from its calls. Of a strict pass that does not succeed the last
call is the cause, and all others have been answered; and a pass lacks room only behind a call for each
page that there was room for. -/

namespace KeySteward

variable {σ α β ε : Type} {service : Service σ} {schedule : Schedule}

/-- The service has done what the call asks for. -/
def Exchange.IsAnswered (exchange : Exchange) : Prop :=
  ∃ answer, exchange.result = some (.ok answer)

/-- All calls are answered but for the last one. It has failed so, or the service broke off in it. -/
def StopsWith (calls : List Exchange) (failure? : Option Failure) : Prop :=
  ∃ before request, calls = before ++ [⟨request, failure?.map .error⟩] ∧
    ∀ call ∈ before, call.IsAnswered

theorem StopsWith.behind {early calls : List Exchange} {failure? : Option Failure}
    (stops : StopsWith calls failure?) (answered : ∀ call ∈ early, call.IsAnswered) :
    StopsWith (early ++ calls) failure? := by
  obtain ⟨before, request, rfl, others⟩ := stops
  exact ⟨early ++ before, request, (List.append_assoc ..).symm,
    List.forall_mem_append.mpr ⟨answered, others⟩⟩

namespace Program

/-- The program lacks room only behind so many calls. -/
def Roomy : Program α → Nat → Prop
  | .done _, _ => True
  | .call _ next, calls => ∀ result, (next result).Roomy (calls - 1)
  | .unfinished, calls => calls = 0

namespace Roomy

variable {program : Program α} {calls : Nat}

theorem mono {fewer : Nat} (roomy : program.Roomy calls) (le : fewer ≤ calls) :
    program.Roomy fewer := by
  induction program generalizing calls fewer with
  | done value => trivial
  | unfinished =>
    obtain rfl : calls = 0 := roomy
    exact Nat.le_zero.mp le
  | call request next ih => exact fun result => ih result (roomy result) (Nat.sub_le_sub_right le 1)

theorem bind {next : α → Program β} (first : program.Roomy calls)
    (rest : ∀ value, (next value).Roomy calls) : (program >>= next).Roomy calls := by
  change (program.bind next).Roomy calls
  induction program generalizing calls with
  | done value => exact rest value
  | unfinished => exact first
  | call request after ih =>
    exact fun result => ih result (first result) fun value => (rest value).mono (Nat.sub_le ..)

theorem le_length {run : Run σ} (roomy : program.Roomy calls)
    (ends : (program.run service schedule run).1 = .unfinished) :
    calls ≤ (program.exchanges service schedule run).length := by
  induction program generalizing calls run with
  | done value => cases ends
  | unfinished => exact Nat.le_of_eq roomy
  | call request next ih =>
    simp only [Program.run, exchanges] at ends ⊢
    generalize run.call service schedule request = outcome at ends ⊢
    obtain ⟨_ | result, after⟩ := outcome
    · cases ends
    · exact Nat.le_add_of_sub_le (ih result (roomy result) ends)

end Roomy

end Program

namespace Pass

theorem roomy_call (request : Request) (calls : Nat) : (Pass.call request).run.Roomy calls :=
  fun _ => trivial

theorem roomy_bind {pass : ExceptT ε Program α} {next : α → ExceptT ε Program β} {calls : Nat}
    (first : pass.run.Roomy calls) (rest : ∀ value, (next value).run.Roomy calls) :
    (pass >>= next).run.Roomy calls := by
  rw [ExceptT.run_bind]
  refine first.bind fun result => ?_
  cases result with
  | ok value => exact rest value
  | error error => trivial

theorem run_bind_succeeds {pass : ExceptT ε Program α} {next : α → ExceptT ε Program β}
    {run last : Run σ} {value : β}
    (ends : (pass >>= next).run.run service schedule run = (.finished (.ok value), last)) :
    ∃ first middle, pass.run.run service schedule run = (.finished (.ok first), middle) ∧
      (next first).run.run service schedule middle = (.finished (.ok value), last) ∧
      (pass >>= next).run.exchanges service schedule run =
        pass.run.exchanges service schedule run ++
          (next first).run.exchanges service schedule middle := by
  rw [ExceptT.run_bind] at ends ⊢
  obtain ⟨result, middle, ran, rest⟩ := Program.run_bind_inv ends
  rw [Program.exchanges_bind_finished _ ran]
  cases result with
  | ok first => exact ⟨first, middle, ran, rest, rfl⟩
  | error error => cases rest

theorem Strict.calls {pass : Pass α} (strict : Strict pass) (service : Service σ)
    (schedule : Schedule) (run : Run σ) :
    match (pass.run.run service schedule run).1 with
    | .finished (.error failure) =>
      StopsWith (pass.run.exchanges service schedule run) (some failure)
    | .crashed => StopsWith (pass.run.exchanges service schedule run) none
    | _ => ∀ call ∈ pass.run.exchanges service schedule run, call.IsAnswered := by
  unfold Strict at strict
  generalize pass.run = program at strict ⊢
  induction program generalizing run with
  | done result =>
    obtain ⟨value, rfl⟩ := strict
    exact List.forall_mem_nil _
  | unfinished => exact List.forall_mem_nil _
  | call request next ih =>
    simp only [Program.run, Program.exchanges]
    rcases run.call service schedule request with ⟨_ | (failure | answer), middle⟩
    · exact ⟨[], request, rfl, List.forall_mem_nil _⟩
    · simp only [strict.2 failure, Program.run, Program.exchanges]
      exact ⟨[], request, rfl, List.forall_mem_nil _⟩
    · have rest := ih _ middle (strict.1 answer)
      have first : ∀ call ∈ [(⟨request, some (.ok answer)⟩ : Exchange)], call.IsAnswered :=
        List.forall_mem_singleton.mpr ⟨answer, rfl⟩
      dsimp only
      generalize ((next (.ok answer)).run service schedule middle).1 = ending at rest ⊢
      rcases ending with (failure | value) | _ | _
      · exact rest.behind first
      · exact List.forall_mem_append.mpr ⟨first, rest⟩
      · exact rest.behind first
      · exact List.forall_mem_append.mpr ⟨first, rest⟩

/-- Only the last call of a strict pass may not have been answered. -/
theorem Strict.getLast?_exchanges {pass : Pass α} (strict : Strict pass) {run : Run σ}
    {call : Exchange} (member : call ∈ pass.run.exchanges service schedule run)
    (unanswered : ¬ call.IsAnswered) :
    (pass.run.exchanges service schedule run).getLast? = some call := by
  have last {failure? : Option Failure}
      (stops : StopsWith (pass.run.exchanges service schedule run) failure?) :
      (pass.run.exchanges service schedule run).getLast? = some call := by
    obtain ⟨before, request, split, answered⟩ := stops
    rw [split] at member ⊢
    rcases List.mem_append.mp member with early | final
    · exact absurd (answered call early) unanswered
    · rw [List.mem_singleton.mp final, List.getLast?_concat]
  have calls := strict.calls service schedule run
  split at calls
  · exact last calls
  · exact last calls
  · exact absurd (calls call member) unanswered

end Pass

namespace TagSet

private theorem list_roomy (pages : Nat) (keyId : String) : (list pages keyId).run.Roomy pages := by
  have items (marker : Option String) : (Pass.items
      (fun marker => .call (.listResourceTags keyId marker)) (fun _ => false) pages marker).run.Roomy
        pages := by
    induction pages generalizing marker with
    | zero => exact rfl
    | succ pages ih =>
      intro result
      rcases result with failure | page
      · trivial
      · simp only [Program.bind, ExceptT.bindCont, Bool.false_eq_true, if_false]
        split
        · trivial
        · exact Pass.roomy_bind (ih _) fun _ => trivial
  exact Pass.roomy_bind (items none) fun _ => trivial

theorem apply_roomy (keyId : String) (desired : TagMap) (calls : Nat) :
    (apply keyId desired).run.Roomy calls := by
  unfold apply
  split
  · exact Pass.roomy_call _ calls
  · trivial

theorem reconcile_roomy (pages : Nat) (keyId : String) (desired : TagMap) :
    (reconcile pages keyId desired).run.Roomy pages := by
  refine Pass.roomy_bind (list_roomy pages keyId) fun latest => ?_
  dsimp only
  split
  · exact Pass.roomy_bind (Pass.roomy_call _ pages) fun _ => apply_roomy keyId desired pages
  · exact apply_roomy keyId desired pages

end TagSet

theorem Rotation.reconcile_roomy (keyId : String) (desired : Option Bool) (calls : Nat) :
    (Rotation.reconcile keyId desired).run.Roomy calls := by
  have observed : (Rotation.observe keyId).run.Roomy calls :=
    Pass.roomy_bind (Pass.roomy_call _ calls) fun _ => trivial
  refine Pass.roomy_bind observed fun state => ?_
  dsimp only
  split
  next change _ =>
    have applied : (change.apply keyId).run.Roomy calls := by
      cases change <;> exact Pass.roomy_call _ calls
    exact Pass.roomy_bind applied fun _ => trivial
  next => trivial

end KeySteward
