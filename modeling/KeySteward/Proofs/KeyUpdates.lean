import KeySteward.Proofs.MemoryReadings

/-! What a change in place does to the stored key. A step that succeeds makes one part of the key what
is wanted and leaves the other parts, so steps that all succeed do this for each of their parts. -/

namespace KeySteward

variable {memory after : Memory} {keyId : String} {stored : StoredKey}

namespace Memory

private theorem key?_of_changeKey {change : StoredKey → StoredKey} {value : Unit}
    (held : memory.key? keyId = some stored)
    (changed : memory.changeKey keyId change = .ok (value, after)) :
    after.key? keyId = some (change stored) := by
  obtain ⟨other, key, found, rfl⟩ := changeKey_eq_ok.mp changed
  cases found.symm.trans (lookup_of_key? held)
  simp [key?, withStore]

theorem key?_createKey (memory : Memory) (input : NewKey) :
    (memory.createKey input).2.key? (memory.createKey input).1.keyId =
      some {
        metadata := (memory.createKey input).1
        policy := input.policy
        tags := .ofTags input.tags } := by
  simp [key?, createKey]

theorem key?_of_call (change : StoredKey → StoredKey) {request : Request} {answer : request.Answer}
    (held : memory.key? keyId = some stored)
    (yields : Pass.Yields service (Pass.call request) memory answer after)
    (changes : ∀ memory : Memory,
      (perform request memory).map Prod.snd = (memory.changeKey keyId change).map Prod.snd) :
    after.key? keyId = some (change stored) := by
  obtain ⟨-, performed⟩ := handle_eq_ok.mp (Pass.yields_call.mp yields)
  have noted : (memory.noted request).key? keyId = some stored := held
  have same := changes (memory.noted request)
  rw [performed] at same
  cases changed : (memory.noted request).changeKey keyId change with
  | error fault =>
    rw [changed] at same
    cases same
  | ok result =>
    rw [changed] at same
    cases same
    exact key?_of_changeKey noted changed

end Memory

private theorem TagSet.apply_stores {desired : TagMap} {value : Unit}
    (held : memory.key? keyId = some stored)
    (yields : Pass.Yields Memory.service (apply keyId desired) memory value after) :
    after.key? keyId = some { stored with tags := stored.tags.insertAll desired.toTags } := by
  unfold apply at yields
  split at yields
  next =>
    let added (key : StoredKey) : StoredKey := { key with tags := key.tags.insertAll desired.toTags }
    exact Memory.key?_of_call added held yields fun _ => rfl
  next none =>
    obtain ⟨-, rfl⟩ := Pass.yields_pure.mp yields
    have empty : desired.toTags = [] := by
      simpa [TagMap.toTags, SortedMap.isEmpty] using none
    rw [empty]
    exact held

/-- The tags that a key has been left with are those that are wanted. -/
theorem TagSet.reconcile_stores {pages : Nat} {desired : TagMap} {value : Unit}
    (held : memory.key? keyId = some stored)
    (yields : Pass.Yields Memory.service (reconcile pages keyId desired) memory value after) :
    after.key? keyId = some { stored with tags := desired } := by
  obtain ⟨latest, listed, listing, rest⟩ := Pass.yields_bind.mp yields
  have tags : Memory.Reads False (list pages keyId) stored.tags memory :=
    list_reads False.elim (Memory.lookup_of_key? held) False.elim
  obtain ⟨rfl, onward⟩ := tags.only (.refl _) listing
  have kept := (onward.key? keyId).trans held
  dsimp only at rest
  rw [← TagMap.insertAll_eraseAll stored.tags desired]
  split at rest
  next =>
    obtain ⟨_, untagged, erased, added⟩ := Pass.yields_bind.mp rest
    let cleaned (key : StoredKey) : StoredKey :=
      { key with tags := key.tags.eraseAll (stored.tags.removedKeys desired) }
    exact apply_stores (Memory.key?_of_call cleaned kept erased fun _ => rfl) added
  next none =>
    have clean : stored.tags.removedKeys desired = [] := by simpa using none
    rw [clean]
    exact apply_stores kept rest

theorem RotationChange.plan?_spec (desired : Option Bool) (enabled : Bool) :
    match plan? desired (.ofStatus (some enabled)) with
    | none => desired.getD false = enabled
    | some .enable => desired.getD false = true
    | some .disable => desired.getD false = false := by
  cases enabled <;> rcases desired with _ | _ | _ <;> rfl

theorem Rotation.reconcile_stores {desired : Option Bool} {change? : Option RotationChange}
    (available : memory.rotationStatusUnavailable = false) (held : memory.key? keyId = some stored)
    (yields : Pass.Yields Memory.service (reconcile keyId desired) memory change? after) :
    after.key? keyId = some { stored with rotationEnabled := desired.getD false } := by
  obtain ⟨state, seen, observing, rest⟩ := Pass.yields_bind.mp yields
  have rotation : Memory.Reads False (observe keyId) _ memory :=
    observe_reads False.elim (Memory.lookup_of_key? held)
  obtain ⟨rfl, onward⟩ := rotation.only (.refl _) observing
  have kept := (onward.key? keyId).trans held
  simp only [Memory.rotationStatus, available, Bool.false_eq_true, if_false] at rest
  have wanted := RotationChange.plan?_spec desired stored.rotationEnabled
  cases planned : RotationChange.plan? desired (.ofStatus (some stored.rotationEnabled)) with
  | none =>
    rw [planned] at rest wanted
    obtain ⟨-, rfl⟩ := Pass.yields_pure.mp rest
    rw [show desired.getD false = _ from wanted]
    exact kept
  | some change =>
    rw [planned] at rest wanted
    obtain ⟨_, changed, applied, rest⟩ := Pass.yields_bind.mp rest
    obtain ⟨-, rfl⟩ := Pass.yields_pure.mp rest
    cases change with
    | enable =>
      rw [show desired.getD false = true from wanted]
      let enabled (key : StoredKey) : StoredKey := { key with rotationEnabled := true }
      exact Memory.key?_of_call enabled kept applied fun _ => rfl
    | disable =>
      rw [show desired.getD false = false from wanted]
      let disabled (key : StoredKey) : StoredKey := { key with rotationEnabled := false }
      exact Memory.key?_of_call disabled kept applied fun _ => rfl

namespace UpdateTarget

def applied (target : UpdateTarget) (stored : StoredKey) : UpdateStep → StoredKey
  | .policy => { stored with policy := target.policy?.or stored.policy }
  | .tags => { stored with tags := target.tags }
  | .rotation => { stored with rotationEnabled := target.enableKeyRotation.getD false }

variable {target : UpdateTarget} {pages : Nat}

theorem perform_stores {step : UpdateStep} {value : Unit}
    (available : step = .rotation → memory.rotationStatusUnavailable = false)
    (held : memory.key? target.keyId = some stored)
    (yields : Pass.Yields Memory.service (target.perform pages .converge step) memory value after) :
    after.key? target.keyId = some (target.applied stored step) := by
  cases step with
  | policy =>
    simp only [perform] at yields
    split at yields
    next policy wanted =>
      rw [applied, wanted]
      let replaced (key : StoredKey) : StoredKey := { key with policy := some policy }
      exact Memory.key?_of_call replaced held yields fun _ => rfl
    next none =>
      obtain ⟨-, rfl⟩ := Pass.yields_pure.mp yields
      rw [applied, none]
      exact held
  | tags => exact TagSet.reconcile_stores held yields
  | rotation =>
    obtain ⟨change?, reached, reconciled, rest⟩ := Pass.yields_bind.mp yields
    obtain ⟨-, rfl⟩ := Pass.yields_pure.mp rest
    exact Rotation.reconcile_stores (available rfl) held reconciled

/-- Steps that all succeed are applied in their order. -/
theorem performAll_stores {steps : List UpdateStep} {outcome : DispatchOutcome}
    (available : memory.rotationStatusUnavailable = false)
    (held : memory.key? target.keyId = some stored)
    (ends : (target.performAll pages .converge steps).eval Memory.service memory =
      (.finished outcome, after)) (succeeds : outcome.failure = none) :
    after.key? target.keyId = some (steps.foldl target.applied stored) := by
  induction steps generalizing memory stored outcome with
  | nil =>
    cases ends
    exact held
  | cons step rest ih =>
    unfold performAll at ends
    obtain ⟨result, middle, performed, ends⟩ := Program.eval_bind_inv ends
    cases result with
    | error failure =>
      cases ends
      cases succeeds
    | ok value =>
      obtain ⟨others, last, ends, joined⟩ := Program.eval_bind_inv ends
      cases joined
      have continues := Memory.yields_continues performed
      exact ih (continues.rotationStatusUnavailable.trans available)
        (perform_stores (fun _ => available) held performed) ends succeeds

theorem foldl_applied_metadata (target : UpdateTarget) (steps : List UpdateStep) (stored : StoredKey) :
    (steps.foldl target.applied stored).metadata = stored.metadata := by
  induction steps generalizing stored with
  | nil => rfl
  | cons step rest ih =>
    rw [List.foldl_cons, ih]
    cases step <;> rfl

theorem foldl_requiredSteps (target : UpdateTarget) (delta : Delta) (stored : StoredKey) :
    (target.requiredSteps delta).foldl target.applied stored =
      { stored with
        policy :=
          if target.isRequired delta .policy then target.policy?.or stored.policy else stored.policy
        tags := if target.isRequired delta .tags then target.tags else stored.tags
        rotationEnabled :=
          if target.isRequired delta .rotation then target.enableKeyRotation.getD false
          else stored.rotationEnabled } := by
  simp only [requiredSteps, List.filter]
  cases target.isRequired delta .policy <;> cases target.isRequired delta .tags <;>
    cases target.isRequired delta .rotation <;> rfl

end UpdateTarget

end KeySteward
