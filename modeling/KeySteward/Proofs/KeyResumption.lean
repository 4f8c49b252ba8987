import KeySteward.Controller.Pass
import KeySteward.Proofs.KeyInterruption

/-! A pass over a key that is cut short and the pass after it. Each call that a spec requires of a key
leads towards one and the same key, so the calls that are left lead there from wherever the first pass
has stopped. A second pass that nothing disturbs therefore ends as a single one would have ended. -/

namespace KeySteward

open Memory (Resembles faulty Harmless)

variable {memory model : Memory} {stored : StoredKey} {scope : AccountScope} {pages : Nat}
variable {faults : Nat → Option ServiceError} {schedule : Schedule}

namespace KeySpec

variable {spec : KeySpec} {available : Bool}

private theorem policyOver_wanted {wanted : String} (asked : spec.policy = some wanted) :
    spec.policyOver (some wanted) = some wanted := by
  simp [policyOver, asked, Policy.equivalent_refl]

section After

variable {request : Request} {key : StoredKey}

private theorem required_after_policy (member : request ∈ spec.policyCalls stored)
    (same : spec.policyOver key.policy = spec.policyOver stored.policy) :
    spec.required available (key.after request) = spec.required available key := by
  unfold policyCalls at member
  split at member
  next => cases member
  next wanted asked =>
    split at member
    next => cases member
    next unlike =>
      have wanting : spec.policyOver stored.policy = some wanted := by
        simp only [policyOver, asked, if_neg unlike]
      obtain rfl := List.mem_singleton.mp member
      simp only [required, StoredKey.after, policyOver_wanted asked, same, wanting]

private theorem required_after_tags (member : request ∈ spec.tagCalls stored) :
    spec.required available (key.after request) = spec.required available key := by
  unfold tagCalls at member
  split at member
  next => cases member
  next =>
    rcases List.mem_append.mp member with erased | added
    · split at erased
      · cases erased
      · obtain rfl := List.mem_singleton.mp erased
        rfl
    · split at added
      · cases added
      · obtain rfl := List.mem_singleton.mp added
        rfl

private theorem required_after_rotation (member : request ∈ spec.rotationCalls available stored) :
    spec.required available (key.after request) = spec.required available key := by
  unfold rotationCalls at member
  split at member
  next status =>
    simp only [required, status, if_true]
    split at member
    · obtain rfl := List.mem_singleton.mp member
      rfl
    · obtain rfl := List.mem_singleton.mp member
      rfl
    · cases member
    · cases member
  next => cases member

private theorem required_after (member : request ∈ spec.requiredCalls available stored)
    (same : spec.required available key = spec.required available stored) :
    spec.required available (key.after request) = spec.required available stored := by
  rw [← same]
  simp only [requiredCalls, List.mem_append] at member
  rcases member with (policy | tags) | rotation
  · exact required_after_policy policy (congrArg StoredKey.policy same)
  · exact required_after_tags tags
  · exact required_after_rotation rotation

end After

private theorem required_foldl {made : List Request}
    (inside : made ⊆ spec.requiredCalls available stored) :
    spec.required available (made.foldl StoredKey.after stored) = spec.required available stored := by
  -- Each call leaves another key than the stored one, so the induction is on the calls from any key
  -- that is to become the same.
  suffices onward : ∀ key, spec.required available key = spec.required available stored →
      spec.required available (made.foldl StoredKey.after key) = spec.required available stored from
    onward stored rfl
  induction made with
  | nil => exact fun key same => same
  | cons request rest ih =>
    intro key same
    obtain ⟨member, others⟩ := List.cons_subset.mp inside
    exact ih others _ (required_after member same)

/-- Where some of the calls have been made, those that are left lead to the same key as all. -/
theorem foldl_adjustments {made : List Request}
    (begins : made <+: spec.adjustments available stored) :
    let partly := made.foldl StoredKey.after stored
    (spec.adjustments available partly).foldl StoredKey.after partly =
      (spec.adjustments available stored).foldl StoredKey.after stored := by
  intro partly
  have metadata : partly.metadata = stored.metadata := stored.foldl_after_metadata made
  simp only [adjustments, metadata] at begins ⊢
  split
  next living =>
    rw [if_pos living] at begins
    rw [foldl_requiredCalls, foldl_requiredCalls, required_foldl begins.subset]
  next left =>
    rw [if_neg left] at begins
    obtain rfl := List.prefix_nil.mp begins
    rfl

end KeySpec

def Request.tagsAdded : Request → List Tag
  | .tagResource _ tags => tags
  | _ => []

private theorem StoredKey.size_foldl_after_le (stored : StoredKey) (calls : List Request) :
    (calls.foldl after stored).tags.size ≤
      stored.tags.size + (calls.flatMap Request.tagsAdded).length := by
  induction calls generalizing stored with
  | nil => exact Nat.le_refl _
  | cons request rest ih =>
    have once : (stored.after request).tags.size ≤ stored.tags.size + request.tagsAdded.length := by
      cases request
      case tagResource keyId tags => exact stored.tags.size_insertAll_le tags
      case untagResource keyId tagKeys => exact stored.tags.size_eraseAll_le tagKeys
      all_goals exact Nat.le_refl _
    have others := ih (stored.after request)
    rw [List.foldl_cons, List.flatMap_cons, List.length_append]
    omega

namespace KeySpec

variable {spec : KeySpec} {available : Bool}

private theorem tagsAdded_adjustments_le (spec : KeySpec) (available : Bool) (stored : StoredKey) :
    ((spec.adjustments available stored).flatMap Request.tagsAdded).length ≤
      if stored.tags = spec.tags then 0 else spec.tags.size := by
  have policy : (spec.policyCalls stored).flatMap Request.tagsAdded = [] := by
    unfold policyCalls
    split
    · rfl
    · split <;> rfl
  have tags : ((spec.tagCalls stored).flatMap Request.tagsAdded).length ≤
      if stored.tags = spec.tags then 0 else spec.tags.size := by
    unfold tagCalls
    split
    · exact Nat.le_refl _
    · dsimp only
      rw [List.flatMap_append]
      split <;> split <;> simp [Request.tagsAdded]
  have rotation : (spec.rotationCalls available stored).flatMap Request.tagsAdded = [] := by
    unfold rotationCalls
    split
    · split <;> rfl
    · rfl
  unfold adjustments requiredCalls
  split
  · rw [List.flatMap_append, List.flatMap_append, policy, rotation, List.nil_append, List.append_nil]
    exact tags
  · exact Nat.zero_le _

def tagBound (spec : KeySpec) (stored : StoredKey) : Nat :=
  stored.tags.size + if stored.tags = spec.tags then 0 else spec.tags.size

private theorem size_foldl_adjustments_le {made : List Request}
    (begins : made <+: spec.adjustments available stored) :
    (made.foldl StoredKey.after stored).tags.size ≤ spec.tagBound stored := by
  have all := tagsAdded_adjustments_le spec available stored
  obtain ⟨rest, split⟩ := begins
  rw [← split, List.flatMap_append, List.length_append] at all
  have grown := stored.size_foldl_after_le made
  unfold tagBound
  omega

end KeySpec

namespace Key

variable {desired : Key} {name keyId : String}

/-- An undisturbed pass over the service as it is ends with the failure, if there is one, and leaves
the key as it is stored for the status that the pass leaves. -/
def Concludes (scope : AccountScope) (pages : Nat) (desired : Key) (memory : Memory)
    (failure? : Option Failure) (stored : StoredKey) : Prop :=
  ∃ result last,
    ((manager scope pages).reconcile desired).run.run Memory.service .calm { state := memory } =
      (.finished result, last) ∧
    Controller.failure? result = failure? ∧
    ∃ keyId, (desired.statusAfter result).bind KeyStatus.keyId = some keyId ∧
      last.state.store.find? keyId = some stored

/-- Where a pass concludes, it comes to its end over a service with faults as well. -/
theorem Concludes.finishes {failure? : Option Failure} {run : Run (Nat × Memory)}
    (concludes : Concludes scope pages desired model failure? stored) (harmless : Harmless faults)
    (like : Resembles run.state model) (schedule : Schedule) :
    ∃ result last, ((manager scope pages).reconcile desired).run.run (faulty faults) schedule run =
      (.finished result, last) := by
  obtain ⟨result, last, ends, -⟩ := concludes
  have free : ({ state := model } : Run Memory).IsFree := ⟨rfl, rfl⟩
  have calm := ((manager scope pages).reconcile desired).run.run_calm Memory.service free
  rw [ends] at calm
  exact (reconcile_heeds scope pages desired).run_finishes (Memory.faulty_imitates harmless) schedule
    like (congrArg Prod.fst calm).symm

private theorem concludes_found (desired : Key) (scope : AccountScope) (pages : Nat)
    (keyed : memory.store.IsKeyed) (unrefused : memory.refusals = []) (known : desired.keyId? = some name)
    (found : memory.lookup name = .ok (keyId, stored))
    (room : stored.tags.size ≤ Text.greatestWord ∧ stored.tags.size < pages) :
    Concludes scope pages desired memory
      (Controller.failure?
        (desired.conclusion (desired.asFound scope (memory.rotationStatus stored) stored)))
      ((desired.spec.adjustments (!memory.rotationStatusUnavailable) stored).foldl StoredKey.after
        stored) := by
  have makes := reconcile_makes desired scope keyed known found unrefused fun _ => room
  have free : ({ state := memory } : Run Memory).IsFree := ⟨rfl, rfl⟩
  obtain ⟨last, ends, stands⟩ := makes.run free
  obtain rfl : stored.metadata.keyId = keyId := keyed _ _ (Memory.key?_of_lookup found)
  refine ⟨_, last, ends, rfl, ?_⟩
  have named {name : String} (found : memory.lookup name = .ok (stored.metadata.keyId, stored)) :
      last.state.store.find? name = some _ := Memory.find?_of_lookup (stands.lookup found)
  by_cases fits : desired.spec.Fits stored.metadata
  · rw [conclusion_of_fits fits scope]
    refine ⟨stored.metadata.keyId, ?_, named (Memory.lookup_of_key? (Memory.key?_of_lookup found))⟩
    simp only [statusAfter, asFound_status]
    rfl
  · obtain ⟨message, refused⟩ := conclusion_of_unfit fits scope (memory.rotationStatus stored)
    rw [refused]
    exact ⟨name, known, named found⟩

private theorem concludes_missing (desired : Key) (scope : AccountScope) (pages : Nat)
    (unrefused : memory.refusals = []) (missing : desired.IsMissing memory) :
    Concludes scope pages desired memory none
      ((desired.spec.adjustments (!memory.rotationStatusUnavailable)
        (memory.nextKey desired.spec)).foldl StoredKey.after (memory.nextKey desired.spec)) := by
  obtain ⟨reached, reads, fails⟩ := readOne_missing scope pages missing unrefused
  obtain ⟨made, handled, continues, -, held⟩ :=
    Memory.handle_createKey (reads.unrefused unrefused) desired.spec
  rw [reads.nextKey] at handled held
  have started := startRotation_makes desired scope
    (continues.unrefused (reads.unrefused unrefused)) held rfl
  rw [continues.rotationStatusUnavailable, reads.continues.rotationStatusUnavailable] at started
  obtain ⟨after, ended, stands⟩ := started.ends
  have yields : Pass.Yields Memory.service ((manager scope pages).reconcile desired) memory
      (desired.observe scope (memory.nextKey desired.spec).metadata) after := by
    rw [Pass.Yields, Manager.run_reconcile]
    refine (Program.eval_bind_finished _ fails).trans ?_
    change (create scope desired).run.eval _ _ = _
    rw [run_create]
    simp only [Program.eval, handled]
    exact ended
  have free : ({ state := memory } : Run Memory).IsFree := ⟨rfl, rfl⟩
  obtain ⟨last, finished, rfl⟩ := yields.run_calm free
  refine ⟨_, last, finished, rfl, (memory.nextKey desired.spec).metadata.keyId, rfl, ?_⟩
  rw [Memory.adjustments_nextKey]
  exact Memory.find?_of_lookup (stands.lookup (Memory.lookup_of_key? held))

private theorem failure?_conclusion_partly (desired : Key) (scope : AccountScope)
    {status : Option KeyStatus}
    {available : Bool} {made : List Request}
    (begins : made <+: desired.spec.adjustments available stored) (memory : Memory) :
    let again : Key := { desired with status }
    let partly := made.foldl StoredKey.after stored
    Controller.failure? (again.conclusion (again.asFound scope (memory.rotationStatus partly) partly)) =
      Controller.failure?
        (desired.conclusion (desired.asFound scope (memory.rotationStatus stored) stored)) := by
  intro again partly
  have metadata : partly.metadata = stored.metadata := stored.foldl_after_metadata made
  by_cases fits : desired.spec.Fits stored.metadata
  · have still : again.spec.Fits partly.metadata := metadata ▸ fits
    rw [conclusion_of_fits fits scope, conclusion_of_fits still scope]
    rfl
  · rw [KeySpec.adjustments, if_neg (by simp [fits])] at begins
    obtain rfl := List.prefix_nil.mp begins
    have same : Manager.delta again (again.asFound scope (memory.rotationStatus stored) stored) =
        Manager.delta desired (desired.asFound scope (memory.rotationStatus stored) stored) := by
      unfold asFound
      dsimp only
      split <;> rfl
    change Controller.failure?
      (again.conclusion (again.asFound scope (memory.rotationStatus stored) stored)) = _
    unfold conclusion
    rw [same]
    split <;> rfl

/-- A key that has been changed in part, and that the status names, is changed to its end. -/
theorem concludes_partly (desired : Key) (scope : AccountScope) {status : Option KeyStatus}
    {state : Nat × Memory} {reached : Memory} {made : List Request}
    (keyed : state.2.store.IsKeyed) (like : Resembles state reached)
    (available : reached.rotationStatusUnavailable = model.rotationStatusUnavailable)
    (begins : made <+: desired.spec.adjustments (!model.rotationStatusUnavailable) stored)
    (known : status.bind KeyStatus.keyId = some name)
    (found : reached.lookup name = .ok (keyId, made.foldl StoredKey.after stored))
    (room : desired.spec.tagBound stored ≤ Text.greatestWord ∧
      desired.spec.tagBound stored < pages) :
    Concludes scope pages { desired with status } state.2.withoutRefusals
      (Controller.failure?
        (desired.conclusion (desired.asFound scope (model.rotationStatus stored) stored)))
      ((desired.spec.adjustments (!model.rotationStatusUnavailable) stored).foldl StoredKey.after
        stored) := by
  have size := KeySpec.size_foldl_adjustments_le begins
  have same : state.2.rotationStatusUnavailable = model.rotationStatusUnavailable :=
    like.rotationStatusUnavailable.trans available
  have rotation (key : StoredKey) :
      state.2.withoutRefusals.rotationStatus key = model.rotationStatus key := by
    change (if state.2.rotationStatusUnavailable then none else some key.rotationEnabled) = _
    rw [same]
    rfl
  have keyed : state.2.withoutRefusals.store.IsKeyed := keyed
  have concludes := concludes_found { desired with status } scope pages keyed rfl known
    ((like.lookup name).trans found) ⟨Nat.le_trans size room.1, Nat.lt_of_le_of_lt size room.2⟩
  rw [rotation, failure?_conclusion_partly desired scope begins model] at concludes
  change Concludes _ _ _ _ _ ((desired.spec.adjustments (!state.2.rotationStatusUnavailable) _).foldl
    _ _) at concludes
  rwa [same, KeySpec.foldl_adjustments begins] at concludes

private theorem reconcile_found_over_faults (harmless : Harmless faults) {run last : Run (Nat × Memory)}
    (like : Resembles run.state model) (keyed : model.store.IsKeyed) (known : desired.keyId? = some name)
    (found : model.lookup name = .ok (keyId, stored))
    (room : stored.tags.size ≤ Text.greatestWord ∧ stored.tags.size < pages)
    (inTime : ((manager scope pages).reconcile desired).run.InTime (faulty faults) schedule
      Request.CreatesKey run) {result : Except (FailedUpdate Key) Key}
    (ends : ((manager scope pages).reconcile desired).run.run (faulty faults) schedule run =
      (.finished result, last)) :
    ∃ reached made left, model.Stands keyId stored made reached ∧ Resembles last.state reached ∧
      made <+: desired.spec.adjustments (!model.rotationStatusUnavailable) stored ∧
      (desired.statusAfter result).bind KeyStatus.keyId = some left ∧
      reached.lookup left = .ok (keyId, made.foldl StoredKey.after stored) := by
  have makes := reconcile_makes desired scope keyed known found like.unrefused fun _ => room
  have reads : Memory.Reads True (readOne scope pages desired) _ model :=
    readOne_reads scope known found (fun _ => like.unrefused) fun _ _ => room
  obtain rfl : stored.metadata.keyId = keyId := keyed _ _ (Memory.key?_of_lookup found)
  have itself := Memory.lookup_of_key? (Memory.key?_of_lookup found)
  obtain ⟨reached, member, onward⟩ := (reconcile_heeds scope pages desired).run_stays
    (Memory.faulty_imitates harmless) schedule like
  rw [ends] at onward
  obtain ⟨made, begins, stands⟩ := makes.along reached member
  refine ⟨reached, made, ?_⟩
  have named : ∃ left, (desired.statusAfter result).bind KeyStatus.keyId = some left ∧
      model.lookup left = .ok (stored.metadata.keyId, stored) := by
    cases reconcile_over_faults harmless like inTime ends with
    | unchanged => exact ⟨name, known, found⟩
    | found yields _ _ synced =>
      rcases sync_status synced with same | same
      · obtain ⟨rfl, -⟩ := reads.only (.refl model) yields
        rw [same, asFound_status]
        exact ⟨_, rfl, itself⟩
      · rw [same]
        exact ⟨name, known, found⟩
    | created fails =>
      obtain ⟨_, -, yields⟩ := reads.does trivial (.refl model)
      cases yields.symm.trans fails
  obtain ⟨left, recorded, there⟩ := named
  exact ⟨left, stands, onward, begins, recorded, stands.lookup there⟩

private theorem reconcile_missing_over_faults (harmless : Harmless faults)
    {run last : Run (Nat × Memory)}
    (like : Resembles run.state model) (missing : desired.IsMissing model)
    (inTime : ((manager scope pages).reconcile desired).run.InTime (faulty faults) schedule
      Request.CreatesKey run) {result : Except (FailedUpdate Key) Key}
    (ends : ((manager scope pages).reconcile desired).run.run (faulty faults) schedule run =
      (.finished result, last)) :
    let key := model.nextKey desired.spec
    (∃ reached, model.ReadOnly reached ∧ Resembles last.state reached ∧
      desired.statusAfter result = desired.status) ∨
    ∃ begun reached made, model.Continues begun ∧ begun.Stands key.metadata.keyId key made reached ∧
      Resembles last.state reached ∧
      made <+: desired.spec.adjustments (!model.rotationStatusUnavailable) key ∧
      (desired.statusAfter result).bind KeyStatus.keyId = some key.metadata.keyId := by
  intro key
  obtain ⟨_, -, absent⟩ := readOne_missing scope pages missing like.unrefused
  cases reconcile_over_faults harmless like inTime ends with
  | unchanged reads onward => exact .inl ⟨_, reads, onward, rfl⟩
  | found yields => cases yields.symm.trans absent
  | @created _ begun made middle _ _ _ _ reads handled alike started =>
    right
    have unrefused := reads.unrefused like.unrefused
    obtain ⟨_, again, continues, -, held⟩ := Memory.handle_createKey unrefused desired.spec
    rw [reads.nextKey] at again held
    cases handled.symm.trans again
    have makes := startRotation_makes desired scope (continues.unrefused unrefused) held rfl
    obtain ⟨reached, member, onward⟩ :=
      (startRotation_heeds scope desired (model.nextKey desired.spec).metadata).run_stays
        (Memory.faulty_imitates harmless) schedule alike
    rw [started] at onward
    obtain ⟨calls, begins, stands⟩ := makes.along reached member
    have onto := reads.continues.trans continues
    rw [onto.rotationStatusUnavailable, ← Memory.adjustments_nextKey] at begins
    refine ⟨made, reached, calls, onto, stands, onward, begins, ?_⟩
    rw [startRotation_status started]
    rfl

section Again

variable {run last : Run (Nat × Memory)} (harmless : Harmless faults)
  (like : Resembles run.state model) (keyed : run.state.2.store.IsKeyed)
  (inTime : ((manager scope pages).reconcile desired).run.InTime (faulty faults) schedule
    Request.CreatesKey run)
  {result : Except (FailedUpdate Key) Key}
  (ends : ((manager scope pages).reconcile desired).run.run (faulty faults) schedule run =
    (.finished result, last))

include harmless like keyed inTime ends

private theorem concludes_again_found (known : desired.keyId? = some name)
    (found : model.lookup name = .ok (keyId, stored))
    (room : desired.spec.tagBound stored ≤ Text.greatestWord ∧
      desired.spec.tagBound stored < pages) :
    Concludes scope pages { desired with status := desired.statusAfter result }
      last.state.2.withoutRefusals
      (Controller.failure?
        (desired.conclusion (desired.asFound scope (model.rotationStatus stored) stored)))
      ((desired.spec.adjustments (!model.rotationStatusUnavailable) stored).foldl StoredKey.after
        stored) := by
  have enough : stored.tags.size ≤ Text.greatestWord ∧ stored.tags.size < pages := by
    unfold KeySpec.tagBound at room
    omega
  have modelled : model.store.IsKeyed := like.store ▸ keyed
  have still := Memory.run_faulty_isKeyed faults ((manager scope pages).reconcile desired).run
    schedule keyed
  rw [ends] at still
  obtain ⟨reached, made, left, stands, onward, begins, recorded, there⟩ :=
    reconcile_found_over_faults harmless like modelled known found enough inTime ends
  exact concludes_partly desired scope still onward stands.continues.rotationStatusUnavailable begins
    recorded there room

private theorem concludes_again_missing (missing : desired.IsMissing model)
    (room : desired.spec.tags.size ≤ Text.greatestWord ∧ desired.spec.tags.size < pages) :
    Concludes scope pages { desired with status := desired.statusAfter result }
      last.state.2.withoutRefusals none
      ((desired.spec.adjustments (!model.rotationStatusUnavailable)
        (model.nextKey desired.spec)).foldl StoredKey.after (model.nextKey desired.spec)) := by
  rcases reconcile_missing_over_faults harmless like missing inTime ends with
    ⟨reached, reads, onward, same⟩ | ⟨begun, reached, made, continues, stands, onward, begins, recorded⟩
  · have still : desired.IsMissing last.state.2.withoutRefusals := by
      intro name known found
      rw [onward.lookup, reads.lookup]
      exact missing name known found
    have next : last.state.2.withoutRefusals.nextKey desired.spec = model.nextKey desired.spec :=
      Memory.nextKey_congr (onward.config.trans reads.continues.config)
        (onward.issuedKeys.trans reads.issuedKeys) desired.spec
    have available : last.state.2.withoutRefusals.rotationStatusUnavailable = _ :=
      onward.rotationStatusUnavailable.trans reads.continues.rotationStatusUnavailable
    have again := concludes_missing desired scope pages rfl still
    rw [next, available] at again
    rw [same]
    exact again
  · have fits := model.nextKey_fits desired.spec
    have bound : desired.spec.tagBound (model.nextKey desired.spec) = desired.spec.tags.size :=
      (congrArg _ (if_pos rfl)).trans (Nat.add_zero _)
    have available := stands.continues.rotationStatusUnavailable.trans
      continues.rotationStatusUnavailable
    have still := Memory.run_faulty_isKeyed faults ((manager scope pages).reconcile desired).run
      schedule keyed
    rw [ends] at still
    have again := concludes_partly desired scope still onward available begins recorded
      (Memory.lookup_of_key? stands.held) (bound ▸ room)
    rwa [conclusion_of_fits fits scope] at again

end Again

/-- A pass that is cut short can be resumed: by faults that do not say that something does not exist,
by its cancellation, or by its deadline unless a key is being created. The next pass, with the status
that the first one leaves, ends as the first one would have ended, and leaves the key the same. -/
theorem reconcile_resumes {run : Run (Nat × Memory)} (reachable : run.state.2.Reachable)
    (expected : ∀ refusal ∈ run.state.2.refusals, refusal.2.isNotFound = false)
    (harmless : Harmless faults)
    (inTime : ((manager scope pages).reconcile desired).run.InTime (faulty faults) schedule
      Request.CreatesKey run)
    (counted : run.state.2.pageBound + desired.spec.tags.size ≤ Text.greatestWord)
    (room : run.state.2.pageBound + desired.spec.tags.size ≤ pages) :
    ∃ result last, ((manager scope pages).reconcile desired).run.run (faulty faults) schedule run =
        (.finished result, last) ∧
      ∃ failure? stored,
        (∀ failure, failure? = some failure → ∃ message, failure = .terminal message) ∧
        Concludes scope pages desired run.state.2.withoutRefusals failure? stored ∧
        Concludes scope pages { desired with status := desired.statusAfter result }
          last.state.2.withoutRefusals failure? stored := by
  let model := run.state.2.withoutRefusals
  have like : Resembles run.state model := .self expected
  have keyed : run.state.2.store.IsKeyed := reachable.isKeyed
  by_cases missing : desired.IsMissing model
  · have single := concludes_missing desired scope pages rfl missing
    obtain ⟨result, last, ends⟩ := single.finishes harmless like schedule
    have bound : 0 < run.state.2.pageBound := Nat.succ_pos _
    exact ⟨result, last, ends, none, _, nofun, single,
      concludes_again_missing harmless like keyed inTime ends missing ⟨by omega, by omega⟩⟩
  · obtain ⟨name, known, ⟨keyId, stored⟩, found⟩ : ∃ name, desired.keyId? = some name ∧
        ∃ found, model.lookup name = .ok found := by
      simpa [IsMissing] using missing
    have held : stored.tags.size < run.state.2.pageBound :=
      Memory.tags_lt_pageBound (Memory.key?_of_lookup found)
    have bound : desired.spec.tagBound stored ≤ stored.tags.size + desired.spec.tags.size := by
      unfold KeySpec.tagBound
      split <;> omega
    have modelled : model.store.IsKeyed := keyed
    have single := concludes_found desired scope pages modelled rfl known found ⟨by omega, by omega⟩
    obtain ⟨result, last, ends⟩ := single.finishes harmless like schedule
    refine ⟨result, last, ends, _, _, fun failure refused => ?_, single,
      concludes_again_found harmless like keyed inTime ends known found ⟨by omega, by omega⟩⟩
    by_cases fits : desired.spec.Fits stored.metadata
    · rw [conclusion_of_fits fits scope] at refused
      cases refused
    · obtain ⟨message, unfit⟩ := conclusion_of_unfit fits scope (model.rotationStatus stored)
      rw [unfit] at refused
      exact ⟨message, (Option.some.inj refused).symm⟩

/-- A seeded key whose tags have come off when the service is too busy to put others on. -/
theorem reconcile_resumes_throttled :
    let memory := (({ config := .numbered } : Memory).act
      (.seedKey "k1" (.ofTags [⟨"env", "test"⟩]))).act (.setRotation "k1" true)
    let key : Key :=
      ⟨{ name := "key" }, { tags := .ofTags [⟨"team", "payments"⟩], policy := some "{}" },
        some { keyId := some "k1" }⟩
    let scope : AccountScope := ⟨"us-west-2", "000000000000"⟩
    let faults := Memory.faultAt 7 (.api "ThrottlingException" "slow down")
    ∃ result last, ((manager scope 4).reconcile key).run.run (faulty faults) .calm
        { state := (0, memory) } = (.finished result, last) ∧
      (last.state.2.key? "k1").map StoredKey.tags = some {} ∧
      ∃ failure? stored,
        (∀ failure, failure? = some failure → ∃ message, failure = .terminal message) ∧
        Concludes scope 4 key memory.withoutRefusals failure? stored ∧
        Concludes scope 4 { key with status := key.statusAfter result }
          last.state.2.withoutRefusals failure? stored := by
  intro memory key scope faults
  let run : Run (Nat × Memory) := { state := (0, memory) }
  have reachable : run.state.2.Reachable :=
    ((Memory.Reachable.start _).act (.seedKey _ _)).act (.setRotation _ _)
  have expected : ∀ refusal ∈ run.state.2.refusals, refusal.2.isNotFound = false := nofun
  have harmless : Harmless faults := Memory.harmless_faultAt 7 (by decide)
  have unlimited : run.deadline = none := rfl
  have inTime := Program.inTime_of_unlimited (faulty faults) .calm Request.CreatesKey
    ((manager scope 4).reconcile key).run unlimited
  have room : run.state.2.pageBound + key.spec.tags.size ≤ 4 := by decide
  have counted : run.state.2.pageBound + key.spec.tags.size ≤ Text.greatestWord :=
    Nat.le_trans room (by decide)
  obtain ⟨result, last, ends, resumes⟩ :=
    reconcile_resumes reachable expected harmless inTime counted room
  have tags : ((((manager scope 4).reconcile key).run.run (faulty faults) .calm run).2.state.2.key?
      "k1").map StoredKey.tags = some {} := by decide +kernel
  rw [ends] at tags
  exact ⟨result, last, ends, tags, resumes⟩

end Key

end KeySteward
