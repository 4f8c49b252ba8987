import KeySteward.Proofs.KeyInterruption

/-! Series of passes over one resource. The spec may change from pass to pass, and any pass may meet
faults or be cut short; the status that a pass leaves goes into the next one. A series creates at most
one key, and records it from then on. -/

namespace KeySteward

open Memory (Resembles faulty Harmless)

variable {memory after model : Memory} {request : Request} {stored : StoredKey} {keyId : String}
variable {faults : Nat → Option ServiceError} {schedule : Schedule}

namespace Memory

/-- No key has been created, and none is gone. -/
structure Keeps (before after : Memory) : Prop where
  issuedKeys : after.issuedKeys = before.issuedKeys
  keys : ∀ keyId, (before.key? keyId).isSome → (after.key? keyId).isSome

namespace Keeps

theorem refl (memory : Memory) : Keeps memory memory :=
  ⟨rfl, fun _ held => held⟩

theorem trans {first second third : Memory} (before : Keeps first second)
    (later : Keeps second third) : Keeps first third :=
  ⟨later.issuedKeys.trans before.issuedKeys, fun keyId held => later.keys keyId (before.keys keyId held)⟩

private theorem insert (memory : Memory) (keyId : String) (key : StoredKey) :
    Keeps memory (memory.withStore
      { memory.store with keys := memory.store.keys.insert keyId key }) := by
  refine ⟨rfl, fun other held => ?_⟩
  simp only [key?, withStore, SortedMap.get?_insert]
  split
  · rfl
  · exact held

end Keeps

private theorem ReadOnly.keeps (reads : memory.ReadOnly after) : memory.Keeps after :=
  ⟨reads.issuedKeys, fun keyId held => by rwa [reads.key? keyId]⟩

private theorem Resembles.keeps {state : Nat × Memory} (like : Resembles state model) :
    model.Keeps state.2 :=
  ⟨like.issuedKeys, fun keyId held => by rwa [key?, like.store]⟩

/-- The service issues the id of a key when it creates the key, and for nothing else. -/
theorem perform_keeps {answer : request.Answer} (other : ¬ request.CreatesKey)
    (performed : perform request memory = .ok (answer, after)) : memory.Keeps after := by
  cases request
  case createKey input => exact absurd ⟨input, rfl⟩ other
  case enableKeyRotation | disableKeyRotation | putKeyPolicy | tagResource | untagResource =>
    simp only [perform, changeKey_eq_ok] at performed
    obtain ⟨_, _, -, rfl⟩ := performed
    exact .insert memory _ _
  case replicateKey =>
    obtain ⟨primaryId, _, known, replica, -, rfl, -⟩ := replicateKey_ok performed
    exact (Keeps.insert memory primaryId known).trans (.insert _ _ replica)
  case scheduleKeyDeletion =>
    obtain ⟨_, _, _, -, rfl, -⟩ := scheduleKeyDeletion_ok performed
    exact .insert memory _ _
  case createAlias | updateAlias | deleteAlias | createGrant | retireGrant =>
    obtain ⟨_, _, _, rfl⟩ := perform_aside rfl performed
    exact ⟨rfl, fun _ held => held⟩
  all_goals
    rw [perform_asks rfl performed]
    exact .refl memory

private theorem handle_keeps (other : ¬ request.CreatesKey) (memory : Memory) :
    memory.Keeps (service.handle request memory).2 := by
  have same {refusals journal} : memory.Keeps { memory with refusals, journal } :=
    ⟨rfl, fun _ held => held⟩
  simp only [service, handle]
  split
  · exact same
  · split
    next performed => exact same.trans (perform_keeps other performed)
    next => exact same

private theorem run_faulty_keeps {α : Type} {program : Program α}
    (uses : program.Uses fun request => ¬ request.CreatesKey) {run last : Run (Nat × Memory)} {ending}
    (ends : program.run (faulty faults) schedule run = (ending, last)) :
    run.state.2.Keeps last.state.2 := by
  have kept : run.state.2.Keeps (program.run (faulty faults) schedule run).2.state.2 :=
    run_faulty_related Keeps Keeps.refl Keeps.trans (fun _ _ => ⟨rfl, fun _ held => held⟩)
      (fun _ memory other => handle_keeps other memory) uses schedule run
  rwa [ends] at kept

end Memory

namespace Key

/-- The service and the status of a resource between two passes over it. -/
structure Standing where
  memory : Memory
  status : Option KeyStatus

namespace Standing

def keyId? (standing : Standing) : Option String :=
  standing.status.bind KeyStatus.keyId

/-- One more pass, over any spec and on any schedule. Calls may meet faults that do not say that
something does not exist, and the deadline does not pass while a key is being created. The next
status records the same id as the one that the pass leaves. -/
inductive Leads : Standing → Standing → Prop where
  | pass {scope : AccountScope} {pages : Nat} {desired : Key} {faults : Nat → Option ServiceError}
      {schedule : Schedule} {run last : Run (Nat × Memory)}
      {result : Except (FailedUpdate Key) Key} {status : Option KeyStatus}
      (harmless : Harmless faults)
      (inTime : ((manager scope pages).reconcile desired).run.InTime (faulty faults) schedule
        Request.CreatesKey run)
      (ends : ((manager scope pages).reconcile desired).run.run (faulty faults) schedule run =
        (.finished result, last))
      (kept : status.bind KeyStatus.keyId = (desired.statusAfter result).bind KeyStatus.keyId) :
      Leads ⟨run.state.2, desired.status⟩ ⟨last.state.2, status⟩

inductive Series (start : Standing) : Standing → Prop where
  | start : Series start start
  | pass {middle last : Standing} (passes : Series start middle) (next : middle.Leads last) :
      Series start last

/-- One key has been created since the start. It is there, and the status records it. -/
structure Created (start : Memory) (standing : Standing) : Prop where
  issuedKeys : standing.memory.issuedKeys = start.issuedKeys + 1
  keyId? : standing.keyId? = some (start.config.ids.key start.issuedKeys)
  held : (standing.memory.key? (start.config.ids.key start.issuedKeys)).isSome

/-- No more than one key has been created since the start. -/
structure Sound (start : Memory) (standing : Standing) : Prop where
  continues : start.Continues standing.memory
  keyed : standing.memory.store.IsKeyed
  created : standing.memory.issuedKeys = start.issuedKeys ∧ standing.keyId? = none ∨
    Created start standing

variable {start before after : Standing}

private theorem Created.keeps {start : Memory} (created : Created start before)
    (keeps : before.memory.Keeps after.memory) (same : after.keyId? = before.keyId?) :
    Created start after where
  issuedKeys := keeps.issuedKeys.trans created.issuedKeys
  keyId? := same.trans created.keyId?
  held := keeps.keys _ created.held

end Standing

private theorem readOne_present {scope : AccountScope} {pages : Nat} {key : Key} {failure : Failure}
    (unrefused : memory.refusals = []) (known : key.keyId? = some keyId)
    (held : memory.key? keyId = some stored)
    (fails : KeySteward.Pass.Fails Memory.service (readOne scope pages key) memory failure after) :
    failure.isNotFound = false := by
  refine Bool.eq_false_iff.mpr fun missing => ?_
  obtain ⟨last, ends, -⟩ := Program.run_calm_from fails
  have held : ({ state := memory } : Run Memory).state.key? keyId = some stored := held
  obtain ⟨_, -, -, error, listed, -⟩ := denied_of_missing held known ends missing
  rw [unrefused] at listed
  cases listed

private theorem sync_creates_none (scope : AccountScope) (pages : Nat) (desired latest : Key) :
    ((manager scope pages).sync desired latest).run.Uses fun request => ¬ request.CreatesKey :=
  (sync_uses scope pages desired latest).mono fun _ ⟨_, _, adjusts⟩ => adjusts.not_createsKey

private theorem startRotation_creates_none (scope : AccountScope) (desired : Key)
    (metadata : KeyMetadata) :
    (startRotation scope desired metadata).run.Uses fun request => ¬ request.CreatesKey :=
  (startRotation_uses scope desired metadata).mono fun _ adjusts => adjusts.not_createsKey

private theorem sync_keeps {scope : AccountScope} {pages : Nat} {desired latest : Key} {reached : Memory}
    {middle last : Run (Nat × Memory)} {result : Except (FailedUpdate Key) Key}
    (keyed : model.store.IsKeyed)
    (own : ∀ name, desired.keyId? = some name → (model.key? name).isSome)
    (yields : KeySteward.Pass.Yields Memory.service (readOne scope pages desired) model latest reached)
    (reads : model.ReadOnly reached) (like : Resembles middle.state reached)
    (ends : ((manager scope pages).sync desired latest).run.run (faulty faults) schedule middle =
      (.finished result, last)) :
    model.Keeps last.state.2 ∧
      (desired.statusAfter result).bind KeyStatus.keyId = desired.keyId? := by
  obtain ⟨name, keyId, stored, known, found, rfl, -⟩ := readOne_found yields
  -- What the status records is the id of a key, so no alias of that name comes before it.
  obtain ⟨held, there⟩ := Option.isSome_iff_exists.mp (own name known)
  have itself : model.lookup name = .ok (name, held) := Memory.lookup_of_key? there
  cases found.symm.trans itself
  have named : stored.metadata.keyId = name := keyed _ _ there
  have kept := Memory.run_faulty_keeps (sync_creates_none scope pages desired _) ends
  refine ⟨(reads.keeps.trans like.keeps).trans kept, ?_⟩
  rcases sync_status ends with same | same
  · rw [same, asFound_status]
    exact (congrArg some named).trans known.symm
  · rw [same]
    rfl

namespace Standing

variable {start before after : Standing}

private theorem created_of_startRotation {scope : AccountScope} {desired : Key} {reached made : Memory}
    {middle last : Run (Nat × Memory)} {result : Except (FailedUpdate Key) Key}
    (unrefused : model.refusals = []) (reads : model.ReadOnly reached)
    (handled : Memory.service.handle (.createKey desired.spec.newKey) reached =
      (.ok (model.nextKey desired.spec).metadata, made))
    (like : Resembles middle.state made)
    (ends : (startRotation scope desired (model.nextKey desired.spec).metadata).run.run
      (faulty faults) schedule middle = (.finished result, last)) :
    Created model ⟨last.state.2, desired.statusAfter result⟩ := by
  obtain ⟨_, again, -, issued, created⟩ :=
    Memory.handle_createKey (reads.unrefused unrefused) desired.spec
  rw [reads.nextKey] at again created
  cases handled.symm.trans again
  have keeps := like.keeps.trans
    (Memory.run_faulty_keeps (startRotation_creates_none scope desired _) ends)
  have held := congrArg Option.isSome created
  refine ⟨?_, ?_, keeps.keys _ held⟩
  · exact (keeps.issuedKeys.trans issued).trans (congrArg (· + 1) reads.issuedKeys)
  · rw [keyId?, startRotation_status ends]
    rfl

/-- A pass creates no key and leaves the id that was recorded, or it creates one where none was. -/
theorem Leads.cases (leads : before.Leads after)
    (expected : ∀ refusal ∈ before.memory.refusals, refusal.2.isNotFound = false)
    (keyed : before.memory.store.IsKeyed)
    (own : ∀ keyId, before.keyId? = some keyId → (before.memory.key? keyId).isSome) :
    before.memory.Keeps after.memory ∧ after.keyId? = before.keyId? ∨
      before.keyId? = none ∧ Created before.memory after := by
  obtain ⟨harmless, inTime, ends, kept⟩ := leads
  rename_i scope pages desired faults schedule run last result status
  let model := run.state.2.withoutRefusals
  have like : Resembles run.state model := .self expected
  have begun : run.state.2.Keeps model := ⟨rfl, fun _ held => held⟩
  cases reconcile_over_faults harmless like inTime ends with
  | unchanged reads onward => exact .inl ⟨(begun.trans reads.keeps).trans onward.keeps, kept⟩
  | found yields reads onward synced =>
    have modelled : model.store.IsKeyed := keyed
    obtain ⟨keeps, same⟩ := sync_keeps modelled own yields reads onward synced
    exact .inl ⟨begun.trans keeps, kept.trans same⟩
  | created fails missing reads handled onward started =>
    have creates : Created model _ := created_of_startRotation rfl reads handled onward started
    refine .inr ⟨?_, creates.issuedKeys, kept.trans creates.keyId?, creates.held⟩
    cases known : desired.keyId? with
    | none => exact known
    | some name =>
      obtain ⟨held, there⟩ := Option.isSome_iff_exists.mp (own name known)
      have unrefused : model.refusals = [] := rfl
      cases missing.symm.trans (readOne_present unrefused known there fails)

private theorem Sound.leads {start : Memory} (sound : Sound start before) (leads : before.Leads after)
    (expected : ∀ refusal ∈ start.refusals, refusal.2.isNotFound = false) :
    Sound start after ∧ (Created start before → Created start after) := by
  have own (keyId : String) (known : before.keyId? = some keyId) :
      (before.memory.key? keyId).isSome := by
    rcases sound.created with ⟨-, unnamed⟩ | created
    · cases unnamed.symm.trans known
    · cases created.keyId?.symm.trans known
      exact created.held
  have continues : before.memory.Continues after.memory ∧ after.memory.store.IsKeyed := by
    obtain ⟨-, -, ends, -⟩ := leads
    rename_i scope pages desired faults schedule run last result status
    have continues := Memory.run_faulty_continues faults ((manager scope pages).reconcile desired).run
      schedule run
    have keyed := Memory.run_faulty_isKeyed faults ((manager scope pages).reconcile desired).run
      schedule sound.keyed
    rw [ends] at continues keyed
    exact ⟨continues, keyed⟩
  have onward := sound.continues.trans continues.1
  rcases leads.cases (fun refusal member => expected refusal (sound.continues.refusals member))
    sound.keyed own with ⟨keeps, same⟩ | ⟨unnamed, creates⟩
  · refine ⟨⟨onward, continues.2, ?_⟩, fun created => created.keeps keeps same⟩
    rcases sound.created with ⟨none, unnamed⟩ | created
    · exact .inl ⟨keeps.issuedKeys.trans none, same.trans unnamed⟩
    · exact .inr (created.keeps keeps same)
  · have created : Created start after := by
      rcases sound.created with ⟨none, -⟩ | created
      · obtain ⟨issued, named, held⟩ := creates
        rw [none] at issued named held
        rw [sound.continues.config] at named held
        exact ⟨issued, named, held⟩
      · cases unnamed.symm.trans created.keyId?
    exact ⟨⟨onward, continues.2, .inr created⟩, fun _ => created⟩

private theorem Sound.series {start : Memory} {middle last : Standing} (sound : Sound start middle)
    (series : Series middle last)
    (expected : ∀ refusal ∈ start.refusals, refusal.2.isNotFound = false) :
    Sound start last ∧ (Created start middle → Created start last) := by
  induction series with
  | start => exact ⟨sound, id⟩
  | pass passes next ih =>
    obtain ⟨sound, kept⟩ := ih
    obtain ⟨sound, keeps⟩ := sound.leads next expected
    exact ⟨sound, fun created => keeps (kept created)⟩

/-- A series of passes over a resource without a key creates at most one key, and once one has been
created every status records that one. -/
theorem series_creates_once {start middle last : Standing} (reachable : start.memory.Reachable)
    (expected : ∀ refusal ∈ start.memory.refusals, refusal.2.isNotFound = false)
    (unnamed : start.keyId? = none) (before : Series start middle) (later : Series middle last) :
    last.memory.issuedKeys ≤ start.memory.issuedKeys + 1 ∧
      (middle.memory.issuedKeys ≠ start.memory.issuedKeys → Created start.memory last) := by
  have begins : Sound start.memory start :=
    ⟨.refl start.memory, reachable.isKeyed, .inl ⟨rfl, unnamed⟩⟩
  obtain ⟨sound, -⟩ := begins.series before expected
  obtain ⟨ends, kept⟩ := sound.series later expected
  constructor
  · rcases ends.created with ⟨none, -⟩ | created
    · omega
    · exact Nat.le_of_eq created.issuedKeys
  · intro changed
    exact kept (sound.created.resolve_left fun same => changed same.1)

/-- A key whose rotation is not started when it is created, and a next pass that is cancelled. -/
theorem series_creates_once_throttled :
    let ids : IdSource := ⟨fun n => if n = 0 then "first" else "other", fun _ => "grant"⟩
    let start : Standing := ⟨{ config := { Memory.Config.numbered with ids } }, none⟩
    ∃ middle last, Series start middle ∧ Series middle last ∧
      middle.memory.issuedKeys = 1 ∧ last.memory.issuedKeys ≤ 1 ∧ Created start.memory last := by
  intro ids start
  let scope : AccountScope := ⟨"us-west-2", "000000000000"⟩
  let faults := Memory.faultAt 1 (.api "ThrottlingException" "slow down")
  have harmless : Harmless faults := Memory.harmless_faultAt 1 (by decide)
  let first : Key := ⟨{ name := "key" }, { enableKeyRotation := some true }, none⟩
  let run : Run (Nat × Memory) := { state := (0, start.memory) }
  let status : KeyStatus := { keyId := some "first" }
  obtain ⟨result, halted, ends, recorded, issued⟩ : ∃ result halted,
      ((manager scope 4).reconcile first).run.run (faulty faults) .calm run =
        (.finished result, halted) ∧
      (some status).bind KeyStatus.keyId = (first.statusAfter result).bind KeyStatus.keyId ∧
      halted.state.2.issuedKeys = 1 :=
    ⟨_, _, rfl, rfl, rfl⟩
  have inTime := Program.inTime_of_unlimited (faulty faults) .calm Request.CreatesKey
    ((manager scope 4).reconcile first).run (show run.deadline = none from rfl)
  have before : Series start ⟨halted.state.2, some status⟩ :=
    .pass .start (.pass harmless inTime ends recorded)
  let second : Key := ⟨{ name := "key" }, { tags := .ofTags [⟨"env", "test"⟩] }, some status⟩
  let again : Run (Nat × Memory) := { state := halted.state, cancelled := true }
  have cancelled : ((manager scope 4).reconcile second).run.run (faulty faults) .calm again =
      (.finished (.error ⟨none, .cancelled⟩), again) := rfl
  have inTime := Program.inTime_of_unlimited (faulty faults) .calm Request.CreatesKey
    ((manager scope 4).reconcile second).run (show again.deadline = none from rfl)
  have same : (some status).bind KeyStatus.keyId =
      (second.statusAfter (.error ⟨none, .cancelled⟩)).bind KeyStatus.keyId := rfl
  have goesOn := Leads.pass harmless inTime cancelled same
  have later : Series ⟨halted.state.2, some status⟩ ⟨halted.state.2, some status⟩ :=
    .pass .start goesOn
  have expected : ∀ refusal ∈ start.memory.refusals, refusal.2.isNotFound = false := nofun
  have once := series_creates_once (.start _) expected rfl before later
  exact ⟨_, _, before, later, issued, once.1, once.2 (by rw [issued]; decide)⟩

end Standing

end Key

end KeySteward
