import KeySteward.Proofs.GrantEdits
import KeySteward.Proofs.ReplicaTagging

/-! Where the replica is that a pass ends with. A pass that creates a replica has it made in the region of
the spec from the key that the spec names. A pass that finds one compares neither with the spec: a replica
that is recorded is taken as it is, and without a record any key in the region will do. So a pass may
succeed although the key that it records is not where, or not of what, the spec says. -/

namespace KeySteward

variable {memory after : Memory} {run : Run Memory} {stored : StoredKey} {name : String} {pages : Nat}

private theorem not_mem_of_mem_splitOn {separator : Char} {characters : List Char} :
    ∀ part ∈ characters.splitOn separator, separator ∉ part := by
  induction characters with
  | nil => simp
  | cons character rest ih =>
    rw [List.splitOn_cons_eq_if_modifyHead]
    split
    next => simpa using ih
    next differs =>
      cases parts : rest.splitOn separator with
      | nil => simp
      | cons first others =>
        rw [parts] at ih
        have apart : separator ≠ character := fun same => differs (by simp [same])
        simp only [List.modifyHead_cons, List.mem_cons, forall_eq_or_imp, not_or] at ih ⊢
        exact ⟨⟨apart, ih.1⟩, ih.2⟩

/-- A region that can be told from the name of a key. -/
def IsPlainRegion (region : String) : Prop :=
  region ≠ "" ∧ ':' ∉ region.toList

instance (region : String) : Decidable (IsPlainRegion region) :=
  inferInstanceAs (Decidable (_ ∧ _))

private theorem isPlainRegion_of_arnRegion? {arn region : String} (lies : arnRegion? arn = some region) :
    IsPlainRegion region := by
  obtain ⟨characters, kept, rfl⟩ := Option.map_eq_some_iff.mp lies
  obtain ⟨part, nonempty⟩ := Option.filter_eq_some_iff.mp kept
  have inside := not_mem_of_mem_splitOn _ (List.mem_of_getElem? part)
  exact ⟨by simpa using nonempty, by simpa using inside⟩

private theorem Memory.arnRegion?_keyArn_iff (memory : Memory) (region keyId : String) :
    arnRegion? (memory.keyArn region keyId) = some region ↔ IsPlainRegion region :=
  ⟨isPlainRegion_of_arnRegion?, fun plain => memory.arnRegion?_keyArn keyId plain.1 plain.2⟩

private theorem Memory.find?_eq_some_iff {key : StoredKey} :
    memory.store.find? name = some key ↔ ∃ keyId, memory.lookup name = .ok (keyId, key) := by
  simp only [KeyStore.find?, Option.bind_eq_some_iff, Memory.lookup_eq_ok]
  rfl

/-- The key that is recorded lies in the region of the spec and replicates the key that the spec names. -/
structure ReplicaKeyMetadata.IsPlaced (metadata : ReplicaKeyMetadata) (spec : ReplicaKeySpec)
    (memory : Memory) : Prop where
  lies : metadata.arn.bind arnRegion? = some spec.replicaRegion
  replicates : ∃ primary regions, spec.keyId.bind memory.store.find? = some primary ∧
    metadata.multiRegionConfiguration = some regions ∧ regions.keyType = some "REPLICA" ∧
    regions.primaryKey.bind KeyReference.arn = primary.metadata.arn

/-- A replica that is made has the name of a key in its region and points to its primary. -/
theorem Memory.replicateKey_places {input : NewReplica} {answer : KeyMetadata}
    (performed : memory.replicateKey input = .ok (answer, after)) :
    ∃ primary regions, memory.store.find? input.keyId = some primary ∧
      primary.metadata.multiRegion = some true ∧
      answer.arn = some (memory.keyArn input.replicaRegion primary.metadata.keyId) ∧
      answer.multiRegionConfiguration = some regions ∧ regions.keyType = some "REPLICA" ∧
      regions.primaryKey.bind KeyReference.arn = primary.metadata.arn := by
  obtain ⟨primaryId, primary, found, multi, rfl, rfl⟩ := replicateKey_inv performed
  exact ⟨primary, _, find?_of_lookup found, multi, rfl, rfl, rfl, rfl⟩

theorem Memory.replicateKey_performs {input : NewReplica} {primary : StoredKey}
    (found : memory.store.find? input.keyId = some primary)
    (multi : primary.metadata.multiRegion = some true) :
    ∃ answer after, memory.replicateKey input = .ok (answer, after) := by
  obtain ⟨primaryId, looked⟩ := find?_eq_some_iff.mp found
  simp only [replicateKey, looked]
  change ∃ answer after, (if primary.metadata.multiRegion ≠ some true then _ else _) = _
  rw [if_neg (not_not.mpr multi)]
  exact ⟨_, _, rfl⟩

/-- The stored key differs from the spec in nothing that a pass compares. The region and the primary are
not among it. -/
structure StoredKey.Meets (stored : StoredKey) (spec : ReplicaKeySpec) : Prop where
  description : observed spec.description stored.metadata.description = spec.description
  tags : stored.metadata.isPendingDeletion = false → stored.tags = spec.tags
  policy : stored.metadata.isPendingDeletion = false →
    Policy.observed spec.policy stored.policy = spec.policy

namespace ReplicaKey

variable {replica synced : ReplicaKey}

/-- What the status says about the replica. -/
def recorded? (replica : ReplicaKey) : Option ReplicaKeyMetadata :=
  replica.status.bind ReplicaKeyStatus.replica

@[simp] theorem recorded?_asFound (replica : ReplicaKey) (stored : StoredKey) :
    (replica.asFound stored).recorded? = some (.ofKey stored.metadata) := by
  obtain ⟨status, shown, recorded⟩ := replica.asFound_status stored
  simp only [recorded?, shown, Option.bind_some, recorded]

@[simp] theorem recorded?_created (replica : ReplicaKey) (metadata : KeyMetadata) :
    (replica.created metadata).recorded? = some (.ofKey metadata) := rfl

private theorem asFound_spec_eq_iff :
    (replica.asFound stored).spec = replica.spec ↔ stored.Meets replica.spec := by
  obtain ⟨_, ⟨keyId, replicaRegion, description, policy, bypass, tags⟩, _⟩ := replica
  unfold asFound
  dsimp only
  split
  next waits =>
    simp only [ReplicaKeySpec.mk.injEq, true_and, and_true]
    exact ⟨fun same => ⟨same, by simp [waits], by simp [waits]⟩, fun meets => meets.description⟩
  next living =>
    have living := Bool.eq_false_iff.mpr living
    simp only [ReplicaKeySpec.mk.injEq, true_and]
    exact ⟨fun ⟨same, policies, tags⟩ => ⟨same, fun _ => tags, fun _ => policies⟩,
      fun meets => ⟨meets.description, meets.policy living, meets.tags living⟩⟩

/-- The key that a pass takes for the replica: the one that is recorded, and without a record the one that
the spec names if that lies in the replica's region. -/
def taken? (replica : ReplicaKey) (memory : Memory) : Option StoredKey :=
  ((replica.replicaId? <|> replica.spec.keyId).bind memory.store.find?).filter fun stored =>
    replica.isReplica stored.metadata

/-- What the reading of a replica comes to. -/
def found (replica : ReplicaKey) (memory : Memory) : Except Failure ReplicaKey :=
  match replica.taken? memory with
  | some stored => .ok (replica.asFound stored)
  | none => .error .notFound

section Undisturbed

variable (keyed : memory.store.IsKeyed) (unrefused : memory.refusals = [])
  (counted : ∀ stored, replica.taken? memory = some stored → stored.tags.size ≤ Text.greatestWord)
  (room : memory.pageBound ≤ pages)

include keyed unrefused counted room in
private theorem eval_readOne :
    ∃ after, memory.ReadOnly after ∧ (readOne pages replica).run.eval Memory.service memory =
      (.finished (replica.found memory), after) := by
  cases named : (replica.replicaId? <|> replica.spec.keyId) with
  | none =>
    simp only [readOne, found, taken?, named]
    exact ⟨memory, .refl memory, rfl⟩
  | some name =>
    cases looked : memory.lookup name with
    | error fault =>
      have absent : memory.store.find? name = none := by
        refine Option.eq_none_iff_forall_ne_some.mpr fun key present => ?_
        obtain ⟨keyId, looks⟩ := Memory.find?_eq_some_iff.mp present
        cases looked.symm.trans looks
      obtain rfl : Memory.keyNotFound name = fault := by
        have missing := Memory.lookup_eq_error fun held looks => by cases looked.symm.trans looks
        rw [looked] at missing
        cases missing
        rfl
      have onward : memory.ReadOnly (memory.noted (.describeKey name)) :=
        Memory.noted_readOnly rfl memory
      have handled : Memory.service.handle (.describeKey name) memory =
          (.error (Memory.keyNotFound name), memory.noted (.describeKey name)) := by
        have unknown : (memory.noted (.describeKey name)).lookup name = _ := looked
        rw [Memory.handle_of_unrefused (by rw [unrefused]; rfl)]
        simp only [Memory.perform, unknown]
        rfl
      have fails : Pass.Fails Memory.service (Pass.call (.describeKey name)) memory _ _ :=
        Pass.fails_call.mpr ⟨_, rfl, handled⟩
      refine ⟨_, onward, ?_⟩
      simp only [readOne, found, taken?, named, Option.bind_some, absent, Option.filter_none]
      exact Pass.fails_bind.mpr (.inl (Pass.fails_lookup.mpr ⟨_, fails, rfl⟩))
    | ok held =>
      obtain ⟨keyId, key⟩ := held
      have present := Memory.find?_of_lookup looked
      have described : Memory.Reads True (Pass.call (.describeKey name)).lookup key.metadata memory :=
        (Memory.describeKey_reads (fun _ => unrefused) looked).lookup
      cases accepted : replica.isReplica key.metadata with
      | true =>
        have taken : replica.taken? memory = some key := by
          simp [taken?, named, present, Option.filter, accepted]
        have held := Memory.key?_of_lookup looked
        have reads : Memory.Reads True (readOne pages replica) (replica.asFound key) memory :=
          readOne_reads named looked accepted keyed (fun _ => unrefused) fun _ _ =>
            ⟨counted key taken, Nat.lt_of_lt_of_le (Memory.tags_lt_pageBound held) room⟩
        obtain ⟨after, onward, yields⟩ := reads.does trivial (.refl memory)
        refine ⟨after, onward, ?_⟩
        rw [found, taken]
        exact yields
      | false =>
        have untaken : replica.taken? memory = none := by
          simp [taken?, named, present, Option.filter, accepted]
        obtain ⟨after, onward, yields⟩ := described.does trivial (.refl memory)
        refine ⟨after, onward, ?_⟩
        simp only [readOne, named, found, untaken]
        refine Pass.fails_bind.mpr (.inr ⟨_, _, yields, ?_⟩)
        simp only [accepted, Bool.not_false, if_true]
        exact Pass.fails_bind.mpr (.inl (Pass.fails_throw.mpr ⟨rfl, rfl⟩))

end Undisturbed

/-- The key that the spec names can be replicated. -/
def HasPrimary (replica : ReplicaKey) (memory : Memory) : Prop :=
  ∃ primary, replica.spec.keyId.bind memory.store.find? = some primary ∧
    primary.metadata.multiRegion = some true

private theorem yields_create
    (yields : Pass.Yields Memory.service (create replica) memory synced after) :
    replica.HasPrimary memory ∧ ∃ metadata, synced = replica.created metadata ∧
      ((ReplicaKeyMetadata.ofKey metadata).IsPlaced replica.spec memory ↔
        IsPlainRegion replica.spec.replicaRegion) := by
  cases named : replica.spec.keyId with
  | none =>
    simp only [create, named] at yields
    exact absurd yields Pass.yields_throw
  | some name =>
    simp only [create, named] at yields
    obtain ⟨metadata, reached, called, rest⟩ := Pass.yields_bind.mp yields
    obtain ⟨-, performed⟩ := Memory.handle_eq_ok.mp (Pass.yields_call.mp (Pass.yields_lift.mp called))
    obtain ⟨primary, regions, found, multi, arn, spread, role, points⟩ :=
      Memory.replicateKey_places performed
    have present : replica.spec.keyId.bind memory.store.find? = some primary := by
      rw [named]
      exact found
    have same : synced = replica.created metadata := by
      rcases Pass.yields_result_bind.mp rest with ⟨_, _, -, returned⟩ | ⟨_, _, -, thrown⟩
      · exact (Pass.yields_pure.mp returned).1.symm
      · exact absurd thrown Pass.yields_throw
    have region := memory.arnRegion?_keyArn_iff replica.spec.replicaRegion primary.metadata.keyId
    have lies : metadata.arn.bind arnRegion? = some replica.spec.replicaRegion ↔
        IsPlainRegion replica.spec.replicaRegion := by
      rw [arn]
      exact region
    exact ⟨⟨primary, present, multi⟩, metadata, same, fun placed => lies.mp placed.lies,
      fun plain => ⟨lies.mpr plain, primary, regions, present, spread, role, points⟩⟩

private theorem create_yields (unrefused : memory.refusals = []) (has : replica.HasPrimary memory) :
    ∃ synced after, Pass.Yields Memory.service (create replica) memory synced after := by
  obtain ⟨primary, present, multi⟩ := has
  obtain ⟨name, named, found⟩ := Option.bind_eq_some_iff.mp present
  let request : Request := .replicateKey (replica.newReplica name)
  have known : (memory.noted request).store.find? (replica.newReplica name).keyId = some primary := found
  obtain ⟨metadata, middle, performed⟩ := Memory.replicateKey_performs known multi
  have handled : Memory.service.handle request memory = (.ok metadata, middle) :=
    Memory.handle_eq_ok.mpr ⟨by rw [unrefused]; rfl, performed⟩
  have onward : middle.refusals = [] := by
    have continues := Memory.handle_continues request memory
    rw [handled] at continues
    exact continues.unrefused unrefused
  have tagged : ∃ after,
      Pass.Yields Memory.service (TagSet.apply metadata.keyId replica.spec.tags) middle () after := by
    unfold TagSet.apply
    split
    · have held := (Memory.replicateKey_stores performed).1
      let tagging : Request := .tagResource metadata.keyId replica.spec.tags.toTags
      have known : (middle.noted tagging).lookup metadata.keyId = _ := Memory.lookup_of_key? held
      have changes : (middle.noted tagging).changeKey metadata.keyId
          (fun key => { key with tags := key.tags.insertAll replica.spec.tags.toTags }) = .ok ((), _) :=
        Memory.changeKey_eq_ok.mpr ⟨_, _, known, rfl⟩
      exact ⟨_, Pass.yields_call.mpr (Memory.handle_eq_ok.mpr ⟨by rw [onward]; rfl, changes⟩)⟩
    · exact ⟨middle, Pass.yields_pure.mpr ⟨rfl, rfl⟩⟩
  obtain ⟨after, tags⟩ := tagged
  refine ⟨replica.created metadata, after, ?_⟩
  simp only [create, named]
  refine Pass.yields_bind.mpr ⟨metadata, middle, Pass.yields_lift.mpr (Pass.yields_call.mpr handled), ?_⟩
  exact Pass.yields_result_bind.mpr (.inl ⟨(), after, tags, Pass.yields_pure.mpr ⟨rfl, rfl⟩⟩)

section Undisturbed

variable (keyed : memory.store.IsKeyed) (unrefused : memory.refusals = [])
  (counted : ∀ stored, replica.taken? memory = some stored → stored.tags.size ≤ Text.greatestWord)
  (room : memory.pageBound ≤ pages)

include keyed unrefused counted room

/-- A key that is taken for the replica is what the pass ends with, if it ends well. -/
theorem yields_reconcile_taken (taken : replica.taken? memory = some stored) :
    (∃ after, Pass.Yields Memory.service ((manager pages).reconcile replica) memory synced after) ↔
      stored.Meets replica.spec ∧ synced = replica.asFound stored := by
  obtain ⟨middle, -, read⟩ := eval_readOne keyed unrefused counted room
  simp only [found, taken] at read
  have empty : (Manager.delta replica (replica.asFound stored)).isEmpty = true ↔
      stored.Meets replica.spec := by
    exact (ReplicaKeySpec.delta_isEmpty_iff _ _).trans (eq_comm.trans asFound_spec_eq_iff)
  change ((manager pages).readOne replica).run.eval _ _ = _ at read
  simp only [Pass.Yields, Manager.eval_reconcile_found read, Manager.sync]
  split
  next same =>
    have meets := empty.mp same
    constructor
    · rintro ⟨after, ends⟩
      cases ends
      exact ⟨meets, rfl⟩
    · rintro ⟨-, rfl⟩
      exact ⟨middle, rfl⟩
  next differs =>
    constructor
    · rintro ⟨after, ends⟩
      cases ends
    · rintro ⟨meets, -⟩
      exact absurd (empty.mpr meets) differs

private theorem yields_reconcile_untaken (untaken : replica.taken? memory = none) :
    ∃ reached, memory.ReadOnly reached ∧ ∀ synced after,
      Pass.Yields Memory.service ((manager pages).reconcile replica) memory synced after ↔
        Pass.Yields Memory.service (create replica) reached synced after := by
  obtain ⟨reached, onward, read⟩ := eval_readOne keyed unrefused counted room
  simp only [found, untaken] at read
  have missing : Failure.notFound.isNotFound = true := rfl
  refine ⟨reached, onward, fun synced after => ?_⟩
  change ((manager pages).readOne replica).run.eval _ _ = _ at read
  simp only [Pass.Yields, Manager.eval_reconcile_failed read, missing, if_true]
  exact Iff.rfl

end Undisturbed

/-- The key that a resource records is where, and of what, a spec says. -/
def IsPlaced (synced : ReplicaKey) (spec : ReplicaKeySpec) (memory : Memory) : Prop :=
  ∃ metadata, synced.recorded? = some metadata ∧ metadata.IsPlaced spec memory

private theorem isPlaced_iff {metadata : ReplicaKeyMetadata} {spec : ReplicaKeySpec}
    (recorded : synced.recorded? = some metadata) :
    synced.IsPlaced spec memory ↔ metadata.IsPlaced spec memory := by
  simp [IsPlaced, recorded]

/-- A pass can succeed on a replica that is not where, or not of what, the spec says, in two ways: the key
that it takes for the replica shows no difference in anything else, or it has to create a replica in a
region that is no part of a name. In every other case a pass that succeeds leaves the replica in place. -/
theorem misplaced_iff (reachable : memory.Reachable) (unrefused : memory.refusals = [])
    (counted : ∀ stored, replica.taken? memory = some stored → stored.tags.size ≤ Text.greatestWord)
    (room : memory.pageBound ≤ pages) :
    (∃ (schedule : Schedule) (run last : Run Memory) (synced : ReplicaKey), run.state = memory ∧
      ((manager pages).reconcile replica).run.run Memory.service schedule run =
        (.finished (.ok synced), last) ∧ ¬ synced.IsPlaced replica.spec memory) ↔
    (∃ stored, replica.taken? memory = some stored ∧ stored.Meets replica.spec ∧
      ¬ (ReplicaKeyMetadata.ofKey stored.metadata).IsPlaced replica.spec memory) ∨
    (replica.taken? memory = none ∧ replica.HasPrimary memory ∧
      ¬ IsPlainRegion replica.spec.replicaRegion) := by
  have keyed := reachable.isKeyed
  -- What happens around the calls can keep a pass from succeeding, but not change what it succeeds with.
  have undisturbed : (∃ (schedule : Schedule) (run last : Run Memory) (synced : ReplicaKey),
        run.state = memory ∧ ((manager pages).reconcile replica).run.run Memory.service schedule run =
          (.finished (.ok synced), last) ∧ ¬ synced.IsPlaced replica.spec memory) ↔
      ∃ (synced : ReplicaKey) (after : Memory),
        Pass.Yields Memory.service ((manager pages).reconcile replica) memory synced after ∧
          ¬ synced.IsPlaced replica.spec memory := by
    constructor
    · rintro ⟨schedule, run, last, synced, rfl, ends, misplaced⟩
      exact ⟨synced, last.state, (reconcile_heeds pages replica).yields ends, misplaced⟩
    · rintro ⟨synced, after, yields, misplaced⟩
      obtain ⟨last, ends, -⟩ := Program.run_calm_from yields
      exact ⟨.calm, { state := memory }, last, synced, rfl, ends, misplaced⟩
  rw [undisturbed]
  cases taken : replica.taken? memory with
  | some stored =>
    have ends (synced : ReplicaKey) : (∃ after,
          Pass.Yields Memory.service ((manager pages).reconcile replica) memory synced after) ↔ _ :=
      yields_reconcile_taken keyed unrefused counted room taken
    simp only [Option.some.injEq, exists_eq_left', reduceCtorEq, false_and, or_false]
    constructor
    · rintro ⟨synced, after, yields, misplaced⟩
      obtain ⟨meets, rfl⟩ := (ends synced).mp ⟨after, yields⟩
      exact ⟨meets, (isPlaced_iff (recorded?_asFound _ _)).not.mp misplaced⟩
    · rintro ⟨meets, misplaced⟩
      obtain ⟨after, yields⟩ := (ends _).mpr ⟨meets, rfl⟩
      exact ⟨_, after, yields, (isPlaced_iff (recorded?_asFound _ _)).not.mpr misplaced⟩
  | none =>
    obtain ⟨reached, onward, ends⟩ := yields_reconcile_untaken keyed unrefused counted room taken
    have same : reached.store.find? = memory.store.find? := by rw [onward.store]
    have placed {metadata : ReplicaKeyMetadata} :
        metadata.IsPlaced replica.spec reached ↔ metadata.IsPlaced replica.spec memory := by
      refine ⟨fun ⟨lies, points⟩ => ⟨lies, ?_⟩, fun ⟨lies, points⟩ => ⟨lies, ?_⟩⟩
      · rwa [same] at points
      · rwa [same]
    have has : replica.HasPrimary reached ↔ replica.HasPrimary memory := by
      simp only [HasPrimary, same]
    simp only [reduceCtorEq, false_and, exists_false, false_or, true_and]
    constructor
    · rintro ⟨synced, after, yields, misplaced⟩
      obtain ⟨primary, metadata, rfl, plain⟩ := yields_create ((ends _ _).mp yields)
      refine ⟨has.mp primary, fun region => misplaced ?_⟩
      exact (isPlaced_iff (recorded?_created _ _)).mpr (placed.mp (plain.mpr region))
    · rintro ⟨primary, region⟩
      obtain ⟨synced, after, yields⟩ :=
        create_yields (onward.unrefused unrefused) (has.mpr primary)
      obtain ⟨-, metadata, rfl, plain⟩ := yields_create yields
      refine ⟨_, after, (ends _ _).mpr yields, fun misplaced => region ?_⟩
      exact plain.mp (placed.mpr ((isPlaced_iff (recorded?_created _ _)).mp misplaced))

/-- A replica that is recorded may be given any other region and any other primary: the pass succeeds with
the key that was recorded, as if nothing had been edited. -/
theorem reconcile_moved (keyed : run.state.store.IsKeyed) (unrefused : run.state.refusals = [])
    (free : run.IsFree) (known : replica.replicaId? = some name)
    (found : run.state.store.find? name = some stored) (meets : stored.Meets replica.spec)
    (counted : stored.tags.size ≤ Text.greatestWord) (room : run.state.pageBound ≤ pages)
    (keyId : Option String) (replicaRegion : String) :
    let moved : ReplicaKey := { replica with spec := { replica.spec with keyId, replicaRegion } }
    ∃ last, ((manager pages).reconcile moved).run.run Memory.service .calm run =
        (.finished (.ok (moved.asFound stored)), last) := by
  intro moved
  have taken : moved.taken? run.state = some stored := by
    have recorded : moved.replicaId? = some name := known
    simp [taken?, isReplica, recorded, found, Option.filter]
  have remains : stored.Meets moved.spec := ⟨meets.description, meets.tags, meets.policy⟩
  have enough : ∀ other, moved.taken? run.state = some other → other.tags.size ≤ Text.greatestWord := by
    rintro other again
    cases taken.symm.trans again
    exact counted
  obtain ⟨after, yields⟩ :=
    (yields_reconcile_taken keyed unrefused enough room taken).mpr ⟨remains, rfl⟩
  obtain ⟨last, ends, -⟩ := yields.run_calm free
  exact ⟨last, ends⟩

/-- A replica that has been created in one region and is then wanted in another: the pass that is to move
it succeeds, and the replica stays where it was. -/
theorem moved_replica_kept :
    let memory :=
      ({ config := .numbered } : Memory).act (.call (.createKey { multiRegion := some true }))
    let original : ReplicaKey :=
      ⟨{ name := "replica" }, { keyId := some "key-0", replicaRegion := "eu-west-1" }, none⟩
    let first := ((manager 2).reconcile original).run.run Memory.service .calm { state := memory }
    memory.Reachable ∧ memory.refusals = [] ∧ ∃ created : ReplicaKey, first.1 = .finished (.ok created) ∧
      let moved : ReplicaKey :=
        { created with spec := { created.spec with replicaRegion := "eu-central-1" } }
      ∃ (settled : ReplicaKey) (last : Run Memory),
        ((manager 2).reconcile moved).run.run Memory.service .calm { state := first.2.state } =
          (.finished (.ok settled), last) ∧
        (settled.recorded?.bind ReplicaKeyMetadata.arn).bind arnRegion? = some "eu-west-1" ∧
        ¬ settled.IsPlaced moved.spec first.2.state := by
  intro memory original first
  have reachable : memory.Reachable := (Memory.Reachable.start _).act (.call _)
  obtain ⟨created, ends⟩ : ∃ created : ReplicaKey, first.1 = .finished (.ok created) := ⟨_, rfl⟩
  have known : created.replicaId? = some "arn:aws:kms:eu-west-1:000000000000:key/key-0" := by
    cases ends
    decide
  obtain ⟨stored, held, kept⟩ := (Option.any_eq_true _ _).mp (by decide :
    (first.2.state.key? "arn:aws:kms:eu-west-1:000000000000:key/key-0").any (fun stored =>
      stored.metadata.arn.bind arnRegion? = some "eu-west-1" ∧ stored.tags = {}) = true)
  obtain ⟨region, untagged⟩ := of_decide_eq_true kept
  have found := Memory.find?_of_lookup (Memory.lookup_of_key? held)
  have meets : stored.Meets created.spec := by
    cases ends
    exact ⟨rfl, fun _ => untagged, fun _ => rfl⟩
  have counted : stored.tags.size ≤ Text.greatestWord := by
    rw [untagged]
    decide
  let start : Run Memory := { state := memory }
  let again : Run Memory := { state := first.2.state }
  have starts : start.state.Reachable := reachable
  have keyed : again.state.store.IsKeyed :=
    (starts.run ((manager 2).reconcile original).run .calm).isKeyed
  have room : first.2.state.pageBound ≤ 2 := by decide
  obtain ⟨last, passes⟩ :=
    reconcile_moved keyed rfl ⟨rfl, rfl⟩ known found meets counted room created.spec.keyId "eu-central-1"
  refine ⟨reachable, rfl, created, ends, _, last, passes, ?_, ?_⟩
  · rw [recorded?_asFound]
    exact region
  · rw [isPlaced_iff (recorded?_asFound _ _)]
    intro placed
    exact absurd (region.symm.trans placed.lies) (by decide : some "eu-west-1" ≠ some "eu-central-1")

/-- So such a pass is one of those that succeed on a replica that is not in place. -/
theorem misplaced_iff_moved :
    let memory :=
      (({ config := .numbered } : Memory).act (.call (.createKey { multiRegion := some true }))).act
        (.call (.replicateKey { keyId := "key-0", replicaRegion := "eu-west-1" }))
    let replica : ReplicaKey := {
      metadata := { name := "replica" }
      spec := { keyId := some "key-0", replicaRegion := "eu-central-1" }
      status := some {
        replica := some { keyId := some "arn:aws:kms:eu-west-1:000000000000:key/key-0" } } }
    ∃ (schedule : Schedule) (run last : Run Memory) (synced : ReplicaKey), run.state = memory ∧
      ((manager 2).reconcile replica).run.run Memory.service schedule run =
        (.finished (.ok synced), last) ∧ ¬ synced.IsPlaced replica.spec memory := by
  intro memory replica
  have reachable : memory.Reachable := ((Memory.Reachable.start _).act (.call _)).act (.call _)
  obtain ⟨stored, taken⟩ : ∃ stored, replica.taken? memory = some stored := ⟨_, rfl⟩
  have meets : stored.Meets replica.spec := by
    cases taken
    exact ⟨rfl, fun _ => rfl, fun _ => rfl⟩
  have elsewhere : stored.metadata.arn.bind arnRegion? ≠ some "eu-central-1" := by
    cases taken
    decide
  have counted : ∀ other, replica.taken? memory = some other →
      other.tags.size ≤ Text.greatestWord := by
    rintro other again
    cases taken
    cases again
    decide
  have room : memory.pageBound ≤ 2 := by decide
  exact (misplaced_iff reachable rfl counted room).mpr
    (.inl ⟨stored, taken, meets, fun placed => elsewhere placed.lies⟩)

end ReplicaKey

end KeySteward
