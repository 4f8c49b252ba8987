import KeySteward.Proofs.PassRules
import KeySteward.Service.Memory

/-! What a call does to the service in memory. Only what is stored and the counts of ids change in a
call that is performed, and a call that only asks for something leaves the journal and the list of
refusals as all that has changed. A run keeps whatever its calls keep. -/

namespace KeySteward.Memory

variable {α β : Type} {memory after : Memory} {request : Request} {schedule : Schedule}

def noted (memory : Memory) (request : Request) : Memory :=
  { memory with journal := memory.journal ++ [request] }

theorem handle_eq_ok {answer : request.Answer} :
    service.handle request memory = (.ok answer, after) ↔
      takeRefusal? request.operation memory.refusals = none ∧
        perform request (memory.noted request) = .ok (answer, after) := by
  simp only [service, handle, noted]
  cases takeRefusal? request.operation memory.refusals with
  | some refusal => simp
  | none =>
    dsimp only
    split
    next performed => simp [performed]
    next performed => simp [performed]

theorem handle_of_unrefused {request : Request}
    (unrefused : takeRefusal? request.operation memory.refusals = none) :
    service.handle request memory = match perform request (memory.noted request) with
      | .ok (answer, after) => (.ok answer, after)
      | .error fault => (.error fault, memory.noted request) := by
  simp only [service, handle, unrefused]
  rfl

theorem bind_eq_ok {first : Except Fault α} {next : α → Except Fault β} {value : β} :
    (first >>= next) = .ok value ↔ ∃ middle, first = .ok middle ∧ next middle = .ok value := by
  cases first <;> simp [bind, Except.bind]

section Lookup

variable {name keyId : String} {key : StoredKey}

theorem lookup_eq_ok :
    memory.lookup name = .ok (keyId, key) ↔
      memory.store.resolve? name = some keyId ∧ memory.key? keyId = some key := by
  simp only [lookup, key?]
  cases resolved : memory.store.resolve? name with
  | none => simp
  | some found =>
    dsimp only
    cases stored : memory.store.keys.get? found with
    | none =>
      simp only [reduceCtorEq, Option.some.injEq, false_iff]
      rintro ⟨rfl, present⟩
      rw [stored] at present
      cases present
    | some held =>
      simp only [Except.ok.injEq, Prod.mk.injEq, Option.some.injEq]
      refine and_congr_right ?_
      rintro rfl
      simp [stored]

theorem lookup_eq_error (absent : ∀ found, memory.lookup name ≠ .ok found) :
    memory.lookup name = .error (keyNotFound name) := by
  unfold lookup at absent ⊢
  split
  next => rfl
  next keyId resolved =>
    rw [resolved] at absent
    dsimp only at absent
    split
    next => rfl
    next key held =>
      rw [held] at absent
      exact absurd rfl (absent (keyId, key))

theorem lookup_cases (memory : Memory) (name : String) :
    (∃ held, memory.lookup name = .ok held) ∨ memory.lookup name = .error (keyNotFound name) := by
  by_cases there : ∃ held, memory.lookup name = .ok held
  · exact .inl there
  · exact .inr (lookup_eq_error fun held found => there ⟨held, found⟩)

theorem key?_of_lookup (found : memory.lookup name = .ok (keyId, key)) :
    memory.key? keyId = some key :=
  (lookup_eq_ok.mp found).2

theorem find?_of_lookup (found : memory.lookup name = .ok (keyId, key)) :
    memory.store.find? name = some key := by
  obtain ⟨resolved, held⟩ := lookup_eq_ok.mp found
  rw [KeyStore.find?, resolved]
  exact held

theorem lookup_of_key? (stored : memory.key? keyId = some key) :
    memory.lookup keyId = .ok (keyId, key) := by
  refine lookup_eq_ok.mpr ⟨?_, stored⟩
  have contained : memory.store.keys.contains keyId = true := by
    exact Option.isSome_of_mem stored
  simp [KeyStore.resolve?, contained]

theorem changeKey_eq_ok {change : StoredKey → StoredKey} {value : Unit} :
    memory.changeKey name change = .ok (value, after) ↔
      ∃ keyId key, memory.lookup name = .ok (keyId, key) ∧
        memory.withStore { memory.store with
          keys := memory.store.keys.insert keyId (change key) } = after := by
  simp only [changeKey, bind_eq_ok, Prod.exists]
  constructor
  · rintro ⟨keyId, key, found, same⟩
    cases same
    exact ⟨keyId, key, found, rfl⟩
  · rintro ⟨keyId, key, found, rfl⟩
    exact ⟨keyId, key, found, rfl⟩

end Lookup

/-- Only calls that ask for something lie between. -/
structure ReadOnly (before after : Memory) : Prop where
  same : { after with journal := before.journal, refusals := before.refusals } = before
  refusals : after.refusals ⊆ before.refusals
  mutatingCalls : after.mutatingCalls = before.mutatingCalls

/-- What no call changes is the same, and no refusal has come up. -/
structure Continues (before after : Memory) : Prop where
  config : after.config = before.config
  rotationStatusUnavailable : after.rotationStatusUnavailable = before.rotationStatusUnavailable
  refusals : after.refusals ⊆ before.refusals

namespace ReadOnly

variable {first second third : Memory}

theorem refl (memory : Memory) : ReadOnly memory memory :=
  ⟨rfl, List.Subset.refl _, rfl⟩

theorem trans (before : ReadOnly first second) (later : ReadOnly second third) :
    ReadOnly first third where
  same := by
    have replaced := congrArg
      (fun memory : Memory => { memory with journal := first.journal, refusals := first.refusals })
      later.same
    exact replaced.trans before.same
  refusals := List.Subset.trans later.refusals before.refusals
  mutatingCalls := later.mutatingCalls.trans before.mutatingCalls

theorem store (reads : ReadOnly first second) : second.store = first.store := by
  have same := congrArg Memory.store reads.same
  exact same

theorem issuedKeys (reads : ReadOnly first second) : second.issuedKeys = first.issuedKeys := by
  have same := congrArg Memory.issuedKeys reads.same
  exact same

theorem key? (reads : ReadOnly first second) (keyId : String) :
    second.key? keyId = first.key? keyId := by
  simp only [Memory.key?, reads.store]

theorem lookup (reads : ReadOnly first second) (name : String) :
    second.lookup name = first.lookup name := by
  simp only [Memory.lookup, reads.store]

theorem continues (reads : ReadOnly first second) : Continues first second := by
  have config := congrArg Memory.config reads.same
  have unavailable := congrArg Memory.rotationStatusUnavailable reads.same
  exact ⟨config, unavailable, reads.refusals⟩

theorem unrefused (reads : ReadOnly first second) (none : first.refusals = []) :
    second.refusals = [] :=
  List.eq_nil_of_subset_nil (none ▸ reads.refusals)

end ReadOnly

namespace Continues

variable {first second third : Memory}

theorem refl (memory : Memory) : Continues memory memory :=
  ⟨rfl, rfl, List.Subset.refl _⟩

theorem trans (before : Continues first second) (later : Continues second third) :
    Continues first third :=
  ⟨later.config.trans before.config,
    later.rotationStatusUnavailable.trans before.rotationStatusUnavailable,
    List.Subset.trans later.refusals before.refusals⟩

theorem unrefused (continues : Continues first second) (none : first.refusals = []) :
    second.refusals = [] :=
  List.eq_nil_of_subset_nil (none ▸ continues.refusals)

end Continues

theorem perform_asks {answer : request.Answer} (asks : request.isMutating = false)
    (performed : perform request memory = .ok (answer, after)) : after = memory := by
  cases request <;> try cases asks
  case listAliases => cases performed; rfl
  case listResourceTags | listGrants =>
    simp only [perform, bind_eq_ok] at performed
    obtain ⟨_, _, _, _, same⟩ := performed
    cases same
    rfl
  all_goals
    simp only [perform, bind_eq_ok] at performed
    obtain ⟨_, _, same⟩ := performed
    cases same
    rfl

section Changes

variable {answer : request.Answer}

theorem scheduleKeyDeletion_ok {name : String} {days : Int} {answer : ScheduledDeletion}
    (performed : memory.scheduleKeyDeletion name days = .ok (answer, after)) :
    ∃ keyId key changed, memory.lookup name = .ok (keyId, key) ∧
      memory.withStore { memory.store with
        keys := memory.store.keys.insert keyId changed } = after ∧
      changed.metadata.keyId = key.metadata.keyId ∧
      changed.metadata.arn = key.metadata.arn ∧
      changed.metadata.multiRegionConfiguration = key.metadata.multiRegionConfiguration ∧
      changed.metadata.isPendingDeletion = true := by
  simp only [scheduleKeyDeletion, bind_eq_ok, Prod.exists] at performed
  obtain ⟨keyId, key, found, performed⟩ := performed
  split at performed
  · obtain ⟨_, thrown, _⟩ := bind_eq_ok.mp performed
    cases thrown
  · split at performed
    next date _ =>
      cases performed
      exact ⟨keyId, key, _, found, rfl, rfl, rfl, rfl, rfl⟩
    next => cases performed

/-- All that a replication does: it needs a key that is kept in several regions, adds a reference to this
key and stores the replica under its name. -/
theorem replicateKey_inv {input : NewReplica} {answer : KeyMetadata}
    (performed : memory.replicateKey input = .ok (answer, after)) :
    ∃ primaryId primary, memory.lookup input.keyId = .ok (primaryId, primary) ∧
      primary.metadata.multiRegion = some true ∧
      let arn := memory.keyArn input.replicaRegion primary.metadata.keyId
      let reference : KeyReference := { arn := some arn, region := some input.replicaRegion }
      let regions := primary.metadata.multiRegionConfiguration.map fun regions =>
        { regions with replicaKeys := regions.replicaKeys ++ [reference] }
      let known := { primary with
        metadata := { primary.metadata with multiRegionConfiguration := regions } }
      let replica := { metadata := answer, policy := input.policy, tags := .ofTags input.tags }
      { primary.metadata with
        arn := some arn
        creationDate := some memory.config.now
        description := some (input.description.getD "")
        keyId := arn
        keyState := some .enabled
        multiRegionConfiguration := some {
          keyType := some "REPLICA"
          primaryKey := some { arn := primary.metadata.arn, region := some memory.config.region }
          replicaKeys := [reference] } } = answer ∧
      memory.withStore { memory.store with
        keys := (memory.store.keys.insert primaryId known).insert arn replica } = after := by
  simp only [replicateKey, bind_eq_ok, Prod.exists] at performed
  obtain ⟨primaryId, primary, found, performed⟩ := performed
  split at performed
  · obtain ⟨_, thrown, _⟩ := bind_eq_ok.mp performed
    cases thrown
  next multi =>
    cases performed
    exact ⟨primaryId, primary, found, Decidable.not_not.mp multi, rfl, rfl⟩

theorem replicateKey_ok {input : NewReplica} {answer : KeyMetadata}
    (performed : memory.replicateKey input = .ok (answer, after)) :
    ∃ primaryId primary known replica, memory.lookup input.keyId = .ok (primaryId, primary) ∧
      memory.withStore { memory.store with
        keys := (memory.store.keys.insert primaryId known).insert answer.keyId replica } = after ∧
      answer.keyId = memory.keyArn input.replicaRegion primary.metadata.keyId ∧
      known.metadata.keyId = primary.metadata.keyId ∧ replica.metadata = answer := by
  obtain ⟨primaryId, primary, found, -, rfl, rfl⟩ := replicateKey_inv performed
  exact ⟨primaryId, primary, _, _, found, rfl, rfl, rfl, rfl⟩

theorem createGrant_ok {input : NewGrant} {answer : CreatedGrant}
    (performed : memory.createGrant input = .ok (answer, after)) :
    (after = memory ∧ ∃ entry ∈ memory.store.grants, entry.grantId = answer.grantId) ∨
    ∃ entry, entry.grantId = memory.config.ids.grant memory.issuedGrants ∧
      entry.granteePrincipal = some input.granteePrincipal ∧ entry.grantId = answer.grantId ∧
      { memory with
        issuedGrants := memory.issuedGrants + 1
        store := { memory.store with grants := memory.store.grants ++ [entry] } } = after := by
  simp only [createGrant] at performed
  split at performed
  · obtain ⟨_, thrown, _⟩ := bind_eq_ok.mp performed
    cases thrown
  · obtain ⟨⟨_, key⟩, _, performed⟩ := bind_eq_ok.mp performed
    split at performed
    next entry existing =>
      cases performed
      obtain ⟨_, _, found⟩ := Option.bind_eq_some_iff.mp existing
      exact .inl ⟨rfl, entry, (List.mem_filter.mp (List.mem_of_find?_eq_some found)).1, rfl⟩
    next =>
      cases performed
      exact .inr ⟨_, rfl, rfl, rfl, rfl⟩

theorem retireGrant_ok {name grantId : String} {answer : Unit}
    (performed : memory.retireGrant name grantId = .ok (answer, after)) :
    ∃ keeps : GrantEntry → Bool, memory.withStore { memory.store with
      grants := memory.store.grants.filter keeps } = after := by
  simp only [retireGrant, bind_eq_ok] at performed
  obtain ⟨_, _, performed⟩ := performed
  split at performed
  · cases performed
    exact ⟨_, rfl⟩
  · cases performed

theorem perform_alias
    (about : request matches .createAlias .. | .updateAlias .. | .deleteAlias _)
    (performed : perform request memory = .ok (answer, after)) :
    ∃ aliases, memory.withStore { memory.store with aliases } = after := by
  cases request <;> try cases about
  case createAlias =>
    simp only [perform, createAlias] at performed
    split at performed
    · obtain ⟨_, thrown, _⟩ := bind_eq_ok.mp performed
      cases thrown
    · obtain ⟨_, _, same⟩ := bind_eq_ok.mp performed
      cases same
      exact ⟨_, rfl⟩
  case updateAlias =>
    simp only [perform, updateAlias, bind_eq_ok] at performed
    obtain ⟨_, _, performed⟩ := performed
    split at performed
    · cases performed
      exact ⟨_, rfl⟩
    · cases performed
  case deleteAlias =>
    simp only [perform, deleteAlias] at performed
    split at performed
    · cases performed
      exact ⟨_, rfl⟩
    · cases performed

theorem perform_aside
    (aside : request matches
      .createAlias .. | .updateAlias .. | .deleteAlias _ | .createGrant _ | .retireGrant ..)
    (performed : perform request memory = .ok (answer, after)) :
    ∃ aliases grants issuedGrants,
      { memory with store := { memory.store with aliases, grants }, issuedGrants } = after := by
  cases request <;> try cases aside
  case createGrant =>
    rcases createGrant_ok performed with ⟨rfl, -⟩ | ⟨_, _, _, _, rfl⟩
    · exact ⟨_, _, _, rfl⟩
    · exact ⟨_, _, _, rfl⟩
  case retireGrant =>
    obtain ⟨_, rfl⟩ := retireGrant_ok performed
    exact ⟨_, _, _, rfl⟩
  all_goals
    obtain ⟨_, rfl⟩ := perform_alias rfl performed
    exact ⟨_, _, _, rfl⟩

/-- A call that is performed changes what is stored and the counts of ids, and nothing else. -/
theorem perform_frame (performed : perform request memory = .ok (answer, after)) :
    ∃ store issuedKeys issuedGrants,
      { memory with store, issuedKeys, issuedGrants } = after := by
  cases request
  case createKey => cases performed; exact ⟨_, _, _, rfl⟩
  case enableKeyRotation | disableKeyRotation | putKeyPolicy | tagResource | untagResource =>
    simp only [perform, changeKey_eq_ok] at performed
    obtain ⟨_, _, _, rfl⟩ := performed
    exact ⟨_, _, _, rfl⟩
  case replicateKey =>
    obtain ⟨_, _, _, _, _, rfl, _⟩ := replicateKey_ok performed
    exact ⟨_, _, _, rfl⟩
  case scheduleKeyDeletion =>
    obtain ⟨_, _, _, _, rfl, _⟩ := scheduleKeyDeletion_ok performed
    exact ⟨_, _, _, rfl⟩
  case createAlias | updateAlias | deleteAlias | createGrant | retireGrant =>
    obtain ⟨_, _, _, rfl⟩ := perform_aside rfl performed
    exact ⟨_, _, _, rfl⟩
  all_goals
    rw [perform_asks rfl performed]
    exact ⟨_, _, _, rfl⟩

end Changes

/-- A refusal that is taken was there, and so were those that are left. -/
theorem takeRefusal?_eq_some {operation : String} {refusals rest : List (String × ServiceError)}
    {error : ServiceError} (taken : takeRefusal? operation refusals = some (error, rest)) :
    (operation, error) ∈ refusals ∧ rest ⊆ refusals := by
  induction refusals generalizing rest with
  | nil => cases taken
  | cons refusal others ih =>
    simp only [takeRefusal?] at taken
    split at taken
    next same =>
      cases taken
      exact ⟨by simp [← same], List.subset_cons_self _ _⟩
    next =>
      obtain ⟨⟨_, left⟩, later, same⟩ := Option.map_eq_some_iff.mp taken
      cases same
      obtain ⟨member, subset⟩ := ih later
      exact ⟨List.mem_cons_of_mem _ member, List.cons_subset_cons _ subset⟩

theorem noted_readOnly (asks : request.isMutating = false) (memory : Memory) :
    memory.ReadOnly (memory.noted request) where
  same := rfl
  refusals := List.Subset.refl _
  mutatingCalls := by simp [mutatingCalls, noted, asks]

theorem handle_readOnly (asks : request.isMutating = false) (memory : Memory) :
    memory.ReadOnly (service.handle request memory).2 := by
  have noted := noted_readOnly asks memory
  simp only [service, handle]
  split
  next error rest taken =>
    exact ⟨rfl, (takeRefusal?_eq_some taken).2, noted.mutatingCalls⟩
  next =>
    split
    next performed =>
      rw [perform_asks asks performed]
      exact noted
    next => exact noted

theorem handle_continues (request : Request) (memory : Memory) :
    memory.Continues (service.handle request memory).2 := by
  simp only [service, handle]
  split
  next error rest taken =>
    exact ⟨rfl, rfl, (takeRefusal?_eq_some taken).2⟩
  next =>
    split
    next performed =>
      obtain ⟨_, _, _, rfl⟩ := perform_frame performed
      exact ⟨rfl, rfl, List.Subset.refl _⟩
    next => exact ⟨rfl, rfl, List.Subset.refl _⟩

section Runs

variable {ε : Type} {program : Program α} {pass : ExceptT ε Program α} {value : α}

theorem run_readOnly (asks : program.Uses fun request => request.isMutating = false)
    (schedule : Schedule) (run : Run Memory) :
    run.state.ReadOnly (program.run service schedule run).2.state :=
  asks.run_related ReadOnly.refl ReadOnly.trans (fun _ memory asks => handle_readOnly asks memory)
    schedule run

theorem eval_readOnly (asks : program.Uses fun request => request.isMutating = false)
    (memory : Memory) : memory.ReadOnly (program.eval service memory).2 :=
  asks.eval_related ReadOnly.refl ReadOnly.trans (fun _ memory asks => handle_readOnly asks memory)
    memory

theorem run_continues (program : Program α) (schedule : Schedule) (run : Run Memory) :
    run.state.Continues (program.run service schedule run).2.state :=
  program.uses_any.run_related Continues.refl Continues.trans
    (fun request memory _ => handle_continues request memory) schedule run

theorem eval_continues (program : Program α) (memory : Memory) :
    memory.Continues (program.eval service memory).2 :=
  program.uses_any.eval_related Continues.refl Continues.trans
    (fun request memory _ => handle_continues request memory) memory

theorem yields_readOnly (asks : pass.run.Uses fun request => request.isMutating = false)
    (yields : Pass.Yields service pass memory value after) : memory.ReadOnly after := by
  have kept := eval_readOnly asks memory
  rwa [yields] at kept

theorem yields_continues (yields : Pass.Yields service pass memory value after) :
    memory.Continues after := by
  have kept := eval_continues pass.run memory
  rwa [yields] at kept

theorem eval_lift_call {ρ : Type} (unrefused : memory.refusals = []) (request : Request)
    (next : request.Answer → Update ρ α) :
    ((liftM (Pass.call request) : Update ρ _) >>= next).run.eval service memory =
      match perform request (memory.noted request) with
      | .ok (answer, after) => (next answer).run.eval service after
      | .error (.refused error) =>
        (.finished (.error ⟨none, .service error⟩), memory.noted request)
      | .error .crashed => (.crashed, memory.noted request) := by
  have handled : service.handle request memory = _ := handle_of_unrefused (by rw [unrefused]; rfl)
  change Program.eval _ (.call request _) memory = _
  simp only [Program.eval, handled]
  cases perform request (memory.noted request) with
  | ok done => rfl
  | error fault => cases fault <;> rfl

end Runs

end KeySteward.Memory
