import KeySteward.Proofs.AliasRenames
import KeySteward.Proofs.CallEffects
import KeySteward.Proofs.KeyedCalls
import KeySteward.Proofs.PassChanges
import KeySteward.Proofs.PassResults
import KeySteward.Proofs.StoreIntegrity

/-! What a pass leaves as it was. Whatever happens around its calls and whichever of them are refused,
a pass over a key changes no other key that is stored, one over an alias no other alias, and one over a
grant adds one or takes its own away; nothing else that is stored is touched. -/

namespace KeySteward

open Pass

variable {σ τ ρ α β : Type} {schedule : Schedule}

private theorem Run.call_state (service : Service ρ) (schedule : Schedule) (request : Request)
    (run : Run ρ) :
    (run.call service schedule request).2.state = run.state ∨
      (run.call service schedule request).2.state = (service.handle request run.state).2 := by
  have called := run.call_gives service schedule request
  generalize (run.call service schedule request).1 = result at called
  generalize (run.call service schedule request).2.state = after at called ⊢
  cases called with
  | interrupted _ left => exact left
  | answered handled => exact .inr (by rw [handled])
  | refused handled => exact .inr (by rw [handled])
  | crashed handled => exact .inr (by rw [handled])

namespace Program

variable {service : Service ρ}

private theorem run_call_alone {request : Request} {next : Except Failure request.Answer → Program α}
    (ends : ∀ result, ∃ value, next result = .done value) (run : Run ρ) :
    ((call request next).run service schedule run).2 = (run.call service schedule request).2 := by
  simp only [Program.run]
  rcases run.call service schedule request with ⟨_ | result, after⟩
  · rfl
  · obtain ⟨value, same⟩ := ends result
    simp only [same, Program.run]

end Program

private theorem Pass.deletion_leaves {service : Service ρ} (pass : Pass Unit) (run : Run ρ) :
    (pass.deletion.run.run service schedule run).2 = (pass.run.run service schedule run).2 := by
  rw [run_deletion]
  rcases Program.run_bind_cases pass.run _ run with same | ⟨result, after, ends, same⟩
  · exact same
  · rw [same, ends]
    rfl

namespace Manager

variable {service : Service ρ} {manager : Manager σ τ} {desired : Resource σ τ} {run : Run ρ}
variable {holds : Run ρ → Prop}

private theorem finalize_leaves
    (reads : holds ((manager.readOne desired).run.run service schedule run).2)
    (deletes : ∀ latest middle,
      (manager.readOne desired).run.run service schedule run = (.finished (.ok latest), middle) →
      holds ((manager.delete latest).run.run service schedule middle).2) :
    holds ((manager.finalize desired).run.run service schedule run).2 := by
  rw [run_finalize]
  rcases Program.run_bind_cases (manager.readOne desired).run _ run with
    same | ⟨reading, middle, read, same⟩
  · exact same ▸ reads
  · rw [same]
    cases reading with
    | ok latest => exact deletes latest middle read
    | error failure =>
      rw [read] at reads
      dsimp only
      split <;> exact reads

variable [CustomResource σ τ]

private theorem reconcile_leaves
    (reads : holds ((manager.readOne desired).run.run service schedule run).2)
    (syncs : ∀ latest middle,
      (manager.readOne desired).run.run service schedule run = (.finished (.ok latest), middle) →
      holds ((manager.sync desired latest).run.run service schedule middle).2)
    (creates : ∀ failure middle,
      (manager.readOne desired).run.run service schedule run = (.finished (.error failure), middle) →
      holds ((manager.create desired).run.run service schedule middle).2) :
    holds ((manager.reconcile desired).run.run service schedule run).2 := by
  rw [run_reconcile]
  rcases Program.run_bind_cases (manager.readOne desired).run _ run with
    same | ⟨reading, middle, read, same⟩
  · exact same ▸ reads
  · rw [same]
    cases reading with
    | ok latest => exact syncs latest middle read
    | error failure =>
      rw [read] at reads
      dsimp only
      split
      · exact creates failure middle read
      · exact reads

end Manager

namespace Memory

variable {memory after : Memory} {request : Request}

private theorem handle_store_cases (request : Request) (memory : Memory) :
    (service.handle request memory).2.store = memory.store ∨
      ∃ answer after, perform request (memory.noted request) = .ok (answer, after) ∧
        (service.handle request memory).2 = after := by
  rcases handled : service.handle request memory with ⟨fault | answer, after⟩
  · left
    rw [← handled, handle_store (.inl ⟨fault, by rw [handled]⟩)]
  · exact .inr ⟨answer, after, (handle_eq_ok.mp handled).2, rfl⟩

end Memory

namespace KeyStore

variable {store first second third : KeyStore} {keyId aliasName : String}

/-- Only the key with this id may be another one afterwards, and it is still there if it was. -/
structure ChangesKey (keyId : String) (before after : KeyStore) : Prop where
  aliases : after.aliases = before.aliases
  grants : after.grants = before.grants
  keys : ∀ other, other ≠ keyId → after.keys.get? other = before.keys.get? other
  holds : before.Holds keyId → after.Holds keyId

/-- Only the alias with this name may be another one afterwards. -/
structure ChangesAlias (aliasName : String) (before after : KeyStore) : Prop where
  keys : after.keys = before.keys
  grants : after.grants = before.grants
  aliases : ∀ other, other ≠ aliasName → after.aliases.get? other = before.aliases.get? other

namespace ChangesKey

theorem refl (keyId : String) (store : KeyStore) : ChangesKey keyId store store :=
  ⟨rfl, rfl, fun _ _ => rfl, id⟩

theorem trans (before : ChangesKey keyId first second) (later : ChangesKey keyId second third) :
    ChangesKey keyId first third where
  aliases := later.aliases.trans before.aliases
  grants := later.grants.trans before.grants
  keys other apart := (later.keys other apart).trans (before.keys other apart)
  holds held := later.holds (before.holds held)

private theorem insert (store : KeyStore) (keyId : String) (key : StoredKey) :
    ChangesKey keyId store { store with keys := store.keys.insert keyId key } where
  aliases := rfl
  grants := rfl
  keys other apart := by simp [apart.symm]
  holds _ := ⟨key, by simp⟩

/-- While a key keeps its metadata, every name keeps the key that it stands for. -/
theorem resolve? {before after : KeyStore} {old new : StoredKey}
    (changes : ChangesKey keyId before after) (held : before.keys.get? keyId = some old)
    (kept : after.keys.get? keyId = some new) (metadata : new.metadata = old.metadata)
    (name : String) : after.resolve? name = before.resolve? name := by
  have keys : after.keys = before.keys.insert keyId new := by
    refine SortedMap.ext_get? fun other => ?_
    rw [SortedMap.get?_insert]
    split
    next same => rw [← same, kept]
    next apart => exact changes.keys other (Ne.symm apart)
  rw [← resolve?_insert held metadata name]
  simp only [KeyStore.resolve?, keys, changes.aliases]

end ChangesKey

namespace ChangesAlias

theorem refl (aliasName : String) (store : KeyStore) : ChangesAlias aliasName store store :=
  ⟨rfl, rfl, fun _ _ => rfl⟩

theorem trans (before : ChangesAlias aliasName first second)
    (later : ChangesAlias aliasName second third) : ChangesAlias aliasName first third where
  keys := later.keys.trans before.keys
  grants := later.grants.trans before.grants
  aliases other apart := (later.aliases other apart).trans (before.aliases other apart)

private theorem insert (store : KeyStore) (aliasName : String) (entry : StoredAlias) :
    ChangesAlias aliasName store
      { store with aliases := store.aliases.insert aliasName entry } where
  keys := rfl
  grants := rfl
  aliases other apart := by simp [apart.symm]

private theorem erase (store : KeyStore) (aliasName : String) :
    ChangesAlias aliasName store { store with aliases := store.aliases.erase aliasName } where
  keys := rfl
  grants := rfl
  aliases other apart := by simp [apart.symm]

end ChangesAlias

end KeyStore

namespace Request

/-- A change of the named key, in place or by a deletion that is scheduled, or a reading. -/
def TouchesKey (keyId : String) (request : Request) : Prop :=
  request.AdjustsKey keyId ∨ ∃ days, request = .scheduleKeyDeletion keyId days

/-- A change of the named alias, or a reading. -/
def TouchesAlias (aliasName : String) (request : Request) : Prop :=
  request.Asks ∨ request = .deleteAlias aliasName ∨
    ∃ target, request = .createAlias aliasName target ∨ request = .updateAlias aliasName target

end Request

namespace Memory

variable {memory after : Memory} {request : Request} {answer : request.Answer} {keyId : String}

private theorem perform_changesKey (own : request.TouchesKey keyId) (held : memory.store.Holds keyId)
    (performed : perform request memory = .ok (answer, after)) :
    KeyStore.ChangesKey keyId memory.store after.store := by
  obtain ⟨stored, held⟩ := held
  have found := lookup_of_key? held
  rcases own with adjusts | ⟨days, rfl⟩
  · cases mutates : request.isMutating with
    | false =>
      rw [perform_asks mutates performed]
      exact .refl keyId memory.store
    | true =>
      obtain ⟨other, changed⟩ := perform_about adjusts.isAbout found mutates
      cases changed.symm.trans performed
      exact .insert memory.store keyId _
  · obtain ⟨_, _, changed, known, rfl, -⟩ := scheduleKeyDeletion_ok performed
    cases known.symm.trans found
    exact .insert memory.store keyId changed

private theorem handle_changesKey (own : request.TouchesKey keyId) (held : memory.store.Holds keyId) :
    KeyStore.ChangesKey keyId memory.store (service.handle request memory).2.store := by
  have noted : (memory.noted request).store.Holds keyId := held
  rcases handle_store_cases request memory with same | ⟨answer, after, performed, same⟩
  · rw [same]
    exact .refl keyId memory.store
  · rw [same]
    have changes := perform_changesKey own noted performed
    exact changes

/-- What a run asks of a key that is stored changes no other one. -/
theorem run_changesKey {program : Program α} (uses : program.Uses (Request.TouchesKey keyId))
    (schedule : Schedule) {run : Run Memory} (held : run.state.store.Holds keyId) :
    KeyStore.ChangesKey keyId run.state.store (program.run service schedule run).2.state.store := by
  let related (before after : Memory) : Prop :=
    before.store.Holds keyId → KeyStore.ChangesKey keyId before.store after.store
  have same (memory : Memory) : related memory memory := fun _ => .refl keyId memory.store
  have onward {first second third : Memory} :
      related first second → related second third → related first third :=
    fun before later held => (before held).trans (later ((before held).holds held))
  suffices changes : related run.state (program.run service schedule run).2.state from changes held
  exact uses.run_related same onward (fun _ _ own held => handle_changesKey own held) schedule run

def nextKeyId (memory : Memory) : String :=
  memory.config.ids.key memory.issuedKeys

private theorem ReadOnly.nextKeyId (reads : memory.ReadOnly after) :
    after.nextKeyId = memory.nextKeyId := by
  simp only [Memory.nextKeyId, reads.continues.config, reads.issuedKeys]

private theorem handle_createKey_changesKey (input : NewKey) (memory : Memory) :
    KeyStore.ChangesKey memory.nextKeyId memory.store
      (service.handle (.createKey input) memory).2.store := by
  rcases handle_store_cases (.createKey input) memory with same | ⟨answer, after, performed, same⟩
  · rw [same]
    exact .refl memory.nextKeyId memory.store
  · cases performed
    rw [same]
    exact .insert memory.store memory.nextKeyId _

private theorem call_createKey_changesKey (input : NewKey) (schedule : Schedule) (run : Run Memory) :
    KeyStore.ChangesKey run.state.nextKeyId run.state.store
      (run.call service schedule (.createKey input)).2.state.store := by
  rcases run.call_state service schedule (.createKey input) with same | same
  · rw [same]
    exact .refl run.state.nextKeyId run.state.store
  · rw [same]
    exact handle_createKey_changesKey input run.state

private theorem perform_changesAlias {aliasName : String} (own : request.TouchesAlias aliasName)
    (performed : perform request memory = .ok (answer, after)) :
    KeyStore.ChangesAlias aliasName memory.store after.store := by
  rcases own with asks | rfl | ⟨target, rfl | rfl⟩
  · rw [perform_asks asks performed]
    exact .refl aliasName memory.store
  · obtain rfl := deleteAlias_ok performed
    exact .erase memory.store aliasName
  · obtain ⟨_, _, entry, _, _, rfl⟩ := createAlias_ok performed
    exact .insert memory.store aliasName entry
  · obtain ⟨_, _, entry, _, _, rfl⟩ := updateAlias_ok performed
    exact .insert memory.store aliasName entry

private theorem run_changesAlias {aliasName : String} {program : Program α}
    (uses : program.Uses (Request.TouchesAlias aliasName)) (schedule : Schedule) (run : Run Memory) :
    KeyStore.ChangesAlias aliasName run.state.store
      (program.run service schedule run).2.state.store := by
  let related (before after : Memory) : Prop :=
    KeyStore.ChangesAlias aliasName before.store after.store
  have same (memory : Memory) : related memory memory := .refl aliasName memory.store
  have step (request : Request) (memory : Memory) (own : request.TouchesAlias aliasName) :
      related memory (service.handle request memory).2 := by
    rcases handle_store_cases request memory with unchanged | ⟨answer, after, performed, reached⟩
    · simp only [related, unchanged]
      exact .refl aliasName memory.store
    · rw [reached]
      have changes := perform_changesAlias own performed
      exact changes
  exact uses.run_related same (fun before later => before.trans later) step schedule run

end Memory

namespace Key

variable {run : Run Memory}

private theorem delete_uses (key : Key) :
    key.delete.run.Uses fun request =>
      ∃ keyId days, key.keyId? = some keyId ∧ request = .scheduleKeyDeletion keyId days := by
  unfold delete
  split
  next status recorded =>
    split
    next keyId named =>
      split
      · refine uses_bind (uses_call ⟨keyId, _, ?_, rfl⟩) fun _ => trivial
        rw [keyId?, recorded]
        exact named
      · trivial
    next => trivial
  next => trivial

private theorem create_changesKey (scope : AccountScope) (desired : Key) (schedule : Schedule)
    (run : Run Memory) :
    KeyStore.ChangesKey run.state.nextKeyId run.state.store
      ((create scope desired).run.run Memory.service schedule run).2.state.store := by
  rw [run_create]
  let request : Request := .createKey desired.spec.newKey
  have called := run.call_gives Memory.service schedule request
  have created := Memory.call_createKey_changesKey desired.spec.newKey schedule run
  simp only [Program.run]
  generalize run.call Memory.service schedule request = outcome at called created ⊢
  obtain ⟨_ | (failure | metadata), middle⟩ := outcome
  · exact created
  · exact created
  · cases called with
    | answered handled =>
      obtain ⟨-, performed⟩ := Memory.handle_eq_ok.mp handled
      -- The key that the service has answered with is the new one, so what follows changes no other.
      have made : (run.state.noted request).createKey desired.spec.newKey =
          (metadata, middle.state) := Except.ok.inj performed
      have named : metadata.keyId = run.state.nextKeyId := by
        rw [← congrArg (fun done => done.1.keyId) made]
        rfl
      have stored := Memory.key?_createKey (run.state.noted request) desired.spec.newKey
      rw [made] at stored
      have held : middle.state.store.Holds metadata.keyId := ⟨_, stored⟩
      have started := Memory.run_changesKey
        ((startRotation_uses scope desired metadata).mono fun _ => .inl) schedule held
      exact created.trans (named ▸ started)

/-- The pass has changed the key that the status names, or has added one, and left all else alone. -/
def Changes (key : Key) (before after : Memory) : Prop :=
  ∃ keyId, KeyStore.ChangesKey keyId before.store after.store ∧
    (key.keyId?.bind before.store.resolve? = some keyId ∨ keyId = before.nextKeyId)

variable (scope : AccountScope) (pages : Nat) {key latest : Key} {middle : Run Memory}

private theorem readOne_store (key : Key) (schedule : Schedule) (run : Run Memory) :
    ((readOne scope pages key).run.run Memory.service schedule run).2.state.store = run.state.store :=
  (Memory.run_readOnly (readOne_asks scope pages key) schedule run).store

private theorem readOne_changes (key : Key) (schedule : Schedule) (run : Run Memory) :
    key.Changes run.state ((readOne scope pages key).run.run Memory.service schedule run).2.state := by
  refine ⟨run.state.nextKeyId, ?_, .inr rfl⟩
  rw [readOne_store]
  exact .refl _ run.state.store

variable {scope pages} in
private theorem readOne_names (keyed : run.state.store.IsKeyed)
    (read : (readOne scope pages key).run.run Memory.service schedule run =
      (.finished (.ok latest), middle)) :
    ∃ keyId, latest.keyId? = some keyId ∧ key.keyId?.bind run.state.store.resolve? = some keyId ∧
      middle.state.store = run.state.store ∧ run.state.store.Holds keyId := by
  obtain ⟨name, keyId, stored, named, found, rfl, reads⟩ :=
    readOne_found ((readOne_heeds scope pages key).yields read)
  have own : stored.metadata.keyId = keyId := keyed keyId stored (Memory.key?_of_lookup found)
  refine ⟨keyId, ?_, ?_, reads.store, stored, Memory.key?_of_lookup found⟩
  · rw [asFound_keyId?, own]
  · rw [named]
    exact (Memory.lookup_eq_ok.mp found).1

private theorem reconcile_changesKey (keyed : run.state.store.IsKeyed) (key : Key)
    (schedule : Schedule) :
    key.Changes run.state
      (((manager scope pages).reconcile key).run.run Memory.service schedule run).2.state := by
  let holds (last : Run Memory) : Prop := key.Changes run.state last.state
  suffices changes : holds (((manager scope pages).reconcile key).run.run Memory.service schedule run).2
    from changes
  refine Manager.reconcile_leaves (readOne_changes scope pages key schedule run) ?_ ?_
  · intro latest middle read
    obtain ⟨keyId, known, named, same, held⟩ := readOne_names keyed read
    have uses : ((manager scope pages).sync key latest).run.Uses (Request.TouchesKey keyId) := by
      refine (sync_uses scope pages key latest).mono ?_
      rintro request ⟨other, recorded, adjusts⟩
      cases recorded.symm.trans known
      exact .inl adjusts
    have changes := Memory.run_changesKey uses schedule (same ▸ held)
    exact ⟨keyId, same ▸ changes, .inl named⟩
  · intro failure middle read
    have reads := Memory.run_readOnly (readOne_asks scope pages key) schedule run
    change (readOne scope pages key).run.run _ _ _ = _ at read
    rw [read] at reads
    have changes := create_changesKey scope key schedule middle
    rw [reads.nextKeyId, reads.store] at changes
    exact ⟨run.state.nextKeyId, changes, .inr rfl⟩

private theorem finalize_changesKey (keyed : run.state.store.IsKeyed) (key : Key) (schedule : Schedule) :
    key.Changes run.state
      (((manager scope pages).finalize key).run.run Memory.service schedule run).2.state := by
  let holds (last : Run Memory) : Prop := key.Changes run.state last.state
  suffices changes : holds (((manager scope pages).finalize key).run.run Memory.service schedule run).2
    from changes
  refine Manager.finalize_leaves (readOne_changes scope pages key schedule run) ?_
  intro latest middle read
  obtain ⟨keyId, known, named, same, held⟩ := readOne_names keyed read
  have uses : (delete latest).run.Uses (Request.TouchesKey keyId) := by
    refine (delete_uses latest).mono ?_
    rintro request ⟨other, days, recorded, rfl⟩
    cases recorded.symm.trans known
    exact .inr ⟨days, rfl⟩
  have changes := Memory.run_changesKey uses schedule (same ▸ held)
  exact ⟨keyId, same ▸ changes, .inl named⟩

end Key

namespace Alias

variable (scope : AccountScope) (pages : Nat) {run : Run Memory}

private theorem create_uses (desired : Alias) :
    (create scope desired).run.Uses fun request =>
      ∃ target, request = .createAlias desired.remoteName target := by
  unfold create
  split
  · exact uses_bind (uses_lift (uses_call ⟨_, rfl⟩)) fun _ => trivial
  · trivial

private theorem delete_uses (resource : Alias) :
    resource.delete.run.Uses fun request => request = .deleteAlias resource.remoteName := by
  refine ⟨rfl, fun result => ?_⟩
  cases result with
  | ok value => trivial
  | error failure =>
    change Program.Uses _ (if _ then _ else _ : Pass Unit).run
    split <;> trivial

private theorem readOne_touches (resource : Alias) (aliasName : String) :
    (readOne scope pages resource).run.Uses (Request.TouchesAlias aliasName) := by
  refine (readOne_uses scope pages resource).mono ?_
  rintro request ⟨marker, rfl⟩
  exact .inl rfl

private theorem reconcile_changesAlias (desired : Alias) (schedule : Schedule) (run : Run Memory) :
    KeyStore.ChangesAlias desired.remoteName run.state.store
      (((manager scope pages).reconcile desired).run.run Memory.service schedule run).2.state.store := by
  refine Memory.run_changesAlias (Manager.reconcile_uses ?_ (fun latest => ?_) ?_) schedule run
  · exact readOne_touches scope pages desired desired.remoteName
  · refine (sync_uses scope pages desired latest).mono ?_
    rintro request ⟨target, rfl⟩
    exact .inr (.inr ⟨target, .inr rfl⟩)
  · refine (create_uses scope desired).mono ?_
    rintro request ⟨target, rfl⟩
    exact .inr (.inr ⟨target, .inl rfl⟩)

private theorem finalize_changesAlias (resource : Alias) (schedule : Schedule) (run : Run Memory) :
    KeyStore.ChangesAlias resource.remoteName run.state.store
      (((manager scope pages).finalize resource).run.run Memory.service schedule run).2.state.store := by
  let holds (last : Run Memory) : Prop :=
    KeyStore.ChangesAlias resource.remoteName run.state.store last.state.store
  suffices changes :
      holds (((manager scope pages).finalize resource).run.run Memory.service schedule run).2 from changes
  have begun := Memory.run_changesAlias (readOne_touches scope pages resource resource.remoteName)
    schedule run
  refine Manager.finalize_leaves begun fun latest middle read => ?_
  have same : latest.spec.name = resource.spec.name := (readOne_endsIn scope pages resource).run_ok read
  have named : remoteName latest = resource.remoteName := congrArg AliasSpec.canonicalName same
  have uses : (delete latest).run.Uses (Request.TouchesAlias resource.remoteName) := by
    refine (delete_uses latest).mono ?_
    rintro request rfl
    exact named ▸ .inr (.inl rfl)
  change (readOne scope pages resource).run.run _ _ _ = _ at read
  rw [read] at begun
  exact begun.trans (Memory.run_changesAlias uses schedule middle)

end Alias

namespace Memory

variable {memory after : Memory}

/-- One more grant, under the next id, or none. -/
def AddsGrant (before after : Memory) : Prop :=
  after.store = before.store ∨ ∃ entry, entry.grantId = before.config.ids.grant before.issuedGrants ∧
    after.store = { before.store with grants := before.store.grants ++ [entry] }

/-- All grants but one with this id, or all of them. -/
def TakesGrant (grantId : String) (before after : Memory) : Prop :=
  after.store = before.store ∨ ∃ entry ∈ before.store.grants, entry.grantId = grantId ∧
    after.store = { before.store with
      grants := before.store.grants.filter fun other =>
        !(other.grantId == entry.grantId && other.keyId == entry.keyId) }

private theorem ReadOnly.issuedGrants (reads : memory.ReadOnly after) :
    after.issuedGrants = memory.issuedGrants := by
  have same := congrArg Memory.issuedGrants reads.same
  exact same

theorem AddsGrant.behind {middle : Memory} (adds : middle.AddsGrant after)
    (reads : memory.ReadOnly middle) : memory.AddsGrant after := by
  simpa only [AddsGrant, reads.store, reads.continues.config, reads.issuedGrants] using adds

theorem TakesGrant.behind {middle : Memory} {grantId : String} (takes : middle.TakesGrant grantId after)
    (reads : memory.ReadOnly middle) : memory.TakesGrant grantId after := by
  simpa only [TakesGrant, reads.store] using takes

private theorem handle_addsGrant (input : NewGrant) (memory : Memory) :
    memory.AddsGrant (service.handle (.createGrant input) memory).2 := by
  rcases handle_store_cases (.createGrant input) memory with same | ⟨answer, after, performed, same⟩
  · exact .inl same
  · rw [same]
    rcases createGrant_ok performed with ⟨rfl, -⟩ | ⟨entry, numbered, -, -, rfl⟩
    · exact .inl rfl
    · exact .inr ⟨entry, numbered, rfl⟩

private theorem retireGrant_takes {name grantId : String} {answer : Unit}
    (performed : memory.retireGrant name grantId = .ok (answer, after)) :
    memory.TakesGrant grantId after := by
  simp only [retireGrant, bind_eq_ok] at performed
  obtain ⟨⟨_, key⟩, _, performed⟩ := performed
  split at performed
  next matching =>
    cases performed
    obtain ⟨entry, held, same⟩ := List.any_eq_true.mp matching
    obtain ⟨rfl, own⟩ : entry.grantId = grantId ∧ entry.keyId = key.metadata.keyId := by
      simpa using same
    exact .inr ⟨entry, held, rfl, by rw [own]; rfl⟩
  next => cases performed

private theorem handle_takesGrant (name grantId : String) (memory : Memory) :
    memory.TakesGrant grantId (service.handle (.retireGrant name grantId) memory).2 := by
  rcases handle_store_cases (.retireGrant name grantId) memory with
    same | ⟨answer, after, performed, same⟩
  · exact .inl same
  · have takes := retireGrant_takes performed
    exact same ▸ takes

private theorem call_addsGrant (input : NewGrant) (schedule : Schedule) (run : Run Memory) :
    run.state.AddsGrant (run.call service schedule (.createGrant input)).2.state := by
  rcases run.call_state service schedule (.createGrant input) with same | same
  · exact .inl (by rw [same])
  · exact same ▸ handle_addsGrant input run.state

private theorem call_takesGrant (name grantId : String) (schedule : Schedule) (run : Run Memory) :
    run.state.TakesGrant grantId (run.call service schedule (.retireGrant name grantId)).2.state := by
  rcases run.call_state service schedule (.retireGrant name grantId) with same | same
  · exact .inl (by rw [same])
  · exact same ▸ handle_takesGrant name grantId run.state

/-- Where ids are distinct, the grant that is taken away is exactly the one that was found. -/
theorem Reachable.filter_eq_erase (reachable : memory.Reachable)
    (distinct : Function.Injective memory.config.ids.grant) {entry : GrantEntry}
    (held : entry ∈ memory.store.grants) :
    (memory.store.grants.filter fun other =>
      !(other.grantId == entry.grantId && other.keyId == entry.keyId)) =
      memory.store.grants.erase entry := by
  have nodup : memory.store.grants.Nodup := (reachable.grantIds_nodup distinct).of_map
  rw [nodup.erase_eq_filter]
  refine List.filter_congr fun other member => ?_
  by_cases same : other = entry
  · simp [same]
  · have apart : other.grantId ≠ entry.grantId := fun equal =>
      same (reachable.grant_eq distinct held member equal)
    rw [beq_eq_false_iff_ne.mpr apart, bne_iff_ne.mpr same]
    rfl

end Memory

namespace Grant

variable (scope : AccountScope) (pages : Nat) {grant : Grant} {run : Run Memory}

/-- What becomes of what is stored: the grants stay, or one is added under an id that none had, or the one
that the status records is taken away. -/
def Changes (grant : Grant) (before after : KeyStore) : Prop :=
  after.keys = before.keys ∧ after.aliases = before.aliases ∧
    (after.grants = before.grants ∨
      (∃ entry, (∀ other ∈ before.grants, other.grantId ≠ entry.grantId) ∧
        after.grants = before.grants ++ [entry]) ∨
      ∃ entry ∈ before.grants, grant.grantId? = some entry.grantId ∧
        after.grants = before.grants.erase entry)

theorem Changes.refl (grant : Grant) (store : KeyStore) : grant.Changes store store :=
  ⟨rfl, rfl, .inl rfl⟩

private theorem readOne_readOnly (grant : Grant) (schedule : Schedule) (run : Run Memory) :
    run.state.ReadOnly
      ((readOne scope pages grant).run.run Memory.service schedule run).2.state :=
  Memory.run_readOnly (readOne_asks scope pages grant) schedule run

theorem readOne_endsIn (grant : Grant) :
    EndsIn (fun latest => latest.grantId? = grant.grantId? ∧ latest.keyId? = grant.keyId?)
      (fun _ => True) (readOne scope pages grant) := by
  unfold readOne
  split
  next grantId recorded =>
    split
    · refine (EndsIn.any _).bind fun entry? _ => ?_
      cases entry? with
      | none => trivial
      | some entry =>
        obtain ⟨status, present, known⟩ := Option.bind_eq_some_iff.mp recorded
        refine ⟨?_, rfl⟩
        change grant.statusOrFresh.grantId = _
        rw [Resource.statusOrFresh, present, recorded]
        exact known
    · trivial
  next => trivial

private theorem create_adds (desired : Grant) (schedule : Schedule) (run : Run Memory) :
    run.state.AddsGrant ((create scope desired).run.run Memory.service schedule run).2.state := by
  unfold create
  split
  · change run.state.AddsGrant ((Program.call (.createGrant _) _).run _ _ _).2.state
    rw [Program.run_call_alone fun result => by cases result <;> exact ⟨_, rfl⟩]
    exact Memory.call_addsGrant _ schedule run
  · exact .inl rfl

private theorem delete_takes {grantId : String} (recorded : grant.grantId? = some grantId)
    (schedule : Schedule) (run : Run Memory) :
    run.state.TakesGrant grantId ((delete grant).run.run Memory.service schedule run).2.state := by
  simp only [delete, recorded]
  split
  next keyId _ =>
    rw [deletion_leaves]
    change run.state.TakesGrant grantId
      ((Program.call (.retireGrant keyId grantId) .done).run _ _ _).2.state
    rw [Program.run_call_alone fun result => ⟨result, rfl⟩]
    exact Memory.call_takesGrant keyId grantId schedule run
  next => exact .inl rfl

variable (reachable : run.state.Reachable)
  (distinct : Function.Injective run.state.config.ids.grant)

include reachable distinct

private theorem changes_of_adds {after : Memory} (adds : run.state.AddsGrant after) :
    grant.Changes run.state.store after.store := by
  rcases adds with same | ⟨entry, numbered, same⟩
  · rw [same]
    exact .refl grant run.state.store
  · refine ⟨by rw [same], by rw [same], .inr (.inl ⟨entry, fun other held => ?_, by rw [same]⟩)⟩
    exact numbered ▸ reachable.nextGrantId_unused distinct held

private theorem changes_of_takes {after : Memory} {grantId : String}
    (recorded : grant.grantId? = some grantId)
    (takes : run.state.TakesGrant grantId after) : grant.Changes run.state.store after.store := by
  rcases takes with same | ⟨entry, held, rfl, same⟩
  · rw [same]
    exact .refl grant run.state.store
  · refine ⟨by rw [same], by rw [same], .inr (.inr ⟨entry, held, recorded, ?_⟩)⟩
    rw [same]
    exact reachable.filter_eq_erase distinct held

private theorem reconcile_changesGrants (grant : Grant) (schedule : Schedule) :
    grant.Changes run.state.store
      (((manager scope pages).reconcile grant).run.run Memory.service schedule run).2.state.store := by
  let holds (last : Run Memory) : Prop := grant.Changes run.state.store last.state.store
  suffices changes : holds (((manager scope pages).reconcile grant).run.run Memory.service schedule run).2
    from changes
  have reads := readOne_readOnly scope pages grant schedule run
  refine Manager.reconcile_leaves ?_ (fun latest middle read => ?_) fun failure middle read => ?_
  · exact changes_of_adds reachable distinct (.inl reads.store)
  · change (readOne scope pages grant).run.run _ _ _ = _ at read
    rw [read] at reads
    have still := Memory.run_readOnly
      ((sync_uses scope pages grant latest).mono fun _ => False.elim) schedule middle
    exact changes_of_adds reachable distinct (.inl (still.store.trans reads.store))
  · change (readOne scope pages grant).run.run _ _ _ = _ at read
    rw [read] at reads
    exact changes_of_adds reachable distinct ((create_adds scope grant schedule middle).behind reads)

private theorem finalize_changesGrants (grant : Grant) (schedule : Schedule) :
    grant.Changes run.state.store
      (((manager scope pages).finalize grant).run.run Memory.service schedule run).2.state.store := by
  let holds (last : Run Memory) : Prop := grant.Changes run.state.store last.state.store
  suffices changes : holds (((manager scope pages).finalize grant).run.run Memory.service schedule run).2
    from changes
  have reads := readOne_readOnly scope pages grant schedule run
  refine Manager.finalize_leaves ?_ fun latest middle read => ?_
  · exact changes_of_adds reachable distinct (.inl reads.store)
  · have same := ((readOne_endsIn scope pages grant).run_ok read).1
    change (readOne scope pages grant).run.run _ _ _ = _ at read
    cases recorded : grant.grantId? with
    | none =>
      simp only [readOne, recorded] at read
      cases read
    | some grantId =>
      rw [read] at reads
      have takes := delete_takes (same.trans recorded) schedule middle
      exact changes_of_takes reachable distinct recorded (takes.behind reads)

end Grant

/-- One of the two passes over a resource leaves the service so. -/
def Manager.Leaves [CustomResource σ τ] (manager : Manager σ τ) (resource : Resource σ τ)
    (schedule : Schedule) (run : Run Memory) (after : Memory) : Prop :=
  after = ((manager.reconcile resource).run.run Memory.service schedule run).2.state ∨
    after = ((manager.finalize resource).run.run Memory.service schedule run).2.state

/-- Whatever is refused and whatever happens around the calls, a pass over a key leaves the aliases, the
grants and every key that was stored but the one that its status names, and brings at most one new key; a
pass over an alias leaves the keys, the grants and every alias of another name; and a pass over a grant
leaves the keys, the aliases and the grants, apart from one that it adds or from its own that it takes
away. -/
theorem passes_keep_others {run : Run Memory} (reachable : run.state.Reachable)
    (fresh : ¬ run.state.store.Holds run.state.nextKeyId)
    (distinct : Function.Injective run.state.config.ids.grant) (schedule : Schedule)
    (scope : AccountScope) (pages : Nat) :
    let before := run.state.store
    (∀ (key : Key) (after : Memory), (Key.manager scope pages).Leaves key schedule run after →
      after.store.aliases = before.aliases ∧ after.store.grants = before.grants ∧
        (∀ keyId, before.Holds keyId → key.keyId?.bind before.resolve? ≠ some keyId →
          after.store.keys.get? keyId = before.keys.get? keyId) ∧
        ∃ created, ∀ keyId, ¬ before.Holds keyId → after.store.Holds keyId → keyId = created) ∧
    (∀ (resource : Alias) (after : Memory),
      (Alias.manager scope pages).Leaves resource schedule run after →
        after.store.keys = before.keys ∧ after.store.grants = before.grants ∧
          ∀ aliasName, aliasName ≠ resource.remoteName →
            after.store.aliases.get? aliasName = before.aliases.get? aliasName) ∧
    ∀ (grant : Grant) (after : Memory), (Grant.manager scope pages).Leaves grant schedule run after →
      after.store.keys = before.keys ∧ after.store.aliases = before.aliases ∧
        (after.store.grants = before.grants ∨
          (∃ entry, (∀ other ∈ before.grants, other.grantId ≠ entry.grantId) ∧
            after.store.grants = before.grants ++ [entry]) ∨
          ∃ entry ∈ before.grants, grant.grantId? = some entry.grantId ∧
            after.store.grants = before.grants.erase entry) := by
  intro before
  refine ⟨fun key after leaves => ?_, fun resource after leaves => ?_, fun grant after leaves => ?_⟩
  · have changes : key.Changes run.state after := by
      rcases leaves with rfl | rfl
      · exact Key.reconcile_changesKey scope pages reachable.isKeyed key schedule
      · exact Key.finalize_changesKey scope pages reachable.isKeyed key schedule
    obtain ⟨changed, kept, own⟩ := changes
    refine ⟨kept.aliases, kept.grants, fun keyId held other => ?_, changed, fun keyId absent there => ?_⟩
    · refine kept.keys keyId ?_
      rintro rfl
      rcases own with named | rfl
      · exact other named
      · exact fresh held
    · by_contra apart
      obtain ⟨key, stored⟩ := there
      exact absent ⟨key, (kept.keys keyId apart).symm.trans stored⟩
  · have changes : KeyStore.ChangesAlias resource.remoteName before after.store := by
      rcases leaves with rfl | rfl
      · exact Alias.reconcile_changesAlias scope pages resource schedule run
      · exact Alias.finalize_changesAlias scope pages resource schedule run
    exact ⟨changes.keys, changes.grants, changes.aliases⟩
  · rcases leaves with rfl | rfl
    · exact Grant.reconcile_changesGrants scope pages reachable distinct grant schedule
    · exact Grant.finalize_changesGrants scope pages reachable distinct grant schedule

/-- Two keys, an alias and a grant on the first of them, and a refusal to come for the tags of a key. -/
theorem passes_keep_others_granted :
    let scope : AccountScope := ⟨"us-west-2", "000000000000"⟩
    let grant : Request :=
      .createGrant { keyId := "alias/pay", granteePrincipal := "role", operations := ["Decrypt"] }
    let memory := (((((Memory.act { config := .numbered } (.seedKey "k1" {})).act
      (.seedKey "k2" {})).act (.call (.createAlias "alias/pay" "k1"))).act (.call grant)).act
      (.failNext "TagResource" (.api "TagException" "no")))
    let run : Run Memory := { state := memory }
    let key : Key :=
      ⟨{ name := "k1" }, { tags := .ofTags [⟨"team", "payments"⟩] }, some { keyId := some "k1" }⟩
    let pay : Alias := ⟨{ name := "pay" }, { name := "pay", targetKeyId := some "k2" }, none⟩
    let reader : Grant := ⟨{ name := "reader" }, {
      keyId := some "k1", granteePrincipal := "role", operations := ["Decrypt"] },
      some { grantId := some "grant-0" }⟩
    (∀ after : Memory, (Key.manager scope 2).Leaves key .calm run after →
      after.store.aliases = memory.store.aliases ∧ after.store.grants = memory.store.grants ∧
        after.store.keys.get? "k2" = memory.store.keys.get? "k2" ∧
        ∃ created, ∀ keyId, ¬ memory.store.Holds keyId → after.store.Holds keyId → keyId = created) ∧
    (∀ after : Memory, (Alias.manager scope 2).Leaves pay .calm run after →
      after.store.keys = memory.store.keys ∧ after.store.grants = memory.store.grants ∧
        ∀ aliasName, aliasName ≠ "alias/pay" →
          after.store.aliases.get? aliasName = memory.store.aliases.get? aliasName) ∧
    ∀ after : Memory, (Grant.manager scope 2).Leaves reader .calm run after →
      after.store.keys = memory.store.keys ∧ after.store.aliases = memory.store.aliases ∧
        (after.store.grants = memory.store.grants ∨
          (∃ entry, (∀ other ∈ memory.store.grants, other.grantId ≠ entry.grantId) ∧
            after.store.grants = memory.store.grants ++ [entry]) ∨
          ∃ entry ∈ memory.store.grants, entry.grantId = "grant-0" ∧
            after.store.grants = memory.store.grants.erase entry) := by
  intro scope grant memory run key pay reader
  have reachable : run.state.Reachable :=
    (((((Memory.Reachable.start .numbered).act (.seedKey _ _)).act (.seedKey _ _)).act
      (.call _)).act (.call _)).act (.failNext _ _)
  have fresh : ¬ run.state.store.Holds run.state.nextKeyId := by
    intro ⟨key, stored⟩
    have absent : run.state.store.keys.get? run.state.nextKeyId = none := by decide
    cases absent.symm.trans stored
  have distinct : Function.Injective run.state.config.ids.grant := Memory.Config.numbered_distinct
  obtain ⟨keys, aliases, grants⟩ := passes_keep_others reachable fresh distinct .calm scope 2
  have held : run.state.store.Holds "k2" := ⟨_, rfl⟩
  have other : key.keyId?.bind run.state.store.resolve? ≠ some "k2" := by decide
  refine ⟨fun after leaves => ?_, aliases pay, fun after leaves => ?_⟩
  · obtain ⟨sameAliases, sameGrants, others, created⟩ := keys key after leaves
    exact ⟨sameAliases, sameGrants, others "k2" held other, created⟩
  · obtain ⟨sameKeys, sameAliases, same | added | ⟨entry, live, recorded, erased⟩⟩ :=
      grants reader after leaves
    · exact ⟨sameKeys, sameAliases, .inl same⟩
    · exact ⟨sameKeys, sameAliases, .inr (.inl added)⟩
    · have id : entry.grantId = "grant-0" := Option.some.inj recorded.symm
      exact ⟨sameKeys, sameAliases, .inr (.inr ⟨entry, live, id, erased⟩)⟩

end KeySteward
