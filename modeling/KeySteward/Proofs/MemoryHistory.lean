import KeySteward.Proofs.MemoryCalls

/-! What can become of the service in memory. A history starts from a service that holds nothing and
goes on with calls and preparations in any order. On the way every key stays stored under its own
id, so the id that the service tells of a key is one that it finds the key by. -/

namespace KeySteward

variable {memory after : Memory}

/-- A service that numbers what it creates. -/
def Memory.Config.numbered : Memory.Config where
  region := "us-west-2"
  accountId := "000000000000"
  pageSize := 50
  now := ⟨0, 0⟩
  ids := ⟨fun n => "key-" ++ toString n, fun n => "grant-" ++ toString n⟩

/-- One thing that can happen to the service. -/
inductive Memory.Action where
  | call (request : Request)
  | insertKey (metadata : KeyMetadata)
  | seedKey (keyId : String) (tags : TagMap)
  | setRotation (keyId : String) (enabled : Bool)
  | setPolicy (keyId policy : String)
  | setRotationStatusUnavailable (unavailable : Bool)
  | failNext (operation : String) (error : ServiceError)
  | clearJournal
  /-- Time passes, or the clock is set back. -/
  | setClock (now : Timestamp)

def Memory.act (memory : Memory) : Action → Memory
  | .call request => (service.handle request memory).2
  | .insertKey metadata => memory.insertKey metadata
  | .seedKey keyId tags => memory.seedKey keyId tags
  | .setRotation keyId enabled => memory.setRotation keyId enabled
  | .setPolicy keyId policy => memory.setPolicy keyId policy
  | .setRotationStatusUnavailable unavailable => memory.setRotationStatusUnavailable unavailable
  | .failNext operation error => memory.failNext operation error
  | .clearJournal => memory.clearJournal
  | .setClock now => { memory with config.now := now }

/-- The states that a service comes to which held nothing at first. -/
inductive Memory.Reachable : Memory → Prop where
  | start (config : Memory.Config) : Reachable { config }
  | act {memory : Memory} (reached : Reachable memory) (action : Memory.Action) :
      Reachable (memory.act action)

/-- What becomes of the service when the actions of a history happen in their order. -/
def Memory.play (memory : Memory) (history : List Action) : Memory :=
  history.foldl act memory

/-- Every key is stored under its own id. -/
def KeyStore.IsKeyed (store : KeyStore) : Prop :=
  ∀ keyId key, store.keys.get? keyId = some key → key.metadata.keyId = keyId

namespace KeyStore.IsKeyed

variable {store : KeyStore} {keyId : String}

theorem insert (keyed : store.IsKeyed) {key : StoredKey} (own : key.metadata.keyId = keyId) :
    { store with keys := store.keys.insert keyId key }.IsKeyed := by
  intro other found stored
  rw [SortedMap.get?_insert] at stored
  split at stored
  next same =>
    cases stored
    exact own.trans same
  next => exact keyed other found stored

theorem modify (keyed : store.IsKeyed) {change : StoredKey → StoredKey}
    (kept : ∀ key, (change key).metadata.keyId = key.metadata.keyId) :
    (store.modifyKey keyId change).IsKeyed := by
  intro other found stored
  simp only [KeyStore.modifyKey, SortedMap.get?_modify] at stored
  split at stored
  · obtain ⟨key, held, rfl⟩ := Option.map_eq_some_iff.mp stored
    exact (kept key).trans (keyed other key held)
  · exact keyed other found stored

private theorem change (keyed : memory.store.IsKeyed) {name : String} {key changed : StoredKey}
    (found : memory.lookup name = .ok (keyId, key))
    (kept : changed.metadata.keyId = key.metadata.keyId) :
    { memory.store with keys := memory.store.keys.insert keyId changed }.IsKeyed :=
  keyed.insert (kept.trans (keyed keyId key (Memory.key?_of_lookup found)))

private theorem perform {request : Request} {answer : request.Answer} (keyed : memory.store.IsKeyed)
    (performed : memory.perform request = .ok (answer, after)) : after.store.IsKeyed := by
  cases request
  case createKey =>
    cases performed
    exact keyed.insert rfl
  case enableKeyRotation | disableKeyRotation | putKeyPolicy | tagResource | untagResource =>
    simp only [Memory.perform, Memory.changeKey_eq_ok] at performed
    obtain ⟨_, _, found, rfl⟩ := performed
    exact keyed.change found rfl
  case replicateKey =>
    obtain ⟨_, _, _, _, found, rfl, _, kept, rfl⟩ := Memory.replicateKey_ok performed
    exact (keyed.change found kept).insert rfl
  case scheduleKeyDeletion =>
    obtain ⟨_, _, _, found, rfl, kept, _⟩ := Memory.scheduleKeyDeletion_ok performed
    exact keyed.change found kept
  case createAlias | updateAlias | deleteAlias | createGrant | retireGrant =>
    obtain ⟨_, _, _, rfl⟩ := Memory.perform_aside rfl performed
    exact keyed
  all_goals
    rw [Memory.perform_asks rfl performed]
    exact keyed

theorem handle (keyed : memory.store.IsKeyed) (request : Request) :
    (Memory.service.handle request memory).2.store.IsKeyed := by
  simp only [Memory.service, Memory.handle]
  split
  · exact keyed
  · split
    next performed =>
      have noted : (memory.noted request).store.IsKeyed := keyed
      exact noted.perform performed
    next => exact keyed

end KeyStore.IsKeyed

theorem Memory.run_isKeyed {α : Type} (program : Program α) (schedule : Schedule) {run : Run Memory}
    (keyed : run.state.store.IsKeyed) :
    (program.run service schedule run).2.state.store.IsKeyed := by
  have step (request : Request) (memory : Memory) (_ : True) (keyed : memory.store.IsKeyed) :
      (service.handle request memory).2.store.IsKeyed := keyed.handle request
  exact program.uses_any.run_preserves step schedule keyed

namespace Memory.Reachable

theorem isKeyed (reachable : memory.Reachable) : memory.store.IsKeyed := by
  induction reachable with
  | start config =>
    intro keyId key stored
    cases stored
  | act reached action ih =>
    cases action with
    | call request => exact ih.handle request
    | insertKey metadata => exact ih.insert rfl
    | seedKey keyId tags => exact ih.insert rfl
    | setRotation keyId enabled => exact ih.modify fun _ => rfl
    | setPolicy keyId policy => exact ih.modify fun _ => rfl
    | setRotationStatusUnavailable | failNext | clearJournal | setClock => exact ih

theorem play (reachable : memory.Reachable) (history : List Action) :
    (memory.play history).Reachable := by
  induction history generalizing memory with
  | nil => exact reachable
  | cons action rest ih => exact ih (reachable.act action)

theorem run {α : Type} {run : Run Memory} (reachable : run.state.Reachable) (program : Program α)
    (schedule : Schedule) : (program.run service schedule run).2.state.Reachable := by
  have step (request : Request) (memory : Memory) (_ : True) (reached : memory.Reachable) :
      (service.handle request memory).2.Reachable := reached.act (.call request)
  exact program.uses_any.run_preserves step schedule reachable

end Memory.Reachable

end KeySteward
