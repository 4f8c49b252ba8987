import KeySteward.Manager.Alias
import KeySteward.Manager.Grant
import KeySteward.Proofs.MemoryReadings

/-! Aliases and grants as a pass finds them. Both are looked for in listings, an alias by its name among
all aliases and a grant by its id among the grants of a key; what is found goes into the resource. -/

namespace KeySteward

variable {α : Type} {able : Prop} {memory : Memory} {name keyId : String} {key : StoredKey}

private theorem Entries.find?_key (key : String) (entries : List (String × α)) :
    entries.find? (fun entry => entry.1 == key) = (get? key entries).map (key, ·) := by
  induction entries with
  | nil => rfl
  | cons entry rest ih =>
    obtain ⟨k, v⟩ := entry
    by_cases same : k = key
    · simp [get?, same]
    · simp [get?, same, ih]

private theorem Pass.fails_find {σ : Type} {service : Service σ} {state after : σ}
    {fetch : Option String → Pass (Page α)} {condition : α → Bool} {pages : Nat} {failure : Failure}
    (some : 0 < pages) (fails : Fails service (fetch none) state failure after) :
    Fails service (find fetch condition pages) state failure after := by
  obtain ⟨pages, rfl⟩ := Nat.exists_eq_succ_of_ne_zero (Nat.ne_of_gt some)
  unfold find items
  exact fails_bind.mpr (.inl (fails_bind.mpr (.inl fails)))

namespace Memory

def aliasEntry (memory : Memory) (aliasName : String) (stored : StoredAlias) : AliasEntry where
  aliasName
  aliasArn := some ("arn:aws:kms:" ++ memory.config.region ++ ":" ++ memory.config.accountId ++
    ":" ++ aliasName)
  targetKeyId := some stored.targetKeyId
  creationDate := some stored.created
  lastUpdatedDate := some stored.updated

private theorem find?_aliasEntries (memory : Memory) (aliasName : String) :
    memory.aliasEntries.find? (fun entry => entry.aliasName == aliasName) =
      (memory.store.aliases.get? aliasName).map (memory.aliasEntry aliasName) := by
  have named := Entries.find?_key aliasName memory.store.aliases.entries
  simp only [aliasEntries, List.find?_map, Function.comp_def, named, Option.map_map]
  rfl

private theorem ReadOnly.aliasEntries {reached : Memory} (read : memory.ReadOnly reached) :
    reached.aliasEntries = memory.aliasEntries := by
  simp only [Memory.aliasEntries, read.store, read.continues.config]

section Listings

variable (unrefused : able → memory.refusals = [])

include unrefused

private theorem listAliases_reads {marker : Option String} {start : Nat} (marks : Marks marker start)
    (counted : start ≤ Text.greatestWord) :
    Reads able (Pass.call (.listAliases marker)) (memory.page memory.aliasEntries start) memory := by
  refine .call unrefused (fun {reached} read => ?_) rfl
  simp only [perform, marks.lenient counted]
  rw [← read.page, ← read.aliasEntries]
  rfl

private theorem listGrants_reads (found : memory.lookup name = .ok (keyId, key)) {marker : Option String}
    {start : Nat} (marks : Marks marker start) (counted : able → start ≤ Text.greatestWord) :
    Reads able (Pass.call (.listGrants name marker))
      (memory.page (memory.store.grantsOf key.metadata.keyId) start) memory := by
  let listed (key : StoredKey) := memory.store.grantsOf key.metadata.keyId
  have known {reached : Memory} (read : memory.ReadOnly reached) :
      (reached.noted (.listGrants name marker)).lookup name = .ok (keyId, key) :=
    (read.lookup name).trans found
  have performs {reached : Memory} (read : memory.ReadOnly reached) :
      perform (.listGrants name marker) (reached.noted (.listGrants name marker)) =
        (reached.noted (.listGrants name marker)).listing name marker listed := by
    simp only [perform, noted, read.store]
    rfl
  refine .ask rfl unrefused (fun read performed => ?_) fun can reached read => ?_
  · rw [performs read] at performed
    exact (listing_sole (known read) marks performed).trans (read.page _ _)
  · rw [performs read]
    exact read.page (listed key) start ▸ listing_ok (known read) marks (counted can)

end Listings

private theorem listGrants_of_missing_key (unrefused : memory.refusals = []) {fault : Fault}
    (missing : memory.lookup name = .error fault) (marker : Option String) :
    Pass.Fails service (Pass.call (.listGrants name marker)) memory
      (.service (.api ServiceError.notFoundCode ("Key '" ++ name ++ "' does not exist")))
      (memory.noted (.listGrants name marker)) := by
  have refused : (memory.noted (.listGrants name marker)).lookup name = .error (keyNotFound name) :=
    lookup_eq_error fun found held => by
      cases missing.symm.trans held
  refine Pass.fails_call.mpr ⟨_, rfl, ?_⟩
  rw [handle_of_unrefused (by rw [unrefused]; rfl)]
  simp only [perform, refused]
  rfl

end Memory

namespace Alias

/-- The search for an alias by its name. -/
def search (pages : Nat) (aliasName : String) : Pass (Option AliasEntry) :=
  Pass.find (fun marker => .call (.listAliases marker)) (fun entry => entry.aliasName == aliasName) pages

theorem search_reads (unrefused : able → memory.refusals = [])
    (counted : memory.store.aliases.size ≤ Text.greatestWord) {pages : Nat}
    (room : able → memory.store.aliases.size < pages) (aliasName : String) :
    Memory.Reads able (search pages aliasName)
      ((memory.store.aliases.get? aliasName).map (memory.aliasEntry aliasName)) memory := by
  have length : memory.aliasEntries.length = memory.store.aliases.size := List.length_map _
  rw [← memory.find?_aliasEntries]
  exact .find (fun marks inside => Memory.listAliases_reads unrefused marks
      (Nat.le_trans inside (length ▸ counted))) _ fun can => length ▸ room can

def asFound (resource : Alias) (scope : AccountScope) (entry : AliasEntry) : Alias where
  metadata := resource.metadata
  spec := {
    resource.spec with
      targetKeyId := observedTarget resource.spec.targetKeyId entry.targetKeyId }
  status := some {
    resource.statusOrFresh with
      ownership := some (scope.ownership entry.aliasArn none)
      creationDate := entry.creationDate
      lastUpdatedDate := entry.lastUpdatedDate }

def found (resource : Alias) (scope : AccountScope) (memory : Memory) : Except Failure Alias :=
  match memory.store.aliases.get? resource.remoteName with
  | some stored => .ok (resource.asFound scope (memory.aliasEntry resource.remoteName stored))
  | none => .error .notFound

theorem readOne_search (scope : AccountScope) (pages : Nat) (resource : Alias) :
    readOne scope pages resource =
      search pages resource.remoteName >>= fun
        | some entry => pure (resource.asFound scope entry)
        | none => throw .notFound := by
  unfold readOne search
  exact bind_congr fun entry? => by cases entry? <;> rfl

theorem eval_readOne (resource : Alias) (scope : AccountScope) {pages : Nat}
    (unrefused : memory.refusals = [])
    (counted : memory.store.aliases.size ≤ Text.greatestWord) (room : memory.pageBound ≤ pages) :
    ∃ after, memory.ReadOnly after ∧ (readOne scope pages resource).run.eval Memory.service memory =
      (.finished (resource.found scope memory), after) := by
  have searched : Memory.Reads True (search pages resource.remoteName) _ memory :=
    search_reads (fun _ => unrefused) counted
      (fun _ => Nat.lt_of_lt_of_le memory.aliases_lt_pageBound room) resource.remoteName
  obtain ⟨after, onward, yields⟩ := searched.does trivial (.refl memory)
  refine ⟨after, onward, ?_⟩
  rw [readOne_search, ExceptT.run_bind, Program.eval_bind_finished _ yields, found]
  cases memory.store.aliases.get? resource.remoteName <;> rfl

end Alias

theorem KeyStore.find?_grantsOf_eq_some {store : KeyStore} {keyId grantId : String} {entry : GrantEntry}
    (found : (store.grantsOf keyId).find? (fun entry => entry.grantId == grantId) = some entry) :
    entry ∈ store.grants ∧ entry.keyId = keyId ∧ entry.grantId = grantId := by
  obtain ⟨member, own⟩ := List.mem_filter.mp (List.mem_of_find?_eq_some found)
  exact ⟨member, by simpa using own, by simpa using List.find?_some found⟩

theorem KeyStore.find?_grantsOf_eq_none {store : KeyStore} {keyId grantId : String} :
    (store.grantsOf keyId).find? (fun entry => entry.grantId == grantId) = none ↔
      ∀ entry ∈ store.grants, entry.keyId = keyId → entry.grantId ≠ grantId := by
  simp [grantsOf]

namespace Grant

/-- The search for a grant by its id, among the grants of the key that a name stands for. -/
def search (pages : Nat) (keyName grantId : String) : Pass (Option GrantEntry) :=
  Pass.find (fun marker => .call (.listGrants keyName marker)) (fun entry => entry.grantId == grantId)
    pages

theorem search_reads (unrefused : able → memory.refusals = [])
    (looked : memory.lookup name = .ok (keyId, key))
    (counted : able → memory.store.grants.length ≤ Text.greatestWord) {pages : Nat}
    (room : able → memory.store.grants.length < pages) (grantId : String) :
    Memory.Reads able (search pages name grantId)
      ((memory.store.grantsOf key.metadata.keyId).find? fun entry => entry.grantId == grantId)
      memory := by
  have kept : (memory.store.grantsOf key.metadata.keyId).length ≤ memory.store.grants.length :=
    List.length_filter_le _ _
  exact .find (fun marks inside => Memory.listGrants_reads unrefused looked marks
      fun can => Nat.le_trans inside (Nat.le_trans kept (counted can))) _
    fun can => Nat.lt_of_le_of_lt kept (room can)

theorem search_fails (unrefused : memory.refusals = []) {fault : Fault}
    (missing : memory.lookup name = .error fault) {pages : Nat} (room : 0 < pages) (grantId : String) :
    Pass.Fails Memory.service (search pages name grantId) memory
      (.service (.api ServiceError.notFoundCode ("Key '" ++ name ++ "' does not exist")))
      (memory.noted (.listGrants name none)) :=
  Pass.fails_find room (Memory.listGrants_of_missing_key unrefused missing none)

def asFound (grant : Grant) (scope : AccountScope) (keyName : String) (entry : GrantEntry) : Grant :=
  let ownership := grant.statusOrFresh.ownership.getD
    (scope.ownership (some (keyArn scope keyName)) none)
  { grant with
    spec := observedSpec grant.spec entry
    status := some { grant.statusOrFresh with ownership := some ownership } }

def found (grant : Grant) (scope : AccountScope) (memory : Memory) : Except Failure Grant :=
  match grant.grantId?, grant.keyId? with
  | none, _ => .error .notFound
  | some _, none => .error missingKey
  | some grantId, some keyName =>
    match memory.lookup keyName with
    | .error _ => .error .notFound
    | .ok (_, key) =>
      let grants := memory.store.grantsOf key.metadata.keyId
      match grants.find? fun entry => entry.grantId == grantId with
      | none => .error .notFound
      | some entry => .ok (grant.asFound scope keyName entry)

theorem readOne_search (scope : AccountScope) (pages : Nat) {grant : Grant} {grantId : String}
    (recorded : grant.grantId? = some grantId) (named : grant.keyId? = some name) :
    readOne scope pages grant =
      (search pages name grantId).lookup >>= fun
        | some entry => pure (grant.asFound scope name entry)
        | none => throw .notFound := by
  simp only [readOne, recorded, named, search]
  exact bind_congr fun entry? => by cases entry? <;> rfl

theorem eval_readOne (grant : Grant) (scope : AccountScope) {pages : Nat}
    (unrefused : memory.refusals = [])
    (counted : memory.store.grants.length ≤ Text.greatestWord) (room : memory.pageBound ≤ pages) :
    ∃ after, memory.ReadOnly after ∧ (readOne scope pages grant).run.eval Memory.service memory =
      (.finished (grant.found scope memory), after) := by
  cases recorded : grant.grantId? with
  | none =>
    simp only [readOne, found, recorded]
    exact ⟨memory, .refl memory, rfl⟩
  | some grantId =>
    cases named : grant.keyId? with
    | none =>
      simp only [readOne, found, recorded, named]
      exact ⟨memory, .refl memory, rfl⟩
    | some keyName =>
      rw [readOne_search scope pages recorded named]
      simp only [found, recorded, named]
      cases looked : memory.lookup keyName with
      | error fault =>
        have some : 0 < pages := Nat.lt_of_lt_of_le (Nat.succ_pos _) room
        have fails := Pass.fails_lookup.mpr ⟨_, search_fails unrefused looked some grantId, rfl⟩
        exact ⟨_, Memory.noted_readOnly rfl memory, Pass.fails_bind.mpr (.inl fails)⟩
      | ok held =>
        obtain ⟨keyId, key⟩ := held
        have enough : memory.store.grants.length < pages :=
          Nat.lt_of_lt_of_le memory.grants_lt_pageBound room
        have searched : Memory.Reads True (search pages keyName grantId) _ memory :=
          search_reads (fun _ => unrefused) looked (fun _ => counted) (fun _ => enough) grantId
        obtain ⟨after, onward, yields⟩ := searched.lookup.does trivial (.refl memory)
        refine ⟨after, onward, ?_⟩
        rw [ExceptT.run_bind, Program.eval_bind_finished _ yields]
        dsimp only
        generalize (memory.store.grantsOf key.metadata.keyId).find? _ = entry?
        cases entry? <;> rfl

end Grant

end KeySteward
