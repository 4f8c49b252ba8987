import KeySteward.Proofs.GrantEdits
import KeySteward.Proofs.StoredGrants
import KeySteward.Proofs.TagMaps

/-! What is stored refers only to keys that are stored. Keys are replaced and never taken away, and an
alias or a grant is made for a key that was looked up first; so whatever happens to the service, every
name that stands for a key stands for one that is there. -/

namespace KeySteward

variable {memory after : Memory} {store : KeyStore} {keyId name : String}

/-- Two grants that are on different keys, or go by different names or by none. -/
def GrantEntry.ToldApart (grant other : GrantEntry) : Prop :=
  grant.keyId = other.keyId → grant.name = none ∨ grant.name ≠ other.name

namespace KeyStore

/-- The key with this id is stored. -/
def Holds (store : KeyStore) (keyId : String) : Prop :=
  ∃ key, store.keys.get? keyId = some key

def grant? (store : KeyStore) (grantId : String) : Option GrantEntry :=
  store.grants.find? fun grant => grant.grantId == grantId

/-- Keys stand under their own ids, aliases and grants are for keys that are stored, and no two grants
of one key have the same name. -/
structure IsSound (store : KeyStore) : Prop where
  keyed : store.IsKeyed
  aliases : ∀ aliasName entry, store.aliases.get? aliasName = some entry →
    store.Holds entry.targetKeyId
  grants : ∀ grant ∈ store.grants, store.Holds grant.keyId
  names : store.grants.Pairwise GrantEntry.ToldApart

private theorem Holds.insert (holds : store.Holds keyId) (other : String) (key : StoredKey) :
    { store with keys := store.keys.insert other key }.Holds keyId := by
  obtain ⟨held, stored⟩ := holds
  simp only [Holds, SortedMap.get?_insert]
  split
  · exact ⟨key, rfl⟩
  · exact ⟨held, stored⟩

private theorem Holds.modify (holds : store.Holds keyId) (other : String)
    (change : StoredKey → StoredKey) :
    (store.modifyKey other change).Holds keyId := by
  obtain ⟨held, stored⟩ := holds
  simp only [Holds, modifyKey, SortedMap.get?_modify, stored]
  split
  · exact ⟨change held, rfl⟩
  · exact ⟨held, rfl⟩

namespace IsSound

private theorem empty : IsSound {} where
  keyed _ _ stored := by cases stored
  aliases _ _ found := by cases found
  grants _ member := by cases member
  names := .nil

private theorem insertKey (sound : store.IsSound) {key : StoredKey} (own : key.metadata.keyId = keyId) :
    { store with keys := store.keys.insert keyId key }.IsSound where
  keyed := sound.keyed.insert own
  aliases aliasName entry found := (sound.aliases aliasName entry found).insert keyId key
  grants grant member := (sound.grants grant member).insert keyId key
  names := sound.names

private theorem modifyKey (sound : store.IsSound) {change : StoredKey → StoredKey}
    (kept : ∀ key, (change key).metadata.keyId = key.metadata.keyId) :
    (store.modifyKey keyId change).IsSound where
  keyed := sound.keyed.modify kept
  aliases aliasName entry found := (sound.aliases aliasName entry found).modify keyId change
  grants grant member := (sound.grants grant member).modify keyId change
  names := sound.names

private theorem insertAlias (sound : store.IsSound) {entry : StoredAlias}
    (holds : store.Holds entry.targetKeyId) (aliasName : String) :
    { store with aliases := store.aliases.insert aliasName entry }.IsSound where
  keyed := sound.keyed
  aliases other found stored := by
    rw [SortedMap.get?_insert] at stored
    split at stored
    · cases stored
      exact holds
    · exact sound.aliases other found stored
  grants := sound.grants
  names := sound.names

private theorem eraseAlias (sound : store.IsSound) (aliasName : String) :
    { store with aliases := store.aliases.erase aliasName }.IsSound where
  keyed := sound.keyed
  aliases other found stored := by
    rw [SortedMap.get?_erase] at stored
    split at stored
    · cases stored
    · exact sound.aliases other found stored
  grants := sound.grants
  names := sound.names

private theorem addGrant (sound : store.IsSound) {entry : GrantEntry} (holds : store.Holds entry.keyId)
    (unused : ∀ grant ∈ store.grants, grant.ToldApart entry) :
    { store with grants := store.grants ++ [entry] }.IsSound where
  keyed := sound.keyed
  aliases := sound.aliases
  grants grant member := by
    rcases List.mem_append.mp member with earlier | last
    · exact sound.grants grant earlier
    · rw [List.mem_singleton.mp last]
      exact holds
  names := by
    refine List.pairwise_append.mpr ⟨sound.names, List.pairwise_singleton _ _, ?_⟩
    intro grant member other last
    rw [List.mem_singleton.mp last]
    exact unused grant member

private theorem keepGrants (sound : store.IsSound) (keeps : GrantEntry → Bool) :
    { store with grants := store.grants.filter keeps }.IsSound where
  keyed := sound.keyed
  aliases := sound.aliases
  grants grant member := sound.grants grant (List.mem_of_mem_filter member)
  names := sound.names.filter keeps

theorem holds_of_resolve? (sound : store.IsSound) (resolved : store.resolve? name = some keyId) :
    store.Holds keyId := by
  simp only [resolve?] at resolved
  split at resolved
  next there =>
    cases resolved
    exact Option.isSome_iff_exists.mp there
  next =>
    split at resolved
    next entry found =>
      cases resolved
      exact sound.aliases name entry found
    next =>
      obtain ⟨key, found, rfl⟩ := Option.map_eq_some_iff.mp resolved
      obtain ⟨⟨id, _⟩, member, rfl⟩ := List.mem_map.mp (List.mem_of_find?_eq_some found)
      have held : store.keys.get? id = some _ := SortedMap.get?_eq_some_iff.mpr member
      exact ⟨_, sound.keyed id _ held ▸ held⟩

end IsSound

end KeyStore

namespace Memory

variable {request : Request} {answer : request.Answer}

private theorem holds_of_lookup {key : StoredKey} (keyed : memory.store.IsKeyed)
    (found : memory.lookup name = .ok (keyId, key)) : memory.store.Holds key.metadata.keyId := by
  have held := key?_of_lookup found
  rw [keyed keyId key held]
  exact ⟨key, held⟩

theorem createAlias_ok {aliasName target : String} {answer : Unit}
    (performed : memory.createAlias aliasName target = .ok (answer, after)) :
    ∃ keyId key entry, memory.lookup target = .ok (keyId, key) ∧
      entry.targetKeyId = key.metadata.keyId ∧
      memory.withStore { memory.store with
        aliases := memory.store.aliases.insert aliasName entry } = after := by
  simp only [createAlias] at performed
  split at performed
  · obtain ⟨_, thrown, _⟩ := bind_eq_ok.mp performed
    cases thrown
  · obtain ⟨⟨keyId, key⟩, found, same⟩ := bind_eq_ok.mp performed
    cases same
    exact ⟨keyId, key, _, found, rfl, rfl⟩

theorem updateAlias_ok {aliasName target : String} {answer : Unit}
    (performed : memory.updateAlias aliasName target = .ok (answer, after)) :
    ∃ keyId key entry, memory.lookup target = .ok (keyId, key) ∧
      entry.targetKeyId = key.metadata.keyId ∧
      memory.withStore { memory.store with
        aliases := memory.store.aliases.insert aliasName entry } = after := by
  simp only [updateAlias] at performed
  obtain ⟨⟨keyId, key⟩, found, rest⟩ := bind_eq_ok.mp performed
  split at rest
  · cases rest
    exact ⟨keyId, key, _, found, rfl, rfl⟩
  · cases rest

theorem deleteAlias_ok {aliasName : String} {answer : Unit}
    (performed : memory.deleteAlias aliasName = .ok (answer, after)) :
    memory.withStore { memory.store with
      aliases := memory.store.aliases.erase aliasName } = after := by
  simp only [deleteAlias] at performed
  split at performed
  · cases performed
    rfl
  · cases performed

/-- A creation is answered with the grant that the key has under the name, or with a new one as it is
asked for, which is told apart from all others. -/
theorem createGrant_answers {input : NewGrant} {answer : CreatedGrant}
    (performed : memory.createGrant input = .ok (answer, after)) :
    ∃ keyId key entry, memory.lookup input.keyId = .ok (keyId, key) ∧
      entry.grantId = answer.grantId ∧ entry.keyId = key.metadata.keyId ∧ entry.name = input.name ∧
      ((input.name ≠ none ∧ entry ∈ memory.store.grants ∧ after = memory) ∨
        ((∀ grant ∈ memory.store.grants, grant.ToldApart entry) ∧
          after.store = { memory.store with grants := memory.store.grants ++ [entry] } ∧
          entry.granteePrincipal = some input.granteePrincipal ∧ entry.operations = input.operations ∧
          entry.retiringPrincipal = input.retiringPrincipal)) := by
  simp only [createGrant] at performed
  split at performed
  · obtain ⟨_, thrown, _⟩ := bind_eq_ok.mp performed
    cases thrown
  · obtain ⟨⟨keyId, key⟩, found, rest⟩ := bind_eq_ok.mp performed
    split at rest
    next entry existing =>
      cases rest
      obtain ⟨title, named, first⟩ := Option.bind_eq_some_iff.mp existing
      obtain ⟨listed, own⟩ := List.mem_filter.mp (List.mem_of_find?_eq_some first)
      have same : entry.name = some title := by simpa using List.find?_some first
      refine ⟨keyId, key, entry, found, rfl, eq_of_beq own, same.trans named.symm, .inl ?_⟩
      exact ⟨by simp [named], listed, rfl⟩
    next unused =>
      cases rest
      refine ⟨keyId, key, _, found, rfl, rfl, rfl, .inr ⟨fun grant member own => ?_, rfl, rfl, rfl, rfl⟩⟩
      cases named : grant.name with
      | none => exact .inl rfl
      | some taken =>
        refine .inr fun same => ?_
        have listed : grant ∈ memory.store.grantsOf key.metadata.keyId :=
          List.mem_filter.mpr ⟨member, by simpa using own⟩
        have asked : input.name = some taken := same.symm
        rw [asked, Option.bind_some] at unused
        have differs := List.find?_eq_none.mp unused grant listed
        exact differs (by simpa using named)

end Memory

namespace KeyStore.IsSound

private theorem perform {request : Request} {answer : request.Answer} (sound : memory.store.IsSound)
    (performed : memory.perform request = .ok (answer, after)) : after.store.IsSound := by
  have own {name keyId : String} {key changed : StoredKey}
      (found : memory.lookup name = .ok (keyId, key))
      (kept : changed.metadata.keyId = key.metadata.keyId) : changed.metadata.keyId = keyId :=
    kept.trans (sound.keyed keyId key (Memory.key?_of_lookup found))
  cases request
  case createKey =>
    cases performed
    exact sound.insertKey rfl
  case enableKeyRotation | disableKeyRotation | putKeyPolicy | tagResource | untagResource =>
    simp only [Memory.perform, Memory.changeKey_eq_ok] at performed
    obtain ⟨_, _, found, rfl⟩ := performed
    exact sound.insertKey (own found rfl)
  case replicateKey =>
    obtain ⟨_, _, _, _, found, rfl, _, kept, rfl⟩ := Memory.replicateKey_ok performed
    exact (sound.insertKey (own found kept)).insertKey rfl
  case scheduleKeyDeletion =>
    obtain ⟨_, _, _, found, rfl, kept, _⟩ := Memory.scheduleKeyDeletion_ok performed
    exact sound.insertKey (own found kept)
  case createAlias =>
    obtain ⟨_, _, _, found, target, rfl⟩ := Memory.createAlias_ok performed
    exact sound.insertAlias (target ▸ Memory.holds_of_lookup sound.keyed found) _
  case updateAlias =>
    obtain ⟨_, _, _, found, target, rfl⟩ := Memory.updateAlias_ok performed
    exact sound.insertAlias (target ▸ Memory.holds_of_lookup sound.keyed found) _
  case deleteAlias =>
    obtain rfl := Memory.deleteAlias_ok performed
    exact sound.eraseAlias _
  case createGrant =>
    obtain ⟨_, _, _, found, -, target, -, ⟨-, -, rfl⟩ | ⟨unused, same, -⟩⟩ :=
      Memory.createGrant_answers performed
    · exact sound
    · rw [same]
      exact sound.addGrant (target ▸ Memory.holds_of_lookup sound.keyed found) unused
  case retireGrant =>
    obtain ⟨keeps, rfl⟩ := Memory.retireGrant_ok performed
    exact sound.keepGrants keeps
  all_goals
    rw [Memory.perform_asks rfl performed]
    exact sound

private theorem handle (sound : memory.store.IsSound) (request : Request) :
    (Memory.service.handle request memory).2.store.IsSound := by
  simp only [Memory.service, Memory.handle]
  split
  · exact sound
  · split
    next performed =>
      have noted : (memory.noted request).store.IsSound := sound
      exact noted.perform performed
    next => exact sound

end KeyStore.IsSound

namespace Memory.Reachable

theorem isSound (reachable : memory.Reachable) : memory.store.IsSound := by
  induction reachable with
  | start config => exact .empty
  | act reached action ih =>
    cases action with
    | call request => exact ih.handle request
    | insertKey metadata => exact ih.insertKey rfl
    | seedKey keyId tags => exact ih.insertKey rfl
    | setRotation keyId enabled => exact ih.modifyKey fun _ => rfl
    | setPolicy keyId policy => exact ih.modifyKey fun _ => rfl
    | setRotationStatusUnavailable | failNext | clearJournal | setClock => exact ih

private theorem grant?_eq (reachable : memory.Reachable)
    (distinct : Function.Injective memory.config.ids.grant) {grant : GrantEntry}
    (held : grant ∈ memory.store.grants) : memory.store.grant? grant.grantId = some grant := by
  cases found : memory.store.grant? grant.grantId with
  | none => exact absurd (List.find?_eq_none.mp found grant held) (by simp)
  | some other =>
    have same : other.grantId = grant.grantId := by simpa using List.find?_some found
    rw [reachable.grant_eq distinct held (List.mem_of_find?_eq_some found) same]

/-- Whatever calls are made and whatever is put in, keys stand under their own ids, aliases and grants
are for keys that are stored, a grant is found under its id, and the names of the grants of a key tell
them apart; so every id, alias and ARN that stands for a key stands for one that is stored. -/
theorem refers (reachable : memory.Reachable)
    (distinct : Function.Injective memory.config.ids.grant) :
    (∀ keyId key, memory.key? keyId = some key → key.metadata.keyId = keyId) ∧
      (∀ aliasName target, memory.aliasTarget? aliasName = some target →
        memory.store.Holds target) ∧
      (∀ grant ∈ memory.store.grants, memory.store.Holds grant.keyId ∧
        memory.store.grant? grant.grantId = some grant) ∧
      memory.store.grants.Pairwise GrantEntry.ToldApart ∧
      ∀ name keyId, memory.store.resolve? name = some keyId → memory.store.Holds keyId := by
  have sound := reachable.isSound
  refine ⟨sound.keyed, fun aliasName target pointed => ?_, fun grant held => ?_, sound.names,
    fun name keyId => sound.holds_of_resolve?⟩
  · obtain ⟨entry, found, rfl⟩ := Option.map_eq_some_iff.mp pointed
    exact sound.aliases aliasName entry found
  · exact ⟨sound.grants grant held, reachable.grant?_eq distinct held⟩

/-- A key with an alias and two grants, one of them with a name that is asked for again. -/
theorem refers_granted :
    let grant (name : Option String) : Request :=
      .createGrant { keyId := "alias/pay", granteePrincipal := "role", operations := ["Decrypt"], name }
    let memory := (((((Memory.act { config := .numbered } (.seedKey "k1" {})).act
      (.call (.createAlias "alias/pay" "k1"))).act (.call (grant (some "reader")))).act
      (.call (grant none))).act (.call (grant (some "reader"))))
    memory.store.grants.length = 2 ∧
      (∀ keyId key, memory.key? keyId = some key → key.metadata.keyId = keyId) ∧
      (∀ aliasName target, memory.aliasTarget? aliasName = some target →
        memory.store.Holds target) ∧
      (∀ grant ∈ memory.store.grants, memory.store.Holds grant.keyId ∧
        memory.store.grant? grant.grantId = some grant) ∧
      memory.store.grants.Pairwise GrantEntry.ToldApart ∧
      memory.aliasTarget? "alias/pay" = some "k1" ∧ memory.store.resolve? "alias/pay" = some "k1" ∧
      memory.store.Holds "k1" := by
  intro grant memory
  have reachable : memory.Reachable :=
    (((((Reachable.start .numbered).act (.seedKey "k1" {})).act (.call _)).act (.call _)).act
      (.call _)).act (.call _)
  have resolved : memory.store.resolve? "alias/pay" = some "k1" := by decide
  obtain ⟨keyed, targets, grants, apart, names⟩ := reachable.refers Config.numbered_distinct
  exact ⟨by decide, keyed, targets, grants, apart, by decide, resolved, names "alias/pay" "k1" resolved⟩

end Memory.Reachable

end KeySteward
