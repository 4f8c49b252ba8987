import KeySteward.Proofs.MemoryHistory
import Mathlib.Data.List.Nodup

/-! The grants that the service in memory holds. Each has the id that came with its number, and the
numbers only grow; so no two grants have the same id as long as no two numbers do. -/

namespace KeySteward.Memory

variable {memory before after : Memory} {request : Request}

/-- What a call can do to the grants: it leaves some of them as they are, or adds one under the next
number. -/
inductive Regrants (before after : Memory) : Prop where
  | left (grants : after.store.grants.Sublist before.store.grants)
      (issued : after.issuedGrants = before.issuedGrants)
  | added {entry : GrantEntry}
      (id : entry.grantId = before.config.ids.grant before.issuedGrants)
      (granted : entry.granteePrincipal ≠ none)
      (grants : after.store.grants = before.store.grants ++ [entry])
      (issued : after.issuedGrants = before.issuedGrants + 1)

private theorem perform_regrants {answer : request.Answer}
    (performed : perform request memory = .ok (answer, after)) : memory.Regrants after := by
  have same : memory.Regrants memory := .left (List.Sublist.refl _) rfl
  cases request
  case createKey =>
    cases performed
    exact .left (List.Sublist.refl _) rfl
  case enableKeyRotation | disableKeyRotation | putKeyPolicy | tagResource | untagResource =>
    simp only [perform, changeKey_eq_ok] at performed
    obtain ⟨_, _, _, rfl⟩ := performed
    exact .left (List.Sublist.refl _) rfl
  case replicateKey =>
    obtain ⟨_, _, _, _, _, rfl, _⟩ := replicateKey_ok performed
    exact .left (List.Sublist.refl _) rfl
  case scheduleKeyDeletion =>
    obtain ⟨_, _, _, _, rfl, _⟩ := scheduleKeyDeletion_ok performed
    exact .left (List.Sublist.refl _) rfl
  case createAlias | updateAlias | deleteAlias =>
    obtain ⟨_, rfl⟩ := perform_alias rfl performed
    exact .left (List.Sublist.refl _) rfl
  case createGrant =>
    rcases createGrant_ok performed with ⟨rfl, -⟩ | ⟨entry, numbered, grantee, _, rfl⟩
    · exact same
    · exact .added numbered (by simp [grantee]) rfl rfl
  case retireGrant =>
    obtain ⟨keeps, rfl⟩ := retireGrant_ok performed
    exact .left List.filter_sublist rfl
  all_goals
    rw [perform_asks rfl performed]
    exact same

private theorem handle_regrants (request : Request) (memory : Memory) :
    memory.Regrants (service.handle request memory).2 := by
  have same {after : Memory} (store : after.store = memory.store)
      (issued : after.issuedGrants = memory.issuedGrants) : memory.Regrants after :=
    .left (store ▸ List.Sublist.refl _) issued
  simp only [service, handle]
  split
  · exact same rfl rfl
  · split
    next performed =>
      have regrants : (memory.noted request).Regrants _ := perform_regrants performed
      cases regrants with
      | left grants issued => exact .left grants issued
      | added id granted grants issued => exact .added id granted grants issued
    next => exact same rfl rfl

/-- The grants have the ids of ascending numbers, all of which have been issued. -/
def NumbersGrants (memory : Memory) : Prop :=
  ∃ numbers : List Nat, numbers.Pairwise (· < ·) ∧ (∀ n ∈ numbers, n < memory.issuedGrants) ∧
    memory.store.grants.map GrantEntry.grantId = numbers.map memory.config.ids.grant

private theorem Regrants.numbersGrants (regrants : before.Regrants after)
    (ids : after.config.ids = before.config.ids) (numbered : before.NumbersGrants) :
    after.NumbersGrants := by
  obtain ⟨numbers, ascending, issued, same⟩ := numbered
  cases regrants with
  | left grants kept =>
    have fewer := grants.map GrantEntry.grantId
    rw [same] at fewer
    obtain ⟨others, sublist, stay⟩ := List.sublist_map_iff.mp fewer
    refine ⟨others, ascending.sublist sublist, fun n member => ?_, ids ▸ stay⟩
    exact kept ▸ issued n (sublist.subset member)
  | @added entry id _ grants next =>
    refine ⟨numbers ++ [before.issuedGrants], ?_, fun n member => ?_, ?_⟩
    · refine List.pairwise_append.mpr ⟨ascending, List.pairwise_singleton _ _, ?_⟩
      intro n member other last
      rw [List.mem_singleton.mp last]
      exact issued n member
    · rw [next]
      rcases List.mem_append.mp member with earlier | last
      · exact Nat.lt_succ_of_lt (issued n earlier)
      · rw [List.mem_singleton.mp last]
        exact Nat.lt_succ_self _
    · rw [grants, ids]
      simp [same, id]

theorem createGrant_error {input : NewGrant} {fault : Fault}
    (failed : memory.createGrant input = .error fault) :
    (∃ error, fault = .refused error) ∧
      (input.operations = [] ∨ ∀ held, memory.lookup input.keyId ≠ .ok held) := by
  simp only [createGrant] at failed
  split at failed
  next empty =>
    cases failed
    exact ⟨⟨_, rfl⟩, .inl (List.isEmpty_iff.mp empty)⟩
  next =>
    rcases memory.lookup_cases input.keyId with ⟨held, found⟩ | missing
    · simp only [found, bind, Except.bind] at failed
      split at failed <;> cases failed
    · simp only [missing, bind, Except.bind, Except.error.injEq] at failed
      refine ⟨⟨_, failed.symm⟩, .inr fun held found => ?_⟩
      rw [missing] at found
      cases found

/-- A grant is stored as it is asked for, unless its name is one that a grant of the key has. -/
theorem createGrant_new {input : NewGrant} {keyId : String} {key : StoredKey}
    (permits : input.operations ≠ []) (found : memory.lookup input.keyId = .ok (keyId, key))
    (unused : ∀ other ∈ memory.store.grantsOf key.metadata.keyId,
      input.name = none ∨ other.name ≠ input.name) :
    ∃ answer entry after, memory.createGrant input = .ok (answer, after) ∧
      after.store = { memory.store with grants := memory.store.grants ++ [entry] } ∧
      entry.grantId = answer.grantId ∧
      entry.keyId = key.metadata.keyId ∧ entry.name = input.name ∧
      entry.granteePrincipal = some input.granteePrincipal ∧ entry.operations = input.operations ∧
      entry.retiringPrincipal = input.retiringPrincipal := by
  have nonempty : input.operations.isEmpty = false := by simpa using permits
  have absent : (input.name.bind fun name =>
      (memory.store.grantsOf key.metadata.keyId).find? fun grant => grant.name == some name) =
        none := by
    cases named : input.name with
    | none => rfl
    | some name =>
      refine List.find?_eq_none.mpr fun other member same => ?_
      rcases unused other member with unnamed | apart
      · cases named.symm.trans unnamed
      · exact apart (by simpa [named] using same)
  simp only [createGrant, nonempty, found, bind, Except.bind, absent]
  exact ⟨_, _, _, rfl, rfl, rfl, rfl, rfl, rfl, rfl, rfl⟩

namespace Reachable

private theorem numbersGrants (reachable : memory.Reachable) : memory.NumbersGrants := by
  induction reachable with
  | start config => exact ⟨[], List.Pairwise.nil, nofun, rfl⟩
  | @act memory reached action ih =>
    cases action with
    | call request =>
      have ids := congrArg Config.ids (handle_continues request memory).config
      exact (handle_regrants request memory).numbersGrants ids ih
    | insertKey | seedKey | setRotation | setPolicy | setRotationStatusUnavailable | failNext |
        clearJournal | setClock => exact ih

theorem granted (reachable : memory.Reachable) {entry : GrantEntry}
    (held : entry ∈ memory.store.grants) : entry.granteePrincipal ≠ none := by
  induction reachable with
  | start config => cases held
  | @act memory reached action ih =>
    cases action with
    | call request =>
      cases handle_regrants request memory with
      | left grants issued => exact ih (grants.subset held)
      | @added added id granted grants issued =>
        change entry ∈ (service.handle request memory).2.store.grants at held
        rw [grants] at held
        rcases List.mem_append.mp held with earlier | last
        · exact ih earlier
        · rwa [List.mem_singleton.mp last]
    | insertKey | seedKey | setRotation | setPolicy | setRotationStatusUnavailable | failNext |
        clearJournal | setClock => exact ih held

theorem grantIds_nodup (reachable : memory.Reachable)
    (distinct : Function.Injective memory.config.ids.grant) :
    (memory.store.grants.map GrantEntry.grantId).Nodup := by
  obtain ⟨numbers, ascending, -, ids⟩ := reachable.numbersGrants
  rw [ids]
  exact (List.nodup_map_iff distinct).mpr (ascending.imp Nat.ne_of_lt)

theorem nextGrantId_unused (reachable : memory.Reachable)
    (distinct : Function.Injective memory.config.ids.grant) {entry : GrantEntry}
    (held : entry ∈ memory.store.grants) :
    entry.grantId ≠ memory.config.ids.grant memory.issuedGrants := by
  obtain ⟨numbers, -, issued, ids⟩ := reachable.numbersGrants
  have listed : entry.grantId ∈ numbers.map memory.config.ids.grant :=
    ids ▸ List.mem_map_of_mem held
  obtain ⟨number, member, same⟩ := List.mem_map.mp listed
  intro next
  have equal := distinct (same.trans next)
  exact absurd (issued number member) (equal ▸ Nat.lt_irrefl _)

theorem grant_eq (reachable : memory.Reachable)
    (distinct : Function.Injective memory.config.ids.grant) {entry other : GrantEntry}
    (held : entry ∈ memory.store.grants) (also : other ∈ memory.store.grants)
    (same : other.grantId = entry.grantId) : other = entry :=
  List.inj_on_of_nodup_map (reachable.grantIds_nodup distinct) also held same

theorem find?_grantsOf (reachable : memory.Reachable)
    (distinct : Function.Injective memory.config.ids.grant) {entry : GrantEntry}
    (live : entry ∈ memory.store.grants) (keyId : String) :
    (memory.store.grantsOf keyId).find? (fun other => other.grantId == entry.grantId) =
      if entry.keyId = keyId then some entry else none := by
  cases found : (memory.store.grantsOf keyId).find? fun other => other.grantId == entry.grantId with
  | none =>
    by_cases own : entry.keyId = keyId
    · have listed : entry ∈ memory.store.grantsOf keyId :=
        List.mem_filter.mpr ⟨live, by simpa using own⟩
      have absent := List.find?_eq_none.mp found entry listed
      simp at absent
    · rw [if_neg own]
  | some other =>
    obtain ⟨listed, own⟩ := List.mem_filter.mp (List.mem_of_find?_eq_some found)
    have same : other.grantId = entry.grantId := by simpa using List.find?_some found
    obtain rfl := reachable.grant_eq distinct live listed same
    rw [if_pos (by simpa using own)]

end Reachable

end KeySteward.Memory
