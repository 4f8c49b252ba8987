import KeySteward.Proofs.ImmutableChanges
import KeySteward.Proofs.ListingReadings
import KeySteward.Proofs.StoreIntegrity

/-! What a pass over an alias comes to, in the service in memory. It keeps an alias whose key it takes for
the wanted target; otherwise it asks for the one call that points the alias to the target, and fails
where the target stands for no key. -/

namespace KeySteward

open Pass

variable {memory after : Memory} {aliasName target : String}

namespace Memory

/-- What a call that points an alias to a key comes to: the alias points to the key, or there is no
such key. -/
inductive Retargets (memory : Memory) (aliasName target : String) :
    Except Fault (Unit × Memory) → Prop where
  | pointed {held after entry} (found : memory.lookup target = .ok held)
      (stored : after.store.aliases = memory.store.aliases.insert aliasName entry) :
      Retargets memory aliasName target (.ok ((), after))
  | missing (absent : memory.lookup target = .error (keyNotFound target)) :
      Retargets memory aliasName target (.error (keyNotFound target))

private theorem createAlias_retargets (memory : Memory) (target : String)
    (free : memory.store.aliases.contains aliasName = false) :
    memory.Retargets aliasName target (memory.createAlias aliasName target) := by
  simp only [createAlias, free, Bool.false_eq_true, if_false]
  rcases memory.lookup_cases target with ⟨held, found⟩ | absent
  · simp only [found]
    exact .pointed found rfl
  · simp only [absent]
    exact .missing absent

private theorem updateAlias_retargets (memory : Memory) (target : String)
    (held : memory.store.aliases.contains aliasName = true) :
    memory.Retargets aliasName target (memory.updateAlias aliasName target) := by
  obtain ⟨stored, held⟩ := Option.isSome_iff_exists.mp held
  have held : memory.store.aliases.get? aliasName = some stored := held
  simp only [updateAlias, held]
  rcases memory.lookup_cases target with ⟨key, found⟩ | absent
  · simp only [found]
    exact .pointed found rfl
  · simp only [absent]
    exact .missing absent

/-- The alias has been pointed to the key that the target stands for, by this call. -/
structure Directs (before : Memory) (aliasName target : String) (call : Request) (after : Memory) :
    Prop where
  stored : ∃ keyId key entry, before.lookup target = .ok (keyId, key) ∧
    entry.targetKeyId = key.metadata.keyId ∧
    after.store = { before.store with aliases := before.store.aliases.insert aliasName entry }
  mutatingCalls : after.mutatingCalls = before.mutatingCalls ++ [call]

theorem Directs.behind {middle : Memory} {call : Request} (reads : memory.ReadOnly middle)
    (directs : middle.Directs aliasName target call after) :
    memory.Directs aliasName target call after where
  stored := by
    simpa only [reads.lookup, reads.store] using directs.stored
  mutatingCalls := reads.mutatingCalls ▸ directs.mutatingCalls

private theorem createAlias_directs {answer : Unit}
    (performed : (memory.noted (.createAlias aliasName target)).createAlias aliasName target =
      .ok (answer, after)) :
    memory.Directs aliasName target (.createAlias aliasName target) after := by
  obtain ⟨keyId, key, entry, found, points, rfl⟩ := createAlias_ok performed
  refine ⟨⟨keyId, key, entry, found, points, rfl⟩, ?_⟩
  simp [mutatingCalls, withStore, noted, Request.isMutating]

private theorem updateAlias_directs {answer : Unit}
    (performed : (memory.noted (.updateAlias aliasName target)).updateAlias aliasName target =
      .ok (answer, after)) :
    memory.Directs aliasName target (.updateAlias aliasName target) after := by
  obtain ⟨keyId, key, entry, found, points, rfl⟩ := updateAlias_ok performed
  refine ⟨⟨keyId, key, entry, found, points, rfl⟩, ?_⟩
  simp [mutatingCalls, withStore, noted, Request.isMutating]

end Memory

namespace Alias

variable {scope : AccountScope} {pages : Nat} {desired latest : Alias}

private theorem isSameTarget_self (target : String) : isSameTarget target target = true := by
  simp [isSameTarget]

private theorem eq_observedTarget_iff {wanted : Option String} {found : String} :
    wanted = observedTarget wanted (some found) ↔
      ∃ target, wanted = some target ∧ isSameTarget target found = true := by
  cases wanted with
  | none => simp [observedTarget]
  | some target =>
    cases same : isSameTarget target found with
    | true => simp [observedTarget, same]
    | false =>
      have apart : target ≠ found := by
        rintro rfl
        cases same.symm.trans (isSameTarget_self target)
      simp [observedTarget, same, apart]

/-- The key that the alias points to is taken for the wanted target. -/
def IsTaken (desired : Alias) (store : KeyStore) : Prop :=
  ∃ target stored, desired.spec.targetKeyId = some target ∧
    store.aliases.get? desired.remoteName = some stored ∧
    isSameTarget target stored.targetKeyId = true

/-- What a pass over an alias comes to. -/
inductive Turns (memory : Memory) (desired : Alias) :
    Except (FailedUpdate Alias) Alias → Memory → Prop where
  | kept {settled after} (taken : desired.IsTaken memory.store) (same : settled.spec = desired.spec)
      (reads : memory.ReadOnly after) : Turns memory desired (.ok settled) after
  | pointed {settled after target call} (untaken : ¬ desired.IsTaken memory.store)
      (wanted : desired.target? = some target) (same : settled.spec = desired.spec)
      (directs : memory.Directs desired.remoteName target call after)
      (renews : memory.store.aliases.contains desired.remoteName = true →
        call = .updateAlias desired.remoteName target) : Turns memory desired (.ok settled) after
  | failed {failed after} (untaken : ¬ desired.IsTaken memory.store)
      (unfound : ∀ target held, desired.target? = some target → memory.lookup target ≠ .ok held)
      (unchanged : after.store = memory.store) : Turns memory desired (.error failed) after

theorem Turns.behind {middle : Memory} {result} (reads : memory.ReadOnly middle)
    (turns : Turns middle desired result after) : Turns memory desired result after := by
  have store := reads.store
  cases turns with
  | kept taken same onward => exact .kept (store ▸ taken) same (reads.trans onward)
  | pointed untaken wanted same directs renews =>
    exact .pointed (store ▸ untaken) wanted same (directs.behind reads) (store ▸ renews)
  | failed untaken unfound unchanged =>
    refine .failed (store ▸ untaken) (fun target held wanted => ?_) (unchanged.trans store)
    exact reads.lookup target ▸ unfound target held wanted

private theorem Turns.missing {fault : Fault} {failed : FailedUpdate Alias}
    (untaken : ¬ desired.IsTaken memory.store) (wanted : desired.target? = some target)
    (unfound : memory.lookup target = .error fault) (unchanged : after.store = memory.store) :
    Turns memory desired (.error failed) after := by
  refine .failed untaken (fun other held given found => ?_) unchanged
  cases wanted.symm.trans given
  cases unfound.symm.trans found

private theorem eval_create_turns (scope : AccountScope) (unrefused : memory.refusals = [])
    (free : memory.store.aliases.get? desired.remoteName = none) :
    ∃ result after, (create scope desired).run.eval Memory.service memory =
      (.finished result, after) ∧ Turns memory desired result after := by
  have untaken : ¬ desired.IsTaken memory.store := by
    rintro ⟨_, _, -, held, -⟩
    cases free.symm.trans held
  have absent : memory.store.aliases.contains desired.remoteName = false := by
    simp [SortedMap.contains, free]
  cases wanted : desired.target? with
  | none =>
    simp only [create, wanted]
    exact ⟨_, _, rfl, .failed untaken (fun _ _ given => by cases wanted.symm.trans given) rfl⟩
  | some target =>
    simp only [create, wanted]
    rw [Memory.eval_lift_call unrefused (.createAlias desired.remoteName target)]
    simp only [Memory.perform]
    have retargets := (memory.noted (.createAlias desired.remoteName target)).createAlias_retargets
      target absent
    cases performed : Memory.createAlias _ desired.remoteName target with
    | ok done =>
      have directs := Memory.createAlias_directs performed
      refine ⟨_, _, rfl, .pointed untaken wanted rfl directs fun held => ?_⟩
      cases absent.symm.trans held
    | error fault =>
      rw [performed] at retargets
      cases retargets with
      | missing unfound => exact ⟨_, _, rfl, .missing untaken wanted unfound rfl⟩

private theorem eval_sync_turns {stored : StoredAlias} (unrefused : memory.refusals = [])
    (held : memory.store.aliases.get? desired.remoteName = some stored)
    (named : desired.spec.name = latest.spec.name)
    (observed : latest.spec.targetKeyId =
      observedTarget desired.spec.targetKeyId (some stored.targetKeyId)) :
    ∃ result after, ((manager scope pages).sync desired latest).run.eval Memory.service memory =
      (.finished result, after) ∧ Turns memory desired result after := by
  have taken : desired.IsTaken memory.store ↔
      desired.spec.targetKeyId = latest.spec.targetKeyId := by
    rw [observed, eq_observedTarget_iff]
    simp [IsTaken, held]
  have there : memory.store.aliases.contains desired.remoteName = true := by
    simp [SortedMap.contains, held]
  -- The name is the one under which the alias was found, so only the target can differ.
  rw [sync_of_same_name named]
  split
  next kept =>
    have same : latest.spec = desired.spec := by
      cases left : desired.spec
      cases right : latest.spec
      simp only [left, right] at named kept
      rw [named, kept]
    exact ⟨.ok latest, memory, rfl, .kept (taken.mpr kept) same (.refl memory)⟩
  next differs =>
    have untaken : ¬ desired.IsTaken memory.store := fun kept => differs (taken.mp kept)
    split
    next unwanted =>
      refine ⟨.error ⟨none, missingTarget⟩, memory, rfl, .failed untaken (fun _ _ given => ?_) rfl⟩
      cases unwanted.symm.trans given
    next target wanted =>
      rw [Memory.eval_lift_call unrefused (.updateAlias desired.remoteName target)]
      simp only [Memory.perform]
      have retargets := (memory.noted (.updateAlias desired.remoteName target)).updateAlias_retargets
        target there
      cases performed : Memory.updateAlias _ desired.remoteName target with
      | ok done =>
        have directs := Memory.updateAlias_directs performed
        exact ⟨_, _, rfl, .pointed untaken wanted rfl directs fun _ => rfl⟩
      | error fault =>
        rw [performed] at retargets
        cases retargets with
        | missing unfound => exact ⟨_, _, rfl, .missing untaken wanted unfound rfl⟩

/-- Undisturbed and not refused, every pass comes to one of these. -/
theorem eval_turns (scope : AccountScope) (desired : Alias) (unrefused : memory.refusals = [])
    (counted : memory.store.aliases.size ≤ Text.greatestWord) (room : memory.pageBound ≤ pages) :
    ∃ result after, ((manager scope pages).reconcile desired).run.eval Memory.service memory =
      (.finished result, after) ∧ Turns memory desired result after := by
  obtain ⟨middle, onward, read⟩ := desired.eval_readOne scope unrefused counted room
  have unrefused := onward.unrefused unrefused
  cases held : memory.store.aliases.get? desired.remoteName with
  | none =>
    simp only [found, held] at read
    have missing : Failure.notFound.isNotFound = true := rfl
    rw [Manager.eval_reconcile_failed read, if_pos missing]
    obtain ⟨result, after, ends, turns⟩ := eval_create_turns scope unrefused (onward.store ▸ held)
    exact ⟨result, after, ends, turns.behind onward⟩
  | some stored =>
    simp only [found, held] at read
    rw [Manager.eval_reconcile_found read]
    let latest := desired.asFound scope (memory.aliasEntry desired.remoteName stored)
    have observed : latest.spec.targetKeyId =
      observedTarget desired.spec.targetKeyId (some stored.targetKeyId) := rfl
    have named : desired.spec.name = latest.spec.name := rfl
    obtain ⟨result, after, ends, turns⟩ :=
      eval_sync_turns unrefused (onward.store ▸ held) named observed
    exact ⟨result, after, ends, turns.behind onward⟩

end Alias

end KeySteward
