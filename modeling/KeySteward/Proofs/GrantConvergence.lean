import KeySteward.Proofs.Finalization
import KeySteward.Proofs.RepeatedFinalization
import KeySteward.Proofs.StoreIntegrity
import Mathlib.Data.List.Pairwise

/-! Which grant a pass settles on. A pass that finds the recorded grant has compared it with the spec, and
a grant that is created is as the spec has it. But a creation under a name that the key has a grant
under is answered with that grant, and nothing compares it with the spec: a grant that somebody else has
made is taken for the one that is wanted. The next pass finds it, compares it and is refused. -/

namespace KeySteward

open Pass

variable {memory after : Memory} {entry other : GrantEntry} {name keyId : String} {key : StoredKey}
variable {schedule : Schedule}

/-- The grant permits what the spec asks for, and has its name and its retiring principal where it says
them. -/
structure GrantEntry.Serves (entry : GrantEntry) (spec : GrantSpec) : Prop where
  operations : ∀ operation, operation ∈ entry.operations ↔ operation ∈ spec.operations
  granteePrincipal : entry.granteePrincipal = some spec.granteePrincipal
  name : spec.name ≠ none → entry.name = spec.name
  retiringPrincipal : spec.retiringPrincipal ≠ none → entry.retiringPrincipal = spec.retiringPrincipal

private theorem GrantEntry.Renders.serves {spec : GrantSpec} (renders : entry.Renders spec) :
    entry.Serves spec where
  operations operation := by rw [renders.operations]
  granteePrincipal := renders.granteePrincipal
  name _ := renders.name
  retiringPrincipal _ := renders.retiringPrincipal

instance : Std.Symm GrantEntry.ToldApart where
  symm grant other apart same := by
    rcases apart same.symm with unnamed | differs
    · by_cases also : other.name = none
      · exact .inl also
      · exact .inr fun equal => also (equal.trans unnamed)
    · exact .inr differs.symm

namespace Memory

theorem Names.unique {other : String} (names : memory.Names name keyId)
    (also : memory.Names name other) : keyId = other := by
  obtain ⟨key, looked⟩ := names
  obtain ⟨_, found⟩ := also
  cases looked.symm.trans found
  rfl

private theorem Names.of_store (names : memory.Names name keyId)
    (keys : after.store.keys = memory.store.keys)
    (aliases : after.store.aliases = memory.store.aliases) : after.Names name keyId := by
  obtain ⟨key, looked⟩ := names
  refine ⟨key, ?_⟩
  rw [← looked]
  simp only [lookup, KeyStore.resolve?, keys, aliases]

private theorem Reachable.named_eq (reachable : memory.Reachable) (live : entry ∈ memory.store.grants)
    (also : other ∈ memory.store.grants) (own : other.keyId = entry.keyId)
    (titled : entry.name ≠ none) (title : other.name = entry.name) : other = entry := by
  by_contra apart
  rcases reachable.isSound.names.forall also live apart own with unnamed | differs
  · exact titled (title.symm.trans unnamed)
  · exact differs title

/-- A grant that is there can be retired under a name of its key, and it alone goes. -/
theorem retireGrant_takes_only {reached : Memory} (reachable : memory.Reachable)
    (distinct : Function.Injective memory.config.ids.grant) (unrefused : memory.refusals = [])
    (live : entry ∈ memory.store.grants) (names : memory.Names name entry.keyId)
    (onward : memory.ReadOnly reached) :
    ∃ after, Yields service (Pass.call (.retireGrant name entry.grantId)) reached () after ∧
      ∀ grant, grant ∈ after.store.grants ↔ grant ∈ memory.store.grants ∧ grant ≠ entry := by
  obtain ⟨key, looked⟩ := names
  have own : key.metadata.keyId = entry.keyId := reachable.isKeyed _ _ (key?_of_lookup looked)
  let noted := reached.noted (.retireGrant name entry.grantId)
  let matching (grant : GrantEntry) := grant.grantId == entry.grantId && grant.keyId == entry.keyId
  let grants := memory.store.grants.filter fun grant => !matching grant
  have held : noted.lookup name = .ok (entry.keyId, key) := (onward.lookup name).trans looked
  have store : noted.store = memory.store := onward.store
  have there : memory.store.grants.any matching = true :=
    List.any_eq_true.mpr ⟨entry, live, by simp [matching]⟩
  have performed : noted.retireGrant name entry.grantId =
      .ok ((), noted.withStore { memory.store with grants }) := by
    simp only [retireGrant, held, own, store, bind, Except.bind]
    exact if_pos there
  refine ⟨_, yields_call.mpr (handle_eq_ok.mpr ⟨?_, performed⟩), fun grant => ?_⟩
  · rw [onward.unrefused unrefused]
    rfl
  · have same (also : grant ∈ memory.store.grants) : matching grant = true ↔ grant = entry := by
      constructor
      · intro both
        exact reachable.grant_eq distinct live also (eq_of_beq (Bool.and_eq_true_iff.mp both).1)
      · intro equal
        simp [matching, equal]
    change grant ∈ grants ↔ _
    simp only [grants, List.mem_filter, Bool.not_eq_true']
    refine and_congr_right fun also => ?_
    rw [Ne, ← same also, Bool.not_eq_true]

/-- The key that a spec is about has a grant under the name in the spec that does not serve the spec, and
it has none under the id that is recorded. -/
structure Preempts (memory : Memory) (desired : Grant) (entry : GrantEntry) : Prop where
  live : entry ∈ memory.store.grants
  onKey : ∃ name, desired.keyId? = some name ∧ memory.Names name entry.keyId
  titled : desired.spec.name ≠ none
  title : entry.name = desired.spec.name
  unserving : ¬ entry.Serves desired.spec
  unrecorded : ∀ other ∈ memory.store.grants, other.keyId = entry.keyId →
    desired.grantId? ≠ some other.grantId

theorem Preempts.eq {desired : Grant} (preempts : memory.Preempts desired entry)
    (reachable : memory.Reachable) (also : memory.Preempts desired other) : other = entry := by
  obtain ⟨name, named, names⟩ := preempts.onKey
  obtain ⟨_, again, there⟩ := also.onKey
  cases named.symm.trans again
  exact reachable.named_eq preempts.live also.live (there.unique names)
    (preempts.title ▸ preempts.titled) (also.title.trans preempts.title.symm)

private theorem pageBound_eq (store : after.store = memory.store) :
    memory.pageBound = after.pageBound := by
  simp only [pageBound, store]

end Memory

namespace Grant

variable {scope : AccountScope} {pages : Nat} {desired latest settled : Grant}

/-- The service holds a grant under the id that is recorded, on the key that was asked for, and it serves
the spec that was asked for. -/
def IsServed (settled desired : Grant) (memory : Memory) : Prop :=
  ∃ name entry, desired.keyId? = some name ∧ memory.Names name entry.keyId ∧
    entry ∈ memory.store.grants ∧ settled.grantId? = some entry.grantId ∧ entry.Serves desired.spec

/-- The grant has been taken for the one that was asked for. It is recorded, and nothing that is stored
has changed. The next pass refuses it, and a finalization takes it away. -/
structure Adopts (settled : Grant) (scope : AccountScope) (pages : Nat) (entry : GrantEntry)
    (before after : Memory) : Prop where
  recorded : settled.grantId? = some entry.grantId
  store : after.store = before.store
  refused : before.store.grants.length ≤ Text.greatestWord → before.pageBound ≤ pages →
    ∃ last, ((manager scope pages).reconcile settled).run.run Memory.service .calm { state := after } =
      (.finished (.error ⟨none, .terminal "grant resource does not support updates"⟩), last) ∧
      last.state.store = before.store
  retired : before.store.grants.length ≤ Text.greatestWord → before.pageBound ≤ pages →
    ∃ last, ((manager scope pages).finalize settled).run.run Memory.service .calm { state := after } =
      (.finished (.ok ()), last) ∧
      ∀ grant, grant ∈ last.state.store.grants ↔ grant ∈ before.store.grants ∧ grant ≠ entry

private theorem lookup_of_search {grantId : String} {found : Option GrantEntry}
    (yields : Yields Memory.service (search pages name grantId) memory found after) :
    ∃ keyId key, memory.lookup name = .ok (keyId, key) := by
  obtain ⟨items, reached, listed, -⟩ := yields_bind.mp yields
  cases pages with
  | zero => cases listed
  | succ pages =>
    obtain ⟨page, middle, first, -⟩ := yields_bind.mp listed
    obtain ⟨-, performed⟩ := Memory.handle_eq_ok.mp (yields_call.mp first)
    simp only [Memory.perform, Memory.bind_eq_ok, Prod.exists] at performed
    obtain ⟨keyId, key, looked, -⟩ := performed
    exact ⟨keyId, key, looked⟩

private theorem readOne_found (keyed : memory.store.IsKeyed)
    (yields : Yields Memory.service (readOne scope pages desired) memory latest after) :
    ∃ name entry, desired.keyId? = some name ∧ memory.Names name entry.keyId ∧
      entry ∈ memory.store.grants ∧ desired.grantId? = some entry.grantId ∧
      latest = desired.asFound scope name entry ∧ memory.ReadOnly after := by
  cases recorded : desired.grantId? with
  | none =>
    simp only [readOne, recorded] at yields
    exact absurd yields yields_throw
  | some grantId =>
    cases named : desired.keyId? with
    | none =>
      simp only [readOne, recorded, named] at yields
      exact absurd yields yields_throw
    | some name =>
      rw [readOne_search scope pages recorded named] at yields
      obtain ⟨found?, reached, searched, rest⟩ := yields_bind.mp yields
      obtain ⟨keyId, key, looked⟩ := lookup_of_search (yields_lookup.mp searched)
      have reads : Memory.Reads False (search pages name grantId) _ memory :=
        search_reads False.elim looked False.elim False.elim grantId
      obtain ⟨same, onward⟩ := reads.lookup.only (.refl memory) searched
      cases found? with
      | none => exact absurd rest yields_throw
      | some entry =>
        obtain ⟨rfl, rfl⟩ := yields_pure.mp rest
        obtain ⟨live, own, id⟩ := KeyStore.find?_grantsOf_eq_some same.symm
        have there : entry.keyId = keyId := own.trans (keyed _ _ (Memory.key?_of_lookup looked))
        exact ⟨name, entry, rfl, ⟨key, there ▸ looked⟩, live, by rw [id], rfl, onward⟩

private theorem serves_of_observed (granted : entry.granteePrincipal ≠ none)
    (same : observedSpec desired.spec entry = desired.spec) : entry.Serves desired.spec := by
  obtain ⟨grantee, operations, title, retiring⟩ := (observedSpec_eq_self_iff _ _).mp same
  obtain ⟨principal, present⟩ := Option.ne_none_iff_exists'.mp granted
  rw [present, Option.getD_some] at grantee
  exact {
    operations := fun operation => (operations operation).symm
    granteePrincipal := by rw [present, grantee]
    name := fun titled => (not_not.mp fun apart => title ⟨titled, apart⟩).symm
    retiringPrincipal := fun wanted => (not_not.mp fun apart => retiring ⟨wanted, apart⟩).symm }

/-- A pass over a grant that it has found succeeds only where the grant serves the spec. -/
theorem sync_serves (reachable : memory.Reachable) (live : entry ∈ memory.store.grants)
    (recorded : desired.grantId? = some entry.grantId) {state : Memory}
    (yields : Yields Memory.service
      ((manager scope pages).sync desired (desired.asFound scope name entry)) state settled after) :
    entry.Serves desired.spec ∧ settled.grantId? = some entry.grantId ∧ after = state := by
  by_cases same : desired.spec = (desired.asFound scope name entry).spec
  · rw [sync_of_same same] at yields
    obtain ⟨rfl, rfl⟩ := yields_pure.mp yields
    refine ⟨serves_of_observed (reachable.granted live) same.symm, ?_, rfl⟩
    obtain ⟨status, present, known⟩ := Option.bind_eq_some_iff.mp recorded
    change desired.statusOrFresh.grantId = _
    rw [Resource.statusOrFresh, present]
    exact known
  · rw [Yields, sync_of_differing same] at yields
    cases yields

/-- On a key that is there, the search is not refused as something that does not exist. -/
private theorem search_of_stored (unrefused : memory.refusals = [])
    (looked : memory.lookup name = .ok (keyId, key)) {grantId : String} {failure : Failure}
    (fails : Fails Memory.service (search pages name grantId) memory failure after) :
    failure.isNotFound = false := by
  by_contra missing
  let run : Run Memory := { state := memory }
  have strict : (search pages name grantId).Strict := Pass.find_strict (fun marker => .call _) _ pages
  have uses : (search pages name grantId).run.Uses fun request =>
      ∃ marker, request = .listGrants name marker :=
    uses_bind (Pass.items_uses (fun marker => uses_call ⟨marker, rfl⟩) _ pages none) fun _ => trivial
  -- A strict search fails with what one of its calls fails with, and none of these is denied.
  obtain ⟨last, ends, -⟩ := Program.run_calm_from fails
  obtain ⟨exchange, member, failed⟩ := (strict.failure_iff _ _ run _).mp ⟨last, ends⟩
  have denied := Exchange.IsNotFound.of_failure member failed (by simpa using missing)
  have denies : run.state.Denies exchange.request.operation := by
    refine Memory.denies_of_exchange uses (fun request ⟨marker, same⟩ => same ▸ rfl) ?_ member denied
    intro reached onward request ⟨marker, same⟩ error refused
    subst same
    let noted := reached.noted (.listGrants name marker)
    have found : noted.lookup name = .ok (keyId, key) := (onward.lookup name).trans looked
    have listed : noted.listing name marker (fun key => noted.store.grantsOf key.metadata.keyId) = _ :=
      refused
    exact Memory.listing_refused found listed
  obtain ⟨error, listed, -⟩ := denies
  exact absurd (unrefused ▸ listed) List.not_mem_nil

/-- A reading that finds nothing on a key that is there has shown that no grant of the key is the
recorded one. -/
theorem readOne_unrecorded (keyed : memory.store.IsKeyed) (unrefused : memory.refusals = [])
    (named : desired.keyId? = some name) (names : memory.Names name keyId) {failure : Failure}
    (fails : Fails Memory.service (readOne scope pages desired) memory failure after)
    (missing : failure.isNotFound = true) :
    ∀ other ∈ memory.store.grants, other.keyId = keyId → desired.grantId? ≠ some other.grantId := by
  intro other live own recorded
  obtain ⟨key, looked⟩ := names
  rw [readOne_search scope pages recorded named] at fails
  rcases fails_bind.mp fails with searching | ⟨found?, middle, searched, rest⟩
  · obtain ⟨original, failed, rfl⟩ := fails_lookup.mp searching
    rw [Failure.isNotFound_ofLookup, search_of_stored unrefused looked failed] at missing
    cases missing
  · have reads : Memory.Reads False (search pages name other.grantId) _ memory :=
      search_reads False.elim looked False.elim False.elim other.grantId
    obtain ⟨same, -⟩ := reads.lookup.only (.refl memory) searched
    cases found? with
    | none =>
      have there : key.metadata.keyId = keyId := keyed _ _ (Memory.key?_of_lookup looked)
      exact KeyStore.find?_grantsOf_eq_none.mp same.symm other live (own.trans there.symm) rfl
    | some entry => cases rest

/-- A creation that succeeds settles on the grant that the key has under the name, or on a new one that
serves the spec. -/
theorem create_settles (keyed : memory.store.IsKeyed)
    (yields : Yields Memory.service (create scope desired) memory settled after) :
    ∃ name entry, desired.keyId? = some name ∧ memory.Names name entry.keyId ∧
      settled.spec = desired.spec ∧ settled.grantId? = some entry.grantId ∧
      entry.name = desired.spec.name ∧
      ((desired.spec.name ≠ none ∧ entry ∈ memory.store.grants ∧ after.store = memory.store) ∨
        ((∀ grant ∈ memory.store.grants, grant.ToldApart entry) ∧
          after.store = { memory.store with grants := memory.store.grants ++ [entry] } ∧
          entry.Serves desired.spec)) := by
  cases named : desired.keyId? with
  | none =>
    simp only [create, named] at yields
    exact absurd yields yields_throw
  | some name =>
    simp only [create, named] at yields
    obtain ⟨created, reached, called, rest⟩ := yields_bind.mp yields
    obtain ⟨rfl, rfl⟩ := yields_pure.mp rest
    obtain ⟨-, performed⟩ := Memory.handle_eq_ok.mp (yields_call.mp (yields_lift.mp called))
    obtain ⟨keyId, key, entry, looked, id, there, title, outcome⟩ := Memory.createGrant_answers performed
    have found : memory.lookup name = .ok (keyId, key) := looked
    have own : entry.keyId = keyId := there.trans (keyed _ _ (Memory.key?_of_lookup found))
    refine ⟨name, entry, rfl, ⟨key, own ▸ found⟩, rfl, congrArg some id.symm, title, ?_⟩
    rcases outcome with ⟨titled, live, rfl⟩ | ⟨apart, stored, grantee, operations, retiring⟩
    · exact .inl ⟨titled, live, rfl⟩
    · have renders : entry.Renders desired.spec := ⟨grantee, operations, title, retiring⟩
      exact .inr ⟨apart, stored, renders.serves⟩

/-- A pass that succeeds leaves the grant that was asked for, or it has settled on one that preempts
it. -/
theorem reconcile_settles {run last : Run Memory} (reachable : run.state.Reachable)
    (unrefused : run.state.refusals = [])
    (ends : ((manager scope pages).reconcile desired).run.run Memory.service schedule run =
      (.finished (.ok settled), last)) :
    (settled.IsServed desired last.state ∧ ∀ entry, ¬ run.state.Preempts desired entry) ∨
      ∃ entry, run.state.Preempts desired entry ∧ settled.spec = desired.spec ∧
        settled.grantId? = some entry.grantId ∧ last.state.store = run.state.store := by
  have keyed := reachable.isKeyed
  have yields := (reconcile_heeds scope pages desired).yields ends
  rcases ((manager scope pages).yields_reconcile desired).mp yields with
    ⟨latest, middle, read, rest⟩ | ⟨failure, middle, read, missing, rest⟩
  · obtain ⟨name, entry, named, names, live, recorded, rfl, onward⟩ := readOne_found keyed read
    obtain ⟨serves, settles, same⟩ := sync_serves reachable live recorded rest
    have store : last.state.store = run.state.store := by rw [same, onward.store]
    refine .inl ⟨⟨name, entry, named, ?_, store ▸ live, settles, serves⟩, fun other preempts => ?_⟩
    · exact names.of_store (by rw [store]) (by rw [store])
    · obtain ⟨_, also, elsewhere⟩ := preempts.onKey
      cases named.symm.trans also
      exact preempts.unrecorded entry live (names.unique elsewhere) recorded
  · have onward := Memory.eval_readOnly (readOne_asks scope pages desired) run.state
    change Fails _ (readOne scope pages desired) _ _ _ at read
    rw [read] at onward
    obtain ⟨name, entry, named, names, unedited, settles, title, outcome⟩ :=
      create_settles (onward.store ▸ keyed) rest
    have names : run.state.Names name entry.keyId :=
      names.of_store (by rw [onward.store]) (by rw [onward.store])
    have unrecorded := readOne_unrecorded keyed unrefused named names read missing
    rw [onward.store] at outcome
    rcases outcome with ⟨titled, live, store⟩ | ⟨apart, stored, serves⟩
    · by_cases serves : entry.Serves desired.spec
      · refine .inl ⟨⟨name, entry, named, ?_, store ▸ live, settles, serves⟩, fun other preempts => ?_⟩
        · exact names.of_store (by rw [store]) (by rw [store])
        · obtain ⟨_, also, there⟩ := preempts.onKey
          cases named.symm.trans also
          have same := reachable.named_eq live preempts.live (there.unique names) (title ▸ titled)
            (preempts.title.trans title.symm)
          exact preempts.unserving (same ▸ serves)
      · exact .inr ⟨entry, ⟨live, ⟨name, named, names⟩, titled, title, serves, unrecorded⟩, unedited,
          settles, store⟩
    · refine .inl ⟨⟨name, entry, named, ?_, by simp [stored], settles, serves⟩, fun other preempts => ?_⟩
      · exact names.of_store (by rw [stored]) (by rw [stored])
      · obtain ⟨_, also, there⟩ := preempts.onKey
        cases named.symm.trans also
        rcases apart other preempts.live (there.unique names) with unnamed | differs
        · exact preempts.titled (preempts.title.symm.trans unnamed)
        · exact differs (preempts.title.trans title.symm)

section Adoption

variable (scope)
variable (reachable : memory.Reachable) (distinct : Function.Injective memory.config.ids.grant)
variable (unrefused : memory.refusals = []) (counted : memory.store.grants.length ≤ Text.greatestWord)
variable (room : memory.pageBound ≤ pages) (live : entry ∈ memory.store.grants)
variable (recorded : settled.grantId? = some entry.grantId) (named : settled.keyId? = some name)
variable (names : memory.Names name entry.keyId)

include reachable distinct unrefused counted room live recorded named names

private theorem eval_reconcile_unserving (unserving : ¬ entry.Serves settled.spec) :
    ∃ after, memory.ReadOnly after ∧
      ((manager scope pages).reconcile settled).run.eval Memory.service memory =
        (.finished (.error ⟨none, .terminal "grant resource does not support updates"⟩), after) := by
  obtain ⟨after, onward, read⟩ := eval_readOne settled scope unrefused counted room
  rw [found_on_its_key reachable distinct live recorded named names] at read
  refine ⟨after, onward, ?_⟩
  rw [Manager.eval_reconcile_found read, sync_of_differing]
  · rfl
  · intro same
    exact unserving (serves_of_observed (reachable.granted live) same.symm)

private theorem eval_finalize_recorded :
    ∃ after, ((manager scope pages).finalize settled).run.eval Memory.service memory =
        (.finished (.ok ()), after) ∧
      ∀ grant, grant ∈ after.store.grants ↔ grant ∈ memory.store.grants ∧ grant ≠ entry := by
  obtain ⟨middle, onward, read⟩ := eval_readOne settled scope unrefused counted room
  rw [found_on_its_key reachable distinct live recorded named names] at read
  obtain ⟨after, retired, others⟩ :=
    Memory.retireGrant_takes_only reachable distinct unrefused live names onward
  have deletes : (settled.asFound scope name entry).delete =
      (Pass.call (.retireGrant name entry.grantId)).deletion := by
    obtain ⟨still, also⟩ := (readOne_endsIn scope pages settled).yields read
    simp only [delete, still, also, recorded, named]
  refine ⟨after, ((manager scope pages).yields_finalize settled).mpr (.inl ⟨_, _, read, ?_⟩), others⟩
  change Yields _ (settled.asFound scope name entry).delete _ _ _
  rw [deletes]
  exact yields_deletion.mpr (.inl retired)

end Adoption

/-- A pass that succeeds, whatever happens around its calls, leaves a grant that serves the spec under the
id that it records, unless the key has a grant under the name in the spec that does not serve it, and
none under the id that was recorded before. The pass then adopts that grant. -/
theorem reconcile_serves_iff {run last : Run Memory} (reachable : run.state.Reachable)
    (distinct : Function.Injective run.state.config.ids.grant) (unrefused : run.state.refusals = [])
    (ends : ((manager scope pages).reconcile desired).run.run Memory.service schedule run =
      (.finished (.ok settled), last)) :
    (settled.IsServed desired last.state ↔ ∀ entry, ¬ run.state.Preempts desired entry) ∧
      ∀ entry, run.state.Preempts desired entry →
        settled.Adopts scope pages entry run.state last.state := by
  let pass := ((manager scope pages).reconcile desired).run
  have continues : run.state.Continues last.state := by
    have kept := Memory.run_continues pass schedule run
    rwa [ends] at kept
  have reached : last.state.Reachable := by
    have kept := reachable.run pass schedule
    rwa [ends] at kept
  have apart : Function.Injective last.state.config.ids.grant := continues.config ▸ distinct
  have allowed : last.state.refusals = [] := List.subset_nil.mp (unrefused ▸ continues.refusals)
  rcases reconcile_settles reachable unrefused ends with
    ⟨served, never⟩ | ⟨taken, preempts, unedited, recorded, store⟩
  · exact ⟨⟨fun _ => never, fun _ => served⟩, fun entry preempts => absurd preempts (never entry)⟩
  · have live : taken ∈ last.state.store.grants := store ▸ preempts.live
    refine ⟨⟨?_, fun never => absurd preempts (never taken)⟩, fun entry also => ?_⟩
    · intro ⟨_, entry, _, _, held, same, serves⟩
      obtain rfl := reached.grant_eq apart live held (Option.some.inj (same.symm.trans recorded))
      exact absurd serves preempts.unserving
    · cases preempts.eq reachable also
      obtain ⟨name, named, names⟩ := preempts.onKey
      have named : settled.keyId? = some name := by rw [keyId?, unedited, ← keyId?, named]
      have names : last.state.Names name taken.keyId :=
        names.of_store (by rw [store]) (by rw [store])
      refine ⟨recorded, store, fun counted room => ?_, fun counted room => ?_⟩
      · obtain ⟨after, onward, course⟩ := eval_reconcile_unserving scope reached apart allowed
          (store ▸ counted) (Memory.pageBound_eq store ▸ room) live recorded named names
          (unedited ▸ preempts.unserving)
        obtain ⟨again, finished, rfl⟩ := Program.run_calm_from course
        exact ⟨again, finished, onward.store.trans store⟩
      · obtain ⟨after, course, others⟩ := eval_finalize_recorded scope reached apart allowed
          (store ▸ counted) (Memory.pageBound_eq store ▸ room) live recorded named names
        obtain ⟨again, finished, rfl⟩ := Program.run_calm_from course
        exact ⟨again, finished, store ▸ others⟩

/-- Under a name that nobody has used the grant is created, and under one that the key has another grant
under, that one is adopted. -/
theorem reconcile_serves_iff_named :
    let scope : AccountScope := ⟨"us-west-2", "000000000000"⟩
    let desired : Grant := ⟨{ name := "grant" }, {
      keyId := some "k1", granteePrincipal := "role/app", operations := ["Encrypt", "Encrypt"],
      name := some "reader" }, none⟩
    let unused := Memory.act { config := .numbered } (.seedKey "k1" {})
    let taken := unused.act (.call (.createGrant {
      keyId := "k1", granteePrincipal := "role/app", operations := ["Decrypt"],
      name := some "reader" }))
    let pass memory := ((manager scope 2).reconcile desired).run.run Memory.service .calm
      { state := memory }
    (∃ (settled : Grant) (last : Run Memory), pass unused = (.finished (.ok settled), last) ∧
      settled.IsServed desired last.state) ∧
    ∃ (settled : Grant) (last : Run Memory) (entry : GrantEntry),
      pass taken = (.finished (.ok settled), last) ∧ entry ∈ last.state.store.grants ∧
      entry.operations = ["Decrypt"] ∧ ¬ settled.IsServed desired last.state ∧
      settled.Adopts scope 2 entry taken last.state := by
  intro scope desired unused taken pass
  have fresh : unused.Reachable := (Memory.Reachable.start _).act _
  have used : taken.Reachable := fresh.act _
  constructor
  · have ends : pass unused = (.finished (.ok _), _) := rfl
    obtain ⟨serves, -⟩ := reconcile_serves_iff fresh Memory.Config.numbered_distinct rfl ends
    have never (entry : GrantEntry) : ¬ unused.Preempts desired entry := fun preempts =>
      nomatch preempts.live
    exact ⟨_, _, ends, serves.mpr never⟩
  · have ends : pass taken = (.finished (.ok _), _) := rfl
    obtain ⟨serves, adopts⟩ :=
      reconcile_serves_iff used Memory.Config.numbered_distinct rfl ends
    let entry : GrantEntry := {
      grantId := "grant-0"
      keyId := "k1"
      name := some "reader"
      granteePrincipal := some "role/app"
      retiringPrincipal := none
      operations := ["Decrypt"]
      creationDate := some ⟨0, 0⟩ }
    have live : entry ∈ taken.store.grants := by decide
    have preempts : taken.Preempts desired entry := {
      live
      onKey := ⟨"k1", rfl, _, rfl⟩
      titled := by decide
      title := rfl
      unserving := fun serves => absurd ((serves.operations "Encrypt").mpr (by decide)) (by decide)
      unrecorded := fun _ _ _ => nofun }
    have served := mt serves.mp fun never => never entry preempts
    exact ⟨_, _, entry, ends, (adopts entry preempts).store ▸ live, rfl, served, adopts entry preempts⟩

/-- A grant for encryption is settled on one for decryption, which the key has under the same name. -/
theorem other_grant_adopted :
    let memory := (Memory.act { config := .numbered } (.seedKey "k1" {})).act (.call (.createGrant {
      keyId := "k1", granteePrincipal := "role/app", operations := ["Decrypt"],
      name := some "reader" }))
    let desired : Grant := ⟨{ name := "grant" }, {
      keyId := some "k1", granteePrincipal := "role/app", operations := ["Encrypt"],
      name := some "reader" }, none⟩
    memory.Reachable ∧ memory.refusals = [] ∧ ∃ (settled : Grant) (last : Run Memory),
      ((manager ⟨"us-west-2", "000000000000"⟩ 2).reconcile desired).run.run Memory.service .calm
        { state := memory } = (.finished (.ok settled), last) ∧
      ∀ entry ∈ last.state.store.grants, settled.grantId? = some entry.grantId →
        ¬ ∀ operation, operation ∈ entry.operations ↔ operation ∈ desired.spec.operations := by
  intro memory desired
  refine ⟨((Memory.Reachable.start _).act _).act _, rfl, _, _, rfl, fun entry live _ same => ?_⟩
  have only : entry.operations = ["Decrypt"] := by
    have all : ∀ entry ∈ memory.store.grants, entry.operations = ["Decrypt"] := by decide
    exact all entry live
  have added := (same "Encrypt").mpr (by decide)
  rw [only] at added
  exact absurd added (by decide)

end Grant

end KeySteward
