import KeySteward.Proofs.ListingReadings
import KeySteward.Proofs.PassFrames

/-! Finalizing a second time. A finalization that has succeeded leaves nothing to do for the next one
over the same resource: what the resource stands for is not found any more, or it waits for its
deletion. So the next one succeeds as well and only asks. -/

namespace KeySteward

open Pass

variable {α σ τ : Type} {memory reached after : Memory} {name keyId : String} {stored : StoredKey}
variable {schedule : Schedule}

theorem Pass.yields_deletion {service : Service α} {pass : Pass Unit} {state last : α} :
    Yields service pass.deletion state () last ↔
      Yields service pass state () last ∨
        ∃ failure, Fails service pass state failure last ∧ failure.isNotFound = true := by
  simp only [Yields, Fails, run_deletion]
  constructor
  · intro ends
    obtain ⟨result, middle, first, rest⟩ := Program.eval_bind_inv ends
    cases result with
    | ok value =>
      cases rest
      exact .inl first
    | error failure =>
      dsimp only at rest
      split at rest
      next missing =>
        cases rest
        exact .inr ⟨failure, first, missing⟩
      next => cases rest
  · rintro (ends | ⟨failure, ends, missing⟩)
    · exact Program.eval_bind_finished _ ends
    · rw [Program.eval_bind_finished _ ends]
      simp only [missing, if_true]
      rfl

namespace Memory

/-- Where nothing is refused, the journal does not matter to what a program ends in. -/
theorem Resembles.eval {program : Program α} {model : Memory} (like : Resembles (0, reached) model)
    (unrefused : reached.refusals = []) :
    (program.eval service reached).1 = (program.eval service model).1 := by
  induction program generalizing reached model with
  | done value => rfl
  | unfinished => rfl
  | call request next ih =>
    have untaken : takeRefusal? request.operation reached.refusals = none := by
      rw [unrefused]
      rfl
    obtain ⟨same, onward⟩ := like.handle 0 untaken
    have still := (handle_continues request reached).unrefused unrefused
    simp only [Program.eval]
    generalize service.handle request reached = outcome at same onward still ⊢
    generalize service.handle request model = modelled at same onward ⊢
    obtain ⟨answer, left⟩ := outcome
    obtain ⟨other, known⟩ := modelled
    cases same
    rcases answer with (error | _) | answer
    · exact ih _ onward still
    · rfl
    · exact ih _ onward still

private theorem ReadOnly.resembles (read : memory.ReadOnly reached) (unrefused : memory.refusals = []) :
    Resembles (0, reached) memory where
  bare := by
    have same := congrArg bare read.same
    exact same
  unrefused := unrefused
  harmless := by simp [read.unrefused unrefused]

/-- The keys are the same, and there are no more aliases and grants. -/
structure Shrinks (before after : Memory) : Prop where
  keys : after.store.keys = before.store.keys
  aliases : after.store.aliases.size ≤ before.store.aliases.size
  grants : after.store.grants.length ≤ before.store.grants.length

private theorem Shrinks.pageBound_le (shrinks : memory.Shrinks after) :
    after.pageBound ≤ memory.pageBound := by
  obtain ⟨keys, aliases, grants⟩ := shrinks
  simp only [pageBound, keys]
  omega

theorem Shrinks.behind (shrinks : reached.Shrinks after) (reads : memory.ReadOnly reached) :
    memory.Shrinks after where
  keys := shrinks.keys.trans (by rw [reads.store])
  aliases := reads.store ▸ shrinks.aliases
  grants := reads.store ▸ shrinks.grants

private theorem fails_unrefused {request : Request} {failure : Failure}
    (unrefused : memory.refusals = [])
    (fails : Fails service (Pass.call request) memory failure after) :
    ∃ fault, perform request (memory.noted request) = .error fault ∧ after = memory.noted request := by
  obtain ⟨error, -, handled⟩ := fails_call.mp fails
  rw [handle_of_unrefused (by rw [unrefused]; rfl)] at handled
  split at handled
  next => cases handled
  next fault performed =>
    cases handled
    exact ⟨_, performed, rfl⟩

private theorem deleteAlias_gone {aliasName : String} (unrefused : memory.refusals = [])
    (yields : Yields service (Pass.call (.deleteAlias aliasName)).deletion memory () after) :
    memory.Shrinks after ∧ after.store.aliases.get? aliasName = none := by
  rcases yields_deletion.mp yields with deleted | ⟨failure, failed, -⟩
  · obtain ⟨-, performed⟩ := handle_eq_ok.mp (yields_call.mp deleted)
    cases deleteAlias_ok performed
    exact ⟨⟨rfl, List.length_filter_le _ _, Nat.le_refl _⟩,
      (SortedMap.get?_erase _ _ _).trans (if_pos rfl)⟩
  · obtain ⟨fault, performed, rfl⟩ := fails_unrefused unrefused failed
    refine ⟨⟨rfl, Nat.le_refl _, Nat.le_refl _⟩, ?_⟩
    simp only [perform, deleteAlias] at performed
    split at performed
    next => cases performed
    next absent => simpa [SortedMap.contains] using absent

private theorem retireGrant_gone {grantId : String} (unrefused : memory.refusals = [])
    (yields : Yields service (Pass.call (.retireGrant name grantId)).deletion memory () after) :
    memory.Shrinks after ∧ ∀ keyId key, after.lookup name = .ok (keyId, key) →
      ∀ entry ∈ after.store.grantsOf key.metadata.keyId, entry.grantId ≠ grantId := by
  rcases yields_deletion.mp yields with retired | ⟨failure, failed, -⟩
  · obtain ⟨-, performed⟩ := handle_eq_ok.mp (yields_call.mp retired)
    simp only [perform, retireGrant, bind_eq_ok, Prod.exists] at performed
    obtain ⟨keyId, key, found, performed⟩ := performed
    split at performed
    next =>
      cases performed
      refine ⟨⟨rfl, Nat.le_refl _, List.length_filter_le _ _⟩, fun other named looked => ?_⟩
      cases looked.symm.trans found
      intro entry listed same
      obtain ⟨left, own⟩ := List.mem_filter.mp listed
      obtain ⟨-, kept⟩ := List.mem_filter.mp left
      simp [same, eq_of_beq own] at kept
    next => cases performed
  · obtain ⟨fault, performed, rfl⟩ := fails_unrefused unrefused failed
    refine ⟨⟨rfl, Nat.le_refl _, Nat.le_refl _⟩, fun keyId key found entry listed same => ?_⟩
    simp only [perform, retireGrant, found, bind, Except.bind] at performed
    split at performed
    next => cases performed
    next absent =>
      obtain ⟨held, own⟩ := List.mem_filter.mp listed
      exact absent (List.any_eq_true.mpr ⟨entry, held, by simpa [same] using own⟩)

end Memory

namespace Manager

variable {manager : Manager σ τ} {resource : Resource σ τ}

/-- Nothing is left to finalize: there is nothing to be found, or what is found takes no call to
delete. -/
inductive Rests (manager : Manager σ τ) (resource : Resource σ τ) (memory : Memory) : Prop where
  | missing {failure after}
      (read : Fails Memory.service (manager.readOne resource) memory failure after)
      (missing : failure.isNotFound = true)
  | settled {latest after}
      (read : Yields Memory.service (manager.readOne resource) memory latest after)
      (nothing : manager.delete latest = pure ())

namespace Rests

variable (asks : (manager.readOne resource).run.Uses Request.Asks)

include asks

private theorem of_missing {failure : Failure} (unrefused : memory.refusals = [])
    (read : Fails Memory.service (manager.readOne resource) memory failure after)
    (missing : failure.isNotFound = true) : manager.Rests resource after := by
  have onward := Memory.eval_readOnly asks memory
  rw [read] at onward
  have same : ((manager.readOne resource).run.eval Memory.service after).1 = _ :=
    (onward.resembles unrefused).eval (onward.unrefused unrefused)
  rw [read] at same
  have again : Fails Memory.service (manager.readOne resource) after failure
      ((manager.readOne resource).run.eval Memory.service after).2 := Prod.ext same rfl
  exact .missing again missing

/-- A finalization that succeeds leaves nothing to do if a deletion that does leaves nothing. -/
theorem of_finalize (unrefused : memory.refusals = [])
    (yields : Yields Memory.service (manager.finalize resource) memory () after)
    (deletes : ∀ latest middle, Yields Memory.service (manager.readOne resource) memory latest middle →
      memory.ReadOnly middle → Yields Memory.service (manager.delete latest) middle () after →
      manager.Rests resource after) : manager.Rests resource after := by
  rcases (manager.yields_finalize resource).mp yields with
    ⟨latest, middle, read, rest⟩ | ⟨failure, read, missing⟩
  · exact deletes latest middle read (Memory.yields_readOnly asks read) rest
  · exact of_missing asks unrefused read missing

private theorem finalize {run : Run Memory} (rests : manager.Rests resource run.state)
    (free : run.IsFree) :
    ∃ last, (manager.finalize resource).run.run Memory.service .calm run = (.finished (.ok ()), last) ∧
      run.state.ReadOnly last.state := by
  obtain ⟨after, yields, onward⟩ : ∃ after,
      Yields Memory.service (manager.finalize resource) run.state () after ∧
        run.state.ReadOnly after := by
    cases rests with
    | @missing failure after read missing =>
      have onward := Memory.eval_readOnly asks run.state
      rw [read] at onward
      exact ⟨after, (manager.yields_finalize resource).mpr (.inr ⟨failure, read, missing⟩), onward⟩
    | @settled latest after read nothing =>
      have deleted : Yields Memory.service (manager.delete latest) after () after := by
        rw [nothing]
        exact yields_pure.mpr ⟨rfl, rfl⟩
      exact ⟨after, (manager.yields_finalize resource).mpr (.inl ⟨latest, after, read, deleted⟩),
        Memory.yields_readOnly asks read⟩
  obtain ⟨last, ends, rfl⟩ := yields.run_calm free
  exact ⟨last, ends, onward⟩

private theorem exchanges_ask (heeds : Heeds id (manager.readOne resource)) {run : Run Memory}
    (rests : manager.Rests resource run.state) {exchange : Exchange}
    (member : exchange ∈ (manager.finalize resource).run.exchanges Memory.service schedule run) :
    exchange.request.Asks := by
  rcases mem_exchanges_finalize member with reading | ⟨latest, middle, read, deleting⟩
  · exact asks.exchanges reading
  · have yields := heeds.yields read
    cases rests with
    | missing failed _ => cases yields.symm.trans failed
    | settled found nothing =>
      cases yields.symm.trans found
      rw [nothing] at deleting
      cases deleting

end Rests

end Manager

namespace StoredKey

theorem deletion_of_pending (pending : stored.metadata.isPendingDeletion = true) (days : Int) :
    stored.deletion days = pure () := by
  simp [deletion, pending]

end StoredKey

namespace Key

private theorem rests {scope : AccountScope} {pages : Nat} {key : Key} (keyed : memory.store.IsKeyed)
    (unrefused : memory.refusals = [])
    (yields : Yields Memory.service ((manager scope pages).finalize key) memory () after) :
    (manager scope pages).Rests key after := by
  refine .of_finalize (readOne_asks scope pages key) unrefused yields ?_
  intro latest middle read onward rest
  obtain ⟨name, keyId, stored, known, found, rfl, -⟩ := readOne_found read
  obtain rfl : stored.metadata.keyId = keyId := keyed _ _ (Memory.key?_of_lookup found)
  change Yields _ (Key.delete _) _ _ _ at rest
  rw [delete_asFound] at rest
  obtain ⟨changed, again, -, pending⟩ := Memory.deletion_found ((onward.lookup name).trans found) rest
  have still := (Memory.yields_continues yields).unrefused unrefused
  have reads : Memory.Reads True (readOne scope pages key) _ after :=
    readOne_reads scope known again (fun _ => still) fun _ living => by
      cases pending.symm.trans living
  obtain ⟨last, -, found⟩ := reads.does trivial (.refl after)
  refine .settled found ?_
  exact (delete_asFound key scope _ changed).trans (changed.deletion_of_pending pending _)

end Key

namespace ReplicaKey

private theorem rests {pages : Nat} {replica : ReplicaKey} (keyed : memory.store.IsKeyed)
    (stillKeyed : after.store.IsKeyed) (unrefused : memory.refusals = [])
    (yields : Yields Memory.service ((manager pages).finalize replica) memory () after) :
    (manager pages).Rests replica after := by
  refine .of_finalize (readOne_asks pages replica) unrefused yields ?_
  intro latest middle read onward rest
  obtain ⟨name, keyId, stored, known, found, accepted, rfl, -⟩ := readOne_found keyed read
  obtain rfl : stored.metadata.keyId = keyId := keyed _ _ (Memory.key?_of_lookup found)
  change Yields _ (ReplicaKey.delete _) _ _ _ at rest
  rw [delete_asFound] at rest
  obtain ⟨changed, again, arn, pending⟩ := Memory.deletion_found ((onward.lookup name).trans found) rest
  have still := (Memory.yields_continues yields).unrefused unrefused
  have same : replica.isReplica changed.metadata = true := by rwa [isReplica, arn]
  have reads : Memory.Reads True (readOne pages replica) _ after :=
    readOne_reads known again same stillKeyed (fun _ => still) fun _ living => by
      cases pending.symm.trans living
  obtain ⟨last, -, found⟩ := reads.does trivial (.refl after)
  refine .settled found ?_
  exact (delete_asFound replica changed).trans (changed.deletion_of_pending pending _)

end ReplicaKey

namespace Alias

private theorem rests {scope : AccountScope} {pages : Nat} {resource : Alias}
    (unrefused : memory.refusals = []) (counted : memory.store.aliases.size ≤ Text.greatestWord)
    (room : memory.pageBound ≤ pages)
    (yields : Yields Memory.service ((manager scope pages).finalize resource) memory () after) :
    (manager scope pages).Rests resource after := by
  refine .of_finalize (readOne_asks scope pages resource) unrefused yields ?_
  intro latest middle read onward rest
  have named : remoteName latest = resource.remoteName :=
    congrArg AliasSpec.canonicalName ((readOne_endsIn scope pages resource).yields read)
  change Yields _ (Pass.call (.deleteAlias (remoteName latest))).deletion _ _ _ at rest
  obtain ⟨shrinks, gone⟩ := Memory.deleteAlias_gone (onward.unrefused unrefused) rest
  have shrinks := shrinks.behind onward
  have still := (Memory.yields_continues yields).unrefused unrefused
  obtain ⟨last, -, missing⟩ := eval_readOne resource scope still
    (Nat.le_trans shrinks.aliases counted) (Nat.le_trans shrinks.pageBound_le room)
  rw [found, ← named, gone] at missing
  exact .missing missing rfl

end Alias

namespace Grant

private theorem rests {scope : AccountScope} {pages : Nat} {grant : Grant}
    (unrefused : memory.refusals = []) (counted : memory.store.grants.length ≤ Text.greatestWord)
    (room : memory.pageBound ≤ pages)
    (yields : Yields Memory.service ((manager scope pages).finalize grant) memory () after) :
    (manager scope pages).Rests grant after := by
  refine .of_finalize (readOne_asks scope pages grant) unrefused yields ?_
  intro latest middle read onward rest
  obtain ⟨recorded, named⟩ := (readOne_endsIn scope pages grant).yields read
  change Yields _ (Grant.delete latest) _ _ _ at rest
  simp only [delete, recorded, named] at rest
  cases known : grant.grantId? with
  | none =>
    rw [known] at rest
    exact absurd rest yields_throw
  | some grantId =>
    cases wanted : grant.keyId? with
    | none =>
      rw [known, wanted] at rest
      exact absurd rest yields_throw
    | some keyName =>
      rw [known, wanted] at rest
      obtain ⟨shrinks, gone⟩ := Memory.retireGrant_gone (onward.unrefused unrefused) rest
      have shrinks := shrinks.behind onward
      have still := (Memory.yields_continues yields).unrefused unrefused
      obtain ⟨last, -, missing⟩ := eval_readOne grant scope still
        (Nat.le_trans shrinks.grants counted) (Nat.le_trans shrinks.pageBound_le room)
      have absent : grant.found scope after = .error .notFound := by
        simp only [found, known, wanted]
        cases looked : after.lookup keyName with
        | error fault => rfl
        | ok held =>
          have none : (after.store.grantsOf held.2.metadata.keyId).find?
              (fun entry => entry.grantId == grantId) = none :=
            List.find?_eq_none.mpr fun entry listed => by
              simpa using gone held.1 held.2 looked entry listed
          simp only [none]
      rw [absent] at missing
      exact .missing missing rfl

end Grant

namespace Kind

variable {kind : Kind} {scope : AccountScope} {pages : Nat}
  {resource : Resource kind.managed.Spec kind.managed.Status}

/-- Finalizing again what has been finalized succeeds, asks for no change whatever happens around its
calls, and leaves everything that is stored as it is. -/
theorem finalize_again {run first : Run Memory} (reachable : run.state.Reachable)
    (unrefused : run.state.refusals = [])
    (counted : run.state.store.aliases.size ≤ Text.greatestWord ∧
      run.state.store.grants.length ≤ Text.greatestWord)
    (room : run.state.pageBound ≤ pages)
    (finalized : ((kind.managed.manager scope pages).finalize resource).run.run Memory.service schedule
      run = (.finished (.ok ()), first)) (again : Run Memory) (onward : again.state = first.state) :
    (∀ schedule, ∀ exchange ∈ ((kind.managed.manager scope pages).finalize resource).run.exchanges
      Memory.service schedule again, exchange.request.isMutating = false) ∧
    (again.IsFree → ∃ last,
      ((kind.managed.manager scope pages).finalize resource).run.run Memory.service .calm again =
        (.finished (.ok ()), last) ∧
      last.state.store = first.state.store ∧
      last.state.mutatingCalls = first.state.mutatingCalls) := by
  have yields := (kind.finalize_heeds scope pages resource).yields finalized
  have asks := kind.readOne_asks scope pages resource
  have keyed : first.state.store.IsKeyed := by
    have kept := Memory.run_isKeyed ((kind.managed.manager scope pages).finalize resource).run schedule
      reachable.isKeyed
    rwa [finalized] at kept
  have rests : (kind.managed.manager scope pages).Rests resource again.state := by
    rw [onward]
    cases kind with
    | key => exact Key.rests reachable.isKeyed unrefused yields
    | replicaKey => exact ReplicaKey.rests reachable.isKeyed keyed unrefused yields
    | keyAlias => exact Alias.rests unrefused counted.1 room yields
    | grant => exact Grant.rests unrefused counted.2 room yields
  refine ⟨fun schedule exchange member =>
    rests.exchanges_ask asks (kind.readOne_heeds scope pages resource) member, fun free => ?_⟩
  obtain ⟨last, ends, reads⟩ := rests.finalize asks free
  exact ⟨last, ends, onward ▸ reads.store, onward ▸ reads.mutatingCalls⟩

/-- A key that goes by an alias, finalized twice. -/
theorem finalize_again_aliased :
    let memory := (Memory.act { config := .numbered } (.seedKey "k1" {})).act
      (.call (.createAlias "alias/pay" "k1"))
    let pay : Key := ⟨{ name := "pay" }, {}, some { keyId := some "alias/pay" }⟩
    let pass := ((Key.manager ⟨"us-west-2", "000000000000"⟩ 2).finalize pay).run
    let first := (pass.run Memory.service .calm { state := memory }).2.state
    first.AwaitsDeletion "k1" ∧ ∃ last,
      pass.run Memory.service .calm { state := first } = (.finished (.ok ()), last) ∧
        last.state.store = first.store ∧ last.state.mutatingCalls = first.mutatingCalls := by
  intro memory pay pass first
  let run : Run Memory := { state := memory }
  have reachable : run.state.Reachable :=
    ((Memory.Reachable.start .numbered).act (.seedKey _ _)).act (.call _)
  have finalized : ((Kind.key.managed.manager ⟨"us-west-2", "000000000000"⟩ 2).finalize pay).run.run
      Memory.service .calm run = (.finished (.ok ()), _) := rfl
  obtain ⟨-, again⟩ :=
    finalize_again reachable rfl (by decide) (by decide) finalized { state := first } rfl
  exact ⟨by decide, again ⟨rfl, rfl⟩⟩

end Kind

end KeySteward
