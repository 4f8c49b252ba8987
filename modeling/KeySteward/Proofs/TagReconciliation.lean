import KeySteward.Proofs.KeyUpdates
import KeySteward.Proofs.MemoryFaults
import KeySteward.Proofs.PassFrames
import KeySteward.Proofs.TagListings

/-! Tags of a stored key, made the wanted ones by two calls behind a listing. When all of it succeeds
the key has the wanted tags. When a call fails, its own change has not been made and those of the calls
before it have, so the tags that the key is left with can be told from the call that has failed. -/

namespace KeySteward

variable {schedule : Schedule} {run last : Run Memory} {failure : Failure} {keyId : String}
variable {stored : StoredKey} {pages : Nat} {desired : TagMap}

theorem Memory.call_fails {request : Request} (settled : failure = .deadlineExceeded → schedule.Prompt)
    (ends : (Pass.call request).run.run service schedule run = (.finished (.error failure), last)) :
    last.state.store = run.state.store ∧
      (Pass.call request).run.exchanges service schedule run = [⟨request, some (.error failure)⟩] := by
  obtain ⟨called, exchanges⟩ := Pass.run_call ends
  refine ⟨?_, exchanges⟩
  have gives := run.call_gives service schedule request
  rw [called] at gives
  generalize there : last.state = reached at gives
  cases gives with
  | interrupted interruption _ =>
    rw [← there, Run.call_settled interruption settled called]
  | refused handled =>
    have failed := congrArg Prod.fst handled
    have kept := handle_store (.inl ⟨_, failed⟩)
    rwa [handled] at kept

namespace TagSet

/-- The calls of a reconciliation that fails, the tags of the key having been these, and those that it
leaves the key with. -/
inductive Halts (keyId : String) (latest desired : TagMap) (failure : Failure) :
    List Exchange → TagMap → Prop where
  | listing (read : List (Page Tag)) (marker : Option String) :
      Halts keyId latest desired failure
        (fetched keyId none read ++ [⟨.listResourceTags keyId marker, some (.error failure)⟩]) latest
  | untagging (read : List (Page Tag)) :
      Halts keyId latest desired failure
        (fetched keyId none read ++
          [⟨.untagResource keyId (latest.removedKeys desired), some (.error failure)⟩]) latest
  | tagging (read : List (Page Tag)) (clean : latest.removedKeys desired = []) :
      Halts keyId latest desired failure
        (fetched keyId none read ++ [⟨.tagResource keyId desired.toTags, some (.error failure)⟩]) latest
  | retagging (read : List (Page Tag)) (stale : latest.removedKeys desired ≠ []) :
      Halts keyId latest desired failure
        (fetched keyId none read ++
          [⟨.untagResource keyId (latest.removedKeys desired), some (.ok ())⟩,
            ⟨.tagResource keyId desired.toTags, some (.error failure)⟩])
        (latest.eraseAll (latest.removedKeys desired))

private theorem apply_fails (settled : failure = .deadlineExceeded → schedule.Prompt)
    (ends : (apply keyId desired).run.run Memory.service schedule run =
      (.finished (.error failure), last)) :
    last.state.store = run.state.store ∧
      (apply keyId desired).run.exchanges Memory.service schedule run =
        [⟨.tagResource keyId desired.toTags, some (.error failure)⟩] := by
  unfold apply at ends ⊢
  split at ends
  next wanted =>
    rw [if_pos wanted]
    exact Memory.call_fails settled ends
  next => cases ends

/-- A reconciliation that fails has left the key with the tags that go with the call that failed. -/
theorem reconcile_fails (settled : failure = .deadlineExceeded → schedule.Prompt)
    (held : run.state.key? keyId = some stored)
    (ends : (reconcile pages keyId desired).run.run Memory.service schedule run =
      (.finished (.error failure), last)) :
    ∃ tags, last.state.key? keyId = some { stored with tags } ∧
      Halts keyId stored.tags desired failure
        ((reconcile pages keyId desired).run.exchanges Memory.service schedule run) tags := by
  have untouched {before after : Run Memory} (kept : before.state.key? keyId = some stored)
      (same : after.state.store = before.state.store) : after.state.key? keyId = some stored := by
    rwa [Memory.key?, same]
  rcases Pass.run_bind_fails ends with
    ⟨listing, exchanges⟩ | ⟨latest, listed, listing, rest, exchanges⟩
  · have asks : (list pages keyId).run.Uses fun request => request.isMutating = false :=
      list_uses pages fun _ => rfl
    have reads := Memory.run_readOnly asks schedule run
    rw [listing] at reads
    obtain ⟨read, marker, fetching⟩ := list_error listing
    rw [reconcile, exchanges, fetching]
    exact ⟨stored.tags, untouched held reads.store, .listing read marker⟩
  · have tags : Memory.Reads False (list pages keyId) stored.tags run.state :=
      list_reads False.elim (Memory.lookup_of_key? held) False.elim
    obtain ⟨rfl, onward⟩ := tags.only (.refl _) ((list_strict pages keyId).heeds.yields listing)
    have kept := (onward.key? keyId).trans held
    obtain ⟨read, fetching, -⟩ := list_all listing
    rw [reconcile, exchanges, fetching]
    by_cases clean : stored.tags.removedKeys desired = []
    · simp only [clean, List.isEmpty_nil, Bool.not_true, Bool.false_eq_true, if_false] at rest ⊢
      obtain ⟨same, alone⟩ := apply_fails settled rest
      rw [alone]
      exact ⟨stored.tags, untouched kept same, .tagging read clean⟩
    · have stained : (!(stored.tags.removedKeys desired).isEmpty) = true := by simpa using clean
      simp only [stained, if_true] at rest ⊢
      rcases Pass.run_bind_fails rest with
        ⟨untagging, exchanges⟩ | ⟨answer, untagged, untagging, rest, exchanges⟩
      · obtain ⟨same, alone⟩ := Memory.call_fails settled untagging
        rw [exchanges, alone]
        exact ⟨stored.tags, untouched kept same, .untagging read⟩
      · let cleaned (key : StoredKey) : StoredKey :=
          { key with tags := key.tags.eraseAll (stored.tags.removedKeys desired) }
        have erased : untagged.state.key? keyId = some (cleaned stored) :=
          Memory.key?_of_call cleaned kept ((Pass.Strict.call _).heeds.yields untagging) fun _ => rfl
        obtain ⟨same, alone⟩ := apply_fails settled rest
        rw [exchanges, (Pass.run_call untagging).2, alone]
        refine ⟨(cleaned stored).tags, ?_, .retagging read clean⟩
        rw [Memory.key?, same, ← Memory.key?, erased]

/-- A reconciliation that succeeds leaves a key with the wanted tags. One that fails, and not because an
answer came too late, leaves it with the tags that it had; only if it is the wanted tags that cannot be
put on, those tags are gone that are not wanted. Either way no other key is touched. -/
theorem reconcile_leaves_tags (schedule : Schedule) (run : Run Memory) (pages : Nat) (desired : TagMap)
    (held : run.state.key? keyId = some stored) :
    let pass := (reconcile pages keyId desired).run
    let ending := (pass.run Memory.service schedule run).1
    let last := (pass.run Memory.service schedule run).2.state
    (ending = .finished (.ok ()) → last.key? keyId = some { stored with tags := desired }) ∧
      (∀ failure, ending = .finished (.error failure) →
        (failure = .deadlineExceeded → schedule.Prompt) →
        ∃ earlier request, pass.exchanges Memory.service schedule run =
            earlier ++ [⟨request, some (.error failure)⟩] ∧
          match request with
          | .listResourceTags _ _ | .untagResource _ _ => last.key? keyId = some stored
          | .tagResource _ _ => ∃ tags, last.key? keyId = some { stored with tags } ∧
              ∀ key, tags.get? key =
                if (desired.get? key).isSome then stored.tags.get? key else none
          | _ => False) ∧
      ∀ other, other ≠ keyId → last.key? other = run.state.key? other := by
  intro pass ending last
  refine ⟨fun ends => ?_, fun failure ends settled => ?_, ?_⟩
  · have reached : pass.run Memory.service schedule run = (.finished (.ok ()), _) := Prod.ext ends rfl
    exact reconcile_stores held ((reconcile_strict pages keyId desired).heeds.yields reached)
  · obtain ⟨tags, left, halts⟩ := reconcile_fails settled held (Prod.ext ends rfl)
    generalize pass.exchanges Memory.service schedule run = calls at halts ⊢
    have restricted := stored.tags.get?_eraseAll_removedKeys desired
    cases halts with
    | listing read marker => exact ⟨_, _, rfl, left⟩
    | untagging read => exact ⟨_, _, rfl, left⟩
    | tagging read clean =>
      rw [clean] at restricted
      exact ⟨_, _, rfl, _, left, restricted⟩
    | retagging read _ => exact ⟨_, _, (List.append_assoc _ [_] [_]).symm, _, left, restricted⟩
  · have uses : pass.Uses (Request.TouchesKey keyId) :=
      (reconcile_uses pages keyId desired).mono fun _ => Or.inl
    exact (Memory.run_changesKey uses schedule ⟨stored, held⟩).keys

/-- One tag comes off, and the other one is throttled. -/
theorem reconcile_leaves_tags_throttled :
    let throttled : ServiceError := .api "ThrottlingException" "Rate exceeded"
    let tags : TagMap := .ofTags [⟨"a", "1"⟩, ⟨"b", "2"⟩]
    let desired : TagMap := .ofTags [⟨"a", "9"⟩]
    let memory := (Memory.act { config := .numbered } (.seedKey "k1" tags)).act
      (.failNext "TagResource" throttled)
    let pass := (reconcile 3 "k1" desired).run
    let last := (pass.run Memory.service .calm { state := memory }).2.state
    (∃ earlier, pass.exchanges Memory.service .calm { state := memory } =
      earlier ++ [⟨.tagResource "k1" desired.toTags, some (.error (.service throttled))⟩]) ∧
      ∃ left, (last.key? "k1").map StoredKey.tags = some left ∧
        ∀ key, left.get? key = if (desired.get? key).isSome then tags.get? key else none := by
  intro throttled tags desired memory pass last
  obtain ⟨stored, held, same⟩ := Option.map_eq_some_iff.mp
    (show (memory.key? "k1").map StoredKey.tags = some tags by decide +kernel)
  obtain ⟨-, fails, -⟩ := reconcile_leaves_tags .calm { state := memory } 3 desired held
  have ends : (pass.run Memory.service .calm { state := memory }).1 =
    .finished (.error (.service throttled)) := by decide +kernel
  obtain ⟨earlier, request, calls, left⟩ := fails _ ends nofun
  have course : pass.exchanges Memory.service .calm { state := memory } = [_, _] ++ [_] := rfl
  obtain ⟨-, alone⟩ := List.append_inj' (course.symm.trans calls) rfl
  cases alone
  obtain ⟨tags, kept, restricted⟩ := left
  exact ⟨⟨_, calls⟩, tags, by rw [kept]; rfl, same ▸ restricted⟩

end TagSet

end KeySteward
