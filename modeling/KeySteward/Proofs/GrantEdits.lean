import KeySteward.Proofs.ImmutableChanges
import KeySteward.Proofs.ListingReadings
import KeySteward.Proofs.StoredGrants
import Mathlib.Tactic.Tauto

/-! What becomes of a grant when its spec is edited. A pass compares the spec with what a listing shows
of the grant. Constraints and grant tokens are not shown, so an edit of these passes for what is there;
and the key in the spec says where to look, so under another key the grant is missing, and one more is
created. -/

namespace KeySteward

open Pass

variable {memory : Memory} {entry : GrantEntry} {name : String}

/-- The grant is as the spec has it, in all that a listing shows. -/
structure GrantEntry.Renders (entry : GrantEntry) (spec : GrantSpec) : Prop where
  granteePrincipal : entry.granteePrincipal = some spec.granteePrincipal
  operations : entry.operations = spec.operations
  name : entry.name = spec.name
  retiringPrincipal : entry.retiringPrincipal = spec.retiringPrincipal

/-- The edited spec asks for another grantee or other operations, or it has a name or a retiring
principal that the original has not. -/
def GrantSpec.EditsVisibly (edited original : GrantSpec) : Prop :=
  edited.granteePrincipal ≠ original.granteePrincipal ∨
    (¬ ∀ operation, operation ∈ edited.operations ↔ operation ∈ original.operations) ∨
    (edited.name ≠ none ∧ edited.name ≠ original.name) ∨
    edited.retiringPrincipal ≠ none ∧ edited.retiringPrincipal ≠ original.retiringPrincipal

namespace Memory

theorem Config.numbered_distinct : Function.Injective Config.numbered.ids.grant := by
  intro n other same
  have written : toString n = toString other := (String.append_right_inj "grant-").mp same
  have digits : Nat.toDigits 10 n = Nat.toDigits 10 other := by
    simpa using congrArg String.toList written
  have read := congrArg Text.digits? digits
  rw [Text.digits?_toDigits, Text.digits?_toDigits] at read
  exact Option.some.inj read

/-- The name is one of the key with this id. -/
def Names (memory : Memory) (name keyId : String) : Prop :=
  ∃ key, memory.lookup name = .ok (keyId, key)

end Memory

namespace Grant

variable {scope : AccountScope} {pages : Nat} {desired latest : Grant} {original : GrantSpec}

private theorem sameOperations_iff (a b : List String) :
    sameOperations a b = true ↔ ∀ operation, operation ∈ a ↔ operation ∈ b := by
  simp only [sameOperations, Bool.and_eq_true, List.all_eq_true, List.contains_iff_mem]
  exact ⟨fun both operation => ⟨both.1 operation, both.2 operation⟩,
    fun same => ⟨fun operation => (same operation).mp, fun operation => (same operation).mpr⟩⟩

theorem observedSpec_eq_self_iff (desired : GrantSpec) (entry : GrantEntry) :
    observedSpec desired entry = desired ↔
      entry.granteePrincipal.getD desired.granteePrincipal = desired.granteePrincipal ∧
      (∀ operation, operation ∈ desired.operations ↔ operation ∈ entry.operations) ∧
      ¬ (desired.name ≠ none ∧ desired.name ≠ entry.name) ∧
      ¬ (desired.retiringPrincipal ≠ none ∧ desired.retiringPrincipal ≠ entry.retiringPrincipal) := by
  have operations :
      (if sameOperations desired.operations entry.operations then desired.operations
        else entry.operations) = desired.operations ↔
      ∀ operation, operation ∈ desired.operations ↔ operation ∈ entry.operations := by
    rw [← sameOperations_iff]
    by_cases same : sameOperations desired.operations entry.operations = true
    · simp [same]
    · simp only [same, Bool.false_eq_true, if_false, iff_false]
      intro equal
      rw [equal, sameOperations_iff] at same
      simp at same
  rw [← operations, ← observed_eq_self_iff, ← observed_eq_self_iff]
  cases desired
  simp only [observedSpec, GrantSpec.mk.injEq, true_and]
  tauto

/-- A grant shows the spec that is wanted unless an edit of its own spec is visible. -/
theorem observedSpec_eq_iff (renders : entry.Renders original) (edited : GrantSpec) :
    observedSpec edited entry = edited ↔ ¬ edited.EditsVisibly original := by
  rw [observedSpec_eq_self_iff, renders.granteePrincipal, renders.operations, renders.name,
    renders.retiringPrincipal, Option.getD_some, GrantSpec.EditsVisibly, eq_comm]
  simp only [not_or, not_not, ne_eq]

section Reading

variable (reachable : memory.Reachable) (distinct : Function.Injective memory.config.ids.grant)
variable (live : entry ∈ memory.store.grants) (recorded : desired.grantId? = some entry.grantId)
variable (named : desired.keyId? = some name)

include reachable distinct live recorded named

theorem found_on_its_key (names : memory.Names name entry.keyId) :
    desired.found scope memory = .ok (desired.asFound scope name entry) := by
  obtain ⟨key, looked⟩ := names
  have own : key.metadata.keyId = entry.keyId :=
    reachable.isKeyed _ _ (Memory.key?_of_lookup looked)
  simp only [found, recorded, named, looked, own]
  rw [reachable.find?_grantsOf distinct live, if_pos rfl]

private theorem missing_elsewhere (names : ¬ memory.Names name entry.keyId) :
    desired.found scope memory = .error .notFound := by
  simp only [found, recorded, named]
  cases looked : memory.lookup name with
  | error fault => rfl
  | ok held =>
    obtain ⟨keyId, key⟩ := held
    have own : key.metadata.keyId = keyId := reachable.isKeyed _ _ (Memory.key?_of_lookup looked)
    have apart : entry.keyId ≠ keyId := fun same => names ⟨key, same ▸ looked⟩
    simp only [own]
    rw [reachable.find?_grantsOf distinct live, if_neg apart]

end Reading

theorem sync_of_same (same : desired.spec = latest.spec) :
    (manager scope pages).sync desired latest = pure latest :=
  have empty : (Manager.delta desired latest).isEmpty = true :=
    (GrantSpec.delta_isEmpty_iff _ _).mpr same
  Manager.sync_of_same empty

theorem sync_of_differing (differ : desired.spec ≠ latest.spec) :
    ((manager scope pages).sync desired latest).run =
      .done (.error ⟨none, .terminal "grant resource does not support updates"⟩) :=
  have tells : (Manager.delta desired latest).isEmpty = true ↔ desired.spec = latest.spec :=
    GrantSpec.delta_isEmpty_iff _ _
  (Manager.sync_refused_iff tells (update_refuses desired latest)).mpr ⟨differ, rfl⟩

private theorem eval_create (scope : AccountScope) (unrefused : memory.refusals = [])
    (named : desired.keyId? = some name) :
    ∃ result after, (create scope desired).run.eval Memory.service memory =
        (.finished result, after) ∧
      after.mutatingCalls = memory.mutatingCalls ++ [.createGrant (desired.newGrant name)] ∧
      memory.store.grants ⊆ after.store.grants ∧
      (desired.spec.operations ≠ [] → (∃ held, memory.lookup name = .ok held) →
        ∃ settled, result = .ok settled) := by
  let request := Request.createGrant (desired.newGrant name)
  have noted : (memory.noted request).mutatingCalls = memory.mutatingCalls ++ [request] := by
    simp [Memory.mutatingCalls, Memory.noted, request, Request.isMutating]
  simp only [create, named]
  rw [Memory.eval_lift_call unrefused request]
  simp only [Memory.perform, request]
  cases performed : (memory.noted request).createGrant (desired.newGrant name) with
  | ok done =>
    obtain ⟨answer, after⟩ := done
    have kept : after.journal = (memory.noted request).journal ∧
        memory.store.grants ⊆ after.store.grants := by
      rcases Memory.createGrant_ok performed with ⟨rfl, -⟩ | ⟨_, _, _, _, rfl⟩
      · exact ⟨rfl, List.Subset.refl _⟩
      · exact ⟨rfl, List.subset_append_left _ _⟩
    refine ⟨_, _, rfl, ?_, kept.2, fun _ _ => ⟨_, rfl⟩⟩
    rw [← noted, Memory.mutatingCalls, kept.1]
    rfl
  | error fault =>
    obtain ⟨⟨error, rfl⟩, reason⟩ := Memory.createGrant_error performed
    refine ⟨_, _, rfl, noted, List.Subset.refl _, fun operations there => ?_⟩
    obtain ⟨held, found⟩ := there
    exact (reason.resolve_left operations held found).elim

/-- A pass over a grant that has none recorded creates one that renders its spec, as long as the key has
no grant of the same name. -/
theorem reconcile_renders (scope : AccountScope) (pages : Nat) {keyId : String} {key : StoredKey}
    (unrefused : memory.refusals = []) (unrecorded : desired.grantId? = none)
    (named : desired.keyId? = some name) (permits : desired.spec.operations ≠ [])
    (looked : memory.lookup name = .ok (keyId, key))
    (unused : ∀ other ∈ memory.store.grantsOf key.metadata.keyId,
      desired.spec.name = none ∨ other.name ≠ desired.spec.name) :
    ∃ (settled : Grant) (entry : GrantEntry) (after : Memory),
      ((manager scope pages).reconcile desired).run.eval Memory.service memory =
        (.finished (.ok settled), after) ∧ settled.spec = desired.spec ∧
      settled.grantId? = some entry.grantId ∧
      after.store = { memory.store with grants := memory.store.grants ++ [entry] } ∧
      entry.keyId = key.metadata.keyId ∧ entry.Renders desired.spec := by
  have read : ((manager scope pages).readOne desired).run.eval Memory.service memory =
      (.finished (.error .notFound), memory) := by
    simp only [manager, readOne, unrecorded]
    rfl
  let request := Request.createGrant (desired.newGrant name)
  have known : (memory.noted request).lookup (desired.newGrant name).keyId = .ok (keyId, key) := looked
  obtain ⟨answer, entry, after, performed, stored, id, own, title, grantee, operations, retiring⟩ :=
    Memory.createGrant_new permits known unused
  have missing : Failure.notFound.isNotFound = true := rfl
  rw [Manager.eval_reconcile_failed read, if_pos missing]
  change ∃ _ _ _, (create scope desired).run.eval _ _ = _ ∧ _
  simp only [create, named]
  rw [Memory.eval_lift_call unrefused request]
  simp only [Memory.perform, request, performed]
  exact ⟨_, entry, after, rfl, rfl, congrArg some id.symm, stored, own, grantee, operations, title,
    retiring⟩

/-- What a pass over an edited grant comes to, for an entry that renders the original spec. -/
inductive EditEnds (memory : Memory) (entry : GrantEntry) (original : GrantSpec) (edited : Grant) :
    Except (FailedUpdate Grant) Grant → Memory → Prop where
  | unkeyed {after} (unnamed : edited.keyId? = none)
      (quiet : after.mutatingCalls = memory.mutatingCalls) :
      EditEnds memory entry original edited (.error ⟨none, missingKey⟩) after
  | refused {after name} (named : edited.keyId? = some name) (names : memory.Names name entry.keyId)
      (visible : edited.spec.EditsVisibly original)
      (quiet : after.mutatingCalls = memory.mutatingCalls) :
      EditEnds memory entry original edited
        (.error ⟨none, .terminal "grant resource does not support updates"⟩) after
  | passed {after name settled} (named : edited.keyId? = some name)
      (names : memory.Names name entry.keyId) (invisible : ¬ edited.spec.EditsVisibly original)
      (same : settled.spec = edited.spec) (quiet : after.mutatingCalls = memory.mutatingCalls) :
      EditEnds memory entry original edited (.ok settled) after
  | created {after name result} (named : edited.keyId? = some name)
      (elsewhere : ¬ memory.Names name entry.keyId)
      (calls : after.mutatingCalls =
        memory.mutatingCalls ++ [.createGrant (edited.newGrant name)])
      (stays : entry ∈ after.store.grants)
      (succeeds : edited.spec.operations ≠ [] → (∃ held, memory.lookup name = .ok held) →
        ∃ settled, result = .ok settled) :
      EditEnds memory entry original edited result after

private theorem eval_edited (scope : AccountScope) {edited : Grant} (reachable : memory.Reachable)
    (distinct : Function.Injective memory.config.ids.grant) (unrefused : memory.refusals = [])
    (live : entry ∈ memory.store.grants) (renders : entry.Renders original)
    (recorded : edited.grantId? = some entry.grantId)
    (counted : memory.store.grants.length ≤ Text.greatestWord) (room : memory.pageBound ≤ pages) :
    ∃ result after, ((manager scope pages).reconcile edited).run.eval Memory.service memory =
        (.finished result, after) ∧ EditEnds memory entry original edited result after := by
  obtain ⟨middle, onward, read⟩ := edited.eval_readOne scope unrefused counted room
  have quiet := onward.mutatingCalls
  cases named : edited.keyId? with
  | none =>
    simp only [found, recorded, named] at read
    have present : missingKey.isNotFound = false := rfl
    rw [Manager.eval_reconcile_failed read, present]
    exact ⟨_, _, rfl, .unkeyed named quiet⟩
  | some name =>
    by_cases names : memory.Names name entry.keyId
    · rw [found_on_its_key reachable distinct live recorded named names] at read
      let latest := edited.asFound scope name entry
      have same : latest.spec = edited.spec ↔ ¬ edited.spec.EditsVisibly original :=
        observedSpec_eq_iff renders edited.spec
      rw [Manager.eval_reconcile_found read]
      by_cases visible : edited.spec.EditsVisibly original
      · have differ : edited.spec ≠ latest.spec := fun equal => same.mp equal.symm visible
        rw [sync_of_differing differ]
        exact ⟨_, _, rfl, .refused named names visible quiet⟩
      · rw [sync_of_same (same.mpr visible).symm]
        exact ⟨_, _, rfl, .passed named names visible (same.mpr visible) quiet⟩
    · rw [missing_elsewhere reachable distinct live recorded named names] at read
      have missing : Failure.notFound.isNotFound = true := rfl
      rw [Manager.eval_reconcile_failed read, if_pos missing]
      obtain ⟨result, after, ends, calls, kept, succeeds⟩ :=
        eval_create scope (onward.unrefused unrefused) named
      rw [quiet] at calls
      rw [onward.store] at kept
      simp only [onward.lookup] at succeeds
      exact ⟨result, after, ends, .created named names calls (kept live) succeeds⟩

/-- An edited grant is refused without a change only where the edit is visible on the grant's own key,
or no key is named. Any other edit on this key passes for what is there. Under a name that is not one
of this key one more grant is asked for, and the grant stays as it is. -/
theorem edit_refused_iff (scope : AccountScope) {run : Run Memory} (edited : Grant)
    (reachable : run.state.Reachable)
    (distinct : Function.Injective run.state.config.ids.grant)
    (unrefused : run.state.refusals = []) (free : run.IsFree)
    (live : entry ∈ run.state.store.grants) (renders : entry.Renders original)
    (recorded : edited.grantId? = some entry.grantId)
    (counted : run.state.store.grants.length ≤ Text.greatestWord)
    (room : run.state.pageBound ≤ pages) :
    ∃ result last, ((manager scope pages).reconcile edited).run.run Memory.service .calm run =
        (.finished result, last) ∧
      ((∃ failed message, result = .error failed ∧ failed.failure = .terminal message ∧
          last.state.mutatingCalls = run.state.mutatingCalls) ↔
        edited.keyId? = none ∨ ∃ name, edited.keyId? = some name ∧
          run.state.Names name entry.keyId ∧ edited.spec.EditsVisibly original) ∧
      (∀ name, edited.keyId? = some name → run.state.Names name entry.keyId →
        ¬ edited.spec.EditsVisibly original →
        last.state.mutatingCalls = run.state.mutatingCalls ∧
          ∃ settled, result = .ok settled ∧ settled.spec = edited.spec) ∧
      (∀ name, edited.keyId? = some name → ¬ run.state.Names name entry.keyId →
        last.state.mutatingCalls =
            run.state.mutatingCalls ++ [.createGrant (edited.newGrant name)] ∧
          entry ∈ last.state.store.grants ∧
          (edited.spec.operations ≠ [] → (∃ held, run.state.lookup name = .ok held) →
            ∃ settled, result = .ok settled)) := by
  obtain ⟨result, after, course, outcome⟩ :=
    eval_edited scope reachable distinct unrefused live renders recorded counted room
  obtain ⟨last, ends, rfl⟩ := Program.run_calm_finished course free
  refine ⟨result, last, ends, ?_⟩
  cases outcome with
  | unkeyed unnamed quiet =>
    simp only [unnamed, reduceCtorEq, false_implies, implies_true, and_true, true_or, iff_true]
    exact ⟨_, _, rfl, rfl, quiet⟩
  | refused named names visible quiet =>
    refine ⟨⟨fun _ => .inr ⟨_, named, names, visible⟩, fun _ => ⟨_, _, rfl, rfl, quiet⟩⟩, ?_, ?_⟩
    · exact fun _ _ _ invisible => absurd visible invisible
    · intro other same elsewhere
      cases named.symm.trans same
      exact absurd names elsewhere
  | passed named names invisible same quiet =>
    refine ⟨⟨?_, ?_⟩, fun _ _ _ _ => ⟨quiet, _, rfl, same⟩, ?_⟩
    · rintro ⟨_, _, failed, -⟩
      cases failed
    · rintro (unnamed | ⟨_, _, _, visible⟩)
      · cases named.symm.trans unnamed
      · exact absurd visible invisible
    · intro other same elsewhere
      cases named.symm.trans same
      exact absurd names elsewhere
  | created named elsewhere calls stays succeeds =>
    refine ⟨⟨?_, ?_⟩, ?_, ?_⟩
    · rintro ⟨_, _, _, _, quiet⟩
      rw [calls] at quiet
      simp at quiet
    · rintro (unnamed | ⟨_, same, names, _⟩)
      · cases named.symm.trans unnamed
      · cases named.symm.trans same
        exact absurd names elsewhere
    · intro other same names
      cases named.symm.trans same
      exact absurd names elsewhere
    · intro other same _
      cases named.symm.trans same
      exact ⟨calls, stays, succeeds⟩

/-- A grant on a seeded key, edited to permit more. -/
theorem edit_refused_iff_widened :
    let scope : AccountScope := ⟨"us-west-2", "000000000000"⟩
    let spec : GrantSpec := {
      keyId := some "k1"
      granteePrincipal := "arn:aws:iam::111122223333:role/payments"
      operations := ["Decrypt"] }
    let memory := (({ config := .numbered } : Memory).act (.seedKey "k1" {})).act
      (.call (.createGrant (newGrant ⟨{ name := "grant" }, spec, none⟩ "k1")))
    let edited : Grant := ⟨{ name := "grant" },
      { spec with operations := ["Decrypt", "Encrypt"] }, some { grantId := some "grant-0" }⟩
    ∃ result last, ((manager scope 2).reconcile edited).run.run Memory.service .calm
        { state := memory } = (.finished result, last) ∧
      ∃ failed message, result = .error failed ∧ failed.failure = .terminal message ∧
        last.state.mutatingCalls = memory.mutatingCalls := by
  intro scope spec memory edited
  let run : Run Memory := { state := memory }
  let entry : GrantEntry := {
    grantId := "grant-0"
    keyId := "k1"
    name := none
    granteePrincipal := some spec.granteePrincipal
    retiringPrincipal := none
    operations := spec.operations
    creationDate := some ⟨0, 0⟩ }
  have reachable : run.state.Reachable :=
    ((Memory.Reachable.start .numbered).act (.seedKey "k1" {})).act (.call _)
  have distinct : Function.Injective run.state.config.ids.grant := Memory.Config.numbered_distinct
  have live : entry ∈ run.state.store.grants := by decide
  have renders : entry.Renders spec := ⟨rfl, rfl, rfl, rfl⟩
  have names : run.state.Names "k1" entry.keyId := ⟨_, rfl⟩
  have visible : edited.spec.EditsVisibly spec := by
    refine .inr (.inl fun same => ?_)
    have added := (same "Encrypt").mp (by decide)
    exact absurd added (by decide)
  have room : run.state.pageBound ≤ 2 := by decide
  obtain ⟨result, last, ends, refused, -⟩ :=
    edit_refused_iff scope edited reachable distinct rfl ⟨rfl, rfl⟩ live renders rfl (by decide) room
  exact ⟨result, last, ends, refused.mpr (.inr ⟨"k1", rfl, names, visible⟩)⟩

/-- Constraints and tokens that are put on a grant after the pass that creates it are taken for what the
grant has. -/
theorem reconcile_constrained (scope : AccountScope) {run : Run Memory} {keyId : String}
    {key : StoredKey} (reachable : run.state.Reachable)
    (distinct : Function.Injective run.state.config.ids.grant)
    (unrefused : run.state.refusals = []) (free : run.IsFree) (unrecorded : desired.grantId? = none)
    (named : desired.keyId? = some name) (permits : desired.spec.operations ≠ [])
    (looked : run.state.lookup name = .ok (keyId, key))
    (unused : ∀ other ∈ run.state.store.grantsOf key.metadata.keyId,
      desired.spec.name = none ∨ other.name ≠ desired.spec.name)
    (counted : run.state.store.grants.length < Text.greatestWord) (room : run.state.pageBound < pages)
    (constraints : Option GrantConstraints) (grantTokens : List String) :
    ∃ (created : Grant) (first : Run Memory) (settled : Grant) (last : Run Memory),
      let edited : Grant :=
        { created with spec := { desired.spec with constraints, grantTokens } }
      ((manager scope pages).reconcile desired).run.run Memory.service .calm run =
        (.finished (.ok created), first) ∧
      ((manager scope pages).reconcile edited).run.run Memory.service .calm { state := first.state } =
        (.finished (.ok settled), last) ∧
      created.spec = desired.spec ∧ settled.spec = edited.spec ∧
      last.state.mutatingCalls = first.state.mutatingCalls := by
  let pass := ((manager scope pages).reconcile desired).run
  obtain ⟨created, entry, after, course, unedited, recorded, stored, own, renders⟩ :=
    reconcile_renders scope pages unrefused unrecorded named permits looked unused
  have continues : run.state.Continues after := by
    have kept := Memory.eval_continues pass run.state
    rwa [course] at kept
  obtain ⟨first, begun, rfl⟩ := Program.run_calm_finished course free
  let edited : Grant := { created with spec := { desired.spec with constraints, grantTokens } }
  let again : Run Memory := { state := first.state }
  have reached : again.state.Reachable := by
    have kept := reachable.run pass .calm
    rwa [begun] at kept
  have apart : Function.Injective again.state.config.ids.grant := continues.config ▸ distinct
  have allowed : again.state.refusals = [] := List.subset_nil.mp (unrefused ▸ continues.refusals)
  have live : entry ∈ again.state.store.grants := by simp [again, stored]
  have listed : again.state.store.grants.length ≤ Text.greatestWord := by
    simp only [again, stored, List.length_append, List.length_singleton]
    exact counted
  have paged : again.state.pageBound ≤ pages := by
    simp only [again, Memory.pageBound, stored, List.length_append, List.length_singleton]
    simp only [Memory.pageBound] at room
    omega
  have names : again.state.Names name entry.keyId := by
    obtain rfl : key.metadata.keyId = keyId :=
      reachable.isKeyed _ _ (Memory.key?_of_lookup looked)
    refine ⟨key, ?_⟩
    rw [own, ← looked, Memory.lookup, stored]
    rfl
  have invisible : ¬ edited.spec.EditsVisibly desired.spec := by
    simp [edited, GrantSpec.EditsVisibly]
  have named : edited.keyId? = some name := named
  have recorded : edited.grantId? = some entry.grantId := recorded
  obtain ⟨result, final, passes, outcome⟩ :=
    eval_edited scope reached apart allowed live renders recorded listed paged
  obtain ⟨last, ends, rfl⟩ := Program.run_calm_finished passes (⟨rfl, rfl⟩ : again.IsFree)
  cases outcome with
  | unkeyed unnamed => cases named.symm.trans unnamed
  | refused _ _ visible => exact absurd visible invisible
  | passed _ _ _ same quiet => exact ⟨created, first, _, last, begun, ends, unedited, same, quiet⟩
  | created other elsewhere =>
    cases named.symm.trans other
    exact absurd names elsewhere

/-- Constraints that are put on a grant after its creation are taken for ones that it has. -/
theorem constraints_never_put_on :
    let scope : AccountScope := ⟨"us-west-2", "000000000000"⟩
    let memory := ({ config := .numbered } : Memory).seedKey "k1" {}
    let original : Grant := ⟨{ name := "grant" }, {
      keyId := some "k1"
      granteePrincipal := "arn:aws:iam::111122223333:role/payments"
      operations := ["Decrypt"] }, none⟩
    let constraints : GrantConstraints :=
      { encryptionContextEquals := .ofList [("team", "payments")] }
    memory.Reachable ∧ ∃ (created : Grant) (first : Run Memory) (settled : Grant) (last : Run Memory),
      ((manager scope 2).reconcile original).run.run Memory.service .calm { state := memory } =
        (.finished (.ok created), first) ∧
      ((manager scope 2).reconcile { created with spec.constraints := some constraints }).run.run
        Memory.service .calm { state := first.state } = (.finished (.ok settled), last) ∧
      settled.spec.constraints = some constraints ∧
      last.state.mutatingCalls = first.state.mutatingCalls := by
  intro scope memory original constraints
  let run : Run Memory := { state := memory }
  have reachable : run.state.Reachable := (Memory.Reachable.start _).act (.seedKey "k1" {})
  obtain ⟨⟨metadata, spec, status⟩, first, settled, last, begun, ends, unedited, same, quiet⟩ :=
    reconcile_constrained scope reachable Memory.Config.numbered_distinct rfl ⟨rfl, rfl⟩
      (rfl : original.grantId? = none) rfl (by decide) rfl nofun (by decide)
      (by decide : run.state.pageBound < 2) (some constraints) []
  cases unedited
  exact ⟨reachable, _, first, settled, last, begun, ends, congrArg GrantSpec.constraints same, quiet⟩

end Grant

end KeySteward
