import KeySteward.Proofs.KeyInterruption
import KeySteward.Proofs.ReplicaIdentity

/-! The changes that a pass asks the service for. A reading asks for none, so those of a pass come from
the one operation that follows its reading. A reconciliation changes in place what it finds, or it
creates once and completes what it has created; only a finalization deletes, and a deletion is the
last call of its pass. -/

namespace KeySteward

open Pass

variable {σ τ ρ α β ε : Type} {service : Service ρ} {schedule : Schedule} {run : Run ρ}

namespace Request

/-- A request that changes nothing in the service. -/
abbrev Asks (request : Request) : Prop :=
  request.isMutating = false

private theorem isMutating_of_verb {request : Request}
    (changes : request.verb = .create ∨ request.verb = .delete) : request.isMutating = true := by
  cases request <;> first | rfl | simp [verb] at changes

private theorem AdjustsKey.asks_or_updates {keyId : String} {request : Request}
    (adjusts : request.AdjustsKey keyId) : request.Asks ∨ request.verb = .update := by
  revert adjusts
  cases request <;> simp [AdjustsKey, Asks, isMutating, verb]

end Request

def changesOf (exchanges : List Exchange) : List Exchange :=
  exchanges.filter fun exchange => exchange.request.isMutating

private theorem changesOf_cons {change : Exchange} (mutates : change.request.isMutating = true)
    (later : List Exchange) : changesOf (change :: later) = change :: changesOf later :=
  List.filter_cons_of_pos mutates

theorem mem_changesOf {exchanges : List Exchange} {change : Exchange} :
    change ∈ changesOf exchanges ↔ change ∈ exchanges ∧ change.request.isMutating = true :=
  List.mem_filter

namespace Program

variable {program : Program α} {next : α → Program β}

def changes (service : Service ρ) (schedule : Schedule) (program : Program α) (run : Run ρ) :
    List Exchange :=
  changesOf (program.exchanges service schedule run)

private theorem Uses.changes_eq_nil (asks : program.Uses Request.Asks) (run : Run ρ) :
    program.changes service schedule run = [] := by
  refine List.filter_eq_nil_iff.mpr fun exchange member => ?_
  simp [asks.exchanges member]

/-- Behind a reading come the changes of what goes on with its result. -/
theorem changes_behind_reading (reads : program.Uses Request.Asks) (next : α → Program β)
    (run : Run ρ) :
    (program >>= next).changes service schedule run = [] ∨
      ∃ value after, program.run service schedule run = (.finished value, after) ∧
        (program >>= next).changes service schedule run =
          (next value).changes service schedule after := by
  have none : program.changes service schedule run = [] := reads.changes_eq_nil run
  rcases exchanges_bind_cases program next run with same | ⟨value, after, ends, same⟩
  · exact .inl (by rw [changes, same]; exact none)
  · refine .inr ⟨value, after, ends, ?_⟩
    rw [changes, same, changesOf, List.filter_append]
    exact congrArg (· ++ _) none

private theorem changes_before_reading (reads : ∀ value, (next value).Uses Request.Asks) (run : Run ρ) :
    (program >>= next).changes service schedule run = program.changes service schedule run := by
  rcases exchanges_bind_cases program next run with same | ⟨value, after, ends, same⟩
  · rw [changes, same, changes]
  · rw [changes, same, changesOf, List.filter_append]
    exact (congrArg (_ ++ ·) ((reads value).changes_eq_nil after)).trans (List.append_nil _)

private theorem exchanges_call_alone {request : Request}
    {next : Except Failure request.Answer → Program α}
    (ends : ∀ result, ∃ value, next result = .done value) (run : Run ρ) :
    ∃ result, (call request next).exchanges service schedule run = [⟨request, result⟩] := by
  simp only [exchanges]
  rcases run.call service schedule request with ⟨_ | result, after⟩
  · exact ⟨none, rfl⟩
  · obtain ⟨value, same⟩ := ends result
    exact ⟨some result, by simp only [same, exchanges]⟩

private theorem changes_call_alone {request : Request} {next : Except Failure request.Answer → Program α}
    (mutates : request.isMutating = true) (ends : ∀ result, ∃ value, next result = .done value)
    (run : Run ρ) :
    ∃ result, (call request next).changes service schedule run = [⟨request, result⟩] := by
  obtain ⟨result, same⟩ := exchanges_call_alone ends run
  exact ⟨result, by rw [changes, same, changesOf_cons mutates]; rfl⟩

end Program

/-- A deletion makes the calls of its pass, and takes none for what it makes of their failures. -/
theorem Pass.run_deletion (pass : Pass Unit) :
    pass.deletion.run = pass.run >>= fun result => .done (match result with
      | .ok value => .ok value
      | .error failure => if failure.isNotFound then .ok () else .error failure) := by
  change pass.run >>= _ = _
  congr 1
  funext result
  cases result with
  | ok value => rfl
  | error failure =>
    change (if _ then _ else _ : Pass Unit).run = _
    dsimp only
    split <;> rfl

private theorem Pass.deletion_exchanges (pass : Pass Unit) (run : Run ρ) :
    pass.deletion.run.exchanges service schedule run = pass.run.exchanges service schedule run := by
  rw [run_deletion]
  rcases Program.exchanges_bind_cases pass.run _ run with same | ⟨result, after, -, same⟩
  · exact same
  · exact same.trans (List.append_nil _)

/-! ### Changes that complete a creation -/

private theorem TagSet.apply_changes (keyId : String) (desired : TagMap) (run : Run ρ) :
    let made := (TagSet.apply keyId desired).run.changes service schedule run
    made = [] ∨ ∃ result, made = [⟨.tagResource keyId desired.toTags, result⟩] := by
  unfold TagSet.apply
  dsimp only
  split
  · exact .inr (Program.changes_call_alone rfl (fun result => ⟨result, rfl⟩) run)
  · exact .inl rfl

/-- A rotation that is wanted is never turned off, whatever its state is said to be. -/
theorem Rotation.reconcile_changes (keyId : String) (run : Run ρ) :
    let made := (Rotation.reconcile keyId (some true)).run.changes service schedule run
    made = [] ∨ ∃ result, made = [⟨.enableKeyRotation keyId, result⟩] := by
  have reads : (Rotation.observe keyId).run.Uses Request.Asks := Rotation.observe_uses rfl
  unfold Rotation.reconcile
  rw [ExceptT.run_bind]
  rcases Program.changes_behind_reading reads _ run with none | ⟨found, after, -, same⟩
  · exact .inl none
  · rw [same]
    cases found with
    | error failure => exact .inl rfl
    | ok state =>
      cases state with
      | unknown | enabled => exact .inl rfl
      | disabled =>
        refine .inr (Program.changes_call_alone rfl (fun result => ?_) after)
        cases result <;> exact ⟨_, rfl⟩

/-! ### The two passes -/

namespace Manager

variable (manager : Manager σ τ) (desired : Resource σ τ)

theorem finalize_exchanges {deletes : Request → Bool}
    (reads : (manager.readOne desired).run.Uses Request.Asks)
    (deletion : ∀ latest (run : Run ρ), (manager.delete latest).run.exchanges service schedule run = [] ∨
      ∃ deletion, (manager.delete latest).run.exchanges service schedule run = [deletion] ∧
        deletes deletion.request = true) (run : Run ρ) :
    let pass := (manager.finalize desired).run.exchanges service schedule run
    changesOf pass = [] ∨ ∃ readings deletion, pass = readings ++ [deletion] ∧
      changesOf readings = [] ∧ deletes deletion.request = true := by
  intro pass
  have none : changesOf ((manager.readOne desired).run.exchanges service schedule run) = [] :=
    reads.changes_eq_nil run
  simp only [pass, manager.run_finalize]
  rcases Program.exchanges_bind_cases _ _ run with same | ⟨reading, after, -, same⟩
  · exact .inl (by rw [same, none])
  · rw [same]
    cases reading with
    | error failure =>
      left
      dsimp only
      split
      all_goals
        change changesOf (_ ++ []) = []
        rwa [List.append_nil]
    | ok latest =>
      dsimp only
      rcases deletion latest after with nothing | ⟨last, made, own⟩
      · exact .inl (by rw [nothing, List.append_nil, none])
      · exact .inr ⟨_, last, by rw [made], none, own⟩

variable [CustomResource σ τ]

private theorem reconcile_changes {made : List Exchange → Prop} (nothing : made [])
    (reads : (manager.readOne desired).run.Uses Request.Asks)
    (syncs : ∀ latest (run : Run ρ), made ((manager.sync desired latest).run.changes service schedule run))
    (creates : ∀ run : Run ρ, made ((manager.create desired).run.changes service schedule run))
    (run : Run ρ) : made ((manager.reconcile desired).run.changes service schedule run) := by
  rw [manager.run_reconcile]
  rcases Program.changes_behind_reading reads _ run with same | ⟨reading, after, -, same⟩
  · rw [same]
    exact nothing
  · rw [same]
    cases reading with
    | ok latest => exact syncs latest after
    | error failure =>
      dsimp only
      split
      · exact creates after
      · exact nothing

end Manager

namespace Kind

def creates : Kind → Request → Bool
  | key, .createKey _ | replicaKey, .replicateKey _ | keyAlias, .createAlias _ _
  | grant, .createGrant _ => true
  | _, _ => false

def deletes : Kind → Request → Bool
  | key, .scheduleKeyDeletion _ _ | replicaKey, .scheduleKeyDeletion _ _ | keyAlias, .deleteAlias _
  | grant, .retireGrant _ _ => true
  | _, _ => false

/-- The second change completes the first one, on the key that the service has answered with. -/
inductive Completes : Kind → Exchange → Exchange → Prop where
  | rotation (spec : NewKey) (created : KeyMetadata) (result) :
      Completes key ⟨.createKey spec, some (.ok created)⟩ ⟨.enableKeyRotation created.keyId, result⟩
  | tags (spec : NewReplica) (created : KeyMetadata) (tags : List Tag) (result) :
      Completes replicaKey ⟨.replicateKey spec, some (.ok created)⟩
        ⟨.tagResource created.keyId tags, result⟩

/-- The changes of a reconciliation. -/
inductive Reconciles (kind : Kind) : List Exchange → Prop where
  | inPlace {made : List Exchange} (updates : ∀ change ∈ made, change.request.verb = .update) :
      Reconciles kind made
  | creation {creation : Exchange} (own : kind.creates creation.request = true) :
      Reconciles kind [creation]
  | completed {creation completion : Exchange} (completes : kind.Completes creation completion) :
      Reconciles kind [creation, completion]

private theorem creates_verb {kind : Kind} {request : Request} (own : kind.creates request = true) :
    request.verb = .create := by
  cases kind <;> cases request <;> first | rfl | cases own

namespace Completes

variable {kind : Kind} {creation completion : Exchange}

private theorem creates (completes : kind.Completes creation completion) :
    kind.creates creation.request = true := by
  cases completes <;> rfl

private theorem updates (completes : kind.Completes creation completion) :
    completion.request.verb = .update := by
  cases completes <;> rfl

end Completes

private theorem Reconciles.nothing (kind : Kind) : kind.Reconciles [] :=
  .inPlace fun _ member => nomatch member

theorem Reconciles.verb_ne_delete {kind : Kind} {made : List Exchange}
    (reconciles : kind.Reconciles made) {change : Exchange} (member : change ∈ made) :
    change.request.verb ≠ .delete := by
  cases reconciles with
  | inPlace updates => simp [updates change member]
  | creation own => simp [List.mem_singleton.mp member, creates_verb own]
  | completed completes =>
    rcases List.mem_pair.mp member with rfl | rfl
    · simp [creates_verb completes.creates]
    · simp [completes.updates]

private theorem Reconciles.creates_once {kind : Kind} {made : List Exchange}
    (reconciles : kind.Reconciles made) :
    (made.filter fun change => change.request.verb = .create).length ≤ 1 ∧
      ∀ creation ∈ made, creation.request.verb = .create → kind.creates creation.request = true ∧
        (made = [creation] ∨
          ∃ completion, made = [creation, completion] ∧ kind.Completes creation completion) := by
  cases reconciles with
  | inPlace updates =>
    refine ⟨?_, fun creation member creates => ?_⟩
    · rw [List.filter_eq_nil_iff.mpr fun change member => by simp [updates change member]]
      exact Nat.zero_le 1
    · cases creates.symm.trans (updates creation member)
  | creation own =>
    refine ⟨List.length_filter_le _ _, fun creation member _ => ?_⟩
    obtain rfl := List.mem_singleton.mp member
    exact ⟨own, .inl rfl⟩
  | completed completes =>
    have later := completes.updates
    refine ⟨?_, fun creation member creates => ?_⟩
    · simp [creates_verb completes.creates, later]
    · rcases List.mem_pair.mp member with rfl | rfl
      · exact ⟨completes.creates, .inr ⟨_, rfl, completes⟩⟩
      · cases creates.symm.trans later

private theorem Reconciles.of_uses {kind : Kind} {program : Program α}
    (uses : program.Uses fun request => request.Asks ∨ request.verb = .update) (run : Run ρ) :
    kind.Reconciles (program.changes service schedule run) := by
  refine .inPlace fun change member => ?_
  obtain ⟨inside, mutates⟩ := mem_changesOf.mp member
  exact (uses.exchanges inside).resolve_left (by simp [mutates])

private theorem reconciles_creation (kind : Kind) {request : Request}
    {next : request.Answer → Update α β}
    (own : kind.creates request = true)
    (completes : ∀ answer (run : Run ρ), (next answer).run.changes service schedule run = [] ∨
      ∃ completion, (next answer).run.changes service schedule run = [completion] ∧
        kind.Completes ⟨request, some (.ok answer)⟩ completion) (run : Run ρ) :
    kind.Reconciles
      (((liftM (call request) : Update α _) >>= next).run.changes service schedule run) := by
  have mutates : request.isMutating = true := by
    cases kind <;> cases request <;> first | rfl | cases own
  rw [run_lift_call_bind]
  simp only [Program.changes, Program.exchanges]
  rcases run.call service schedule request with ⟨_ | (failure | answer), after⟩
  all_goals rw [changesOf_cons mutates]
  · exact .creation own
  · exact .creation own
  · rcases completes answer after with nothing | ⟨completion, later, completed⟩
    · exact congrArg (_ :: ·) nothing ▸ .creation own
    · exact congrArg (_ :: ·) later ▸ .completed completed

private theorem deletes_alone (kind : Kind) (request : Request)
    {next : Except Failure request.Answer → Program α} (own : kind.deletes request = true)
    (ends : ∀ result, ∃ value, next result = .done value) (run : Run ρ) :
    let made := (Program.call request next).exchanges service schedule run
    made = [] ∨ ∃ deletion, made = [deletion] ∧ kind.deletes deletion.request = true := by
  obtain ⟨result, made⟩ := Program.exchanges_call_alone ends run
  exact .inr ⟨_, made, own⟩

end Kind

namespace Key

variable (scope : AccountScope)

private theorem startRotation_changes (desired : Key) (created : KeyMetadata) (run : Run ρ) :
    let made := (startRotation scope desired created).run.changes service schedule run
    made = [] ∨ ∃ result, made = [⟨.enableKeyRotation created.keyId, result⟩] := by
  unfold startRotation
  dsimp only
  split
  next wanted =>
    rw [run_result_bind, Program.changes_before_reading fun result => by cases result <;> trivial, wanted]
    exact Rotation.reconcile_changes created.keyId run
  next => exact .inl rfl

private theorem create_changes (desired : Key) (run : Run ρ) :
    Kind.key.Reconciles ((create scope desired).run.changes service schedule run) := by
  refine Kind.key.reconciles_creation rfl (fun created run => ?_) run
  exact (startRotation_changes scope desired created run).imp_right fun ⟨result, made⟩ =>
    ⟨_, made, .rotation _ created result⟩

private theorem delete_exchanges (key : Key) (run : Run ρ) :
    let made := key.delete.run.exchanges service schedule run
    made = [] ∨ ∃ deletion, made = [deletion] ∧ Kind.key.deletes deletion.request = true := by
  unfold delete
  dsimp only
  split
  · split
    · split
      · refine Kind.key.deletes_alone (.scheduleKeyDeletion _ _) rfl (fun result => ?_) run
        cases result <;> exact ⟨_, rfl⟩
      · exact .inl rfl
    · exact .inl rfl
  · exact .inl rfl

end Key

namespace ReplicaKey

private theorem sync_uses (pages : Nat) (desired latest : ReplicaKey) :
    ((manager pages).sync desired latest).run.Uses fun _ => False :=
  Manager.sync_uses fun _ => trivial

private theorem create_changes (desired : ReplicaKey) (run : Run ρ) :
    Kind.replicaKey.Reconciles ((create desired).run.changes service schedule run) := by
  unfold create
  split
  · refine Kind.replicaKey.reconciles_creation rfl (fun created run => ?_) run
    rw [run_result_bind, Program.changes_before_reading fun result => by cases result <;> trivial]
    refine (TagSet.apply_changes created.keyId desired.spec.tags run).imp_right fun ⟨result, made⟩ => ?_
    exact ⟨_, made, .tags _ created _ result⟩
  · exact .nothing _

private theorem delete_exchanges (replica : ReplicaKey) (run : Run ρ) :
    let made := replica.delete.run.exchanges service schedule run
    made = [] ∨ ∃ deletion, made = [deletion] ∧ Kind.replicaKey.deletes deletion.request = true := by
  unfold delete
  dsimp only
  split
  · split
    · split
      · refine Kind.replicaKey.deletes_alone (.scheduleKeyDeletion _ _) rfl (fun result => ?_) run
        cases result <;> exact ⟨_, rfl⟩
      · exact .inl rfl
    · exact .inl rfl
  · exact .inl rfl

end ReplicaKey

namespace Alias

variable (scope : AccountScope)

theorem readOne_uses (pages : Nat) (resource : Alias) :
    (readOne scope pages resource).run.Uses fun request => ∃ marker, request = .listAliases marker := by
  refine uses_bind (uses_bind (Pass.items_uses (fun marker => uses_call ⟨marker, rfl⟩) _ pages none)
    fun _ => trivial) fun entry? => ?_
  cases entry? <;> trivial

theorem readOne_asks (pages : Nat) (resource : Alias) :
    (readOne scope pages resource).run.Uses Request.Asks :=
  (readOne_uses scope pages resource).mono fun _ ⟨_, same⟩ => same ▸ rfl

private theorem update_uses (desired latest : Alias) (delta : Delta) :
    (update desired latest delta).run.Uses fun request =>
      ∃ target, request = .updateAlias desired.remoteName target := by
  unfold update
  dsimp only
  split
  · trivial
  · split
    · split
      · exact uses_bind (uses_lift (uses_call ⟨_, rfl⟩)) fun _ => trivial
      · trivial
    · trivial

theorem sync_uses (pages : Nat) (desired latest : Alias) :
    ((manager scope pages).sync desired latest).run.Uses fun request =>
      ∃ target, request = .updateAlias desired.remoteName target :=
  Manager.sync_uses (update_uses desired latest)

private theorem create_changes (desired : Alias) (run : Run ρ) :
    Kind.keyAlias.Reconciles ((create scope desired).run.changes service schedule run) := by
  unfold create
  split
  · exact Kind.keyAlias.reconciles_creation rfl (fun _ _ => .inl rfl) run
  · exact .nothing _

private theorem delete_exchanges (resource : Alias) (run : Run ρ) :
    let made := resource.delete.run.exchanges service schedule run
    made = [] ∨ ∃ deletion, made = [deletion] ∧ Kind.keyAlias.deletes deletion.request = true := by
  unfold delete
  rw [deletion_exchanges]
  exact Kind.keyAlias.deletes_alone (.deleteAlias _) rfl (fun result => ⟨result, rfl⟩) run

end Alias

namespace Grant

variable (scope : AccountScope)

private theorem readOne_uses (pages : Nat) (grant : Grant) :
    (readOne scope pages grant).run.Uses fun request =>
      ∃ keyId marker, request = .listGrants keyId marker := by
  unfold readOne
  split
  · split
    next keyId _ =>
      refine uses_bind (uses_lookup (uses_bind
        (Pass.items_uses (fun marker => uses_call ⟨keyId, marker, rfl⟩) _ pages none)
        fun _ => trivial)) fun entry? => ?_
      cases entry? <;> trivial
    next => trivial
  · trivial

theorem readOne_asks (pages : Nat) (grant : Grant) :
    (readOne scope pages grant).run.Uses Request.Asks :=
  (readOne_uses scope pages grant).mono fun _ ⟨_, _, same⟩ => same ▸ rfl

theorem sync_uses (pages : Nat) (desired latest : Grant) :
    ((manager scope pages).sync desired latest).run.Uses fun _ => False :=
  Manager.sync_uses fun _ => trivial

private theorem create_changes (desired : Grant) (run : Run ρ) :
    Kind.grant.Reconciles ((create scope desired).run.changes service schedule run) := by
  unfold create
  split
  · exact Kind.grant.reconciles_creation rfl (fun _ _ => .inl rfl) run
  · exact .nothing _

private theorem delete_exchanges (grant : Grant) (run : Run ρ) :
    let made := grant.delete.run.exchanges service schedule run
    made = [] ∨ ∃ deletion, made = [deletion] ∧ Kind.grant.deletes deletion.request = true := by
  unfold delete
  dsimp only
  split
  · split
    · rw [deletion_exchanges]
      exact Kind.grant.deletes_alone (.retireGrant _ _) rfl (fun result => ⟨result, rfl⟩) run
    · exact .inl rfl
  · exact .inl rfl

end Grant

namespace Kind

variable (kind : Kind) (scope : AccountScope) (pages : Nat)
  (resource : Resource kind.managed.Spec kind.managed.Status)

theorem readOne_asks : ((kind.managed.manager scope pages).readOne resource).run.Uses Request.Asks := by
  cases kind with
  | key => exact Key.readOne_asks scope pages resource
  | replicaKey => exact ReplicaKey.readOne_asks pages resource
  | keyAlias => exact Alias.readOne_asks scope pages resource
  | grant => exact Grant.readOne_asks scope pages resource

private theorem sync_uses (latest : Resource kind.managed.Spec kind.managed.Status) :
    let _ := kind.managed.resource
    ((kind.managed.manager scope pages).sync resource latest).run.Uses fun request =>
      request.Asks ∨ request.verb = .update := by
  cases kind with
  | key =>
    exact (Key.sync_uses scope pages resource latest).mono fun _ ⟨_, _, adjusts⟩ =>
      adjusts.asks_or_updates
  | replicaKey => exact (ReplicaKey.sync_uses pages resource latest).mono fun _ => False.elim
  | keyAlias =>
    exact (Alias.sync_uses scope pages resource latest).mono fun _ ⟨_, same⟩ => .inr (same ▸ rfl)
  | grant => exact (Grant.sync_uses scope pages resource latest).mono fun _ => False.elim

private theorem create_changes (run : Run ρ) :
    kind.Reconciles
      (((kind.managed.manager scope pages).create resource).run.changes service schedule run) := by
  cases kind with
  | key => exact Key.create_changes scope resource run
  | replicaKey => exact ReplicaKey.create_changes resource run
  | keyAlias => exact Alias.create_changes scope resource run
  | grant => exact Grant.create_changes scope resource run

theorem delete_exchanges (run : Run ρ) :
    let made := ((kind.managed.manager scope pages).delete resource).run.exchanges service schedule run
    made = [] ∨ ∃ deletion, made = [deletion] ∧ kind.deletes deletion.request = true := by
  cases kind with
  | key => exact Key.delete_exchanges resource run
  | replicaKey => exact ReplicaKey.delete_exchanges resource run
  | keyAlias => exact Alias.delete_exchanges resource run
  | grant => exact Grant.delete_exchanges resource run

/-- The changes of a reconciliation are made in place, or they are one creation and what completes it. -/
theorem reconcile_changes (run : Run ρ) :
    let _ := kind.managed.resource
    kind.Reconciles
      (((kind.managed.manager scope pages).reconcile resource).run.changes service schedule run) := by
  intro _
  exact Manager.reconcile_changes _ resource (.nothing kind) (kind.readOne_asks scope pages resource)
    (fun latest run => .of_uses (kind.sync_uses scope pages resource latest) run)
    (fun run => kind.create_changes scope pages resource run) run

/-- Whatever the service answers, a reconciliation deletes nothing and creates at most once, and the
creation is the kind's own. Behind it comes no further change but the one that completes it, on the key
that was answered. A finalization asks for no change, or its last call is the only one that does, and
this is the kind's own deletion. -/
theorem passes_create_once_delete_last (service : Service ρ) (schedule : Schedule) (run : Run ρ) :
    let manager := kind.managed.manager scope pages
    let _ := kind.managed.resource
    let reconciliation := (manager.reconcile resource).run.exchanges service schedule run
    let finalization := (manager.finalize resource).run.exchanges service schedule run
    ((∀ exchange ∈ reconciliation, exchange.request.verb ≠ .delete) ∧
      (reconciliation.filter fun exchange => exchange.request.verb = .create).length ≤ 1 ∧
      ∀ creation ∈ reconciliation, creation.request.verb = .create →
        kind.creates creation.request = true ∧
          (changesOf reconciliation = [creation] ∨
            ∃ completion, changesOf reconciliation = [creation, completion] ∧
              kind.Completes creation completion)) ∧
    (changesOf finalization = [] ∨
      ∃ readings deletion, finalization = readings ++ [deletion] ∧ changesOf readings = [] ∧
        kind.deletes deletion.request = true) := by
  intro manager _ reconciliation finalization
  have made : kind.Reconciles (changesOf reconciliation) :=
    kind.reconcile_changes scope pages resource run
  have creations : (reconciliation.filter fun exchange => exchange.request.verb = .create) =
      (changesOf reconciliation).filter fun exchange => exchange.request.verb = .create := by
    rw [changesOf, List.filter_filter]
    refine List.filter_congr fun exchange _ => ?_
    cases exchange.request <;> rfl
  refine ⟨⟨fun exchange member deletes => ?_, ?_, fun creation member creates => ?_⟩, ?_⟩
  · have mutates := Request.isMutating_of_verb (.inr deletes)
    exact made.verb_ne_delete (mem_changesOf.mpr ⟨member, mutates⟩) deletes
  · exact creations ▸ made.creates_once.1
  · have mutates := Request.isMutating_of_verb (.inl creates)
    exact made.creates_once.2 creation (mem_changesOf.mpr ⟨member, mutates⟩) creates
  · exact manager.finalize_exchanges resource (kind.readOne_asks scope pages resource)
      (fun latest run => kind.delete_exchanges scope pages latest run) run

end Kind

end KeySteward
