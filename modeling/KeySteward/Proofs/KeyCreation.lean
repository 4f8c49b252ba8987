import KeySteward.Proofs.KeyRequests
import KeySteward.Proofs.ManagerPasses
import KeySteward.Proofs.MemoryHistory

/-! When a pass creates a key. The reading part of a pass asks for the key in its status; the pass
goes on to create one exactly when there is no such id or when an answer to the reading part says
that something does not exist. -/

namespace KeySteward

variable {σ β : Type} {service : Service σ} {schedule : Schedule}

theorem Pass.run_lookup_bind (request : Request) (next : request.Answer → Pass β) :
    ((Pass.call request).lookup >>= next).run = .call request fun
      | .ok answer => (next answer).run
      | .error failure => .done (.error failure.ofLookup) := by
  change Program.call request _ = _
  congr 1
  funext result
  cases result <;> rfl

/-- A look-up and strict readings after it fail as something not found does exactly when one of
their calls is answered so. -/
theorem Pass.lookup_not_found_iff {request : Request} {next : request.Answer → Pass β}
    (strict : ∀ answer, (next answer).Strict) (run : Run σ) :
    (∃ failure after, ((Pass.call request).lookup >>= next).run.run service schedule run =
        (.finished (.error failure), after) ∧ failure.isNotFound = true) ↔
      ∃ exchange ∈ ((Pass.call request).lookup >>= next).run.exchanges service schedule run,
        exchange.IsNotFound := by
  rw [run_lookup_bind]
  have called := run.call_gives service schedule request
  simp only [Program.run, Program.exchanges]
  generalize run.call service schedule request = outcome at called ⊢
  rcases outcome with ⟨_ | (failure | answer), middle⟩
  · simp [Exchange.IsNotFound, Exchange.code?]
  · have coded : failure.isNotFound = true ↔ failure.code? = some ServiceError.notFoundCode := by
      cases called with
      | interrupted interruption _ =>
        rcases interruption with rfl | rfl <;> simp [Failure.isNotFound, Failure.code?]
      | refused _ => simp [Failure.isNotFound, Failure.code?, ServiceError.isNotFound]
    simp [Program.run, Program.exchanges, Exchange.IsNotFound, Exchange.code?, coded]
  · have strictly := (strict answer).failure_iff service schedule middle
    constructor
    · rintro ⟨failure, after, ends, missing⟩
      obtain ⟨exchange, member, failed⟩ := (strictly failure).mp ⟨after, ends⟩
      exact ⟨exchange, List.mem_cons_of_mem _ member, .of_failure member failed missing⟩
    · rintro ⟨exchange, member, missing⟩
      rcases List.mem_cons.mp member with rfl | inside
      · cases missing
      · obtain ⟨failure, failed, notFound⟩ := missing.failure
        obtain ⟨after, ends⟩ := (strictly failure).mpr ⟨exchange, inside, failed⟩
        exact ⟨failure, after, ends, notFound⟩

namespace Key

theorem readOne_lookup (scope : AccountScope) (pages : Nat) {key : Key} {keyId : String}
    (known : key.keyId? = some keyId) :
    ∃ next : KeyMetadata → Pass Key,
      readOne scope pages key = (Pass.call (.describeKey keyId)).lookup >>= next ∧
        ∀ metadata, (next metadata).Strict := by
  simp only [readOne, known]
  refine ⟨_, rfl, fun metadata => ?_⟩
  split
  · exact .pure _
  · refine (TagSet.list_strict pages keyId).bind fun tags => ?_
    refine (Rotation.observe_strict keyId).bind fun rotation => ?_
    exact (Policy.get_strict keyId).bind fun policy => .pure _

/-- Reading a key fails as something not found does exactly when no key is known or one of the
calls is answered so. -/
theorem readOne_not_found_iff (scope : AccountScope) (pages : Nat) (key : Key) (run : Run σ) :
    (∃ failure after, (readOne scope pages key).run.run service schedule run =
        (.finished (.error failure), after) ∧ failure.isNotFound = true) ↔
      key.keyId? = none ∨
        ∃ exchange ∈ (readOne scope pages key).run.exchanges service schedule run,
          exchange.IsNotFound := by
  cases known : key.keyId? with
  | none =>
    refine ⟨fun _ => .inl rfl, fun _ => ⟨.notFound, run, ?_, rfl⟩⟩
    simp only [readOne, known]
    rfl
  | some keyId =>
    obtain ⟨next, reads, strict⟩ := readOne_lookup scope pages known
    rw [reads]
    simp only [reduceCtorEq, false_or]
    exact Pass.lookup_not_found_iff strict run

theorem sync_uses (scope : AccountScope) (pages : Nat) (desired latest : Key) :
    ((manager scope pages).sync desired latest).run.Uses fun request =>
      ∃ keyId, latest.keyId? = some keyId ∧ request.AdjustsKey keyId := by
  refine Manager.sync_uses fun delta => ?_
  cases known : latest.keyId? with
  | none =>
    simp only [manager, update, known]
    trivial
  | some keyId =>
    exact (update_uses pages desired known delta).mono fun request adjusts => ⟨keyId, rfl, adjusts⟩

theorem startRotation_uses (scope : AccountScope) (desired : Key) (metadata : KeyMetadata) :
    (startRotation scope desired metadata).run.Uses (Request.AdjustsKey metadata.keyId) := by
  unfold startRotation
  dsimp only
  split
  · refine Pass.uses_result_bind (Rotation.reconcile_uses _ _) fun result => ?_
    cases result <;> trivial
  · trivial

/-- A pass creates a key exactly when the status names none or one of the calls that read the key
is answered that something does not exist. These calls come first in the pass, and each of them
asks for something about the key that the status names. -/
theorem createKey_issued_iff (service : Service σ) (schedule : Schedule) (run : Run σ)
    (scope : AccountScope) (pages : Nat) (key : Key) :
    let reading := (readOne scope pages key).run.exchanges service schedule run
    let pass := ((manager scope pages).reconcile key).run.exchanges service schedule run
    reading <+: pass ∧
      (∀ exchange ∈ reading, ∃ keyId,
        key.keyId? = some keyId ∧ exchange.request.ReadsKey keyId) ∧
      ((∃ exchange ∈ pass, ∃ input, exchange.request = .createKey input) ↔
        key.keyId? = none ∨ ∃ exchange ∈ reading, exchange.IsNotFound) := by
  intro reading pass
  have reads : ∀ exchange ∈ reading, ∃ keyId,
      key.keyId? = some keyId ∧ exchange.request.ReadsKey keyId := by
    intro exchange member
    cases known : key.keyId? with
    | none =>
      simp only [reading, readOne, known] at member
      cases member
    | some keyId => exact ⟨keyId, rfl, (readOne_uses scope pages known).exchanges member⟩
  have course := (manager scope pages).run_reconcile key
  change _ = (readOne scope pages key).run >>= _ at course
  refine ⟨?_, reads, ?_⟩
  · simp only [pass, course]
    exact Program.exchanges_bind_prefix _ _ run
  rw [← readOne_not_found_iff]
  constructor
  · rintro ⟨exchange, member, input, created⟩
    rcases Manager.mem_exchanges_reconcile member with
      first | ⟨latest, after, -, later⟩ | ⟨failure, after, ends, missing, -⟩
    · obtain ⟨keyId, -, readsKey⟩ := reads exchange first
      exact absurd created (readsKey.ne_createKey input)
    · obtain ⟨keyId, -, adjusts⟩ := (sync_uses scope pages key latest).exchanges later
      exact absurd created (adjusts.ne_createKey input)
    · exact ⟨failure, after, ends, missing⟩
  · rintro ⟨failure, after, ends, missing⟩
    simp only [pass, course]
    rw [Program.exchanges_bind_finished _ ends]
    dsimp only
    rw [if_pos missing]
    obtain ⟨exchange, member, same⟩ :=
      Program.exists_exchange_call (.createKey key.spec.newKey) _ after
    exact ⟨exchange, List.mem_append_right _ member, _, same⟩

/-- A key that lives, and whose description has just been read, is created once more when the
service cannot find its tags. -/
theorem createKey_issued_for_missing_tags :
    let memory := (({ config := .numbered } : Memory).seedKey "k1" {}).failNext "ListResourceTags"
      (.api ServiceError.notFoundCode "gone")
    let key : Key := ⟨{ name := "key" }, {}, some { keyId := some "k1" }⟩
    let pass := ((manager ⟨"us-west-2", "000000000000"⟩ 2).reconcile key).run.exchanges
      Memory.service .calm { state := memory }
    pass.map (fun exchange => (exchange.request.operation, exchange.code?)) =
      [("DescribeKey", none), ("ListResourceTags", some "NotFoundException"), ("CreateKey", none)] := by
  decide

end Key

end KeySteward
