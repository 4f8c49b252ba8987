import KeySteward.Proofs.ManagerPasses
import KeySteward.Proofs.KeyInterruption
import KeySteward.Proofs.TagListings

/-! Changes in place, each with the reading that warrants it. A pass over a key reads it twice, once to
see what differs and once more in each step, and the service may answer as it likes. It is the second
reading, directly before the change, that the change goes by. -/

namespace KeySteward

variable {σ α β ε ρ : Type} {warrant : List Exchange → Request → Prop}

namespace Program

/-- Every request of the program is warranted by the calls before it, whatever they come to, and every
value that it ends with stands in this relation to all of its calls. -/
def Warranted (warrant : List Exchange → Request → Prop) (gives : α → List Exchange → Prop) :
    Program α → (history : List Exchange) → Prop
  | .done value, history => gives value history
  | .call request next, history =>
    warrant history request ∧
      ∀ result, (next result).Warranted warrant gives (history ++ [⟨request, some result⟩])
  | .unfinished, _ => True

variable {gives : α → List Exchange → Prop} {onward : β → List Exchange → Prop}
variable {program : Program α} {history : List Exchange}

theorem Warranted.bind {next : α → Program β} (first : program.Warranted warrant gives history)
    (rest : ∀ value later, gives value later → (next value).Warranted warrant onward later) :
    (program >>= next).Warranted warrant onward history := by
  change (program.bind next).Warranted warrant onward history
  induction program generalizing history with
  | done value => exact rest value history first
  | unfinished => trivial
  | call request after ih => exact ⟨first.1, fun result => ih result (first.2 result)⟩

private theorem Uses.warranted {allowed : Request → Prop} (uses : program.Uses allowed)
    (permits : ∀ history request, allowed request → warrant history request)
    (given : ∀ value later, gives value later) (history : List Exchange) :
    program.Warranted warrant gives history := by
  induction program generalizing history with
  | done value => exact given value history
  | unfinished => trivial
  | call request next ih =>
    exact ⟨permits history request uses.1, fun result => ih result (uses.2 result) _⟩

/-- Each call of a run is warranted by those before it. -/
theorem Warranted.exchanges {service : Service σ} {schedule : Schedule} {run : Run σ}
    {before after : List Exchange} {exchange : Exchange}
    (warranted : program.Warranted warrant gives history)
    (split : program.exchanges service schedule run = before ++ exchange :: after) :
    warrant (history ++ before) exchange.request := by
  induction program generalizing history run before with
  | done value => cases List.append_ne_nil_of_right_ne_nil before (List.cons_ne_nil _ _) split.symm
  | unfinished => cases List.append_ne_nil_of_right_ne_nil before (List.cons_ne_nil _ _) split.symm
  | call request next ih =>
    simp only [Program.exchanges] at split
    generalize run.call service schedule request = outcome at split
    cases before with
    | nil =>
      rw [List.append_nil]
      obtain ⟨_ | result, middle⟩ := outcome <;> cases split <;> exact warranted.1
    | cons first others =>
      obtain ⟨_ | result, middle⟩ := outcome
      · cases others <;> cases split
      · dsimp only at split
        obtain ⟨rfl, rest⟩ := List.cons.inj split
        rw [List.append_cons]
        exact ih result (warranted.2 result) rest

end Program

namespace Pass

/-- The same for a program that may fail, where only a value that it succeeds with counts. -/
def Warranted (warrant : List Exchange → Request → Prop) (gives : α → List Exchange → Prop)
    (pass : ExceptT ε Program α) (history : List Exchange) : Prop :=
  pass.run.Warranted warrant (fun result later => ∀ value, result = .ok value → gives value later)
    history

namespace Warranted

variable {gives : α → List Exchange → Prop} {onward : β → List Exchange → Prop}
variable {history : List Exchange}

theorem pure {value : α} (given : gives value history) :
    Warranted warrant gives (pure value : ExceptT ε Program α) history := by
  intro other same
  cases same
  exact given

theorem throw (error : ε) :
    Warranted warrant gives (throw error : ExceptT ε Program α) history :=
  nofun

theorem call {request : Request} {gives : request.Answer → List Exchange → Prop}
    (warranted : warrant history request)
    (given : ∀ answer, gives answer (history ++ [⟨request, some (.ok answer)⟩])) :
    Warranted warrant gives (Pass.call request) history := by
  refine ⟨warranted, fun result value same => ?_⟩
  cases same
  exact given value

theorem bind {pass : ExceptT ε Program α} {next : α → ExceptT ε Program β}
    (first : Warranted warrant gives pass history)
    (rest : ∀ value later, gives value later → Warranted warrant onward (next value) later) :
    Warranted warrant onward (pass >>= next) history := by
  unfold Warranted
  rw [ExceptT.run_bind]
  refine Program.Warranted.bind first fun result later given => ?_
  cases result with
  | ok value => exact rest value later (given value rfl)
  | error error => exact nofun

private theorem call_bind {request : Request} {next : request.Answer → Pass β}
    (warranted : warrant history request)
    (rest : ∀ answer, Warranted warrant onward (next answer)
      (history ++ [⟨request, some (.ok answer)⟩])) :
    Warranted warrant onward (Pass.call request >>= next) history := by
  have called : Warranted warrant
      (fun answer later => later = history ++ [⟨request, some (.ok answer)⟩])
      (Pass.call request) history := .call warranted fun _ => rfl
  refine called.bind fun answer later behind => ?_
  subst behind
  exact rest answer

theorem lift {pass : Pass α} (warranted : Warranted warrant gives pass history) :
    Warranted warrant gives (liftM pass : Update ρ α) history := by
  refine Program.Warranted.bind warranted fun result later given => ?_
  cases result with
  | ok value =>
    intro other same
    cases same
    exact given value rfl
  | error failure => exact nofun

theorem result_bind {pass : Pass α} {next : Except Failure α → ExceptT ε Program β}
    (first : Warranted warrant gives pass history)
    (rest : ∀ result later, Warranted warrant onward (next result) later) :
    Warranted warrant onward (pass.result >>= next) history := by
  unfold Warranted
  rw [run_result_bind]
  exact Program.Warranted.bind first fun result later _ => rest result later

end Warranted

end Pass

namespace TagSet

/-- A listing that has its tags stands directly behind the calls for all of its pages. -/
theorem list_warranted {keyId : String}
    (permits : ∀ history marker, warrant history (.listResourceTags keyId marker)) (pages : Nat)
    (history : List Exchange) :
    Pass.Warranted warrant (fun tags later => ∃ read, Page.AreAll read ∧
      later = history ++ fetched keyId none read ∧ tags = .ofTags (read.flatMap Page.items))
      (list pages keyId) history := by
  have items (marker : Option String) : Pass.Warranted warrant (fun tags later => ∃ read,
      Page.AreAll read ∧ later = history ++ fetched keyId marker read ∧
        tags = read.flatMap Page.items)
      (Pass.items (fun marker => .call (.listResourceTags keyId marker)) (fun _ => false) pages marker)
      history := by
    induction pages generalizing marker history with
    | zero => trivial
    | succ pages ih =>
      unfold Pass.items
      refine .call_bind (permits history marker) fun page => ?_
      simp only [Bool.false_eq_true, if_false]
      split
      next sole => exact .pure ⟨[page], ⟨[], page, rfl, nofun, sole⟩, rfl, by simp⟩
      next next named =>
        refine (ih _ (some next)).bind fun others later found => ?_
        obtain ⟨read, whole, rfl, rfl⟩ := found
        refine .pure ⟨page :: read, whole.cons (by rw [named]; rfl), ?_, List.flatMap_cons.symm⟩
        rw [fetched, (Page.next?_eq_some.mp named).2]
        exact List.append_assoc _ [_] _
  refine (items none).bind fun tags later found => ?_
  obtain ⟨read, whole, rfl, rfl⟩ := found
  exact .pure ⟨read, whole, rfl, rfl⟩

end TagSet

/-- What warrants a request of a pass over a key with such a spec, these being the calls before it. -/
def KeySpec.Warrants (desired : KeySpec) (before : List Exchange) : Request → Prop
  | .enableKeyRotation keyId =>
    desired.enableKeyRotation = some true ∧
      [⟨.getKeyRotationStatus keyId, some (.ok (some false))⟩] <:+ before
  | .disableKeyRotation keyId =>
    (desired.enableKeyRotation = none ∨ desired.enableKeyRotation = some false) ∧
      [⟨.getKeyRotationStatus keyId, some (.ok (some true))⟩] <:+ before
  | .untagResource keyId keys =>
    keys ≠ [] ∧ keys.Pairwise (· < ·) ∧ ∃ read, Page.AreAll read ∧
      TagSet.fetched keyId none read <:+ before ∧ ∀ key, key ∈ keys ↔
        (∃ tag ∈ read.flatMap Page.items, tag.key = key) ∧ desired.tags.get? key = none
  | .tagResource _ tags => tags = desired.tags.toTags ∧ tags ≠ []
  | _ => True

namespace KeySpec

private theorem warrants_asking {desired : KeySpec} (before : List Exchange) (request : Request)
    (asks : request.isMutating = false) : desired.Warrants before request := by
  cases request <;> trivial

private theorem Warrants.rotation_known {desired : KeySpec} {before : List Exchange} {request : Request}
    (warrants : desired.Warrants before request) {name : String}
    (unknown : [⟨.getKeyRotationStatus name, some (.ok none)⟩] <:+ before) (keyId : String) :
    request ≠ .enableKeyRotation keyId ∧ request ≠ .disableKeyRotation keyId := by
  obtain ⟨early, rfl⟩ := unknown
  constructor
  · rintro rfl
    obtain ⟨-, front, same⟩ := warrants
    cases (List.append_inj' same rfl).2
  · rintro rfl
    obtain ⟨-, front, same⟩ := warrants
    cases (List.append_inj' same rfl).2

end KeySpec

section Steps

variable {desired : KeySpec} {history : List Exchange}

open Pass

private theorem TagSet.apply_warranted (keyId : String) :
    Pass.Warranted desired.Warrants (fun _ _ => True) (TagSet.apply keyId desired.tags) history := by
  unfold TagSet.apply
  split
  next wanted =>
    have some : desired.tags.toTags ≠ [] := by simpa [TagMap.toTags, SortedMap.isEmpty] using wanted
    exact .call ⟨rfl, some⟩ fun _ => trivial
  next => exact .pure trivial

private theorem TagSet.reconcile_warranted (pages : Nat) (keyId : String) :
    Pass.Warranted desired.Warrants (fun _ _ => True) (TagSet.reconcile pages keyId desired.tags)
      history := by
  refine (TagSet.list_warranted (fun _ _ => trivial) pages history).bind fun latest later found => ?_
  obtain ⟨read, whole, rfl, rfl⟩ := found
  dsimp only
  split
  next stale =>
    have warranted : desired.Warrants (history ++ TagSet.fetched keyId none read)
        (.untagResource keyId (TagMap.removedKeys (.ofTags (read.flatMap Page.items)) desired.tags)) := by
      refine ⟨by simpa using stale, TagMap.pairwise_removedKeys _ _, read, whole,
        List.suffix_append _ _, fun key => ?_⟩
      rw [TagMap.mem_removedKeys, TagMap.isSome_get?_ofTags]
    exact .call_bind warranted fun _ => TagSet.apply_warranted keyId
  next => exact TagSet.apply_warranted keyId

private theorem Rotation.reconcile_warranted (keyId : String) :
    Pass.Warranted desired.Warrants (fun _ _ => True)
      (Rotation.reconcile keyId desired.enableKeyRotation) history := by
  have observed : Pass.Warranted desired.Warrants (fun state later => ∃ status,
      [⟨.getKeyRotationStatus keyId, some (.ok status)⟩] <:+ later ∧ state = .ofStatus status)
      (Rotation.observe keyId) history :=
    .call_bind trivial fun status => .pure ⟨status, List.suffix_append _ _, rfl⟩
  refine observed.bind fun state later found => ?_
  obtain ⟨status, behind, rfl⟩ := found
  dsimp only
  split
  next change plan =>
    have applied : Pass.Warranted desired.Warrants (fun _ _ => True) (change.apply keyId) later := by
      rcases status with _ | _ | _ <;> simp only [RotationState.ofStatus, RotationChange.plan?] at plan
      · cases plan
      · split at plan
        next wanted =>
          cases plan
          exact .call ⟨wanted, behind⟩ fun _ => trivial
        next => cases plan
      · split at plan
        next => cases plan
        next unwanted =>
          cases plan
          have off : desired.enableKeyRotation = none ∨ desired.enableKeyRotation = some false := by
            rcases wish : desired.enableKeyRotation with _ | _ | _ <;> simp_all
          exact .call ⟨off, behind⟩ fun _ => trivial
    exact applied.bind fun _ _ _ => .pure trivial
  next => exact .pure trivial

end Steps

namespace Key

open Pass

variable {desired : Key} {history : List Exchange}

private theorem perform_warranted (keyId : String) (pages : Nat) (strategy : TagStrategy)
    (step : UpdateStep) :
    Pass.Warranted desired.spec.Warrants (fun _ _ => True)
      ((desired.updateTarget keyId).perform pages strategy step) history := by
  cases step with
  | policy =>
    simp only [UpdateTarget.perform]
    split
    · exact .call trivial fun _ => trivial
    · exact .pure trivial
  | tags =>
    cases strategy with
    | converge => exact TagSet.reconcile_warranted pages keyId
    | additive => exact TagSet.apply_warranted keyId
  | rotation => exact (Rotation.reconcile_warranted keyId).bind fun _ _ _ => .pure trivial

private theorem performAll_warranted (keyId : String) (pages : Nat) (strategy : TagStrategy)
    (steps : List UpdateStep) :
    ((desired.updateTarget keyId).performAll pages strategy steps).Warranted desired.spec.Warrants
      (fun _ _ => True) history := by
  induction steps generalizing history with
  | nil => trivial
  | cons step rest ih =>
    unfold UpdateTarget.performAll
    refine Program.Warranted.bind (perform_warranted keyId pages strategy step)
      fun result later _ => ?_
    cases result with
    | ok value => exact ih.bind fun _ _ _ => trivial
    | error failure => trivial

private theorem update_warranted (pages : Nat) (latest : Key) (delta : Delta) :
    Pass.Warranted desired.spec.Warrants (fun _ _ => True) (update pages desired latest delta)
      history := by
  unfold update
  split
  next keyId _ =>
    have dispatched : ((desired.updateTarget keyId).dispatch .key delta pages .converge).Warranted
        desired.spec.Warrants (fun _ _ => True) history := by
      unfold UpdateTarget.dispatch
      split
      · trivial
      · exact performAll_warranted keyId pages .converge _
    unfold Pass.Warranted
    rw [run_lift_bind]
    refine dispatched.bind fun outcome later _ => ?_
    split
    · exact fun _ _ => trivial
    · split <;> exact fun _ _ => trivial
  next => exact .throw _

private theorem create_warranted (scope : AccountScope) :
    Pass.Warranted desired.spec.Warrants (fun _ _ => True) (create scope desired) history := by
  have created : Pass.Warranted desired.spec.Warrants (fun _ _ => True)
      (Pass.call (.createKey desired.spec.newKey)) history := .call trivial fun _ => trivial
  refine created.lift.bind fun metadata later _ => ?_
  dsimp only
  split
  · refine (Rotation.reconcile_warranted metadata.keyId).result_bind fun result later => ?_
    cases result with
    | ok change? => exact .pure trivial
    | error failure => exact .throw _
  · exact .pure trivial

private theorem reconcile_warranted (scope : AccountScope) (pages : Nat) :
    Pass.Warranted desired.spec.Warrants (fun _ _ => True) ((manager scope pages).reconcile desired)
      history := by
  have read : Pass.Warranted desired.spec.Warrants (fun _ _ => True) (readOne scope pages desired)
      history :=
    (readOne_asks scope pages desired).warranted KeySpec.warrants_asking (fun _ _ _ _ => trivial) _
  refine read.result_bind fun result later => ?_
  cases result with
  | ok latest =>
    change Pass.Warranted _ _ ((manager scope pages).sync desired latest) later
    unfold Manager.sync
    dsimp only
    split
    · exact .pure trivial
    · exact update_warranted pages latest _
  | error failure =>
    dsimp only
    split
    · exact create_warranted scope
    · exact .throw _

/-- Every change in place that a pass asks for is warranted by what the service has answered directly
before. Rotation is turned on or off only behind an answer that it is not as it is wanted, and so never
behind an answer that says nothing of it. The keys of tags that come off are those that a whole listing
has just shown and that are not wanted, at least one, and the tags that go on are all wanted ones. -/
theorem changes_warranted (service : Service σ) (schedule : Schedule) (run : Run σ)
    (scope : AccountScope) (pages : Nat) (desired : Key) {before after : List Exchange}
    {exchange : Exchange}
    (split : ((manager scope pages).reconcile desired).run.exchanges service schedule run =
      before ++ exchange :: after) :
    desired.spec.Warrants before exchange.request ∧
      ∀ name keyId, [⟨.getKeyRotationStatus name, some (.ok none)⟩] <:+ before →
        exchange.request ≠ .enableKeyRotation keyId ∧ exchange.request ≠ .disableKeyRotation keyId := by
  have warrants : desired.spec.Warrants before exchange.request := by
    have warranted : Pass.Warranted desired.spec.Warrants (fun _ _ => True)
        ((manager scope pages).reconcile desired) [] := reconcile_warranted scope pages
    exact Program.Warranted.exchanges warranted split
  exact ⟨warrants, fun name keyId unknown => warrants.rotation_known unknown keyId⟩

/-- A tag comes off a key whose tags have been listed anew, and rotation is turned on last. -/
theorem changes_warranted_seeded :
    let tags : TagMap := .ofTags [⟨"b", "2"⟩, ⟨"c", "3"⟩]
    let run : Run Memory := { state := Memory.act { config := .numbered } (.seedKey "k1" tags) }
    let desired : Key :=
      ⟨{ name := "key" }, { tags := .ofTags [⟨"a", "1"⟩, ⟨"b", "2"⟩], enableKeyRotation := some true },
        some { keyId := some "k1" }⟩
    let pass := ((manager ⟨"us-west-2", "000000000000"⟩ 3).reconcile desired).run
    let calls := pass.exchanges Memory.service .calm run
    ∀ request ∈ [.untagResource "k1" ["c"], .tagResource "k1" [⟨"a", "1"⟩, ⟨"b", "2"⟩],
        .enableKeyRotation "k1"],
      ∃ before exchange after, calls = before ++ exchange :: after ∧ exchange.request = request ∧
        desired.spec.Warrants before request := by
  intro tags run desired pass calls request member
  have requests : calls.map Exchange.request =
      [.describeKey "k1", .listResourceTags "k1" none, .getKeyRotationStatus "k1",
        .getKeyPolicy "k1" "default", .listResourceTags "k1" none, .untagResource "k1" ["c"],
        .tagResource "k1" [⟨"a", "1"⟩, ⟨"b", "2"⟩], .getKeyRotationStatus "k1",
        .enableKeyRotation "k1"] := by
    decide +kernel
  have asked : request ∈ calls.map Exchange.request := by
    rw [requests]
    exact (show List.Sublist _ _ by decide).subset member
  obtain ⟨exchange, made, rfl⟩ := List.mem_map.mp asked
  obtain ⟨before, after, split⟩ := List.append_of_mem made
  have warranted := changes_warranted Memory.service .calm run ⟨"us-west-2", "000000000000"⟩ 3 desired
    split
  exact ⟨before, exchange, after, split, rfl, warranted.1⟩

end Key

end KeySteward
