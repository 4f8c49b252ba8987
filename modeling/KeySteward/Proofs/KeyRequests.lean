import KeySteward.Manager.Managed
import KeySteward.Proofs.StrictPasses

/-! The requests of the manager of keys. Reading a key makes four kinds of request about it, none of
which changes anything; changing it in place makes only requests about the same key. What any run
does follows from these, whatever the service answers. -/

namespace KeySteward

namespace Request

/-- The request asks for something about the named key. -/
def ReadsKey (keyId : String) : Request → Prop
  | describeKey name | listResourceTags name _ | getKeyRotationStatus name | getKeyPolicy name _ =>
    name = keyId
  | _ => False

/-- The request is one that a change in place of the named key may need. -/
def AdjustsKey (keyId : String) : Request → Prop
  | listResourceTags name _ | tagResource name _ | untagResource name _ | getKeyRotationStatus name
  | enableKeyRotation name | disableKeyRotation name => name = keyId
  | putKeyPolicy change => change.keyId = keyId
  | _ => False

/-- The step of a change in place that makes such a request. -/
def step? : Request → Option UpdateStep
  | putKeyPolicy _ => some .policy
  | listResourceTags _ _ | tagResource _ _ | untagResource _ _ => some .tags
  | getKeyRotationStatus _ | enableKeyRotation _ | disableKeyRotation _ => some .rotation
  | _ => none

/-- The request is one that this step of a change in place of the named key may need. -/
def Serves (keyId : String) (step : UpdateStep) (request : Request) : Prop :=
  request.AdjustsKey keyId ∧ request.step? = some step

theorem ReadsKey.isMutating {keyId : String} {request : Request} (reads : request.ReadsKey keyId) :
    request.isMutating = false := by
  cases request <;> first | rfl | cases reads

theorem ReadsKey.ne_createKey {keyId : String} {request : Request} (reads : request.ReadsKey keyId)
    (input : NewKey) : request ≠ .createKey input := by
  rintro rfl
  cases reads

theorem AdjustsKey.ne_createKey {keyId : String} {request : Request}
    (adjusts : request.AdjustsKey keyId) (input : NewKey) : request ≠ .createKey input := by
  rintro rfl
  cases adjusts

end Request

variable {α : Type} {allowed : Request → Prop}

open Pass

theorem Pass.items_uses {fetch : Option String → Pass (Page α)}
    (uses : ∀ marker, (fetch marker).run.Uses allowed) (enough : List α → Bool) (pages : Nat) :
    ∀ marker, (Pass.items fetch enough pages marker).run.Uses allowed := by
  induction pages with
  | zero => exact fun _ => trivial
  | succ pages ih =>
    intro marker
    unfold Pass.items
    refine uses_bind (uses marker) fun page => ?_
    split
    · trivial
    · split
      · trivial
      · exact uses_bind (ih _) fun _ => trivial

theorem TagSet.list_uses (pages : Nat) {keyId : String}
    (list : ∀ marker, allowed (.listResourceTags keyId marker)) :
    (TagSet.list pages keyId).run.Uses allowed :=
  uses_bind (Pass.items_uses (fun marker => uses_call (list marker)) _ pages none) fun _ => trivial

theorem Rotation.observe_uses {keyId : String} (read : allowed (.getKeyRotationStatus keyId)) :
    (Rotation.observe keyId).run.Uses allowed :=
  uses_bind (uses_call read) fun _ => trivial

private theorem TagSet.apply_requests (keyId : String) (desired : TagMap) :
    (TagSet.apply keyId desired).run.Uses (Request.Serves keyId .tags) := by
  unfold TagSet.apply
  split
  · exact uses_call ⟨rfl, rfl⟩
  · trivial

private theorem TagSet.reconcile_requests (pages : Nat) (keyId : String) (desired : TagMap) :
    (TagSet.reconcile pages keyId desired).run.Uses (Request.Serves keyId .tags) := by
  refine uses_bind (TagSet.list_uses pages fun _ => ⟨rfl, rfl⟩) fun latest => ?_
  dsimp only
  split
  · exact uses_bind (uses_call ⟨rfl, rfl⟩) fun _ => TagSet.apply_requests keyId desired
  · exact TagSet.apply_requests keyId desired

theorem TagSet.reconcile_uses (pages : Nat) (keyId : String) (desired : TagMap) :
    (TagSet.reconcile pages keyId desired).run.Uses (Request.AdjustsKey keyId) :=
  (TagSet.reconcile_requests pages keyId desired).mono fun _ => And.left

private theorem Rotation.reconcile_requests (keyId : String) (desired : Option Bool) :
    (Rotation.reconcile keyId desired).run.Uses (Request.Serves keyId .rotation) := by
  refine uses_bind (Rotation.observe_uses ⟨rfl, rfl⟩) fun state => ?_
  dsimp only
  split
  next change _ =>
    have applied : (change.apply keyId).run.Uses (Request.Serves keyId .rotation) := by
      cases change <;> exact uses_call ⟨rfl, rfl⟩
    exact uses_bind applied fun _ => trivial
  next => trivial

theorem Rotation.reconcile_uses (keyId : String) (desired : Option Bool) :
    (Rotation.reconcile keyId desired).run.Uses (Request.AdjustsKey keyId) :=
  (Rotation.reconcile_requests keyId desired).mono fun _ => And.left

namespace UpdateTarget

theorem perform_requests (target : UpdateTarget) (pages : Nat) (strategy : TagStrategy)
    (step : UpdateStep) :
    (target.perform pages strategy step).run.Uses (Request.Serves target.keyId step) := by
  cases step with
  | policy =>
    simp only [perform]
    split
    · exact uses_call ⟨rfl, rfl⟩
    · trivial
  | tags =>
    cases strategy with
    | converge => exact TagSet.reconcile_requests pages target.keyId target.tags
    | additive => exact TagSet.apply_requests target.keyId target.tags
  | rotation =>
    exact uses_bind (Rotation.reconcile_requests target.keyId target.enableKeyRotation) fun _ => trivial

theorem performAll_requests {target : UpdateTarget} {pages : Nat} {strategy : TagStrategy}
    {steps : List UpdateStep}
    (uses : ∀ step ∈ steps, (target.perform pages strategy step).run.Uses allowed) :
    (target.performAll pages strategy steps).Uses allowed := by
  induction steps with
  | nil => trivial
  | cons step rest ih =>
    obtain ⟨first, others⟩ := List.forall_mem_cons.mp uses
    unfold performAll
    refine first.bind fun result => ?_
    cases result with
    | ok value => exact (ih others).bind fun _ => trivial
    | error failure => trivial

theorem performAll_uses (target : UpdateTarget) (pages : Nat) (strategy : TagStrategy)
    (steps : List UpdateStep) :
    (target.performAll pages strategy steps).Uses (Request.AdjustsKey target.keyId) :=
  performAll_requests fun step _ => (target.perform_requests pages strategy step).mono fun _ => And.left

private theorem dispatch_uses (target : UpdateTarget) (kind : Kind) (delta : Delta) (pages : Nat)
    (strategy : TagStrategy) :
    (target.dispatch kind delta pages strategy).Uses (Request.AdjustsKey target.keyId) := by
  unfold dispatch
  split
  · trivial
  · exact target.performAll_uses pages strategy _

end UpdateTarget

namespace Key

open UpdateTarget

theorem readOne_uses (scope : AccountScope) (pages : Nat) {key : Key} {keyId : String}
    (known : key.keyId? = some keyId) :
    (readOne scope pages key).run.Uses (Request.ReadsKey keyId) := by
  simp only [readOne, known]
  refine uses_bind (uses_lookup (uses_call rfl)) fun metadata => ?_
  split
  · trivial
  · refine uses_bind (TagSet.list_uses pages fun _ => rfl) fun tags => ?_
    refine uses_bind (Rotation.observe_uses rfl) fun rotation => ?_
    exact uses_bind (uses_call rfl) fun policy => trivial

theorem update_uses (pages : Nat) (desired : Key) {latest : Key} {keyId : String}
    (known : latest.keyId? = some keyId) (delta : Delta) :
    (update pages desired latest delta).run.Uses (Request.AdjustsKey keyId) := by
  simp only [update, known]
  rw [run_lift_bind]
  refine (dispatch_uses (desired.updateTarget keyId) .key delta pages .converge).bind
    fun outcome => ?_
  split
  · trivial
  · split <;> trivial

end Key

end KeySteward
