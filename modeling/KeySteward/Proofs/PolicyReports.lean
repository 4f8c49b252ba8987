import KeySteward.Proofs.KeyRequests
import KeySteward.Proofs.PassEndings
import KeySteward.Proofs.PolicyEquivalence
import KeySteward.Proofs.SpecDeltas

/-! When a policy is reported to differ. A pass that reads a key or a replica asks for its policy once at
most, and last of all. A wanted policy comes back in its own words if the answer is equivalent to it, and
so it differs just where it has been asked for and is not. -/

namespace KeySteward

variable {α β : Type}

/-- The call does not ask for a policy of a key. -/
def Request.LeavesPolicyUnasked (request : Request) : Prop :=
  ∀ keyId, request ≠ .getKeyPolicy keyId Policy.name

namespace Policy

variable {calls front back : List Exchange} {wanted told found : Option String}

/-- Among the calls one is answered with the policy of a key, or with none. -/
def IsFound (calls : List Exchange) (found : Option String) : Prop :=
  ∃ keyId, ⟨.getKeyPolicy keyId name, some (.ok found)⟩ ∈ calls

/-- A policy is wanted, and the calls have found none that is equivalent to it. -/
def IsMissed (wanted : Option String) (calls : List Exchange) : Prop :=
  ∃ policy found, wanted = some policy ∧ IsFound calls found ∧
    ∀ text, found = some text → equivalent policy text = false

private theorem isFound_append (unasked : ∀ call ∈ front, call.request.LeavesPolicyUnasked) :
    IsFound (front ++ back) found ↔ IsFound back found := by
  simp only [IsFound, List.mem_append]
  constructor
  · intro ⟨keyId, member⟩
    rcases member with early | late
    · exact absurd rfl (unasked _ early keyId)
    · exact ⟨keyId, late⟩
  · intro ⟨keyId, late⟩
    exact ⟨keyId, .inr late⟩

/-- What is told of a wanted policy behind some calls: the policy itself where nobody has asked, and
else what has been found of it. -/
inductive Tells (calls : List Exchange) (wanted : Option String) : Option String → Prop where
  | unasked (nothing : ∀ found, ¬ IsFound calls found) : Tells calls wanted wanted
  | asked (answer : Option String) (only : ∀ found, IsFound calls found ↔ found = answer) :
      Tells calls wanted (observed wanted answer)

theorem Tells.behind (tells : Tells back wanted told)
    (unasked : ∀ call ∈ front, call.request.LeavesPolicyUnasked) :
    Tells (front ++ back) wanted told := by
  cases tells with
  | unasked nothing => exact .unasked fun found => mt (isFound_append unasked).mp (nothing found)
  | asked answer only => exact .asked answer fun found => (isFound_append unasked).trans (only found)

private theorem Tells.ne_iff (tells : Tells calls wanted told) :
    wanted ≠ told ↔ IsMissed wanted calls := by
  cases tells with
  | unasked nothing =>
    constructor
    · intro differs
      exact absurd rfl differs
    · intro ⟨_, found, _, there, _⟩
      exact absurd there (nothing found)
  | asked answer only =>
    cases wanted with
    | none =>
      constructor
      · intro differs
        exact absurd rfl differs
      · intro ⟨_, _, impossible, _⟩
        cases impossible
    | some policy =>
      rw [ne_comm, Ne, observed_eq_some_iff]
      constructor
      · intro missed
        refine ⟨policy, answer, rfl, (only answer).mpr rfl, ?_⟩
        intro text there
        apply Bool.eq_false_iff.mpr
        intro same
        exact missed ⟨text, there, same⟩
      · intro ⟨other, found, wants, there, apart⟩ ⟨text, answered, same⟩
        obtain rfl := Option.some.inj wants
        obtain rfl := (only found).mp there
        rw [apart text answered] at same
        cases same

end Policy

namespace Pass

open Policy

/-- What a run of the pass succeeds with tells of the wanted policy what its calls have found. -/
structure TellsPolicy (wanted : Option String) (told : α → Option String) (pass : Pass α) : Prop where
  tells : ∀ {σ : Type} (service : Service σ) (schedule : Schedule) (run after : Run σ) (value : α),
    pass.run.run service schedule run = (.finished (.ok value), after) →
      Tells (pass.run.exchanges service schedule run) wanted (told value)

namespace TellsPolicy

variable {wanted : Option String} {told : α → Option String}

private theorem unasked {value : α} (same : told value = wanted) :
    TellsPolicy wanted told (pure value : Pass α) := by
  constructor
  intro σ service schedule run after last ends
  cases ends
  rw [same]
  apply Tells.unasked
  intro found ⟨_, member⟩
  cases member

theorem throw (failure : Failure) : TellsPolicy wanted told (throw failure : Pass α) := by
  constructor
  intro σ service schedule run after last ends
  cases ends

theorem behind {pass : Pass β} {next : β → Pass α} (uses : pass.run.Uses Request.LeavesPolicyUnasked)
    (rest : ∀ value, TellsPolicy wanted told (next value)) : TellsPolicy wanted told (pass >>= next) := by
  constructor
  intro σ service schedule run after last ends
  obtain ⟨first, middle, -, others, calls⟩ := run_bind_succeeds ends
  rw [calls]
  exact ((rest first).tells service schedule middle after last others).behind fun call => uses.exchanges

private theorem asked (keyId : String) {next : Option String → α}
    (observed : ∀ found, told (next found) = Policy.observed wanted found) :
    TellsPolicy wanted told (Policy.get keyId >>= fun found => pure (next found)) := by
  constructor
  intro σ service schedule run after last ends
  obtain ⟨answer, middle, asked, rest, calls⟩ := run_bind_succeeds ends
  have single : (Policy.get keyId).run.exchanges service schedule run =
      [⟨.getKeyPolicy keyId name, some (.ok answer)⟩] := (run_call asked).2
  rw [calls, single]
  cases rest
  rw [observed]
  apply Tells.asked answer
  intro found
  constructor
  · intro ⟨_, member⟩
    cases List.mem_singleton.mp member
    rfl
  · intro same
    subst same
    exact ⟨keyId, List.mem_singleton_self _⟩

end TellsPolicy

end Pass

open Pass

private theorem Key.readOne_tellsPolicy (scope : AccountScope) (pages : Nat) (key : Key) :
    TellsPolicy key.spec.policy (fun latest => latest.spec.policy) (readOne scope pages key) := by
  unfold readOne
  split
  · refine .behind (uses_lookup (uses_call fun _ => nofun)) fun metadata => ?_
    dsimp only
    split
    · exact .unasked rfl
    · refine .behind (TagSet.list_uses pages fun _ _ => nofun) fun tags => ?_
      refine .behind (Rotation.observe_uses fun _ => nofun) fun rotation => ?_
      exact .asked _ fun found => rfl
  · exact .throw _

private theorem ReplicaKey.readOne_tellsPolicy (pages : Nat) (replica : ReplicaKey) :
    TellsPolicy replica.spec.policy (fun latest => latest.spec.policy) (readOne pages replica) := by
  unfold readOne
  split
  · refine .behind (uses_lookup (uses_call fun _ => nofun)) fun metadata => ?_
    dsimp only
    split
    · exact .throw _
    · split
      · exact .unasked rfl
      · refine .behind (TagSet.list_uses pages fun _ _ => nofun) fun tags => ?_
        exact .asked _ fun found => rfl
  · exact .throw _

private theorem KeySpec.differsAt_policy (desired latest : KeySpec) :
    (Delta.between desired.toJson latest.toJson).differsAt "Spec.Policy" = true ↔
      desired.policy ≠ latest.policy :=
  layout_lawful.differsAt_between layout_faithful desired latest (Kind.layout_paths_distinct .key)
    (by simp [layout] : Json.Slot.field (.text "policy" policy) ∈ layout.slots)

private theorem ReplicaKeySpec.differsAt_policy (desired latest : ReplicaKeySpec) :
    (Delta.between desired.toJson latest.toJson).differsAt "Spec.Policy" = true ↔
      desired.policy ≠ latest.policy :=
  layout_lawful.differsAt_between layout_faithful desired latest
    (Kind.layout_paths_distinct .replicaKey)
    (by simp [layout] : Json.Slot.field (.text "policy" policy) ∈ layout.slots)

namespace Policy

/-- Being the same policy is an equivalence of texts, whether they are JSON or not, and a wanted policy
is said to be found just where an equivalent text is. So when a key or a replica has been read over any
service, a difference of its policy is reported exactly if a policy is wanted, the service was asked for
the one that there is, and that is not equivalent or there is none. -/
theorem equivalence_decides_reports :
    Equivalence (fun a b => equivalent a b = true) ∧
    (∀ desired found, observed (some desired) found = some desired ↔
      ∃ text, found = some text ∧ equivalent desired text = true) ∧
    ∀ {σ : Type} (service : Service σ) (schedule : Schedule) (run after : Run σ) (pages : Nat),
      (∀ (scope : AccountScope) (key latest : Key),
        (key.readOne scope pages).run.run service schedule run = (.finished (.ok latest), after) →
        ((Manager.delta key latest).differsAt "Spec.Policy" = true ↔
          IsMissed key.spec.policy ((key.readOne scope pages).run.exchanges service schedule run))) ∧
      ∀ replica latest : ReplicaKey,
        (replica.readOne pages).run.run service schedule run = (.finished (.ok latest), after) →
        ((Manager.delta replica latest).differsAt "Spec.Policy" = true ↔
          IsMissed replica.spec.policy
            ((replica.readOne pages).run.exchanges service schedule run)) := by
  refine ⟨⟨equivalent_refl, equivalent_symm, equivalent_trans⟩, fun _ _ => observed_eq_some_iff, ?_⟩
  intro σ service schedule run after pages
  constructor
  · intro scope key latest read
    have tells := (key.readOne_tellsPolicy scope pages).tells service schedule run after latest read
    exact (KeySpec.differsAt_policy key.spec latest.spec).trans tells.ne_iff
  · intro replica latest read
    have tells := (replica.readOne_tellsPolicy pages).tells service schedule run after latest read
    exact (ReplicaKeySpec.differsAt_policy replica.spec latest.spec).trans tells.ne_iff

/-- A stored policy is found again in another layout, and is missed by a text that is no JSON. -/
theorem equivalence_decides_reports_layouts :
    let memory := (Memory.act { config := .numbered } (.seedKey "k1" {})).act (.setPolicy "k1" "[[]]")
    let run : Run Memory := { state := memory }
    let scope : AccountScope := ⟨"us-west-2", "000000000000"⟩
    let wanting (policy : String) : Key :=
      ⟨{ name := "key" }, { policy := some policy }, some { keyId := some "k1" }⟩
    (∃ latest after, ((wanting "[ [ ] ]").readOne scope 2).run.run Memory.service .calm run =
        (.finished (.ok latest), after) ∧
      (Manager.delta (wanting "[ [ ] ]") latest).differsAt "Spec.Policy" = false) ∧
    ∃ latest after, ((wanting "[[]").readOne scope 2).run.run Memory.service .calm run =
        (.finished (.ok latest), after) ∧
      (Manager.delta (wanting "[[]") latest).differsAt "Spec.Policy" = true := by
  intro memory run scope wanting
  have alike : equivalent "[ [ ] ]" "[[]]" = true := by decide +kernel
  have apart : equivalent "[[]" "[[]]" = false := by decide +kernel
  have read (policy : String) : ((wanting policy).readOne scope 2).run.run Memory.service .calm run =
      (.finished (.ok _), _) := rfl
  have asked (policy : String) :
      ((wanting policy).readOne scope 2).run.exchanges Memory.service .calm run =
        [⟨.describeKey "k1", some (.ok _)⟩, ⟨.listResourceTags "k1" none, some (.ok _)⟩,
          ⟨.getKeyRotationStatus "k1", some (.ok _)⟩,
          ⟨.getKeyPolicy "k1" name, some (.ok (some "[[]]"))⟩] := rfl
  have missed (policy : String) :
      IsMissed (some policy) (((wanting policy).readOne scope 2).run.exchanges Memory.service .calm run) ↔
        equivalent policy "[[]]" = false := by
    rw [asked]
    simp [IsMissed, IsFound]
  obtain ⟨-, -, reports⟩ := equivalence_decides_reports
  obtain ⟨keys, -⟩ := reports Memory.service .calm run _ 2
  refine ⟨⟨_, _, read _, ?_⟩, _, _, read _, ?_⟩
  · refine Bool.eq_false_iff.mpr fun reported => ?_
    rw [(missed _).mp ((keys scope _ _ (read _)).mp reported)] at alike
    cases alike
  · exact (keys scope _ _ (read _)).mpr ((missed _).mpr apart)

end Policy

end KeySteward
