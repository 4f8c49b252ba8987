import KeySteward.Proofs.KeyUpdates
import KeySteward.Proofs.PassCourses

/-! Which calls change a stored key. A call that adjusts a key leaves it as the call says, so at any
point of a pass the key stands as the calls so far have left it. `Memory.Makes` says which calls these
are in the undisturbed course of a program, and has a rule for each way of putting programs together. -/

namespace KeySteward

variable {α β ε : Type} {memory : Memory} {keyId : String} {stored : StoredKey}

namespace StoredKey

/-- The key as a call that adjusts it leaves it. -/
def after (stored : StoredKey) : Request → StoredKey
  | .putKeyPolicy change => { stored with policy := some change.policy }
  | .tagResource _ tags => { stored with tags := stored.tags.insertAll tags }
  | .untagResource _ tagKeys => { stored with tags := stored.tags.eraseAll tagKeys }
  | .enableKeyRotation _ => { stored with rotationEnabled := true }
  | .disableKeyRotation _ => { stored with rotationEnabled := false }
  | _ => stored

@[simp] theorem after_metadata (stored : StoredKey) (request : Request) :
    (stored.after request).metadata = stored.metadata := by
  cases request <;> rfl

@[simp] theorem foldl_after_metadata (stored : StoredKey) (calls : List Request) :
    (calls.foldl after stored).metadata = stored.metadata := by
  induction calls generalizing stored with
  | nil => rfl
  | cons request rest ih => rw [List.foldl_cons, ih, after_metadata]

end StoredKey

/-- A change that keeps the id and the ARN of a key leaves every name with the key that it stands
for. -/
theorem KeyStore.resolve?_insert_named {store : KeyStore} {old new : StoredKey}
    (held : store.keys.get? keyId = some old) (id : new.metadata.keyId = old.metadata.keyId)
    (arn : new.metadata.arn = old.metadata.arn) (name : String) :
    KeyStore.resolve? { store with keys := store.keys.insert keyId new } name =
      store.resolve? name := by
  let names (key : StoredKey) : Option String × String := (key.metadata.arn, key.metadata.keyId)
  have contains : (store.keys.insert keyId new).contains name = store.keys.contains name := by
    simp only [SortedMap.contains, SortedMap.get?_insert]
    split
    next same => rw [← same, held, Option.isSome_some, Option.isSome_some]
    next => rfl
  have byArn (keys : List StoredKey) :
      (keys.find? fun key => key.metadata.arn == some name).map (fun key => key.metadata.keyId) =
        ((keys.map names).find? fun names => names.1 == some name).map Prod.snd := by
    rw [List.find?_map, Option.map_map]
    rfl
  have kept : names new = names old := Prod.ext arn id
  simp only [resolve?, contains, byArn, SortedMap.map_values_insert names held kept]

theorem KeyStore.resolve?_insert {store : KeyStore} {old new : StoredKey}
    (held : store.keys.get? keyId = some old) (kept : new.metadata = old.metadata) (name : String) :
    KeyStore.resolve? { store with keys := store.keys.insert keyId new } name =
      store.resolve? name :=
  resolve?_insert_named held (by rw [kept]) (by rw [kept]) name

namespace Memory

/-- Since the start the calls have been made, of those that may change anything, and the key stands as
they have left it. -/
structure Stands (start : Memory) (keyId : String) (stored : StoredKey) (made : List Request)
    (reached : Memory) : Prop where
  continues : start.Continues reached
  mutatingCalls : reached.mutatingCalls = start.mutatingCalls ++ made
  held : reached.key? keyId = some (made.foldl StoredKey.after stored)
  resolve : ∀ name, reached.store.resolve? name = start.store.resolve? name

theorem ReadOnly.stands {reached : Memory} (reads : memory.ReadOnly reached)
    (held : memory.key? keyId = some stored) : memory.Stands keyId stored [] reached where
  continues := reads.continues
  mutatingCalls := by rw [reads.mutatingCalls, List.append_nil]
  held := (reads.key? keyId).trans held
  resolve name := by rw [reads.store]

theorem Stands.trans {first second third : Memory} {early late : List Request}
    (before : first.Stands keyId stored early second)
    (later : second.Stands keyId (early.foldl StoredKey.after stored) late third) :
    first.Stands keyId stored (early ++ late) third where
  continues := before.continues.trans later.continues
  mutatingCalls := by rw [later.mutatingCalls, before.mutatingCalls, List.append_assoc]
  held := by
    rw [List.foldl_append]
    exact later.held
  resolve name := (later.resolve name).trans (before.resolve name)

theorem Stands.lookup {start reached : Memory} {made : List Request} {name : String}
    (stands : start.Stands keyId stored made reached)
    (found : start.lookup name = .ok (keyId, stored)) :
    reached.lookup name = .ok (keyId, made.foldl StoredKey.after stored) :=
  lookup_eq_ok.mpr ⟨(stands.resolve name).trans (lookup_eq_ok.mp found).1, stands.held⟩

theorem Stands.rotationStatus {start reached : Memory} {made : List Request}
    (stands : start.Stands keyId stored made reached) (key : StoredKey) :
    reached.rotationStatus key = start.rotationStatus key := by
  rw [Memory.rotationStatus, stands.continues.rotationStatusUnavailable]
  rfl

theorem handle_adjusts {request : Request} (adjusts : request.AdjustsKey keyId)
    (mutates : request.isMutating = true) (unrefused : memory.refusals = [])
    (held : memory.key? keyId = some stored) (answer : request.Answer) :
    ∃ after, service.handle request memory = (.ok answer, after) ∧
      memory.Stands keyId stored [request] after := by
  let noted := memory.noted request
  have found : noted.lookup keyId = .ok (keyId, stored) := lookup_of_key? held
  let keys := noted.store.keys.insert keyId (stored.after request)
  have changed : noted.changeKey keyId (fun key => key.after request) =
      .ok ((), noted.withStore { noted.store with keys }) :=
    changeKey_eq_ok.mpr ⟨keyId, stored, found, rfl⟩
  have performed : perform request noted = .ok (answer, noted.withStore { noted.store with keys }) := by
    cases request <;> try cases mutates
    case putKeyPolicy | tagResource | untagResource | enableKeyRotation | disableKeyRotation =>
      cases adjusts
      cases answer
      exact changed
    all_goals cases adjusts
  have handled : service.handle request memory = (.ok answer, noted.withStore { noted.store with keys }) :=
    handle_eq_ok.mpr ⟨by rw [unrefused]; rfl, performed⟩
  refine ⟨_, handled, ?_, ?_, ?_, ?_⟩
  · have continues := handle_continues request memory
    rwa [handled] at continues
  · simp [noted, Memory.noted, withStore, Memory.mutatingCalls, mutates]
  · simp [keys, key?, withStore]
  · exact KeyStore.resolve?_insert held (stored.after_metadata request)

/-- Undisturbed, the program ends with the value and has then made the calls, of those that may change
anything; on the way it has made the first ones of them. -/
structure Makes (program : Program α) (keyId : String) (stored : StoredKey) (calls : List Request)
    (value : α) (memory : Memory) : Prop where
  ends : ∃ last, program.eval service memory = (.finished value, last) ∧
    memory.Stands keyId stored calls last
  along : ∀ reached ∈ program.states service memory,
    ∃ made, made <+: calls ∧ memory.Stands keyId stored made reached

namespace Makes

theorem pure (held : memory.key? keyId = some stored) (value : α) :
    Makes (pure value : Program α) keyId stored [] value memory := by
  have stands : memory.Stands keyId stored [] memory := (ReadOnly.refl memory).stands held
  constructor
  · exact ⟨memory, rfl, stands⟩
  · intro reached member
    obtain rfl : reached = memory := List.mem_singleton.mp member
    exact ⟨[], List.prefix_refl _, stands⟩

theorem bind {program : Program α} {next : α → Program β} {early late : List Request} {middle : α}
    {value : β} (first : Makes program keyId stored early middle memory)
    (rest : ∀ reached, memory.Stands keyId stored early reached →
      Makes (next middle) keyId (early.foldl StoredKey.after stored) late value reached) :
    Makes (program >>= next) keyId stored (early ++ late) value memory := by
  obtain ⟨between, begun, stands⟩ := first.ends
  have onward := rest between stands
  constructor
  · obtain ⟨last, ended, stood⟩ := onward.ends
    exact ⟨last, (Program.eval_bind_finished next begun).trans ended, stands.trans stood⟩
  · intro reached member
    rcases Program.mem_states_bind member with inside | ⟨other, second, ended, inside⟩
    · obtain ⟨made, begins, stood⟩ := first.along reached inside
      exact ⟨made, begins.trans (List.prefix_append early late), stood⟩
    · cases begun.symm.trans ended
      obtain ⟨made, begins, stood⟩ := onward.along reached inside
      exact ⟨early ++ made, (List.prefix_append_right_inj early).mpr begins, stands.trans stood⟩

theorem bind_ok {pass : ExceptT ε Program α} {next : α → ExceptT ε Program β}
    {early late : List Request} {middle : α} {result : Except ε β}
    (first : Makes pass.run keyId stored early (.ok middle) memory)
    (rest : ∀ reached, memory.Stands keyId stored early reached →
      Makes (next middle).run keyId (early.foldl StoredKey.after stored) late result reached) :
    Makes (pass >>= next).run keyId stored (early ++ late) result memory := by
  rw [ExceptT.run_bind]
  exact first.bind rest

theorem of_reads {pass : Pass α} {value : α} (reads : Memory.Reads True pass value memory)
    (asks : pass.run.Uses fun request => request.isMutating = false)
    (held : memory.key? keyId = some stored) :
    Makes pass.run keyId stored [] (.ok value) memory where
  ends := by
    obtain ⟨last, onward, yields⟩ := reads.does trivial (.refl memory)
    exact ⟨last, yields, onward.stands held⟩
  along reached member := by
    have onward : memory.ReadOnly reached := asks.states_related ReadOnly.refl ReadOnly.trans
      (fun _ memory asks => handle_readOnly asks memory) member
    exact ⟨[], List.prefix_refl _, onward.stands held⟩

theorem call (request : Request) (adjusts : request.AdjustsKey keyId)
    (mutates : request.isMutating = true) (unrefused : memory.refusals = [])
    (held : memory.key? keyId = some stored) (answer : request.Answer) :
    Makes (Pass.call request).run keyId stored [request] (.ok answer) memory := by
  obtain ⟨after, handled, stands⟩ := handle_adjusts adjusts mutates unrefused held answer
  constructor
  · exact ⟨after, Pass.yields_call.mpr handled, stands⟩
  · intro reached member
    have two : reached = memory ∨ reached = after := by
      simpa [Pass.call, Program.states, handled] using member
    rcases two with rfl | rfl
    · exact ⟨[], List.nil_prefix, (ReadOnly.refl reached).stands held⟩
    · exact ⟨[request], List.prefix_refl _, stands⟩

theorem run {program : Program α} {calls : List Request} {value : α} {run : Run Memory}
    (makes : Makes program keyId stored calls value run.state) (free : run.IsFree) :
    ∃ last, program.run service .calm run = (.finished value, last) ∧
      run.state.Stands keyId stored calls last.state := by
  obtain ⟨after, ends, stands⟩ := makes.ends
  obtain ⟨last, finished, rfl⟩ := Program.run_calm_finished ends free
  exact ⟨last, finished, stands⟩

end Makes

end Memory

end KeySteward
