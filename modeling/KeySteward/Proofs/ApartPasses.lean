import KeySteward.Proofs.Interleavings
import KeySteward.Proofs.KeyCalls
import KeySteward.Proofs.KeyCreation
import KeySteward.Proofs.KeyedCalls

/-! Passes over different keys at one service. Each of their calls is about the own key, and such a
call neither sees nor changes the other key; so whatever the order of the calls, each pass goes as if
it were alone, and each key ends as its own pass leaves it. -/

namespace KeySteward

namespace Program

variable {σ α β : Type} {service : Service σ} {request : Request}

private theorem Uses.mem_calls {allowed : Request → Prop} {program : Program α} {state : σ}
    (uses : program.Uses allowed) (member : request ∈ program.calls service state) :
    allowed request := by
  induction program generalizing state with
  | done value => cases member
  | unfinished => cases member
  | call first next ih =>
    simp only [calls, List.mem_cons] at member
    rcases member with rfl | later
    · exact uses.1
    · rcases replied : service.reply first state with ⟨_ | result, after⟩
      · rw [replied] at later
        cases later
      · rw [replied] at later
        exact ih result (uses.2 result) later

private theorem mem_calls_bind {program : Program α} {next : α → Program β} {state : σ}
    (member : request ∈ (program >>= next).calls service state) :
    request ∈ program.calls service state ∨
      ∃ value after, program.eval service state = (.finished value, after) ∧
        request ∈ (next value).calls service after := by
  change request ∈ (program.bind next).calls service state at member
  induction program generalizing state with
  | done value => exact .inr ⟨value, state, rfl, member⟩
  | unfinished => cases member
  | call first following ih =>
    simp only [bind, calls, List.mem_cons] at member
    simp only [calls, List.mem_cons, eval_call]
    rcases member with rfl | later
    · exact .inl (.inl rfl)
    · rcases replied : service.reply first state with ⟨_ | result, after⟩
      · rw [replied] at later
        cases later
      · rw [replied] at later
        exact (ih result later).imp .inr id

end Program

private theorem Service.reply_congr {σ : Type} {service : Service σ} {request : Request}
    {state other : σ}
    (same : (service.handle request state).1 = (service.handle request other).1) :
    (service.reply request state).1 = (service.reply request other).1 := by
  unfold reply
  revert same
  rcases service.handle request state with ⟨(_ | _) | _, _⟩ <;>
    rcases service.handle request other with ⟨(_ | _) | _, _⟩ <;> intro same <;> cases same <;> rfl

namespace Memory

variable {start : Memory} {keyId : Side → String} {stored look : Side → StoredKey}

def withKeys (start : Memory) (keyId : Side → String) (look : Side → StoredKey) : Memory :=
  (start.withKey (keyId .left) (look .left)).withKey (keyId .right) (look .right)

/-- The request is about the key with this id, by a name that the key has at the start. -/
def IsOn (start : Memory) (keyId : String) (stored : StoredKey) (request : Request) : Prop :=
  ∃ name, start.lookup name = .ok (keyId, stored) ∧ request.IsAbout name

/-- Either side changes the key with its own id, but never the metadata. -/
def apart (start : Memory) (keyId : Side → String) (stored : Side → StoredKey) :
    Accord Memory (Side → StoredKey) where
  shows look memory :=
    (∀ side, (look side).metadata = (stored side).metadata) ∧
      memory.Matches (start.withKeys keyId look)
  moves side before after := after side.other = before side.other
  refl _ _ := rfl
  trans first second := second.trans first

section Apart

variable (distinct : keyId .left ≠ keyId .right)
  (held : ∀ side, start.key? (keyId side) = some (stored side))

section

include distinct

private theorem withKeys_eq (start : Memory) (look : Side → StoredKey) (side : Side) :
    start.withKeys keyId look =
      (start.withKey (keyId side.other) (look side.other)).withKey (keyId side) (look side) := by
  cases side with
  | left => exact start.withKey_comm distinct _ _
  | right => rfl

private theorem withKeys_withKey (start : Memory) (look : Side → StoredKey) (side : Side)
    (key : StoredKey) :
    (start.withKeys keyId look).withKey (keyId side) key =
      start.withKeys keyId (Function.update look side key) := by
  rw [withKeys_eq distinct start look side, withKey_withKey, withKeys_eq distinct start _ side,
    Function.update_self, Function.update_of_ne side.other_ne]

end

include distinct held

private theorem lookup_withKeys (kept : ∀ side, (look side).metadata = (stored side).metadata)
    {side : Side}
    {name : String} (found : start.lookup name = .ok (keyId side, stored side)) :
    (start.withKeys keyId look).lookup name = .ok (keyId side, look side) := by
  have others : keyId side.other ≠ keyId side := by
    cases side
    · exact distinct.symm
    · exact distinct
  rw [withKeys_eq distinct start look side]
  exact lookup_withKey (lookup_withKey_other others (held side.other) (kept side.other) found)
    (kept side)

private theorem apart_call {request : Request} {state alone : Memory} {side : Side}
    (unrefused : start.refusals = []) (shown : (start.apart keyId stored).shows look state)
    (same : alone.Matches (start.withKey (keyId side) (look side)))
    (on : start.IsOn (keyId side) (stored side) request) :
    (service.reply request state).1 = (service.reply request alone).1 ∧
      ∃ left, (start.apart keyId stored).moves side look left ∧
        (start.apart keyId stored).shows left (service.reply request state).2 ∧
        (service.reply request alone).2.Matches (start.withKey (keyId side) (left side)) := by
  obtain ⟨kept, reached⟩ := shown
  obtain ⟨name, named, about⟩ := on
  have found : state.lookup name = .ok (keyId side, look side) :=
    (reached.lookup name).trans (lookup_withKeys distinct held kept named)
  have foundAlone : alone.lookup name = .ok (keyId side, look side) :=
    (same.lookup name).trans (lookup_withKey named (kept side))
  have free : state.refusals = [] := reached.refusals.trans unrefused
  have freeAlone : alone.refusals = [] := same.refusals.trans unrefused
  constructor
  · exact Service.reply_congr (handle_about_congr about freeAlone foundAlone free found
      (reached.config.trans same.config.symm)
      (reached.rotationStatusUnavailable.trans same.rotationStatusUnavailable.symm))
  · let key := (look side).after request
    let left := Function.update look side key
    have own : left side = key := Function.update_self side key look
    have keeps : ∀ other, (left other).metadata = (stored other).metadata := by
      intro other
      by_cases here : other = side
      · rw [here, own, StoredKey.after_metadata, kept side]
      · rw [show left other = look other from Function.update_of_ne here key look, kept other]
    have untouched : left side.other = look side.other :=
      Function.update_of_ne side.other_ne key look
    refine ⟨left, untouched, ⟨keeps, ?_⟩, ?_⟩
    · rw [service.reply_state, ← withKeys_withKey distinct]
      exact (handle_about about free found).trans (reached.withKey (keyId side) key)
    · rw [service.reply_state, own, ← start.withKey_withKey (keyId side) (look side) key]
      exact (handle_about about freeAlone foundAlone).trans (same.withKey (keyId side) key)

/-- A program whose calls are all about the own key, if it is left alone, goes the same way while the
other side changes the other key. -/
theorem abides_apart {α : Type} {program : Program α} {alone : Memory} {side : Side}
    (unrefused : start.refusals = [])
    (same : alone.Matches (start.withKey (keyId side) (look side)))
    (on : ∀ request ∈ program.calls service alone, start.IsOn (keyId side) (stored side) request) :
    program.Abides service (start.apart keyId stored) side
      (fun ending last => ending = (program.eval service alone).1 ∧
        (program.eval service alone).2.key? (keyId side) = some (last side)) look := by
  have own {first second : Side → StoredKey}
      (moved : (start.apart keyId stored).moves side.other first second) :
      second side = first side := by
    have still : second side.other.other = first side.other.other := moved
    rwa [side.other_other] at still
  have stays {alone : Memory} {look last : Side → StoredKey}
      (same : alone.Matches (start.withKey (keyId side) (look side)))
      (moved : (start.apart keyId stored).moves side.other look last) :
      alone.key? (keyId side) = some (last side) := by
    rw [own moved, key?, same.store]
    exact key?_withKey start (keyId side) (look side)
  induction program generalizing look alone with
  | done value => exact fun last moved => ⟨rfl, stays same moved⟩
  | unfinished => exact fun last moved => ⟨rfl, stays same moved⟩
  | call request next ih =>
    simp only [Program.calls, List.mem_cons, forall_eq_or_imp] at on
    intro met state moved shown
    rw [← own moved] at same
    obtain ⟨answered, left, made, kept, after⟩ := apart_call distinct held unrefused shown same on.1
    refine ⟨left, made, kept, ?_⟩
    rw [answered, Program.eval_call]
    have later := on.2
    rcases replied : service.reply request alone with ⟨_ | result, reached⟩
    · rw [replied] at after
      exact fun last onward => ⟨rfl, stays after onward⟩
    · rw [replied] at after later
      exact ih result after later

/-- Two programs whose calls are all about their own keys, if each is left alone, end in every order of
their calls as they do one after the other, and leave the same. -/
theorem interleave_apart {α : Type} {program : Side → Program α} (unrefused : start.refusals = [])
    (on : ∀ side, ∀ request ∈ (program side).calls service start,
      start.IsOn (keyId side) (stored side) request) (turns : List Side) :
    let alone (side : Side) := (program side).eval service start
    let both := Program.interleave service turns (program .left) (program .right) start
    both.1 = ((alone .left).1, (alone .right).1) ∧
      ∀ side, let second := (program side.other).eval service (alone side).2
        second.1 = (alone side.other).1 ∧ both.2.Matches second.2 := by
  intro alone both
  have abides (side : Side) : (program side).Abides service (start.apart keyId stored) side
      (fun ending last => ending = (alone side).1 ∧
        (alone side).2.key? (keyId side) = some (last side)) stored := by
    refine abides_apart distinct held unrefused ?_ (on side)
    rw [withKey_self (held side)]
    exact .refl start
  have shown : (start.apart keyId stored).shows stored start := by
    refine ⟨fun _ => rfl, ?_⟩
    rw [withKeys, withKey_self (held .left), withKey_self (held .right)]
    exact .refl start
  obtain ⟨look, ⟨-, reached⟩, left, right⟩ := (abides .left).interleave turns (abides .right) shown
  refine ⟨Prod.ext left.1 right.1, fun side => ?_⟩
  obtain ⟨other, ⟨-, arrived⟩, own, others⟩ := (abides side).eval_eval (abides side.other) shown
  have ends (part : Side) : (alone part).2.key? (keyId part) = some (look part) := by
    cases part
    · exact left.2
    · exact right.2
  -- Each key is what its own program makes of it alone, so there is only one way for both to look.
  have same : other = look := by
    funext part
    rcases part.eq_or_eq_other side with rfl | rfl
    · exact Option.some.inj (own.2.symm.trans (ends _))
    · exact Option.some.inj (others.2.symm.trans (ends _))
  exact ⟨others.1, reached.trans (same ▸ arrived.symm)⟩

end Apart

end Memory

namespace Key

variable {memory : Memory}

section

variable {desired : Key} {name keyId : String} {stored : StoredKey}

private theorem reconcile_calls_on (scope : AccountScope) {pages : Nat} (keyed : memory.store.IsKeyed)
    (known : desired.keyId? = some name) (found : memory.lookup name = .ok (keyId, stored))
    (unrefused : memory.refusals = [])
    (room : stored.tags.size ≤ Text.greatestWord ∧ stored.tags.size < pages) {request : Request}
    (called : request ∈ ((manager scope pages).reconcile desired).run.calls Memory.service memory) :
    memory.IsOn keyId stored request := by
  have held := Memory.key?_of_lookup found
  obtain rfl : stored.metadata.keyId = keyId := keyed _ _ held
  have reads : Memory.Reads True (readOne scope pages desired) _ memory :=
    readOne_reads scope known found (fun _ => unrefused) fun _ _ => room
  obtain ⟨reached, -, read⟩ := reads.does trivial (.refl memory)
  rw [Manager.run_reconcile] at called
  rcases Program.mem_calls_bind called with reading | ⟨result, after, ends, syncing⟩
  · exact ⟨name, found, ((readOne_uses scope pages known).mem_calls reading).isAbout⟩
  · cases read.symm.trans ends
    obtain ⟨other, named, adjusts⟩ := (sync_uses scope pages desired _).mem_calls syncing
    cases named.symm.trans (asFound_keyId? desired scope _ stored)
    exact ⟨_, Memory.lookup_of_key? held, adjusts.isAbout⟩

end

variable {scope : Side → AccountScope} {pages : Side → Nat} {desired : Side → Key}
  {name keyId : Side → String} {stored : Side → StoredKey}

/-- Two passes over different keys do not disturb each other. In whatever order their calls are made,
each pass ends as it does when they run one after the other, whichever of them is the first, and the
service is left with the same keys, aliases and grants. -/
theorem reconcile_apart (reachable : memory.Reachable) (unrefused : memory.refusals = [])
    (known : ∀ side, (desired side).keyId? = some (name side))
    (found : ∀ side, memory.lookup (name side) = .ok (keyId side, stored side))
    (distinct : keyId .left ≠ keyId .right)
    (counted : ∀ side, (stored side).tags.size ≤ Text.greatestWord)
    (room : ∀ side, memory.pageBound ≤ pages side) (turns : List Side) :
    let pass (side : Side) := ((manager (scope side) (pages side)).reconcile (desired side)).run
    ∃ (result : Side → Except (FailedUpdate Key) Key) (last : Memory),
      Program.interleave Memory.service turns (pass .left) (pass .right) memory =
        ((.finished (result .left), .finished (result .right)), last) ∧
      ∀ side, ∃ first second : Run Memory,
        (pass side).run Memory.service .calm { state := memory } =
          (.finished (result side), first) ∧
        (pass side.other).run Memory.service .calm { state := first.state } =
          (.finished (result side.other), second) ∧
        last.Matches second.state := by
  intro pass
  have held (side : Side) := Memory.key?_of_lookup (found side)
  have enough (side : Side) : (stored side).tags.size ≤ Text.greatestWord ∧
      (stored side).tags.size < pages side :=
    ⟨counted side, Nat.lt_of_lt_of_le (Memory.tags_lt_pageBound (held side)) (room side)⟩
  have alone (side : Side) : ∃ result after,
      (pass side).eval Memory.service memory = (.finished result, after) := by
    obtain ⟨after, ends, -⟩ := (reconcile_makes (desired side) (scope side) reachable.isKeyed
      (known side) (found side) unrefused fun _ => enough side).ends
    exact ⟨_, after, ends⟩
  choose result after ends using alone
  have on (side : Side) : ∀ request ∈ (pass side).calls Memory.service memory,
      memory.IsOn (keyId side) (stored side) request := fun _ =>
    reconcile_calls_on (scope side) reachable.isKeyed (known side) (found side) unrefused (enough side)
  obtain ⟨endings, orders⟩ := Memory.interleave_apart distinct held unrefused on turns
  simp only [ends] at endings orders
  refine ⟨result, _, Prod.ext endings rfl, fun side => ?_⟩
  obtain ⟨ending, matched⟩ := orders side
  obtain ⟨first, begun, middle⟩ := Program.run_calm_from (ends side)
  rw [← middle] at ending matched
  obtain ⟨second, ended, last⟩ := Program.run_calm_from (Prod.ext ending rfl)
  exact ⟨first, second, begun, ended, last ▸ matched⟩

/-- Two seeded keys, of which one gets other tags and the other one a policy and a rotation; the passes
take turns. -/
theorem reconcile_apart_seeded :
    let memory := (Memory.act { config := .numbered }
      (.seedKey "k1" (.ofTags [⟨"env", "test"⟩]))).act (.seedKey "k2" {})
    let keyId : Side → String
      | .left => "k1"
      | .right => "k2"
    let spec : Side → KeySpec
      | .left => { tags := .ofTags [⟨"team", "payments"⟩] }
      | .right => { policy := some "{}", enableKeyRotation := some true }
    let pass (side : Side) := ((manager ⟨"us-west-2", "000000000000"⟩ 2).reconcile
      ⟨{ name := keyId side }, spec side, some { keyId := some (keyId side) }⟩).run
    ∃ (result : Side → Except (FailedUpdate Key) Key) (last : Memory),
      Program.interleave Memory.service [.left, .right, .left, .right, .right, .left, .left, .right]
        (pass .left) (pass .right) memory =
        ((.finished (result .left), .finished (result .right)), last) ∧
      ∀ side, ∃ first second : Run Memory,
        (pass side).run Memory.service .calm { state := memory } =
          (.finished (result side), first) ∧
        (pass side.other).run Memory.service .calm { state := first.state } =
          (.finished (result side.other), second) ∧
        last.Matches second.state := by
  intro memory keyId spec pass
  have reachable : memory.Reachable := ((Memory.Reachable.start _).act (.seedKey _ _)).act (.seedKey _ _)
  have found : ∀ side, ∃ stored, memory.lookup (keyId side) = .ok (keyId side, stored) ∧
      stored.tags.size ≤ Text.greatestWord := by
    intro side
    cases side
    · exact ⟨_, rfl, by decide⟩
    · exact ⟨_, rfl, by decide⟩
  choose stored found counted using found
  let desired (side : Side) : Key :=
    ⟨{ name := keyId side }, spec side, some { keyId := some (keyId side) }⟩
  have known (side : Side) : (desired side).keyId? = some (keyId side) := rfl
  have room : memory.pageBound ≤ 2 := by decide
  let scope : Side → AccountScope := fun _ => ⟨"us-west-2", "000000000000"⟩
  let pages : Side → Nat := fun _ => 2
  have distinct : keyId .left ≠ keyId .right := by decide
  exact @reconcile_apart memory scope pages desired keyId keyId stored reachable rfl known found
    distinct counted (fun _ => room) [.left, .right, .left, .right, .right, .left, .left, .right]

end Key

end KeySteward
