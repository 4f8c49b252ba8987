import KeySteward.Proofs.CallBoundaries
import KeySteward.Proofs.CallEffects
import KeySteward.Proofs.Finalization

/-! How a finalization ends when the window of the deletion is what an annotation says. No part of the
pass looks at the number, so a window that leads out of the calendar breaks the service off when the
deletion of a living key is scheduled. Nothing else does: every other pass over the service in memory
comes to an end. -/

namespace KeySteward

variable {α β : Type} {memory after : Memory} {schedule : Schedule}

/-- So many days after the time the calendar has come to its end, or has not begun. -/
def Timestamp.IsBeyond (time : Timestamp) (days : Int) : Prop :=
  ¬ (leastSecond ≤ time.seconds + secondsPerDay * days ∧
    time.seconds + secondsPerDay * days ≤ greatestSecond)

private theorem Timestamp.addDays?_eq_none_iff {time : Timestamp} {days : Int} :
    time.addDays? days = none ↔ time.IsBeyond days := by
  unfold addDays? inRange?
  split
  next inside => exact ⟨nofun, fun outside => absurd inside outside⟩
  next outside => exact ⟨fun _ => outside, fun _ => rfl⟩

namespace Memory

/-! ### Calls that break off -/

private theorem bind_eq_crashed {first : Except Fault α} {next : α → Except Fault β}
    (whole : first ≠ .error .crashed) :
    (first >>= next) = .error .crashed ↔
      ∃ middle, first = .ok middle ∧ next middle = .error .crashed := by
  cases first with
  | ok middle => simp [bind, Except.bind]
  | error fault =>
    constructor
    · intro broken
      cases broken
      exact absurd rfl whole
    · rintro ⟨_, given, -⟩
      cases given

private theorem lookup_ne_crashed (memory : Memory) (name : String) :
    memory.lookup name ≠ .error .crashed := by
  rcases memory.lookup_cases name with ⟨held, found⟩ | missing
  · rw [found]
    nofun
  · rw [missing]
    nofun

private theorem startOf_ne_crashed (marker : Option String) : startOf marker ≠ .error .crashed := by
  unfold startOf
  split
  · nofun
  · split <;> nofun

private theorem scheduleKeyDeletion_crashed_iff {name : String} {days : Int} :
    memory.scheduleKeyDeletion name days = .error .crashed ↔
      ∃ keyId key, memory.lookup name = .ok (keyId, key) ∧
        key.metadata.isPendingDeletion = false ∧ memory.config.now.IsBeyond days := by
  simp only [← Timestamp.addDays?_eq_none_iff, scheduleKeyDeletion,
    bind_eq_crashed (memory.lookup_ne_crashed name), Prod.exists]
  constructor
  · rintro ⟨keyId, key, found, broken⟩
    split at broken
    · cases broken
    next living =>
      split at broken
      · cases broken
      next beyond =>
        exact ⟨keyId, key, found, by simpa using living,
          Option.eq_none_iff_forall_ne_some.mpr beyond⟩
  · rintro ⟨keyId, key, found, living, beyond⟩
    refine ⟨keyId, key, found, ?_⟩
    simp only [living, beyond]
    rfl

private theorem perform_ne_crashed {request : Request}
    (other : ∀ name days, request ≠ .scheduleKeyDeletion name days) :
    perform request memory ≠ .error .crashed := by
  have found (name : String) := memory.lookup_ne_crashed name
  cases request
  case scheduleKeyDeletion name days => exact absurd rfl (other name days)
  case createKey | listAliases =>
    intro broken
    cases broken
  case describeKey | getKeyRotationStatus | getKeyPolicy | enableKeyRotation | disableKeyRotation |
      putKeyPolicy | tagResource | untagResource =>
    simp only [perform, changeKey, ne_eq, bind_eq_crashed (found _)]
    rintro ⟨_, _, broken⟩
    cases broken
  case listResourceTags | listGrants =>
    simp only [perform, ne_eq, bind_eq_crashed (found _), bind_eq_crashed (startOf_ne_crashed _)]
    rintro ⟨_, _, _, _, broken⟩
    cases broken
  case replicateKey | retireGrant =>
    simp only [perform, replicateKey, retireGrant, ne_eq, bind_eq_crashed (found _)]
    rintro ⟨_, _, broken⟩
    split at broken <;> cases broken
  case createAlias =>
    simp only [perform, createAlias]
    split
    · intro broken
      cases broken
    · rw [ne_eq, bind_eq_crashed (found _)]
      rintro ⟨_, _, broken⟩
      cases broken
  case updateAlias =>
    simp only [perform, updateAlias, ne_eq, bind_eq_crashed (found _)]
    rintro ⟨_, _, broken⟩
    split at broken <;> cases broken
  case deleteAlias =>
    simp only [perform, deleteAlias]
    intro broken
    split at broken <;> cases broken
  case createGrant =>
    simp only [perform, createGrant]
    split
    · intro broken
      cases broken
    · rw [ne_eq, bind_eq_crashed (found _)]
      rintro ⟨_, _, broken⟩
      split at broken <;> cases broken

private theorem handle_crashed_iff {request : Request} :
    (service.handle request memory).1 = .error .crashed ↔
      memory.queued request.operation = [] ∧
        perform request (memory.noted request) = .error .crashed := by
  rw [queued, ← takeRefusal?_eq_none_iff]
  cases taken : takeRefusal? request.operation memory.refusals with
  | some refusal =>
    simp only [service, handle, taken]
    constructor
    · intro broken
      cases broken
    · rintro ⟨free, -⟩
      cases free
  | none =>
    rw [handle_of_unrefused taken]
    cases perform request (memory.noted request) with
    | ok done =>
      constructor
      · intro broken
        cases broken
      · rintro ⟨-, broken⟩
        cases broken
    | error fault => simp

/-- The service breaks off in a call for the deletion of a living key on a day beyond the calendar, and in
no other call. -/
theorem handle_breaks_iff (memory : Memory) (request : Request) :
    (service.handle request memory).1 = .error .crashed ↔
      memory.queued request.operation = [] ∧ ∃ name days keyId key,
        request = .scheduleKeyDeletion name days ∧ memory.lookup name = .ok (keyId, key) ∧
        key.metadata.isPendingDeletion = false ∧ memory.config.now.IsBeyond days := by
  rw [handle_crashed_iff]
  refine and_congr_right fun unrefused => ?_
  constructor
  · intro broken
    cases request
    case scheduleKeyDeletion keyId days =>
      obtain ⟨found, key, held⟩ := scheduleKeyDeletion_crashed_iff.mp broken
      exact ⟨keyId, days, found, key, rfl, held⟩
    all_goals exact absurd broken (perform_ne_crashed (by simp))
  · rintro ⟨name, days, keyId, key, rfl, found⟩
    exact scheduleKeyDeletion_crashed_iff.mpr ⟨keyId, key, found⟩

private theorem handle_ne_crashed {request : Request}
    (other : ∀ name days, request ≠ .scheduleKeyDeletion name days) :
    (service.handle request memory).1 ≠ .error .crashed :=
  fun broken => perform_ne_crashed other (handle_crashed_iff.mp broken).2

/-! ### Passes that end -/

/-- The pass comes to an end, whatever is refused and whatever happens around its calls. It only asks,
and what it succeeds with is one of the values. -/
def Finishes (memory : Memory) (pass : Pass α) (gives : α → Prop) : Prop :=
  ∀ (schedule : Schedule) (run : Run Memory), memory.ReadOnly run.state →
    ∃ result last, pass.run.run service schedule run = (.finished result, last) ∧
      memory.ReadOnly last.state ∧ ∀ value, result = .ok value → gives value

namespace Finishes

variable {gives : α → Prop} {gives' : β → Prop}

theorem pure {value : α} (given : gives value) : memory.Finishes (pure value) gives :=
  fun _ _ read => ⟨.ok value, _, rfl, read, fun _ same => Except.ok.inj same ▸ given⟩

theorem throw (failure : Failure) : memory.Finishes (throw failure : Pass α) gives :=
  fun _ _ read => ⟨.error failure, _, rfl, read, nofun⟩

theorem bind {pass : Pass α} {next : α → Pass β} (first : memory.Finishes pass gives)
    (rest : ∀ value, gives value → memory.Finishes (next value) gives') :
    memory.Finishes (pass >>= next) gives' := by
  intro schedule run read
  obtain ⟨result, middle, begun, reached, given⟩ := first schedule run read
  rw [ExceptT.run_bind, Program.run_bind_finished _ begun]
  cases result with
  | ok value => exact rest value (given value rfl) schedule middle reached
  | error failure => exact ⟨.error failure, middle, rfl, reached, nofun⟩

theorem lookup {pass : Pass α} (finishes : memory.Finishes pass gives) :
    memory.Finishes pass.lookup gives := by
  intro schedule run read
  obtain ⟨result, last, ends, reached, given⟩ := finishes schedule run read
  refine ⟨result.mapError Failure.ofLookup, last, ?_, reached, fun value same => ?_⟩
  · change Program.run service schedule (Except.mapError Failure.ofLookup <$> pass.run) run = _
    rw [map_eq_pure_bind, Program.run_bind_finished _ ends]
    rfl
  · cases result with
    | ok found => exact given value same
    | error failure => cases same

theorem call {request : Request} {gives : request.Answer → Prop} (asks : request.isMutating = false)
    (given : ∀ {reached answer after}, memory.ReadOnly reached →
      perform request (reached.noted request) = .ok (answer, after) → gives answer) :
    memory.Finishes (Pass.call request) gives := by
  intro schedule run read
  have other (name : String) (days : Int) : request ≠ .scheduleKeyDeletion name days := by
    rintro rfl
    cases asks
  have called := run.call_gives service schedule request
  have onward := Program.run_call_related ReadOnly.refl
    (fun request state asks => handle_readOnly asks state) schedule asks run
  change ∃ result last, (Program.call request .done).run service schedule run = _ ∧ _
  simp only [Program.run]
  generalize run.call service schedule request = outcome at called onward ⊢
  obtain ⟨_ | result, last⟩ := outcome
  · cases called with
    | crashed handled => exact absurd (congrArg Prod.fst handled) (handle_ne_crashed other)
  · refine ⟨result, last, rfl, read.trans onward, ?_⟩
    rintro value rfl
    cases called with
    | answered handled => exact given read (handle_eq_ok.mp handled).2

section Listing

variable {fetch : Option String → Pass (Page α)} {listed : List α}
variable (fetches : ∀ {marker start}, Marks marker start → start ≤ listed.length →
  memory.Finishes (fetch marker) (· = memory.page listed start))

include fetches

/-- A listing with room for as many pages as there are items left comes to its end. -/
theorem items (enough : List α → Bool) (pages : Nat) :
    ∀ {marker start}, Marks marker start → start ≤ listed.length → listed.length - start < pages →
      memory.Finishes (Pass.items fetch enough pages marker) fun _ => True := by
  induction pages with
  | zero => exact fun _ _ room => absurd room (Nat.not_lt_zero _)
  | succ pages ih =>
    intro marker start marks inside room
    unfold Pass.items
    refine (fetches marks inside).bind ?_
    rintro _ rfl
    split
    · exact .pure trivial
    · rw [page_next?]
      by_cases more : memory.pageEnd listed start < listed.length
      · have further : start < memory.pageEnd listed start := by
          simp only [pageEnd] at more ⊢
          omega
        simp only [if_pos more]
        exact (ih (.behind _) (Nat.le_of_lt more) (by omega)).bind fun _ _ => .pure trivial
      · simp only [if_neg more]
        exact .pure trivial

end Listing

end Finishes

section Stored

variable {name keyId : String} {key : StoredKey} (found : memory.lookup name = .ok (keyId, key))

include found

private theorem list_finishes {pages : Nat} (room : key.tags.size < pages) :
    memory.Finishes (TagSet.list pages name) fun _ => True := by
  have fetches {marker : Option String} {start : Nat} (marks : Marks marker start) :
      memory.Finishes (Pass.call (.listResourceTags name marker))
        (· = memory.page key.tags.toTags start) := by
    refine .call rfl fun {reached} _ _ read performed => ?_
    have known : (reached.noted (.listResourceTags name marker)).lookup name = _ :=
      (read.lookup name).trans found
    have listed : (reached.noted _).listing name marker (fun key => key.tags.toTags) = _ := performed
    exact (listing_sole known marks listed).trans (read.page _ _)
  refine (Finishes.items (fun marks _ => fetches marks) _ pages .first (Nat.zero_le _) ?_).bind
    fun _ _ => .pure trivial
  simpa using room

end Stored

private theorem describeKey_finishes (memory : Memory) (name : String) :
    memory.Finishes (Pass.call (.describeKey name)) fun metadata =>
      ∃ keyId stored, memory.lookup name = .ok (keyId, stored) ∧ stored.metadata = metadata := by
  refine .call rfl fun read performed => ?_
  simp only [perform, bind_eq_ok, Prod.exists] at performed
  obtain ⟨keyId, stored, found, same⟩ := performed
  cases same
  exact ⟨keyId, stored, (read.lookup name).symm.trans found, rfl⟩

private theorem Finishes.ask {request : Request} (asks : request.isMutating = false) :
    memory.Finishes (Pass.call request) fun _ => True :=
  .call asks fun _ _ => trivial

end Memory

private theorem Key.readOne_finishes (scope : AccountScope) {pages : Nat}
    (room : memory.pageBound ≤ pages)
    (key : Key) : memory.Finishes (readOne scope pages key) fun _ => True := by
  unfold readOne
  cases key.keyId? with
  | none => exact .throw _
  | some name =>
    refine (memory.describeKey_finishes name).lookup.bind ?_
    rintro _ ⟨keyId, stored, found, rfl⟩
    dsimp only
    split
    · exact .pure trivial
    · have bound := Memory.tags_lt_pageBound (Memory.key?_of_lookup found)
      refine (Memory.list_finishes found (by omega)).bind fun tags _ => ?_
      have observes : memory.Finishes (Rotation.observe name) fun _ => True :=
        .bind (.ask rfl) fun _ _ => .pure trivial
      refine observes.bind fun rotation _ => ?_
      exact .bind (.ask rfl) fun policy _ => .pure trivial

private theorem ReplicaKey.readOne_finishes (keyed : memory.store.IsKeyed) {pages : Nat}
    (room : memory.pageBound ≤ pages) (replica : ReplicaKey) :
    memory.Finishes (readOne pages replica) fun _ => True := by
  unfold readOne
  cases replica.replicaId? <|> replica.spec.keyId with
  | none => exact .throw _
  | some name =>
    refine (memory.describeKey_finishes name).lookup.bind ?_
    rintro _ ⟨keyId, stored, found, rfl⟩
    have held := Memory.key?_of_lookup found
    obtain rfl : stored.metadata.keyId = keyId := keyed _ _ held
    dsimp only
    split
    · have absent : memory.Finishes (throw .notFound : Pass PUnit) fun _ => False := .throw _
      exact absent.bind fun _ => False.elim
    split
    · exact .pure trivial
    · have bound := Memory.tags_lt_pageBound held
      refine (Memory.list_finishes (Memory.lookup_of_key? held) (by omega)).bind fun tags _ => ?_
      exact .bind (.ask rfl) fun policy _ => .pure trivial

/-! ### The deletion at the end -/

namespace Run

variable {σ : Type} {service : Service σ} {run : Run σ} {request : Request}

/-- The next call reaches the service. -/
structure Delivers (schedule : Schedule) (run : Run σ) : Prop where
  begins : run.refusal? = none
  uncut : (schedule run.begun).cancellation ≠ some .before
  inTime : ∀ deadline, run.deadline = some deadline →
    run.clock + (schedule run.begun).delayBefore ≤ deadline

private theorem le_of_wait {millis : Nat} (waited : (run.wait millis).1 = false) :
    ∀ deadline, run.deadline = some deadline → run.clock + millis ≤ deadline := by
  intro deadline limited
  simp only [wait, limited] at waited
  split at waited
  · cases waited
  · omega

private theorem call_eq_none_iff :
    (run.call service schedule request).1 = none ↔
      run.Delivers schedule ∧ (service.handle request run.state).1 = .error .crashed := by
  constructor
  · intro broken
    have called := run.call_gives service schedule request
    rw [broken] at called
    refine ⟨?_, by cases called with | crashed handled => rw [handled]⟩
    unfold call at broken
    split at broken
    · cases broken
    next begins =>
      unfold carry at broken
      cases waited : wait (schedule run.begun).delayBefore { run with begun := run.begun + 1 } with
      | mk late waiting =>
        rw [waited] at broken
        cases late with
        | true => cases broken
        | false =>
          by_cases cut : (schedule run.begun).cancellation = some .before
          · simp only [cut, if_true] at broken
            cases broken
          · have arrived := le_of_wait (congrArg Prod.fst waited)
            exact ⟨begins, cut, arrived⟩
  · rintro ⟨⟨begins, uncut, inTime⟩, breaks⟩
    obtain ⟨state, clock, deadline, cancelled, begun, records⟩ := run
    have arrives : wait (schedule begun).delayBefore
        { state, clock, deadline, cancelled, begun := begun + 1, records } = (false, _) :=
      wait_of_le inTime
    simp only [call, begins, carry, arrives, uncut, if_false]
    generalize service.handle request state = handled at breaks
    obtain ⟨_, after⟩ := handled
    cases breaks
    rfl

end Run

/-- A living key is to be deleted on a day that the calendar does not have, and the call for it is
neither kept from the service nor refused by it. -/
structure Overruns (schedule : Schedule) (run : Run Memory) (stored : StoredKey) (days : Int) :
    Prop where
  living : stored.metadata.isPendingDeletion = false
  delivered : run.Delivers schedule
  unrefused : run.state.queued "ScheduleKeyDeletion" = []
  beyond : run.state.config.now.IsBeyond days

variable {run last : Run Memory} {stored : StoredKey} {days : Int}

private theorem call_deletion_eq_none_iff (held : run.state.key? stored.metadata.keyId = some stored) :
    (run.call Memory.service schedule (.scheduleKeyDeletion stored.metadata.keyId days)).1 = none ↔
      Overruns schedule run stored days := by
  have itself := Memory.lookup_of_key? held
  have broken : Memory.perform (.scheduleKeyDeletion stored.metadata.keyId days)
        (run.state.noted (.scheduleKeyDeletion stored.metadata.keyId days)) = .error .crashed ↔
      stored.metadata.isPendingDeletion = false ∧ run.state.config.now.IsBeyond days := by
    refine Memory.scheduleKeyDeletion_crashed_iff.trans ⟨?_, fun both => ⟨_, _, itself, both⟩⟩
    rintro ⟨_, _, found, both⟩
    cases itself.symm.trans found
    exact both
  rw [Run.call_eq_none_iff, Memory.handle_crashed_iff, broken]
  exact ⟨fun ⟨delivered, unrefused, living, beyond⟩ => ⟨living, delivered, unrefused, beyond⟩,
    fun ⟨living, delivered, unrefused, beyond⟩ => ⟨delivered, unrefused, living, beyond⟩⟩

private theorem StoredKey.deletion_run (living : stored.metadata.isPendingDeletion = false)
    (schedule : Schedule) (days : Int) (run : Run Memory) :
    ((stored.deletion days).run.run Memory.service schedule run).1 =
      match (run.call Memory.service schedule
          (.scheduleKeyDeletion stored.metadata.keyId days)).1 with
      | some result => .finished (result.map fun _ => ())
      | none => .crashed := by
  unfold deletion
  simp only [living]
  change (Program.run _ _ (.call (.scheduleKeyDeletion _ days) _) run).1 = _
  simp only [Program.run]
  generalize run.call Memory.service schedule _ = outcome
  obtain ⟨_ | _ | answer, last⟩ := outcome <;> rfl

private theorem StoredKey.deletion_ends (held : run.state.key? stored.metadata.keyId = some stored)
    (schedule : Schedule) (days : Int) :
    let ending := ((stored.deletion days).run.run Memory.service schedule run).1
    (ending = .crashed ↔ Overruns schedule run stored days) ∧
      (ending = .crashed ∨ ∃ result, ending = .finished result) := by
  cases waits : stored.metadata.isPendingDeletion with
  | true =>
    unfold deletion
    rw [waits]
    exact ⟨⟨nofun, fun overruns => by cases waits.symm.trans overruns.living⟩, .inr ⟨_, rfl⟩⟩
  | false =>
    rw [← call_deletion_eq_none_iff held, stored.deletion_run waits]
    cases (run.call Memory.service schedule (.scheduleKeyDeletion _ days)).1 with
    | none => exact ⟨⟨fun _ => rfl, fun _ => rfl⟩, .inl rfl⟩
    | some result => exact ⟨⟨nofun, nofun⟩, .inr ⟨_, rfl⟩⟩

section Finalize

variable {σ τ : Type} {manager : Manager σ τ} {resource : Resource σ τ}

private theorem Manager.finalize_run {reading : Except Failure (Resource σ τ)} {middle : Run Memory}
    (read : (manager.readOne resource).run.run Memory.service schedule run =
      (.finished reading, middle)) :
    ((manager.finalize resource).run.run Memory.service schedule run).1 =
      match reading with
      | .ok latest => ((manager.delete latest).run.run Memory.service schedule middle).1
      | .error failure => .finished (if failure.isNotFound then .ok () else .error failure) := by
  rw [Manager.run_finalize, Program.run_bind_finished _ read]
  cases reading with
  | ok latest => rfl
  | error failure =>
    dsimp only
    split <;> rfl

/-- A finalization that deletes the stored key which it reads comes to its end unless the deletion
overruns the calendar. -/
theorem Manager.finalize_ends {target : Option String} {window : Int}
    (finishes : run.state.Finishes (manager.readOne resource) fun _ => True)
    (finds : ∀ {latest middle}, (manager.readOne resource).run.run Memory.service schedule run =
        (.finished (.ok latest), middle) →
      ∃ stored, target.bind run.state.store.find? = some stored ∧
        manager.delete latest = stored.deletion window ∧
        middle.state.key? stored.metadata.keyId = some stored) :
    let ending := ((manager.finalize resource).run.run Memory.service schedule run).1
    (ending = .crashed ↔ ∃ latest middle stored,
      (manager.readOne resource).run.run Memory.service schedule run =
        (.finished (.ok latest), middle) ∧
      target.bind run.state.store.find? = some stored ∧ Overruns schedule middle stored window) ∧
    (ending = .crashed ∨ ∃ result, ending = .finished result) := by
  intro ending
  obtain ⟨reading, middle, read, -⟩ := finishes schedule run (.refl _)
  have ends : ending = _ := finalize_run read
  cases reading with
  | error failure =>
    refine ⟨⟨fun broken => ?_, ?_⟩, .inr ⟨_, ends⟩⟩
    · cases ends.symm.trans broken
    · rintro ⟨latest, other, stored, found, -⟩
      cases read.symm.trans found
  | ok latest =>
    obtain ⟨stored, found, deletes, held⟩ := finds read
    dsimp only at ends
    rw [deletes] at ends
    obtain ⟨overruns, either⟩ := stored.deletion_ends held schedule window
    rw [← ends] at overruns either
    refine ⟨overruns.trans ⟨fun beyond => ⟨_, _, _, read, found, beyond⟩, ?_⟩, either⟩
    rintro ⟨_, _, other, same, held, beyond⟩
    cases read.symm.trans same
    cases found.symm.trans held
    exact beyond

end Finalize

/-- A finalization over the service in memory comes to its end, whatever window an annotation asks for,
unless the key that it reads is living and its call for the deletion reaches the service with a window
that leads out of the calendar: then the service breaks off. No other call to the service does. -/
theorem finalize_crashes_iff (schedule : Schedule) (reachable : run.state.Reachable)
    (scope : AccountScope) {pages : Nat} (room : run.state.pageBound ≤ pages) :
    (∀ key : Key,
      let reading := (Key.readOne scope pages key).run.run Memory.service schedule run
      let ending := (((Key.manager scope pages).finalize key).run.run Memory.service schedule run).1
      (ending = .crashed ↔ ∃ latest middle stored, reading = (.finished (.ok latest), middle) ∧
        key.keyId?.bind run.state.store.find? = some stored ∧
        Overruns schedule middle stored key.metadata.deletionWindow) ∧
      (ending = .crashed ∨ ∃ result, ending = .finished result)) ∧
    (∀ replica : ReplicaKey,
      let reading := (ReplicaKey.readOne pages replica).run.run Memory.service schedule run
      let ending :=
        (((ReplicaKey.manager pages).finalize replica).run.run Memory.service schedule run).1
      (ending = .crashed ↔ ∃ latest middle stored, reading = (.finished (.ok latest), middle) ∧
        (replica.replicaId? <|> replica.spec.keyId).bind run.state.store.find? = some stored ∧
        Overruns schedule middle stored replica.metadata.deletionWindow) ∧
      (ending = .crashed ∨ ∃ result, ending = .finished result)) ∧
    ∀ request, (Memory.service.handle request run.state).1 = .error .crashed ↔
      run.state.queued request.operation = [] ∧ ∃ name days keyId stored,
        request = .scheduleKeyDeletion name days ∧
        run.state.lookup name = .ok (keyId, stored) ∧
        stored.metadata.isPendingDeletion = false ∧ run.state.config.now.IsBeyond days := by
  have keyed := reachable.isKeyed
  refine ⟨fun key => ?_, fun replica => ?_, run.state.handle_breaks_iff⟩
  · refine Manager.finalize_ends (key.readOne_finishes scope room) fun {latest middle} read => ?_
    obtain ⟨name, keyId, stored, named, found, rfl, onward⟩ :=
      Key.readOne_found ((Key.readOne_heeds scope pages key).yields read)
    have held := Memory.key?_of_lookup found
    obtain rfl : stored.metadata.keyId = keyId := keyed _ _ held
    refine ⟨stored, ?_, key.delete_asFound scope _ stored, (onward.key? _).trans held⟩
    rw [named]
    exact Memory.find?_of_lookup found
  · refine Manager.finalize_ends (replica.readOne_finishes keyed room) fun {latest middle} read => ?_
    obtain ⟨name, keyId, stored, named, found, -, rfl, onward⟩ :=
      ReplicaKey.readOne_found keyed ((ReplicaKey.readOne_heeds pages replica).yields read)
    have held := Memory.key?_of_lookup found
    obtain rfl : stored.metadata.keyId = keyId := keyed _ _ held
    refine ⟨stored, ?_, replica.delete_asFound stored, (onward.key? _).trans held⟩
    rw [named]
    exact Memory.find?_of_lookup found

/-- A seeded key, as itself and as a replica: a window of thirty days is kept, and one of ten million
years breaks the service off. -/
theorem finalize_crashes_iff_seeded :
    let run : Run Memory := { state := ({ config := .numbered } : Memory).seedKey "k1" {} }
    let scope : AccountScope := ⟨"us-west-2", "000000000000"⟩
    let annotated (text : String) : Metadata :=
      { name := "key", annotations := some (.ofList [(Metadata.deletionWindowAnnotation, text)]) }
    let key (text : String) : Key := ⟨annotated text, {}, some { keyId := some "k1" }⟩
    let replica (text : String) : ReplicaKey :=
      ⟨annotated text, { replicaRegion := "eu-west-1" },
        some { replica := some { keyId := some "k1" } }⟩
    let keyEnding (text : String) :=
      (((Key.manager scope 2).finalize (key text)).run.run Memory.service .calm run).1
    let replicaEnding (text : String) :=
      (((ReplicaKey.manager 2).finalize (replica text)).run.run Memory.service .calm run).1
    run.state.Reachable ∧ run.state.pageBound ≤ 2 ∧
      keyEnding " 30 " = .finished (.ok ()) ∧ replicaEnding " 30 " = .finished (.ok ()) ∧
      keyEnding "3652425000" = .crashed ∧ replicaEnding "-3652425000" = .crashed ∧
      ∃ stored, run.state.store.find? "k1" = some stored ∧
        (∃ middle, Overruns .calm middle stored 3652425000) ∧
        ∃ middle, Overruns .calm middle stored (-3652425000) := by
  intro run scope annotated key replica keyEnding replicaEnding
  have reachable : run.state.Reachable := (Memory.Reachable.start _).act (.seedKey "k1" {})
  have room : run.state.pageBound ≤ 2 := by decide
  obtain ⟨keys, replicas, -⟩ := finalize_crashes_iff .calm reachable scope room
  have broken : keyEnding "3652425000" = .crashed := rfl
  have early : replicaEnding "-3652425000" = .crashed := rfl
  obtain ⟨-, first, stored, -, found, overruns⟩ := (keys (key "3652425000")).1.mp broken
  obtain ⟨-, second, other, -, held, underruns⟩ := (replicas (replica "-3652425000")).1.mp early
  cases (show run.state.store.find? "k1" = some stored from found).symm.trans held
  have days : (annotated "3652425000").deletionWindow = 3652425000 := by decide +kernel
  have back : (annotated "-3652425000").deletionWindow = -3652425000 := by decide +kernel
  exact ⟨reachable, room, rfl, rfl, broken, early, stored, held,
    ⟨first, days ▸ overruns⟩, ⟨second, back ▸ underruns⟩⟩

/-- A window that is a number, and no deletion: the service breaks off instead of falling back. -/
theorem finalize_breaks_off :
    let memory := ({ config := .numbered } : Memory).seedKey "k1" {}
    let key : Key := ⟨{
      name := "key"
      annotations := some (.ofList [(Metadata.deletionWindowAnnotation, "999999999999")]) }, {},
      some { keyId := some "k1" }⟩
    let pass := (Key.manager ⟨"us-west-2", "000000000000"⟩ 2).finalize key
    memory.Reachable ∧ (pass.run.run Memory.service .calm { state := memory }).1 = .crashed ∧
      (Memory.service.handle (.scheduleKeyDeletion "k1" key.metadata.deletionWindow) memory).1 =
        .error .crashed := by
  intro memory key pass
  have reachable : memory.Reachable := (Memory.Reachable.start _).act (.seedKey "k1" {})
  exact ⟨reachable, rfl, rfl⟩

end KeySteward
