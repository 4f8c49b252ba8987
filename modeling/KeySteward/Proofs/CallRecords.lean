import KeySteward.Manager.Managed
import KeySteward.Proofs.DeletionWindows
import KeySteward.Proofs.PassChanges

/-! The records of a run, beside its calls and beside the journal of the service. A call that may not begin
leaves nothing. One that is cut off on its way to the service leaves a record but no trace in the journal,
and one that the service is done with leaves both. So the records of a pass are those of the calls that
have begun, in order, unless the service breaks off: then the last call stands in the journal alone. -/

namespace KeySteward

namespace CallOutcome

private theorem ofFailure_ne_ok (failure : Failure) : ofFailure failure ≠ .ok := by
  unfold ofFailure
  split
  · nofun
  · split <;> nofun

private theorem ofFailure_eq {failure : Failure} (ofCall : failure.IsOfCall) :
    (ofFailure failure = .notFound ↔
      ∃ error, failure = .service error ∧ error.code? = some ServiceError.notFoundCode) ∧
    (ofFailure failure = .cancelled ↔ failure.IsInterruption) := by
  rcases ofCall with (rfl | rfl) | ⟨error, rfl⟩
  · simp [ofFailure, Failure.isNotFound, Failure.IsInterruption]
  · simp [ofFailure, Failure.isNotFound, Failure.IsInterruption]
  · by_cases missing : error.code? = some ServiceError.notFoundCode <;>
      simp [ofFailure, Failure.isNotFound, ServiceError.isNotFound, Failure.IsInterruption, missing]

end CallOutcome

/-- What becomes of a call. -/
inductive Fate (request : Request) where
  /-- The pass is no longer active, and the call does not begin. -/
  | denied (failure : Failure)
  /-- The call begins, and the service does not come to see it. -/
  | cutOff (failure : Failure)
  /-- The service is done with the call, and this is what the caller sees of it. -/
  | carried (result : Except Failure request.Answer)
  /-- The service breaks off in the call. -/
  | brokenOff

namespace Fate

variable {request : Request}

def result? : Fate request → Option (Except Failure request.Answer)
  | denied failure | cutOff failure => some (.error failure)
  | carried result => some result
  | brokenOff => none

def record? : Fate request → Option CallRecord
  | denied _ | brokenOff => none
  | cutOff failure => some (.ofCall request (.error failure : Except Failure request.Answer))
  | carried result => some (.ofCall request result)

def hasBegun : Fate request → Bool
  | denied _ => false
  | _ => true

def isCutOff : Fate request → Bool
  | cutOff _ => true
  | _ => false

/-- The service comes to see the call. -/
def isSeen : Fate request → Bool
  | denied _ | cutOff _ => false
  | _ => true

def isBrokenOff : Fate request → Bool
  | brokenOff => true
  | _ => false

private theorem record?_of_hasBegun {fate : Fate request} (begun : fate.hasBegun = true) :
    fate.record? = fate.result?.map (.ofCall request) := by
  cases fate with
  | denied failure => cases begun
  | _ => rfl

private theorem isBrokenOff_iff {fate : Fate request} :
    fate.isBrokenOff = true ↔ fate.result? = none := by
  cases fate <;> simp [isBrokenOff, result?]

end Fate

/-- A call of a run with what becomes of it. -/
structure Attempt where
  request : Request
  fate : Fate request

/-- The state has a list of the calls that the service has seen. -/
def Service.Notes {σ : Type} (service : Service σ) (journal : σ → List Request) : Prop :=
  ∀ request state, journal (service.handle request state).2 = journal state ++ [request]

private theorem Memory.notes_journal : Memory.service.Notes Memory.journal := by
  intro request memory
  cases taken : takeRefusal? request.operation memory.refusals with
  | some refusal =>
    rw [handle_refused taken]
    rfl
  | none => exact (handle_performed_frame taken).1

variable {σ α : Type} {service : Service σ} {schedule : Schedule}

namespace Run

variable {run : Run σ} {request : Request}

/-- The deadline passes before so much time has. -/
def isLate (run : Run σ) (millis : Nat) : Bool :=
  run.deadline.any (· < run.clock + millis)

/-- What becomes of a call that has begun. The time until the service sees it and the time until the
answer is back count against the deadline. -/
def course (service : Service σ) (interruption : Interruption) (request : Request) (run : Run σ) :
    Fate request :=
  if run.isLate interruption.delayBefore then .cutOff .deadlineExceeded
  else if interruption.cancellation = some .before then .cutOff .cancelled
  else
    let late := run.isLate (interruption.delayBefore + interruption.delayAfter)
    match (service.handle request run.state).1 with
    | .ok answer => .carried (if late then .error .deadlineExceeded else .ok answer)
    | .error (.refused error) =>
      .carried (if late then .error .deadlineExceeded else .error (.service error))
    | .error .crashed => .brokenOff

/-- What becomes of the next call. -/
def fate (service : Service σ) (schedule : Schedule) (request : Request) (run : Run σ) : Fate request :=
  match run.refusal? with
  | some failure => .denied failure
  | none => run.course service (schedule run.begun) request

private theorem wait_eq (millis : Nat) (run : Run σ) :
    ∃ clock, run.wait millis = (run.isLate millis, { run with clock }) ∧
      (run.isLate millis = false → clock = run.clock + millis) := by
  obtain ⟨state, clock, deadline, cancelled, begun, records⟩ := run
  cases deadline with
  | none => exact ⟨_, rfl, fun _ => rfl⟩
  | some deadline =>
    by_cases late : deadline < clock + millis
    · refine ⟨deadline, ?_, fun timely => ?_⟩
      · simp [wait, isLate, late]
      · simp [isLate, late] at timely
    · refine ⟨clock + millis, ?_, fun _ => rfl⟩
      simp [wait, isLate, late]

private theorem receive_eq (interruption : Interruption) (result : Except Failure α) (run : Run σ) :
    ∃ clock cancelled, receive interruption result run =
      (if run.isLate interruption.delayAfter then .error .deadlineExceeded else result,
        { run with clock, cancelled }) := by
  obtain ⟨clock, waited, -⟩ := run.wait_eq interruption.delayAfter
  unfold receive
  rw [waited]
  cases run.isLate interruption.delayAfter with
  | true => exact ⟨clock, run.cancelled, rfl⟩
  | false => exact ⟨clock, _, rfl⟩

private theorem carry_eq (service : Service σ) (interruption : Interruption) (request : Request)
    (run : Run σ) :
    let course := run.course service interruption request
    ∃ clock cancelled, carry service interruption request run = (course.result?, {
      run with
      state := if course.isSeen then (service.handle request run.state).2 else run.state
      clock, cancelled }) := by
  obtain ⟨clock, waited, timely⟩ := run.wait_eq interruption.delayBefore
  unfold carry course
  rw [waited]
  cases late : run.isLate interruption.delayBefore with
  | true => exact ⟨clock, run.cancelled, rfl⟩
  | false =>
    obtain rfl := timely late
    by_cases cut : interruption.cancellation = some .before
    · simp only [cut, if_true]
      exact ⟨_, true, rfl⟩
    · have received (result : Except Failure request.Answer) (state : σ) := receive_eq interruption
        result { run with clock := run.clock + interruption.delayBefore, state }
      have after (state : σ) :
          isLate { run with clock := run.clock + interruption.delayBefore, state } interruption.delayAfter =
            run.isLate (interruption.delayBefore + interruption.delayAfter) := by
        simp only [isLate, Nat.add_assoc]
      simp only [cut, if_false]
      rcases service.handle request run.state with ⟨(error | _) | answer, state⟩
      · obtain ⟨clock, cancelled, same⟩ := received (.error (.service error)) state
        simp only [after] at same
        dsimp only
        rw [same]
        exact ⟨clock, cancelled, rfl⟩
      · exact ⟨_, _, rfl⟩
      · obtain ⟨clock, cancelled, same⟩ := received (.ok answer) state
        simp only [after] at same
        dsimp only
        rw [same]
        exact ⟨clock, cancelled, rfl⟩

private theorem course_hasBegun (service : Service σ) (interruption : Interruption) (request : Request)
    (run : Run σ) : (run.course service interruption request).hasBegun = true := by
  unfold course
  split
  · rfl
  · split
    · rfl
    · dsimp only
      split <;> rfl

/-- What a call leaves behind follows from what becomes of it. -/
theorem call_eq (service : Service σ) (schedule : Schedule) (request : Request) (run : Run σ) :
    let fate := run.fate service schedule request
    let after := (run.call service schedule request).2
    (run.call service schedule request).1 = fate.result? ∧
      after.records = run.records ++ fate.record?.toList ∧
      after.begun = run.begun + fate.hasBegun.toNat ∧
      after.state = if fate.isSeen then (service.handle request run.state).2 else run.state := by
  intro fate after
  unfold fate after Run.fate call
  cases run.refusal? with
  | some failure => exact ⟨rfl, (List.append_nil _).symm, rfl, rfl⟩
  | none =>
    obtain ⟨clock, cancelled, carried⟩ :=
      carry_eq service (schedule run.begun) request { run with begun := run.begun + 1 }
    change carry service (schedule run.begun) request { run with begun := run.begun + 1 } =
      ((run.course service (schedule run.begun) request).result?, _) at carried
    have begun := run.course_hasBegun service (schedule run.begun) request
    dsimp only
    rw [carried, Fate.record?_of_hasBegun begun, begun]
    cases (run.course service (schedule run.begun) request).result? with
    | none => exact ⟨rfl, (List.append_nil _).symm, rfl, rfl⟩
    | some result => exact ⟨rfl, rfl, rfl, rfl⟩

end Run

namespace Attempt

def exchange (attempt : Attempt) : Exchange := ⟨attempt.request, attempt.fate.result?⟩

def record? (attempt : Attempt) : Option CallRecord := attempt.fate.record?

def hasBegun (attempt : Attempt) : Bool := attempt.fate.hasBegun

def isCutOff (attempt : Attempt) : Bool := attempt.fate.isCutOff

def isSeen (attempt : Attempt) : Bool := attempt.fate.isSeen

def isBrokenOff (attempt : Attempt) : Bool := attempt.fate.isBrokenOff

private theorem hasBegun_eq (attempt : Attempt) :
    attempt.hasBegun = (attempt.record?.isSome || attempt.isBrokenOff) := by
  obtain ⟨request, fate⟩ := attempt
  cases fate <;> rfl

private theorem isSeen_eq (attempt : Attempt) :
    attempt.isSeen = ((attempt.record?.isSome && !attempt.isCutOff) || attempt.isBrokenOff) := by
  obtain ⟨request, fate⟩ := attempt
  cases fate <;> rfl

private theorem record?_of_isBrokenOff {attempt : Attempt} (broken : attempt.isBrokenOff = true) :
    attempt.record? = none := by
  obtain ⟨request, fate⟩ := attempt
  cases fate with
  | brokenOff => rfl
  | _ => cases broken

/-- The record names the operation, and says of the result of the call what is known of it. -/
structure IsToldBy (attempt : Attempt) (record : CallRecord) : Prop where
  operation : record.operation = attempt.request.operation
  ok : record.outcome = .ok ↔ ∃ answer, attempt.fate.result? = some (.ok answer)
  notFound : record.outcome = .notFound ↔ ∃ error,
    attempt.fate.result? = some (.error (.service error)) ∧
    error.code? = some ServiceError.notFoundCode
  cancelled : record.outcome = .cancelled ↔
    ∃ failure, attempt.fate.result? = some (.error failure) ∧ failure.IsInterruption

private theorem isToldBy {attempt : Attempt} {record : CallRecord} (recorded : record ∈ attempt.record?)
    (ofCall : ∀ failure, attempt.fate.result? = some (.error failure) → failure.IsOfCall) :
    attempt.IsToldBy record := by
  obtain ⟨result, shown, rfl⟩ : ∃ result, attempt.fate.result? = some result ∧
      CallRecord.ofCall attempt.request result = record := by
    obtain ⟨request, fate⟩ := attempt
    cases fate with
    | denied _ | brokenOff => cases recorded
    | cutOff failure => exact ⟨_, rfl, Option.some.inj recorded⟩
    | carried result => exact ⟨_, rfl, Option.some.inj recorded⟩
  cases result with
  | ok answer =>
    refine ⟨rfl, ?_, ?_, ?_⟩ <;> simp [CallRecord.ofCall, CallOutcome.ofResult, shown]
  | error failure =>
    obtain ⟨notFound, cancelled⟩ := CallOutcome.ofFailure_eq (ofCall failure shown)
    refine ⟨rfl, ?_, ?_, ?_⟩
    · simp [CallRecord.ofCall, CallOutcome.ofResult, CallOutcome.ofFailure_ne_ok, shown]
    · simp [CallRecord.ofCall, CallOutcome.ofResult, notFound, shown]
    · simp [CallRecord.ofCall, CallOutcome.ofResult, cancelled, shown]

end Attempt

namespace Run

/-- What the calls between two points of a run have left behind: their records, their count, and their
traces with a service that keeps a journal. -/
structure Leaves (service : Service σ) (attempts : List Attempt) (run after : Run σ) : Prop where
  records : after.records = run.records ++ attempts.filterMap Attempt.record?
  begun : after.begun = run.begun + attempts.countP Attempt.hasBegun
  journal : ∀ journal : σ → List Request, service.Notes journal →
    journal after.state = journal run.state ++ (attempts.filter Attempt.isSeen).map Attempt.request

namespace Leaves

variable {earlier later : List Attempt} {run middle after : Run σ}

theorem nil (run : Run σ) : Leaves service [] run run where
  records := (List.append_nil _).symm
  begun := rfl
  journal _ _ := (List.append_nil _).symm

theorem append (before : Leaves service earlier run middle) (onward : Leaves service later middle after) :
    Leaves service (earlier ++ later) run after where
  records := by rw [onward.records, before.records, List.filterMap_append, List.append_assoc]
  begun := by rw [onward.begun, before.begun, List.countP_append, Nat.add_assoc]
  journal journal notes := by
    rw [onward.journal journal notes, before.journal journal notes, List.filter_append,
      List.map_append, List.append_assoc]

theorem call (service : Service σ) (schedule : Schedule) (request : Request) (run : Run σ) :
    Leaves service [⟨request, run.fate service schedule request⟩] run
      (run.call service schedule request).2 := by
  obtain ⟨-, records, begun, state⟩ := run.call_eq service schedule request
  generalize run.fate service schedule request = fate at records begun state
  constructor
  · rw [records]
    cases found : fate.record? <;> simp [Attempt.record?, found]
  · rw [begun]
    cases seen : fate.hasBegun <;> simp [Attempt.hasBegun, seen]
  · intro journal notes
    rw [state]
    cases seen : fate.isSeen
    · simp [Attempt.isSeen, seen]
    · simp [Attempt.isSeen, seen, notes request run.state]

end Leaves

end Run

namespace Program

/-- The calls of a run in their order, each with what becomes of it. -/
def attempts (service : Service σ) (schedule : Schedule) : Program α → Run σ → List Attempt
  | .done _, _ => []
  | .call request next, run =>
    ⟨request, run.fate service schedule request⟩ ::
      match run.call service schedule request with
      | (some result, after) => (next result).attempts service schedule after
      | (none, _) => []
  | .unfinished, _ => []

private theorem forall_attempts {holds : Attempt → Prop}
    (each : ∀ request (run : Run σ), holds ⟨request, run.fate service schedule request⟩)
    (program : Program α) (run : Run σ) :
    ∀ attempt ∈ program.attempts service schedule run, holds attempt := by
  induction program generalizing run with
  | done value => exact List.forall_mem_nil _
  | unfinished => exact List.forall_mem_nil _
  | call request next ih =>
    rw [attempts, List.forall_mem_cons]
    refine ⟨each request run, ?_⟩
    split
    next result after _ => exact ih result after
    next => exact List.forall_mem_nil _

private theorem attempts_exchange (program : Program α) (run : Run σ) :
    (program.attempts service schedule run).map Attempt.exchange =
      program.exchanges service schedule run := by
  induction program generalizing run with
  | done value => rfl
  | unfinished => rfl
  | call request next ih =>
    obtain ⟨result, -⟩ := run.call_eq service schedule request
    simp only [attempts, exchanges, List.map_cons, Attempt.exchange, ← result]
    rcases run.call service schedule request with ⟨_ | result, after⟩
    · rfl
    · exact congrArg _ (ih result after)

/-- A run leaves what becomes of its calls. -/
theorem run_leaves (program : Program α) (run : Run σ) :
    Run.Leaves service (program.attempts service schedule run) run
      (program.run service schedule run).2 := by
  induction program generalizing run with
  | done value => exact .nil run
  | unfinished => exact .nil run
  | call request next ih =>
    have first := Run.Leaves.call service schedule request run
    simp only [Program.run, attempts]
    generalize run.call service schedule request = called at first ⊢
    obtain ⟨_ | result, after⟩ := called
    · exact first
    · exact first.append (ih result after)

/-- The service breaks off in no call of a run, or in the last one alone, which ends the run. -/
theorem attempts_cases (service : Service σ) (schedule : Schedule) (program : Program α) (run : Run σ) :
    ((program.run service schedule run).1 ≠ .crashed ∧
      ∀ attempt ∈ program.attempts service schedule run, attempt.isBrokenOff = false) ∨
    ((program.run service schedule run).1 = .crashed ∧ ∃ before last,
      program.attempts service schedule run = before ++ [last] ∧ last.isBrokenOff = true ∧
        ∀ attempt ∈ before, attempt.isBrokenOff = false) := by
  induction program generalizing run with
  | done value | unfinished =>
    refine .inl ⟨?_, List.forall_mem_nil _⟩
    intro crashed
    cases crashed
  | call request next ih =>
    obtain ⟨came, -⟩ := run.call_eq service schedule request
    simp only [Program.run, attempts]
    generalize run.fate service schedule request = fate at came ⊢
    generalize run.call service schedule request = called at came ⊢
    obtain ⟨_ | result, after⟩ := called
    · exact .inr ⟨rfl, [], _, rfl, Fate.isBrokenOff_iff.mpr came.symm, List.forall_mem_nil _⟩
    · have returned : Attempt.isBrokenOff ⟨request, fate⟩ = false := by
        rw [← Bool.not_eq_true, Attempt.isBrokenOff, Fate.isBrokenOff_iff, ← came]
        exact Option.some_ne_none _
      rcases ih result after with ⟨ends, whole⟩ | ⟨ends, before, last, same, broken, whole⟩
      · exact .inl ⟨ends, List.forall_mem_cons.mpr ⟨returned, whole⟩⟩
      · refine .inr ⟨ends, _ :: before, last, congrArg _ same, broken, ?_⟩
        exact List.forall_mem_cons.mpr ⟨returned, whole⟩

private theorem filter_attempts {p q : Attempt → Bool}
    (split : ∀ attempt, p attempt = (q attempt || attempt.isBrokenOff))
    (apart : ∀ attempt, attempt.isBrokenOff = true → q attempt = false) (program : Program α)
    (run : Run σ) :
    (program.attempts service schedule run).filter p =
      (program.attempts service schedule run).filter q ++
        (program.attempts service schedule run).filter Attempt.isBrokenOff := by
  have whole {attempts : List Attempt} (none : ∀ attempt ∈ attempts, attempt.isBrokenOff = false) :
      attempts.filter p = attempts.filter q ∧ attempts.filter Attempt.isBrokenOff = [] := by
    constructor
    · refine List.filter_congr fun attempt member => ?_
      rw [split, none attempt member, Bool.or_false]
    · refine List.filter_eq_nil_iff.mpr fun attempt member => ?_
      simp [none attempt member]
  rcases program.attempts_cases service schedule run with
    ⟨-, none⟩ | ⟨-, before, last, same, broken, none⟩
  · obtain ⟨congr, nothing⟩ := whole none
    rw [congr, nothing, List.append_nil]
  · obtain ⟨congr, nothing⟩ := whole none
    simp only [same, List.filter_append, congr, nothing]
    simp [split last, broken, apart last broken]

/-- The records of a run, beside its calls and beside the journal of the service. -/
structure Recorded (service : Service σ) (schedule : Schedule) (program : Program α) (run : Run σ) :
    Prop where
  calls : (program.attempts service schedule run).map Attempt.exchange =
    program.exchanges service schedule run
  records : (program.run service schedule run).2.records =
    run.records ++ (program.attempts service schedule run).filterMap Attempt.record?
  told : ∀ attempt ∈ program.attempts service schedule run,
    ∀ record ∈ attempt.record?, attempt.IsToldBy record
  /-- Every call that has begun is recorded, unless the service has broken off in it. -/
  begun : (program.run service schedule run).2.begun =
      run.begun + (program.attempts service schedule run).countP Attempt.hasBegun ∧
    (program.attempts service schedule run).filter Attempt.hasBegun =
      (program.attempts service schedule run).filter (·.record?.isSome) ++
        (program.attempts service schedule run).filter Attempt.isBrokenOff
  /-- The service has seen the calls that are recorded, but for those that were cut off on their way, and
  the one in which it has broken off. -/
  journal : ∀ journal : σ → List Request, service.Notes journal →
    journal (program.run service schedule run).2.state = journal run.state ++
      ((program.attempts service schedule run).filter
          (fun attempt => attempt.record?.isSome && !attempt.isCutOff) ++
        (program.attempts service schedule run).filter Attempt.isBrokenOff).map Attempt.request
  broken : ((program.attempts service schedule run).filter Attempt.isBrokenOff).length =
    match (program.run service schedule run).1 with
    | .crashed => 1
    | _ => 0

private theorem recorded (service : Service σ) (schedule : Schedule) (program : Program α)
    (run : Run σ) :
    program.Recorded service schedule run where
  calls := program.attempts_exchange run
  records := (program.run_leaves run).records
  told := by
    refine program.forall_attempts (fun request reached record recorded => ?_) run
    refine Attempt.isToldBy recorded fun failure failed => ?_
    have called := reached.call_gives service schedule request
    rw [(reached.call_eq service schedule request).1, failed] at called
    exact called.isOfCall
  begun := by
    refine ⟨(program.run_leaves run).begun, ?_⟩
    refine program.filter_attempts Attempt.hasBegun_eq (fun attempt broken => ?_) run
    rw [Attempt.record?_of_isBrokenOff broken]
    rfl
  journal journal notes := by
    rw [(program.run_leaves run).journal journal notes,
      program.filter_attempts Attempt.isSeen_eq (fun attempt broken => ?_) run]
    rw [Attempt.record?_of_isBrokenOff broken]
    rfl
  broken := by
    rcases program.attempts_cases service schedule run with
      ⟨ends, none⟩ | ⟨ends, before, last, same, broken, none⟩
    · rw [List.filter_eq_nil_iff.mpr fun attempt member => by simp [none attempt member]]
      split
      next crashed => exact absurd crashed ends
      next => rfl
    · rw [ends, same, List.filter_append,
        List.filter_eq_nil_iff.mpr fun attempt member => by simp [none attempt member]]
      simp [broken]

end Program

/-- The service in memory breaks off in a deletion alone, on a day beyond the calendar, and the deletion is
a change that the run asks for. -/
theorem Memory.crashed_deletion {program : Program α} {run : Run Memory}
    (crashed : (program.run Memory.service schedule run).1 = .crashed) :
    ∃ before name days,
      program.attempts Memory.service schedule run =
        before ++ [⟨.scheduleKeyDeletion name days, .brokenOff⟩] ∧
      run.state.config.now.IsBeyond days ∧
      ⟨.scheduleKeyDeletion name days, none⟩ ∈ program.changes Memory.service schedule run := by
  rcases program.attempts_cases Memory.service schedule run with
    ⟨ends, -⟩ | ⟨-, before, ⟨request, fate⟩, same, broken, -⟩
  · exact absurd crashed ends
  · have exchanged : ⟨request, fate.result?⟩ ∈ program.exchanges Memory.service schedule run := by
      rw [← program.attempts_exchange, same]
      simp [Attempt.exchange]
    obtain ⟨-, reached, _, onward, gives⟩ := program.uses_any.exchange_gives Continues.refl
      Continues.trans (fun request memory _ => handle_continues request memory) exchanged
    cases fate with
    | brokenOff =>
      cases gives with
      | crashed handled =>
        obtain ⟨-, name, days, _, _, rfl, -, -, beyond⟩ :=
          (reached.handle_breaks_iff request).mp (congrArg Prod.fst handled)
        have asked := mem_changesOf.mpr ⟨exchanged, rfl⟩
        exact ⟨before, name, days, same, onward.config ▸ beyond, asked⟩
    | _ => cases broken

namespace Kind

variable (kind : Kind) (scope : AccountScope) (pages : Nat)
  (resource : Resource kind.managed.Spec kind.managed.Status)

private theorem reconcile_ne_crashed (schedule : Schedule) (run : Run Memory) :
    let _ := kind.managed.resource
    (((kind.managed.manager scope pages).reconcile resource).run.run Memory.service schedule run).1 ≠
      .crashed := by
  intro _ crashed
  obtain ⟨_, _, _, -, -, change⟩ := Memory.crashed_deletion crashed
  exact (kind.reconcile_changes scope pages resource run).verb_ne_delete change rfl

private theorem finalize_crashed {schedule : Schedule} {run : Run Memory}
    (crashed : (((kind.managed.manager scope pages).finalize resource).run.run Memory.service
      schedule run).1 = .crashed) :
    (kind = .key ∨ kind = .replicaKey) ∧ ∃ before name days,
      ((kind.managed.manager scope pages).finalize resource).run.attempts Memory.service schedule run =
        before ++ [⟨.scheduleKeyDeletion name days, .brokenOff⟩] ∧
      run.state.config.now.IsBeyond days := by
  obtain ⟨before, name, days, last, beyond, change⟩ := Memory.crashed_deletion crashed
  refine ⟨?_, before, name, days, last, beyond⟩
  have own : kind.deletes (.scheduleKeyDeletion name days) = true := by
    rcases (kind.managed.manager scope pages).finalize_exchanges resource
        (kind.readOne_asks scope pages resource)
        (fun latest run => kind.delete_exchanges scope pages latest run) run with
      nothing | ⟨readings, deletion, same, reads, deletes⟩
    · rw [Program.changes, nothing] at change
      cases change
    · rw [Program.changes, same, changesOf, List.filter_append] at change
      change _ ∈ changesOf readings ++ _ at change
      rw [reads, List.nil_append] at change
      rw [← List.mem_singleton.mp (List.mem_of_mem_filter change)] at deletes
      exact deletes
  cases kind with
  | key => exact .inl rfl
  | replicaKey => exact .inr rfl
  | keyAlias | grant => cases own

/-- Whatever the service answers and whatever happens around the calls of a pass, its records are those of
the calls that have begun, in order, each with the operation and the sort of its result; and the journal of
the service shows the same calls, but for those that were cut off on their way. Only a call in which the
service breaks off stands in the journal without a record. Over the service in memory this is the deletion
at the end of a finalization, on a day beyond the calendar. -/
theorem passes_recorded :
    let manager := kind.managed.manager scope pages
    let _ := kind.managed.resource
    let reconciliation := (manager.reconcile resource).run
    let finalization := (manager.finalize resource).run
    (∀ {σ : Type} (service : Service σ) (schedule : Schedule) (run : Run σ),
      reconciliation.Recorded service schedule run ∧ finalization.Recorded service schedule run) ∧
    Memory.service.Notes Memory.journal ∧
    ∀ (schedule : Schedule) (run : Run Memory),
      (reconciliation.run Memory.service schedule run).1 ≠ .crashed ∧
      ((finalization.run Memory.service schedule run).1 = .crashed →
        (kind = .key ∨ kind = .replicaKey) ∧ ∃ before name days,
          finalization.attempts Memory.service schedule run =
            before ++ [⟨.scheduleKeyDeletion name days, .brokenOff⟩] ∧
          run.state.config.now.IsBeyond days) := by
  intro manager _ reconciliation finalization
  refine ⟨fun service schedule run => ?_, Memory.notes_journal, fun schedule run => ?_⟩
  · exact ⟨reconciliation.recorded service schedule run, finalization.recorded service schedule run⟩
  · exact ⟨kind.reconcile_ne_crashed scope pages resource schedule run,
      kind.finalize_crashed scope pages resource⟩

end Kind

/-- A deletion after so many days has begun, and no call was cut off. The deletion stands in the journal, and
nothing is recorded of it. -/
theorem deletion_leaves_no_record :
    let memory := ({ config := .numbered } : Memory).seedKey "k1" {}
    let key : Key := ⟨{
      name := "key"
      annotations := some (.ofList [(Metadata.deletionWindowAnnotation, "999999999999")]) }, {},
      some { keyId := some "k1" }⟩
    let pass := ((Key.manager ⟨"us-west-2", "000000000000"⟩ 2).finalize key).run
    let attempts := pass.attempts Memory.service .calm { state := memory }
    let last := (pass.run Memory.service .calm { state := memory }).2
    let readings := ["DescribeKey", "ListResourceTags", "GetKeyRotationStatus", "GetKeyPolicy"]
    (attempts.filter Attempt.hasBegun).map (·.request.operation) = readings ++ ["ScheduleKeyDeletion"] ∧
      attempts.all (fun attempt => !attempt.isCutOff) = true ∧
      last.records.map CallRecord.operation = readings ∧
      last.state.journal.map Request.operation = readings ++ ["ScheduleKeyDeletion"] := by
  decide +kernel

end KeySteward
