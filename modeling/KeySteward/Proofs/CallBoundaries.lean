import KeySteward.Proofs.ManagerPasses
import KeySteward.Proofs.MemoryHistory

/-! Passes that are stopped between two calls. While every call comes back in time, a run goes the
way of the undisturbed one; the first call that may not begin ends it, so the service sees the calls
before that one and none behind it. What the service sees is written down by the service itself. -/

namespace KeySteward

open Pass

variable {σ α ε : Type} {service : Service σ} {schedule : Schedule}

namespace Service

/-- What an undisturbed caller sees of a call, unless the service breaks off. -/
def reply (service : Service σ) (request : Request) (state : σ) :
    Option (Except Failure request.Answer) × σ :=
  match service.handle request state with
  | (.ok answer, after) => (some (.ok answer), after)
  | (.error (.refused error), after) => (some (.error (.service error)), after)
  | (.error .crashed, after) => (none, after)

def after (service : Service σ) (state : σ) (calls : List Request) : σ :=
  calls.foldl (fun state request => (service.handle request state).2) state

theorem reply_state (request : Request) (state : σ) :
    (service.reply request state).2 = (service.handle request state).2 := by
  unfold reply
  split
  all_goals
    next handled => rw [handled]

def journaled (service : Service σ) : Service (σ × List Request) where
  handle request kept :=
    ((service.handle request kept.1).1, (service.handle request kept.1).2, kept.2 ++ [request])

private theorem reply_journaled (request : Request) (state : σ) (seen : List Request) :
    service.journaled.reply request (state, seen) =
      ((service.reply request state).1, (service.reply request state).2, seen ++ [request]) := by
  simp only [reply, journaled]
  rcases service.handle request state with ⟨(error | _) | answer, after⟩ <;> rfl

end Service

namespace Run

variable {run : Run σ}

def journaled (run : Run σ) : Run (σ × List Request) :=
  { run with state := (run.state, []) }

/-- The next call may begin, and it is over before anything cuts it off. -/
structure Admits (schedule : Schedule) (run : Run σ) : Prop where
  begins : run.refusal? = none
  uncut : (schedule run.begun).cancellation ≠ some .before
  inTime : ∀ deadline, run.deadline = some deadline →
    run.clock + (schedule run.begun).delayBefore + (schedule run.begun).delayAfter ≤ deadline

def past (schedule : Schedule) (run : Run σ) : Run σ :=
  { run with
    clock := run.clock + (schedule run.begun).delayBefore + (schedule run.begun).delayAfter
    cancelled := run.cancelled || (schedule run.begun).cancellation == some .after
    begun := run.begun + 1 }

def later (schedule : Schedule) : Nat → Run σ → Run σ
  | 0, run => run
  | count + 1, run => later schedule count (run.past schedule)

theorem wait_of_le {millis : Nat}
    (inTime : ∀ deadline, run.deadline = some deadline → run.clock + millis ≤ deadline) :
    run.wait millis = (false, { run with clock := run.clock + millis }) := by
  unfold wait
  split
  next deadline limited =>
    have bound := inTime deadline limited
    rw [if_neg (by omega), limited]
  next unlimited => rw [unlimited]

theorem Admits.call (admits : run.Admits schedule) (service : Service σ) (request : Request) :
    match service.reply request run.state with
    | (some result, state) => ∃ records, run.call service schedule request =
        (some result, { run.past schedule with state, records })
    | (none, state) => ∃ last, run.call service schedule request = (none, last) ∧
        last.state = state := by
  obtain ⟨begins, uncut, inTime⟩ := admits
  obtain ⟨state, clock, deadline, cancelled, begun, records⟩ := run
  have arrives : Run.wait (schedule begun).delayBefore
      { state, clock, deadline, cancelled, begun := begun + 1, records } = (false, _) :=
    wait_of_le fun limit limited => by have bound := inTime limit limited; dsimp only at *; omega
  have returns (state : σ) : Run.wait (schedule begun).delayAfter
      { state, clock := clock + (schedule begun).delayBefore, deadline, cancelled,
        begun := begun + 1, records } = (false, _) :=
    wait_of_le inTime
  simp only [Run.call, begins, carry, arrives, uncut, if_false, receive, Service.reply]
  rcases service.handle request state with ⟨(error | _) | answer, after⟩
  · simp only [returns]
    exact ⟨_, rfl⟩
  · exact ⟨_, rfl, rfl⟩
  · simp only [returns]
    exact ⟨_, rfl⟩

private theorem later_with (count : Nat) (run : Run σ) (state : σ) (records : List CallRecord) :
    later schedule count { run with state, records } =
      { later schedule count run with state, records } := by
  induction count generalizing run with
  | zero => rfl
  | succ count ih => exact ih (run.past schedule)

private theorem later_journaled (count : Nat) (run : Run σ) :
    later schedule count run.journaled = { (later schedule count run) with state := (run.state, []) } := by
  induction count generalizing run with
  | zero => rfl
  | succ count ih => exact ih (run.past schedule)

private theorem Admits.update {τ : Type} (admits : run.Admits schedule) (state : τ)
    (records : List CallRecord) : Admits schedule { run with state, records } :=
  ⟨admits.begins, admits.uncut, admits.inTime⟩

private theorem admits_journaled {count : Nat}
    (admits : ∀ index < count, (run.later schedule index).Admits schedule) :
    ∀ index < count, (run.journaled.later schedule index).Admits schedule := by
  intro index inside
  rw [later_journaled]
  exact (admits index inside).update _ _

private theorem refusal?_eq (stopped : run.cancelled = true ∨
    ∃ deadline, run.deadline = some deadline ∧ deadline ≤ run.clock) :
    run.refusal? = some (if run.cancelled then .cancelled else .deadlineExceeded) := by
  unfold refusal?
  split
  · rfl
  next active =>
    obtain cancelled | ⟨deadline, limited, passed⟩ := stopped
    · exact absurd cancelled active
    · simp [limited, passed]

end Run

namespace Program

def calls (service : Service σ) : Program α → σ → List Request
  | .done _, _ => []
  | .call request next, state =>
    request ::
      match service.reply request state with
      | (some result, after) => (next result).calls service after
      | (none, _) => []
  | .unfinished, _ => []

def seen (service : Service σ) (schedule : Schedule) (program : Program α) (run : Run σ) :
    List Request :=
  (program.run service.journaled schedule run.journaled).2.state.2

theorem eval_call (request : Request) (next : Except Failure request.Answer → Program α)
    (state : σ) :
    (call request next).eval service state =
      match service.reply request state with
      | (some result, after) => (next result).eval service after
      | (none, after) => (.crashed, after) := by
  simp only [eval, Service.reply]
  rcases service.handle request state with ⟨(error | _) | answer, after⟩ <;> rfl

private theorem calls_journaled (program : Program α) (state : σ) (seen : List Request) :
    program.calls service.journaled (state, seen) = program.calls service state := by
  induction program generalizing state seen with
  | done value => rfl
  | unfinished => rfl
  | call request next ih =>
    simp only [calls, Service.reply_journaled]
    rcases service.reply request state with ⟨_ | result, after⟩
    · rfl
    · exact congrArg _ (ih result after _)

private theorem eval_journaled (program : Program α) (state : σ) (seen : List Request) :
    program.eval service.journaled (state, seen) =
      ((program.eval service state).1, (program.eval service state).2,
        seen ++ program.calls service state) := by
  induction program generalizing state seen with
  | done value => simp [eval, calls]
  | unfinished => simp [eval, calls]
  | call request next ih =>
    simp only [eval_call, calls, Service.reply_journaled]
    rcases service.reply request state with ⟨_ | result, after⟩
    · rfl
    · simpa using ih result after (seen ++ [request])

private theorem seen_calm (service : Service σ) (program : Program α) (state : σ) :
    program.seen service .calm { state } = program.calls service state := by
  have free : (Run.journaled ({ state } : Run σ)).IsFree := ⟨rfl, rfl⟩
  have ends := (program.run_calm service.journaled free).trans (program.eval_journaled state [])
  exact congrArg (fun ending => ending.2.2) ends

private theorem after_journaled (calls : List Request) (state : σ) (seen : List Request) :
    service.journaled.after (state, seen) calls = (service.after state calls, seen ++ calls) := by
  induction calls generalizing state seen with
  | nil => simp [Service.after]
  | cons request rest ih =>
    refine (ih (service.handle request state).2 (seen ++ [request])).trans ?_
    rw [List.append_assoc]
    rfl

variable {report : Failure → α → Prop} {run : Run σ} {count : Nat}

private theorem admits_past (admits : ∀ index < count + 1, (run.later schedule index).Admits schedule)
    (state : σ) (records : List CallRecord) :
    ∀ index < count,
      (Run.later schedule index { run.past schedule with state, records }).Admits schedule := by
  intro index inside
  rw [Run.later_with]
  exact (admits (index + 1) (by omega)).update state records

/-- The first call that may not begin ends the program, which reports why. -/
theorem GivesIn.run_refused {program : Program α} (gives : program.GivesIn report)
    (admits : ∀ index < count, (run.later schedule index).Admits schedule) {failure : Failure}
    (interruption : failure.IsInterruption)
    (refused : (run.later schedule count).refusal? = some failure)
    (inside : count < (program.calls service run.state).length) :
    ∃ value last, program.run service schedule run = (.finished value, last) ∧
      report failure value ∧
      last.state = service.after run.state ((program.calls service run.state).take count) := by
  induction program generalizing run count with
  | done value => cases inside
  | unfinished => cases inside
  | call request next ih =>
    cases count with
    | zero =>
      obtain ⟨value, ends, reported⟩ := gives.1 failure interruption
      have stopped : run.call service schedule request = (some (.error failure), run) := by
        simp only [Run.call, show run.refusal? = some failure from refused]
      exact ⟨value, run, by simp only [Program.run, stopped, ends], reported, rfl⟩
    | succ count =>
      have called := (admits 0 (by omega)).call service request
      have handled := service.reply_state request run.state
      simp only [Run.later] at called
      simp only [Program.run, calls, List.take_succ_cons, List.length_cons, Service.after,
        List.foldl_cons, ← handled] at inside ⊢
      generalize service.reply request run.state = reply at called inside ⊢
      obtain ⟨_ | result, after⟩ := reply
      · simp at inside
      · obtain ⟨records, called⟩ := called
        have still : (Run.later schedule count
            { run.past schedule with state := after, records }).refusal? = some failure := by
          rw [Run.later_with]
          exact refused
        simp only [called]
        exact ih result (gives.2 result) (admits_past admits after records) still
          (by simpa using inside)

private theorem run_admitted (program : Program α)
    (admits : ∀ index < count, (run.later schedule index).Admits schedule)
    (enough : (program.calls service run.state).length ≤ count) :
    ((program.run service schedule run).1, (program.run service schedule run).2.state) =
      program.eval service run.state := by
  induction program generalizing run count with
  | done value => rfl
  | unfinished => rfl
  | call request next ih =>
    cases count with
    | zero => simp [calls] at enough
    | succ count =>
      have called := (admits 0 (by omega)).call service request
      simp only [Run.later] at called
      simp only [Program.run, calls, eval_call, List.length_cons] at enough ⊢
      generalize service.reply request run.state = reply at called enough ⊢
      obtain ⟨_ | result, after⟩ := reply
      · obtain ⟨last, called, reached⟩ := called
        simp only [called, reached]
      · obtain ⟨records, called⟩ := called
        simp only [called]
        exact ih result (admits_past admits after records) (by simpa using enough)

private theorem GivesIn.seen_refused {program : Program α} (gives : program.GivesIn report)
    (admits : ∀ index < count, (run.later schedule index).Admits schedule) {failure : Failure}
    (interruption : failure.IsInterruption)
    (refused : (run.later schedule count).refusal? = some failure)
    (inside : count < (program.calls service run.state).length) :
    program.seen service schedule run = (program.calls service run.state).take count := by
  have same : program.calls service.journaled run.journaled.state = program.calls service run.state :=
    program.calls_journaled run.state []
  have still : (run.journaled.later schedule count).refusal? = some failure := by
    rw [Run.later_journaled]
    exact refused
  rw [← same] at inside ⊢
  obtain ⟨_, last, ends, -, reached⟩ :=
    gives.run_refused (Run.admits_journaled admits) interruption still inside
  change last.state = service.journaled.after (run.state, []) _ at reached
  rw [after_journaled] at reached
  simp only [seen, ends, reached, List.nil_append]

private theorem seen_admitted (program : Program α)
    (admits : ∀ index < count, (run.later schedule index).Admits schedule)
    (enough : (program.calls service run.state).length ≤ count) :
    program.seen service schedule run = program.calls service run.state := by
  have same : program.calls service.journaled run.journaled.state = program.calls service run.state :=
    program.calls_journaled run.state []
  have ends := program.run_admitted (Run.admits_journaled admits) (same ▸ enough)
  have reached := ends.trans (program.eval_journaled run.state [])
  exact (congrArg (fun ending => ending.2.2) reached).trans (List.nil_append _)

end Program

namespace Pass

/-- How a run of a pass ends when nothing cuts off a call, and before the call with a number, counted
from zero, comes something for which no call may begin. -/
structure CutAt (cause : ε → Failure) (service : Service σ) (schedule : Schedule)
    (pass : ExceptT ε Program α) (run : Run σ) (number : Nat) (reason : Failure) : Prop where
  /-- The call was still to come: the pass fails, and the calls end before that one. -/
  stopped :
    number < (pass.run.seen service .calm { state := run.state }).length →
      let made := (pass.run.seen service .calm { state := run.state }).take number
      ∃ error last, pass.run.run service schedule run = (.finished (.error error), last) ∧
        cause error = reason ∧ pass.run.seen service schedule run = made ∧
        last.state = service.after run.state made
  /-- All calls were over: the run is as the undisturbed one. -/
  unaffected :
    (pass.run.seen service .calm { state := run.state }).length ≤ number →
      let whole := pass.run.run service .calm { state := run.state }
      (pass.run.run service schedule run).1 = whole.1 ∧
        (pass.run.run service schedule run).2.state = whole.2.state ∧
        pass.run.seen service schedule run = pass.run.seen service .calm { state := run.state }

private theorem GivesIn.cutAt {cause : ε → Failure} {pass : ExceptT ε Program α}
    (gives : GivesIn cause pass)
    {run : Run σ} {number : Nat}
    (admits : ∀ index < number, (run.later schedule index).Admits schedule) {reason : Failure}
    (interruption : reason.IsInterruption)
    (refused : (run.later schedule number).refusal? = some reason) :
    CutAt cause service schedule pass run number reason := by
  have whole := Program.seen_calm service pass.run run.state
  constructor
  · rw [whole]
    intro inside
    obtain ⟨_, last, ends, ⟨error, rfl, caused⟩, reached⟩ :=
      Program.GivesIn.run_refused gives admits interruption refused inside
    have journal := Program.GivesIn.seen_refused gives admits interruption refused inside
    exact ⟨error, last, ends, caused, journal, reached⟩
  · rw [whole]
    intro enough
    have free : ({ state := run.state } : Run σ).IsFree := ⟨rfl, rfl⟩
    have same := (pass.run.run_admitted admits enough).trans (pass.run.run_calm service free).symm
    obtain ⟨ending, reached⟩ := Prod.mk.inj same
    exact ⟨ending, reached, pass.run.seen_admitted admits enough⟩

end Pass

/-- However the clock and the token go on, a pass of any kind ends at the boundary between two calls:
before the first call that may not begin, or else as if nothing had happened. -/
theorem Kind.passes_cutAt (kind : Kind) (scope : AccountScope) (pages : Nat)
    (resource : Resource kind.managed.Spec kind.managed.Status) (service : Service σ)
    (schedule : Schedule) (run : Run σ) (number : Nat)
    (admits : ∀ index < number, (run.later schedule index).Admits schedule)
    (stopped : (run.later schedule number).cancelled = true ∨
      ∃ deadline, (run.later schedule number).deadline = some deadline ∧
        deadline ≤ (run.later schedule number).clock) :
    let manager := kind.managed.manager scope pages
    let _ := kind.managed.resource
    let reason := if (run.later schedule number).cancelled then Failure.cancelled
      else .deadlineExceeded
    CutAt FailedUpdate.failure service schedule (manager.reconcile resource) run number reason ∧
      CutAt id service schedule (manager.finalize resource) run number reason := by
  intro manager _ reason
  have refused : (run.later schedule number).refusal? = some reason := Run.refusal?_eq stopped
  have interruption : reason.IsInterruption := by
    unfold reason
    split
    · exact .inl rfl
    · exact .inr rfl
  exact ⟨(kind.reconcile_heeds scope pages resource).givesIn.cutAt admits interruption refused,
    (kind.finalize_heeds scope pages resource).givesIn.cutAt admits interruption refused⟩

/-- A reconciliation and a finalization of a key that are cancelled after two calls, when the
deadline is reached as well. -/
theorem Kind.passes_cutAt_cancelled :
    let memory := ({ config := .numbered } : Memory).seedKey "k1" {}
    let scope : AccountScope := ⟨"us-west-2", "000000000000"⟩
    let key : Key :=
      ⟨{ name := "key" }, { enableKeyRotation := some true }, some { keyId := some "k1" }⟩
    let schedule : Schedule := fun index =>
      { delayBefore := 5, cancellation := if index = 1 then some .after else none, delayAfter := 5 }
    let run : Run Memory := { state := memory, deadline := some 20 }
    let reconciliation := ((Key.manager scope 2).reconcile key).run
    let finalization := ((Key.manager scope 2).finalize key).run
    let made : List Request := [.describeKey "k1", .listResourceTags "k1" none]
    (∃ error last, reconciliation.run Memory.service schedule run = (.finished (.error error), last) ∧
      error.failure = .cancelled ∧ reconciliation.seen Memory.service schedule run = made ∧
      last.state = Memory.service.after memory made) ∧
    ∃ last, finalization.run Memory.service schedule run = (.finished (.error .cancelled), last) ∧
      finalization.seen Memory.service schedule run = made ∧
      last.state = Memory.service.after memory made := by
  intro memory scope key schedule run reconciliation finalization made
  have first : run.Admits schedule := by
    refine ⟨rfl, nofun, fun deadline limited => ?_⟩
    cases limited
    decide
  have second : (run.past schedule).Admits schedule := by
    refine ⟨rfl, nofun, fun deadline limited => ?_⟩
    cases limited
    decide
  have admits : ∀ index < 2, (run.later schedule index).Admits schedule
    | 0, _ => first
    | 1, _ => second
  have cut : CutAt FailedUpdate.failure Memory.service schedule
        ((Key.manager scope 2).reconcile key) run 2 .cancelled ∧
      CutAt id Memory.service schedule ((Key.manager scope 2).finalize key) run 2 .cancelled :=
    Kind.passes_cutAt .key scope 2 key Memory.service schedule run 2 admits (.inl rfl)
  have whole : reconciliation.calls Memory.service memory =
      made ++ [.getKeyRotationStatus "k1", .getKeyPolicy "k1" "default",
        .getKeyRotationStatus "k1", .enableKeyRotation "k1"] := by decide
  have other : finalization.calls Memory.service memory =
      made ++ [.getKeyRotationStatus "k1", .getKeyPolicy "k1" "default",
        .scheduleKeyDeletion "k1" 7] := by decide
  have reconciles := cut.1.stopped
  have finalizes := cut.2.stopped
  rw [Program.seen_calm, whole] at reconciles
  rw [Program.seen_calm, other] at finalizes
  obtain ⟨_, last, ends, rfl, rest⟩ := finalizes (by decide)
  exact ⟨reconciles (by decide), last, ends, rest⟩

end KeySteward
