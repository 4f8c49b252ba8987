import KeySteward.Pass.CallRecord
import KeySteward.Pass.Program

/-! Passes over a service, on a clock that counts milliseconds. A pass may be cancelled and may have
a deadline, and no call begins once the pass is cancelled or its deadline is reached. What happens
around each call is given by a schedule.

A call that has begun is recorded also when it is cut off. The deadline cuts it off before the service
sees it, or while its answer is on the way, and this answer is lost. A cancellation cuts off only a call
that the service has not seen: the service works and answers without a pause in which the pass could be
cancelled, so a later cancellation finds the call over. Answers that are lost to a cancellation, as
with a service at a distance, have no schedule here. -/

namespace KeySteward

/-- Whether a pass is cancelled before the service sees a call or after the call is over. The answer of
a call that the service has seen is not lost to a cancellation. -/
inductive Cancellation where
  | before
  | after
  deriving DecidableEq

/-- What happens around one call. -/
structure Interruption where
  /-- The time until the service sees the call. -/
  delayBefore : Nat := 0
  cancellation : Option Cancellation := none
  /-- The time from the work of the service until its answer arrives. -/
  delayAfter : Nat := 0
  deriving DecidableEq

/-- What happens around each call, the calls being counted from zero. -/
abbrev Schedule := Nat → Interruption

def Schedule.calm : Schedule := fun _ => {}

/-- How far a pass has got over a service with states `σ`. -/
structure Run (σ : Type) where
  state : σ
  clock : Nat := 0
  deadline : Option Nat := none
  cancelled : Bool := false
  /-- The number of calls that have begun. -/
  begun : Nat := 0
  records : List CallRecord := []

namespace Run

variable {σ : Type}

/-- Why no call may begin. Of two reasons cancellation is the one. -/
def refusal? (run : Run σ) : Option Failure :=
  if run.cancelled then some .cancelled
  else if run.deadline.any (· ≤ run.clock) then some .deadlineExceeded
  else none

/-- Lets time pass, and stops the clock at the deadline, which is then said to be passed. -/
def wait (millis : Nat) (run : Run σ) : Bool × Run σ :=
  match run.deadline with
  | some deadline =>
    if deadline < run.clock + millis then (true, { run with clock := deadline })
    else (false, { run with clock := run.clock + millis })
  | none => (false, { run with clock := run.clock + millis })

/-- What the caller sees of a call that the service has answered. -/
def receive {α : Type} (interruption : Interruption) (result : Except Failure α) (run : Run σ) :
    Except Failure α × Run σ :=
  match run.wait interruption.delayAfter with
  | (true, run) => (.error .deadlineExceeded, run)
  | (false, run) =>
    (result, { run with cancelled := run.cancelled || interruption.cancellation == some .after })

/-- What the caller sees of a call, unless the service breaks off. -/
def carry (service : Service σ) (interruption : Interruption) (request : Request) (run : Run σ) :
    Option (Except Failure request.Answer) × Run σ :=
  match run.wait interruption.delayBefore with
  | (true, run) => (some (.error .deadlineExceeded), run)
  | (false, run) =>
    if interruption.cancellation = some .before then
      (some (.error .cancelled), { run with cancelled := true })
    else
      match service.handle request run.state with
      | (.ok answer, state) =>
        let (result, run) := receive interruption (.ok answer) { run with state }
        (some result, run)
      | (.error (.refused error), state) =>
        let (result, run) := receive interruption (.error (.service error)) { run with state }
        (some result, run)
      | (.error .crashed, state) => (none, { run with state })

/-- The result of a call, unless the service breaks off. -/
def call (service : Service σ) (schedule : Schedule) (request : Request) (run : Run σ) :
    Option (Except Failure request.Answer) × Run σ :=
  match run.refusal? with
  | some failure => (some (.error failure), run)
  | none =>
    match carry service (schedule run.begun) request { run with begun := run.begun + 1 } with
    | (some result, run) =>
      (some result, { run with records := run.records ++ [.ofCall request result] })
    | (none, run) => (none, run)

end Run

/-- How a run comes to its end. -/
inductive Ending (α : Type) where
  | finished (value : α)
  /-- It broke off, as when the service cannot finish a call. -/
  | crashed
  /-- A listing had more pages than there was room for. -/
  | unfinished
  deriving DecidableEq

/-- Runs a program over a service. -/
def Program.run {σ α : Type} (service : Service σ) (schedule : Schedule) :
    Program α → Run σ → Ending α × Run σ
  | .done value, run => (.finished value, run)
  | .call request next, run =>
    match run.call service schedule request with
    | (some result, run) => (next result).run service schedule run
    | (none, run) => (.crashed, run)
  | .unfinished, run => (.unfinished, run)

end KeySteward
