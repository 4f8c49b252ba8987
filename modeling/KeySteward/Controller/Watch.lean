import KeySteward.Controller.Pass
import KeySteward.Pass.Run

/-! The controller at work on one object that never changes. A pass is made at the start and
whenever the pass before it asked for another; a write to the Kubernetes API is answered with a
status of a given list, and with success when the list has come to its end. A write that names no
path fails unsent. -/

namespace KeySteward.Controller

/-- A write to a path, with the time, in milliseconds, and the state of the service at which it was
sent. -/
structure Sent (δ : Type) where
  clock : Nat
  state : δ
  path : String
  patch : Patch

structure Watch (δ : Type) where
  run : Run δ
  /-- The statuses with which the next writes are answered. -/
  statuses : List Nat := []
  sent : List (Sent δ) := []

namespace Watch

variable {δ : Type}

/-- An answer holds the object when its status is 200. With any other status it holds none, and the
write has failed, even if the status is one of success. -/
def isAccepted (status : Nat) : Bool :=
  status == 200

/-- Sends a write and tells whether it is accepted. A write without a path is neither sent nor
accepted. -/
def send (write : ObjectWrite) (watch : Watch δ) : Bool × Watch δ :=
  match write.path? with
  | none => (false, watch)
  | some path =>
    let sent := watch.sent ++ [⟨watch.run.clock, watch.run.state, path, write.patch⟩]
    match watch.statuses with
    | [] => (true, { watch with sent })
    | status :: statuses => (isAccepted status, { watch with sent, statuses })

/-- Carries out the end of a pass, and gives what follows. -/
def conclude (settings : Settings) (verdict : Verdict) (watch : Watch δ) : Action × Watch δ :=
  match verdict.write with
  | none => (verdict.action, watch)
  | some write =>
    match watch.send write with
    | (true, watch) => (verdict.action, watch)
    | (false, watch) => (.afterError settings, watch)

/-- Begins a pass, which ends at its timeout, and at the latest when the watch ends. -/
def begin (settings : Settings) (stop : Nat) (watch : Watch δ) : Run δ :=
  { watch.run with deadline := some (min (watch.run.clock + 1000 * settings.passTimeout) stop) }

/-- Makes passes until a point in time, but no more than so many. The program of a pass may depend
on the state in which it begins. A service that breaks off ends the watch. -/
def passes (service : Service δ) (schedule : Schedule) (settings : Settings)
    (program : δ → Program Verdict) (stop : Nat) : Nat → Watch δ → Ending Unit × Watch δ
  | 0, watch => (.finished (), watch)
  | count + 1, watch =>
    let start := watch.begin settings stop
    match (program start.state).run service schedule start with
    | (.crashed, run) => (.crashed, { watch with run })
    | (.unfinished, run) => (.unfinished, { watch with run })
    | (.finished verdict, run) =>
      if stop ≤ run.clock then (.finished (), { watch with run })
      else
        match conclude settings verdict { watch with run } with
        | (.awaitChange, watch) => (.finished (), watch)
        | (.requeue seconds, watch) =>
          let clock := watch.run.clock + 1000 * seconds
          if stop ≤ clock then (.finished (), watch)
          else passes service schedule settings program stop count
            { watch with run := { watch.run with clock } }

variable {σ τ : Type} [CustomResource σ τ]

/-- Follows an object until a point in time, in milliseconds. However short the watch is, what
happens at its very start is seen. An object without a name cannot be told from others, and breaks
the watch off before its first pass. -/
def follow (service : Service δ) (schedule : Schedule) (settings : Settings) (now : Timestamp)
    (manager : δ → Manager σ τ) (resource : Resource σ τ) (stop : Nat) (watch : Watch δ) :
    Ending Unit × Watch δ :=
  match resource.metadata.name with
  | none => (.crashed, watch)
  | some name =>
    let program (state : δ) := pass settings now (manager state) resource name
    passes service schedule settings program (max 1 stop) (stop / 1000 + 1) watch

end Watch

end KeySteward.Controller
