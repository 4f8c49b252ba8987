import KeySteward.Pass.Failure
import KeySteward.Settings

/-! When a resource is looked at again after a pass. -/

namespace KeySteward

inductive Action where
  /-- Look again after so many seconds. -/
  | requeue (seconds : Nat)
  /-- Look again when the resource changes. -/
  | awaitChange
  deriving DecidableEq, Repr

namespace Action

def seconds? : Action → Option Nat
  | requeue seconds => some seconds
  | awaitChange => none

/-- What follows a pass. A terminal failure waits for a change, since nothing else can mend it. -/
def afterPass (settings : Settings) (terminalCodes : List String) (isSettled : Bool)
    (failure : Option Failure) : Action :=
  match failure with
  | some failure =>
    if failure.isTerminal terminalCodes then awaitChange else requeue settings.retryPeriod
  | none => requeue (if isSettled then settings.resyncPeriod else settings.unsettledPeriod)

/-- What follows a pass that did not get as far as to a result. -/
def afterError (settings : Settings) : Action :=
  requeue settings.retryPeriod

end Action

end KeySteward
