import KeySteward.SortedMap
import KeySteward.Text.Blank
import KeySteward.Text.Integer

/-! Settings, which are read from the environment. A variable that is blank counts as unset, and so
does a number of seconds that is no positive integer of 64 bits; blanks around a value do not
count. -/

namespace KeySteward

/-- The key service that is talked to. -/
inductive Backend where
  | http
  | memory
  deriving DecidableEq, Repr

def Backend.name : Backend → String
  | http => "http"
  | memory => "memory"

/-- A name that no backend has. -/
structure UnknownBackend where
  value : String
  deriving DecidableEq, Repr

def UnknownBackend.message (unknown : UnknownBackend) : String :=
  "unsupported KMS_BACKEND value '" ++ unknown.value ++ "'; expected 'http' or 'memory'"

/-- Intervals are in seconds. -/
structure Settings where
  backend : Except UnknownBackend Backend := .ok .http
  region : String := "us-west-2"
  endpoint : String := "https://kms.us-west-2.amazonaws.com"
  accountId : String := "000000000000"
  /-- How long one request may take. -/
  requestTimeout : Nat := 30
  /-- How long one pass may take. -/
  passTimeout : Nat := 120
  /-- When to look again at a resource that is as it should be. -/
  resyncPeriod : Nat := 36000
  /-- When to look again after a failure that another pass may mend. -/
  retryPeriod : Nat := 30
  /-- When to look again while the service is still changing the key. -/
  unsettledPeriod : Nat := 15
  /-- The only namespace that is watched, if it is not all of them. -/
  watchNamespace : Option String := none

namespace Settings

/-- The text of a variable without the blanks around it, unless nothing is left. -/
def text? (environment : SortedMap String) (name : String) : Option String :=
  ((environment.get? name).map Text.trim).filter fun text => !text.isEmpty

def seconds? (environment : SortedMap String) (name : String) : Option Nat :=
  ((text? environment name).bind (Text.unsigned? Text.greatestWord)).filter (0 < ·)

/-- The letters of a backend's name may be of either case. -/
def backendOf (environment : SortedMap String) : Except UnknownBackend Backend :=
  match ((text? environment "KMS_BACKEND").map String.toLower) with
  | none | some "http" => .ok .http
  | some "memory" => .ok .memory
  | some value => .error ⟨value⟩

def endpointOf (region : String) : String :=
  "https://kms." ++ region ++ ".amazonaws.com"

def ofEnvironment (environment : SortedMap String) : Settings :=
  let unset : Settings := {}
  let region := (text? environment "AWS_REGION").getD unset.region
  { backend := backendOf environment
    region
    endpoint := (text? environment "KMS_ENDPOINT").getD (endpointOf region)
    accountId := (text? environment "AWS_ACCOUNT_ID").getD unset.accountId
    requestTimeout :=
      (seconds? environment "KMS_REQUEST_TIMEOUT_SECS").getD unset.requestTimeout
    passTimeout := (seconds? environment "RECONCILE_TIMEOUT_SECS").getD unset.passTimeout
    resyncPeriod := (seconds? environment "RESYNC_PERIOD_SECS").getD unset.resyncPeriod
    retryPeriod := (seconds? environment "REQUEUE_ON_ERROR_SECS").getD unset.retryPeriod
    unsettledPeriod := (seconds? environment "UNSETTLED_REQUEUE_SECS").getD unset.unsettledPeriod
    watchNamespace := text? environment "WATCH_NAMESPACE" }

end Settings

end KeySteward
