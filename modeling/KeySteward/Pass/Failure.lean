import KeySteward.Service.Error

/-! Why a pass fails. A failure is terminal for a kind of resource when no further pass over the
same spec can do better. -/

namespace KeySteward

inductive Failure where
  /-- What is wanted can never be had. -/
  | terminal (message : String)
  /-- The remote resource does not exist, or nothing says which one it is. -/
  | notFound
  | cancelled
  | deadlineExceeded
  | service (error : ServiceError)
  /-- The resource could not be written. -/
  | unwritable (detail : String)
  deriving DecidableEq, Repr

namespace Failure

def message : Failure → String
  | terminal message => message
  | notFound => "resource not found"
  | cancelled => "reconciliation cancelled"
  | deadlineExceeded => "reconciliation deadline exceeded"
  | service error => error.message
  | unwritable detail => "failed to encode resource: " ++ detail

/-- The code that the service gave. -/
def code? : Failure → Option String
  | service error => error.code?
  | _ => none

/-- A service error is terminal when its code is one of the given ones. -/
def isTerminal (codes : List String) : Failure → Bool
  | terminal _ => true
  | service error => error.code?.any codes.contains
  | _ => false

def isNotFound : Failure → Bool
  | notFound => true
  | service error => error.isNotFound
  | _ => false

/-- The failure of a look-up, where all ways of not being found are one. -/
def ofLookup (failure : Failure) : Failure :=
  if failure.isNotFound then notFound else failure

end Failure

/-- The failure of an update, with the resource as far as it converged before. -/
structure FailedUpdate (ρ : Type) where
  converged : Option ρ
  failure : Failure
  deriving DecidableEq

end KeySteward
