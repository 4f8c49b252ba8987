/-! What can go wrong with a call to the key service. -/

namespace KeySteward

inductive ServiceError where
  /-- The service answered with an error code. -/
  | api (code message : String)
  /-- No answer arrived. -/
  | transport (detail : String)
  /-- The answer is not what the operation answers with. -/
  | malformed (detail : String)
  deriving DecidableEq, Repr

namespace ServiceError

/-- The code by which the service says that something does not exist. -/
def notFoundCode : String := "NotFoundException"

def message : ServiceError → String
  | api code message => code ++ ": " ++ message
  | transport detail => "transport error: " ++ detail
  | malformed detail => "invalid response: " ++ detail

def code? : ServiceError → Option String
  | api code _ => some code
  | _ => none

def isNotFound (error : ServiceError) : Bool :=
  error.code? == some notFoundCode

end ServiceError

end KeySteward
