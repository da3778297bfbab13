/-!
# Capability errors

What a backend answers when it does not do what it was asked.  Whoever runs a job needs only the wording and whether the
same request may succeed later.
-/
namespace JobRunner

/-- A refusal or failure of a backend, with the backend's own words. -/
inductive CapabilityError where
  /-- The backend could not be reached. -/
  | unavailable (text : String)
  /-- What was asked for does not exist. -/
  | notFound (text : String)
  /-- The backend refuses the request. -/
  | rejected (text : String)
  /-- The backend did not answer in time. -/
  | timeout (text : String)
  /-- Anything else. -/
  | other (text : String)
  deriving DecidableEq, Repr

namespace CapabilityError

/-- The wording of an error. -/
def message : CapabilityError → String
  | unavailable text => "backend unavailable: " ++ text
  | notFound text => "not found: " ++ text
  | rejected text => "rejected: " ++ text
  | timeout text => "timed out: " ++ text
  | other text => text

/-- A later attempt may succeed although nobody changes the request. -/
def isTransient : CapabilityError → Bool
  | unavailable _ | timeout _ => true
  | _ => false

end CapabilityError
end JobRunner
