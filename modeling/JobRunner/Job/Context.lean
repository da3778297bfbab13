import JobRunner.Job.Poll
import JobRunner.Job.Retry
/-!
# Job contexts

What the work of a job is given to report on its own job: the identifier under which to report, and the policies under
which to retry and to wait.  Nothing tells the work that its job is gone or closed; what it reports is then dropped.
-/
namespace JobRunner

/-- Why the work of a job failed. -/
inductive JobFailure where
  | capability (e : CapabilityError)
  | retry (e : RetryError)
  | poll (t : PollTimeout)
  | message (text : String)
  deriving DecidableEq, Repr

namespace JobFailure

/-- The wording of a failure, which becomes the error of the job. -/
def text : JobFailure → String
  | capability e => e.message
  | retry e => e.message
  | poll t => t.message
  | message text => text

/-- A request was accepted, but its effect was not seen in time. -/
def isTimeout : JobFailure → Bool
  | poll _ => true
  | _ => false

end JobFailure

/-- The job that some work belongs to, and its policies. -/
structure JobContext where
  id : JobId
  retry : RetryPolicy
  poll : PollPolicy
  deriving DecidableEq, Repr

namespace JobContext

variable {ε α : Type} {S : Interface}

/-- How the work of a job ends: with a result or with a failure. -/
abbrev Outcome : Type := Except JobFailure Json

def progress (c : JobContext) (percent : UInt8) (message : String) : World.Action ε S Unit :=
  World.report c.id (.progress percent message)

def log (c : JobContext) (message : String) : World.Action ε S Unit := World.report c.id (.log message)

/-- Attempts an operation under a policy of its own. -/
def retryWith (c : JobContext) (policy : RetryPolicy) (name : String)
    (operation : World.Action ε S (Except CapabilityError α)) : World.Action ε S (Except RetryError α) :=
  Retry.run c.id name policy operation

/-- Attempts an operation under the policy of the job. -/
def attempt (c : JobContext) (name : String) (operation : World.Action ε S (Except CapabilityError α)) :
    World.Action ε S (Except RetryError α) :=
  c.retryWith c.retry name operation

/-- Waits for a condition under a policy of its own. -/
def waitWith (c : JobContext) (policy : PollPolicy) (condition : Condition ε S) :
    World.Action ε S (Except PollTimeout PollOutcome) :=
  Poll.run c.id condition policy

/-- Waits for a condition under the policy of the job. -/
def wait (c : JobContext) (condition : Condition ε S) : World.Action ε S (Except PollTimeout PollOutcome) :=
  c.waitWith c.poll condition

/-- The change that an outcome makes to the job. -/
def closing : Outcome → Change
  | .ok result => .complete result
  | .error failure => .fail failure.text

/-- Writes down how the work ended. -/
def finish (c : JobContext) (outcome : Outcome) : World.Action ε S Unit := World.report c.id (closing outcome)

end JobContext
end JobRunner
