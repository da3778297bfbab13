import JobRunner.Capability
import JobRunner.Job.Policy
import JobRunner.World
/-!
# Retries

An operation that may fail is attempted a bounded number of times, with a pause after each failure but the last.  Each
attempt, each failure and the success are told in the log of the job on whose behalf it runs; whether a failure of all
attempts ends the job is not decided here.
-/
namespace JobRunner

/-- All attempts failed; the source is the error of the last one. -/
structure RetryError where
  operation : String
  attempts : Nat
  source : CapabilityError
  deriving DecidableEq, Repr

def RetryError.message (e : RetryError) : String :=
  e.operation ++ " failed after " ++ Nat.repr e.attempts ++ " attempt(s): " ++ e.source.message

namespace Retry

variable {ε α : Type} {S : Interface}

/-- What is said before an attempt. -/
def attemptLine (name : String) (attempt attempts : Nat) : String :=
  name ++ " (attempt " ++ Nat.repr attempt ++ "/" ++ Nat.repr attempts ++ ")"

def successLine (name : String) (attempt : Nat) : String :=
  name ++ " succeeded after " ++ Nat.repr attempt ++ " attempt(s)"

def failureLine (name : String) (e : CapabilityError) : String := name ++ " failed: " ++ e.message

/-- Sleeps between two attempts, unless there is no pause. -/
def pause (d : Duration) : World.Action ε S Unit := if d = .zero then pure () else World.sleep d

/-- The attempts from the given one on, after which `left` more may follow. -/
def attemptsFrom (id : JobId) (name : String) (policy : RetryPolicy)
    (operation : World.Action ε S (Except CapabilityError α)) :
    (left attempt : Nat) → World.Action ε S (Except RetryError α)
  | left, attempt => do
    let line := attemptLine name attempt policy.attempts.toNat
    World.report id (.progress (policy.progressBefore (.ofNat attempt)) line)
    World.report id (.log line)
    match ← operation with
    | .ok a =>
      World.report id (.log (successLine name attempt))
      return .ok a
    | .error e =>
      World.report id (.log (failureLine name e))
      match left with
      | 0 => return .error ⟨name, attempt, e⟩
      | left + 1 =>
        pause policy.delay
        attemptsFrom id name policy operation left (attempt + 1)

/-- Attempts an operation until it succeeds or the policy allows no more attempts. -/
def run (id : JobId) (name : String) (policy : RetryPolicy)
    (operation : World.Action ε S (Except CapabilityError α)) : World.Action ε S (Except RetryError α) :=
  attemptsFrom id name policy operation (policy.attempts.toNat - 1) 1

end Retry
end JobRunner
