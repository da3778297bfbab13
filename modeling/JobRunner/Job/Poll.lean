import JobRunner.Capability
import JobRunner.Job.Policy
import JobRunner.Text.Quoted
import JobRunner.World
/-!
# Polling

A change that a backend has accepted need not be visible yet.  A condition is a list of named probes, any one of which
confirms it; it is looked at again and again, at a fixed pace, until it holds or the time is over.  A probe that fails
says nothing either way.  All probes are run at each look, so that the log of the job shows the whole picture.
-/
namespace JobRunner

/-- A named question about the world. -/
structure Probe (ε : Type) (S : Interface) where
  name : String
  check : World.Action ε S (Except CapabilityError Bool)

/-- Probes of which any one suffices. -/
structure Condition (ε : Type) (S : Interface) where
  description : String
  probes : List (Probe ε S) := []

/-- What one probe answered. -/
structure ProbeOutcome where
  probe : String
  answer : Except CapabilityError Bool

namespace ProbeOutcome

/-- The probe confirms its condition. -/
def isSatisfied (o : ProbeOutcome) : Bool :=
  match o.answer with
  | .ok b => b
  | .error _ => false

def message (o : ProbeOutcome) : String :=
  match o.answer with
  | .ok true => o.probe ++ ": satisfied"
  | .ok false => o.probe ++ ": not yet"
  | .error e => o.probe ++ ": error: " ++ e.message

end ProbeOutcome

/-- A condition was seen to hold at the look with the given number. -/
structure PollOutcome where
  checks : UInt32
  elapsed : Duration
  deriving DecidableEq, Repr

/-- A condition was not seen to hold in time. -/
structure PollTimeout where
  condition : String
  elapsed : Duration
  checks : UInt32
  deriving DecidableEq, Repr

def PollTimeout.message (t : PollTimeout) : String :=
  "timed out after " ++ t.elapsed.text ++ " waiting for " ++ t.condition ++ " (" ++ Nat.repr t.checks.toNat ++ " checks)"

namespace Condition

variable {ε : Type} {S : Interface}

/-- The condition with the single probe that has its name. -/
def single (description : String) (check : World.Action ε S (Except CapabilityError Bool)) : Condition ε S :=
  ⟨description, [⟨description, check⟩]⟩

/-- The condition with one more probe. -/
def orProbe (c : Condition ε S) (name : String) (check : World.Action ε S (Except CapabilityError Bool)) :
    Condition ε S :=
  { c with probes := c.probes ++ [⟨name, check⟩] }

/-- The form in which a condition appears in messages. -/
def text (c : Condition ε S) : String :=
  "Condition \x7b description: " ++ Text.quote c.description ++ ", probes: " ++ Text.quoteAll (c.probes.map (·.name)) ++
    " \x7d"

/-- Runs every probe once, in order. -/
def runProbes : List (Probe ε S) → World.Action ε S (List ProbeOutcome)
  | [] => pure []
  | p :: ps => do
    let answer ← p.check
    let rest ← runProbes ps
    return ⟨p.name, answer⟩ :: rest

/-- One look at a condition: whether it holds, and what each probe answered. -/
def evaluate (c : Condition ε S) : World.Action ε S (Bool × List ProbeOutcome) := do
  let outcomes ← runProbes c.probes
  return (outcomes.any (·.isSatisfied), outcomes)

end Condition

namespace Poll

variable {ε : Type} {S : Interface}

/-- Clocks show times below this number of nanoseconds; a deadline beyond it does not exist. -/
def clockLimit : Nat := Nat.pow 2 63 * 1000000000

/-- The point in time at which a wait is over, if clocks can show it. -/
def deadline? (start : Nat) (timeout : Duration) : Option Nat :=
  if start + timeout.nanos < clockLimit then some (start + timeout.nanos) else none

/-- The time left; a wait without a deadline has all the time there is. -/
def remaining (deadline : Option Nat) (now : Nat) : Duration :=
  match deadline with
  | some d => .between now d
  | none => .longest

def waitingLine (policy : PollPolicy) (description : String) : String :=
  "waiting up to " ++ policy.timeout.text ++ " for " ++ description ++ " (every " ++ policy.pace.text ++ ")"

def checkLine (check : UInt32) (o : ProbeOutcome) : String := "check " ++ Nat.repr check.toNat ++ ": " ++ o.message

def confirmedLine (description : String) (o : PollOutcome) : String :=
  description ++ " confirmed after " ++ Nat.repr o.checks.toNat ++ " check(s) in " ++ o.elapsed.text

/-- The time is over: what is left of it is slept through, and the wait ends. -/
def giveUp (id : JobId) (description : String) (start : Nat) (left : Duration) (checks : UInt32) :
    World.Action ε S (Except PollTimeout PollOutcome) := do
  World.sleep left
  let now ← World.now
  let timeout : PollTimeout := ⟨description, .between start now, checks⟩
  World.report id (.log timeout.message)
  return .error timeout

/-- The condition holds. -/
def confirm (id : JobId) (description : String) (start : Nat) (checks : UInt32) :
    World.Action ε S (Except PollTimeout PollOutcome) := do
  let now ← World.now
  let outcome : PollOutcome := ⟨checks, .between start now⟩
  World.report id (.log (confirmedLine description outcome))
  return .ok outcome

/-- The wait after the given number of looks, for `left` more of which clocks can show the time.  The number of looks
wraps around. -/
def looksFrom (id : JobId) (condition : Condition ε S) (pace : Duration) (start : Nat) (deadline : Option Nat) :
    (left : Nat) → (checks : UInt32) → World.Action ε S (Except PollTimeout PollOutcome)
  | left, checks => do
    let time := remaining deadline (← World.now)
    if time.nanos < pace.nanos then giveUp id condition.description start time checks
    else do
      World.sleep pace
      match left with
      | 0 => .hang
      | left + 1 =>
        let (holds, outcomes) ← condition.evaluate
        World.reportAll id (outcomes.map (checkLine (checks + 1)))
        if holds then confirm id condition.description start (checks + 1)
        else looksFrom id condition pace start deadline left (checks + 1)

/-- The number of looks for which clocks can show the time, when there is a tick before each. -/
def mostLooks (pace : Duration) : Nat := clockLimit / pace.nanos

/-- Looks at a condition until it holds or the time is over.  The first look is one tick after the start. -/
def run (id : JobId) (condition : Condition ε S) (policy : PollPolicy) :
    World.Action ε S (Except PollTimeout PollOutcome) := do
  let start ← World.now
  World.report id (.log (waitingLine policy condition.description))
  looksFrom id condition policy.pace start (deadline? start policy.timeout) (mostLooks policy.pace) 0

end Poll
end JobRunner
