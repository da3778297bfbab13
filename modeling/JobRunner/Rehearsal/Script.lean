import JobRunner.Job.Command
import JobRunner.Rehearsal.Stage
/-!
# Scripts

Work that is given by data.  An operation is a list of outcomes, one for each call of it, the last of which repeats;
each may come with commands for the registry that are carried out before it.  A job is a list of steps and an outcome.
While it runs it leaves a trace of what it saw.
-/
namespace JobRunner

/-- An outcome of a scripted operation, and what happens to the registry before it. -/
structure Scripted (α : Type) where
  before : List Command := []
  outcome : Except CapabilityError α

/-- A condition whose probes are scripted. -/
structure ScriptedCondition where
  description : String
  probes : List (String × List (Scripted Bool))
  /-- The condition consists of its first probe alone, which then has the name of the condition. -/
  isSingle : Bool := false

/-- What a scripted job does. -/
inductive ScriptStep where
  | progress (percent : UInt8) (message : String)
  | log (message : String)
  /-- Looks at itself. -/
  | reflect
  /-- Looks at its own record. -/
  | snapshot
  | deleteSelf
  | failSelf (error : String)
  | gate (name : String)
  | crash
  /-- A command for the registry; there is none if nobody understands it. -/
  | command (c : Option Command)
  /-- A fatal failure ends the job. -/
  | retry (name : String) (script : List (Scripted Json)) (policy : Option RetryPolicy) (isFatal : Bool)
  | wait (condition : ScriptedCondition) (policy : Option PollPolicy) (isFatal : Bool)

/-- What a scripted job saw. -/
inductive Trace where
  | reflected (isKnown : Bool) (c : JobContext)
  | record (r : Option JobRecord)
  | deleted (r : Option JobRecord)
  | failedSelf (isWritten : Bool)
  /-- A command that nobody understands has no answer. -/
  | answered (a : Option Command.Answer)
  | retried (r : Except RetryError Json) (calls : Nat)
  | waited (policy : PollPolicy) (r : Except PollTimeout PollOutcome) (calls : List Nat)
  | ended (f : JobFailure)

namespace Script

open Stage

variable {ρ : Type} {S : Interface}

/-- Carries out a command on the registry of a scene. -/
def command (c : Command) (w : Scene ρ) : Command.Answer × Scene ρ := World.onRegistry c.run w

/-- Carries out commands, whose answers nobody looks at. -/
def commands (cs : List Command) (w : Scene ρ) : Scene ρ := cs.foldl (fun w c => (command c w).2) w

/-- The outcome of the call with the given number. -/
def nth? {α : Type} (script : List (Scripted α)) (call : Nat) : Option (Scripted α) :=
  script[min call (script.length - 1)]?

/-- An operation whose calls are counted under a number.  It crashes when its script has no outcome at all. -/
def operation {α : Type} (n : Nat) (script : List (Scripted α)) :
    Routine (Scene ρ) S (Except CapabilityError α) := do
  let outcome ← .atomically fun w =>
    let (calls, w) := Stage.call n w
    match nth? script calls with
    | some s => (some s.outcome, commands s.before w)
    | none => (none, w)
  match outcome with
  | some o => return o
  | none => .crash

end Script

namespace ScriptedCondition

/-- The probes that belong to the condition. -/
def used (c : ScriptedCondition) : List (String × List (Scripted Bool)) :=
  if c.isSingle then (c.probes.take 1).map fun p => (c.description, p.2) else c.probes

/-- The condition, the calls of whose probes are counted under the number `n` and those behind it. -/
def condition {ρ : Type} {S : Interface} (n : Nat) (c : ScriptedCondition) : Condition (Stage.Env ρ) S :=
  ⟨c.description, c.used.zipIdx.map fun p => ⟨p.1.1, Script.operation (n + p.2) p.1.2⟩⟩

/-- How often the probes were called, those that do not belong to the condition among them. -/
def calls {ρ : Type} (n : Nat) (c : ScriptedCondition) (w : Stage.Scene ρ) : List Nat :=
  (List.range c.probes.length).map fun i => Stage.callCount (n + i) w

end ScriptedCondition

namespace Script

open Stage

variable {ρ : Type} {S : Interface}

/-- Leaves a trace of what the scene shows. -/
def trace (leave : Trace → Scene ρ → Scene ρ) (see : Scene ρ → Trace) :
    Routine (Scene ρ) S (Except JobFailure Unit) := do
  act fun w => leave (see w) w
  return .ok ()

/-- The failure of a step, if it ends the job. -/
def fatal {ε α : Type} (isFatal : Bool) (cause : ε → JobFailure) : Except ε α → Except JobFailure Unit
  | .ok _ => .ok ()
  | .error e => if isFatal then .error (cause e) else .ok ()

/-- One step of the job with the given context. -/
def runStep (leave : Trace → Scene ρ → Scene ρ) (c : JobContext) :
    ScriptStep → Routine (Scene ρ) S (Except JobFailure Unit)
  | .progress percent message => .ok <$> c.progress percent message
  | .log message => .ok <$> c.log message
  | .gate name => .ok <$> passGate name
  | .crash => .crash
  | .reflect => trace leave fun w => .reflected (w.registry.get? c.id).isSome c
  | .snapshot => trace leave fun w => .record (w.registry.get? c.id)
  | .deleteSelf => do
    act fun w =>
      let r := w.registry.delete c.id
      leave (.deleted r.1) { w with registry := r.2 }
    return .ok ()
  | .failSelf error => do
    let r ← World.change c.id (.fail error)
    trace leave fun _ => .failedSelf r.isOk
  | .command none => trace leave fun _ => .answered none
  | .command (some command) => do
    act fun w =>
      let r := Script.command command w
      leave (.answered (some r.1)) r.2
    return .ok ()
  | .retry name script policy isFatal => do
    let n ← .atomically (number 1)
    let r ← c.retryWith (policy.getD c.retry) name (operation n script)
    let _ ← trace leave fun w => .retried r (callCount n w)
    return fatal isFatal .retry r
  | .wait condition policy isFatal => do
    let n ← .atomically (number condition.probes.length)
    let policy := policy.getD c.poll
    let r ← c.waitWith policy (condition.condition n)
    let _ ← trace leave fun w => .waited policy r (condition.calls n w)
    return fatal isFatal .poll r

/-- The end of a job, of which a failure leaves a trace. -/
def conclude (leave : Trace → Scene ρ → Scene ρ) : JobContext.Outcome → Routine (Scene ρ) S JobContext.Outcome
  | .ok v => pure (.ok v)
  | .error f => do
    let _ ← trace leave fun _ => .ended f
    return .error f

/-- The steps of a job and then its outcome. -/
def run (leave : Trace → Scene ρ → Scene ρ) (c : JobContext) (outcome : JobContext.Outcome) :
    List ScriptStep → Routine (Scene ρ) S JobContext.Outcome
  | [] => conclude leave outcome
  | s :: rest => do
    match ← runStep leave c s with
    | .ok () => run leave c outcome rest
    | .error f => conclude leave (.error f)

end Script

/-- The tasks of a rehearsal: scripted ones, which leave their trace under a number, and those of a package service. -/
inductive ScriptedTask where
  | script (number : Nat) (steps : List ScriptStep) (outcome : JobContext.Outcome)
  | package (t : PackageTask String)

namespace ScriptedTask

/-- What tasks do; `observe` says how a trace is noted. -/
def work {ρ : Type} (observe : Trace → ρ) : Orchestrator.Work (Stage.Env ρ) ScriptedTask
  | .script n steps outcome, c => Script.run (fun t => Stage.note n (observe t)) c outcome steps
  | .package t, c => PackageService.work Stage.client t c

/-- The package service of a rehearsal. -/
def service {ρ : Type} (config : OrchestratorConfig) : PackageService String (Stage ρ) ScriptedTask :=
  ⟨config, Stage.connect, Stage.client, .package⟩

end ScriptedTask
end JobRunner
