import JobRunner.Config
import JobRunner.Job.Context
import JobRunner.Pool.Step
/-!
# The orchestrator

A registry of jobs and a pool that runs their work.  Spawning a job registers it first and then hands its work to the
pool; whatever happens after the identifier was given out is written into the record of the job.  The work of a job is
described by a task, and `work` says what a task does; it may itself spawn jobs and close the pool.
-/
namespace JobRunner

/-- A unit of work for the pool: a task, and the job on whose behalf it runs. -/
structure Job (τ : Type) where
  context : JobContext
  task : τ

namespace Orchestrator

variable {ε τ : Type}

/-- A routine of a thread that can spawn jobs. -/
abbrev Action (ε τ α : Type) : Type := World.Action ε (Pool.interface (Job τ)) α

/-- What tasks do. -/
abbrev Work (ε τ : Type) : Type := τ → JobContext → Action ε τ JobContext.Outcome

/-- The error of a job whose work crashed. -/
def crashFailure : JobFailure := .message "job panicked"

/-- The error of a job that came too late. -/
def rejectedMessage : String := "worker pool is shut down"

/-- What the pool runs for a job: its work between the first and the last change of its record. -/
def unit (work : Work ε τ) (job : Job τ) : Action ε τ Unit := do
  job.context.progress 0 "job started"
  let ended ← (work job.task job.context).attempt
  job.context.finish (ended.getD (.error crashFailure))

/-- The given identifier, or a new one. -/
def identify (id? : Option JobId) : Action ε τ JobId :=
  match id? with
  | some id => pure id
  | none => World.mint

/-- Registers a job and hands its work to the pool. -/
def spawn (config : OrchestratorConfig) (id? : Option JobId) (metadata : Labels) (task : τ) :
    Action ε τ (Except JobError JobId) := do
  let id ← identify id?
  match ← World.create id metadata with
  | .error e => return .error e
  | .ok _ =>
    match ← Pool.submit ⟨⟨id, config.retry, config.poll⟩, task⟩ with
    | .rejected =>
      match ← World.change id (.fail rejectedMessage) with
      | .error e => return .error e
      | .ok () => return .ok id
    | _ => return .ok id

/-- Registers a job that has no work. -/
def createJob (id? : Option JobId) (metadata : Labels) : Action ε τ (Except JobError JobRecord) := do
  World.create (← identify id?) metadata

/-- Takes no more work and waits for the work that was taken. -/
def shutdown : Action ε τ Unit := Pool.close

end Orchestrator

/-- A configuration, and the pool with the world that it works on. -/
structure Orchestrator (ε τ : Type) where
  config : OrchestratorConfig
  pool : Pool (World ε) (Job τ)

namespace Orchestrator

variable {ε τ : Type}

def start (config : OrchestratorConfig) (work : Work ε τ) (world : World ε) : Orchestrator ε τ :=
  ⟨config, .start Pool.standardName config.workers.toNat (unit work) world⟩

/-- An orchestrator, unless its pool cannot start. -/
def start? (config : OrchestratorConfig) (work : Work ε τ) (world : World ε) : Option (Orchestrator ε τ) :=
  if Pool.canStart Pool.standardName config.workers.toNat then some (start config work world) else none

def world (o : Orchestrator ε τ) : World ε := o.pool.shared

def registry (o : Orchestrator ε τ) : Registry := o.world.registry

def job (o : Orchestrator ε τ) (id : JobId) : Option JobRecord := o.registry.get? id

/-- All jobs, oldest first. -/
def jobs (o : Orchestrator ε τ) : List JobRecord := o.registry.list

def jobLogs (o : Orchestrator ε τ) (id : JobId) : Option (List LogEntry) := (o.job id).map (·.logs)

def jobStats (o : Orchestrator ε τ) : JobStats := o.registry.stats

def poolStats (o : Orchestrator ε τ) : Pool.Stats := o.pool.stats

/-- The orchestrator in another world. -/
def withWorld (o : Orchestrator ε τ) (f : World ε → World ε) : Orchestrator ε τ :=
  { o with pool := { o.pool with shared := f o.pool.shared } }

/-- Removes a job. -/
def deleteJob (o : Orchestrator ε τ) (id : JobId) : Option JobRecord × Orchestrator ε τ :=
  let r := o.registry.delete id
  (r.1, o.withWorld fun w => { w with registry := r.2 })

end Orchestrator
end JobRunner
