import JobRunner.Cache.Client
import JobRunner.Orchestrator
import JobRunner.Package.Jobs
/-!
# The package service

Releases are installed, upgraded and removed by jobs that work through cached clients.  A request first gets the client
of its connection, which may have to be built; only then is a job spawned.  A request that is refused leaves no job
behind.
-/
namespace JobRunner

/-- Why a request was refused. -/
inductive ServiceError where
  | client (e : CapabilityError)
  | job (e : JobError)
  deriving DecidableEq, Repr

def ServiceError.message : ServiceError → String
  | client e => "client unavailable: " ++ e.message
  | job e => e.message

/-- What the jobs of a package service share beside the registry: the cached clients, and what lies outside. -/
structure ServiceEnv (γ ω : Type) where
  cache : ClientCache γ CapabilityError
  outside : ω

/-- What a job of the service does, and through which client. -/
inductive PackageTask (γ : Type) where
  | install (client : γ) (request : PackageRequest)
  | upgrade (client : γ) (request : PackageRequest)
  | uninstall (client : γ) (name space : String) (dryRun : Bool)

/-- A service for tasks of which package tasks are a part. -/
structure PackageService (γ ω τ : Type) where
  config : OrchestratorConfig
  /-- Builds a client for a connection. -/
  connect : ConnectionConfig → Nat → ω → CacheAnswer γ CapabilityError × ω
  /-- What the deployer behind a client does. -/
  deployer : γ → PackageClient ω
  task : PackageTask γ → τ

namespace PackageService

variable {γ ω τ : Type} {S : Interface}

/-- An operation on the cached clients. -/
def onCache {α : Type} (f : Nat → ClientCache γ CapabilityError → α × ClientCache γ CapabilityError) :
    World.Action (ServiceEnv γ ω) S α :=
  World.withEnv fun now env => let r := f now env.cache; (r.1, { env with cache := r.2 })

/-- The deployer behind a client, as a part of what jobs share. -/
def clientOf (deployer : γ → PackageClient ω) (client : γ) : PackageClient (ServiceEnv γ ω) :=
  .ofPart (·.outside) (fun outside env => { env with outside }) (deployer client)

/-- What the tasks of a service do. -/
def work (deployer : γ → PackageClient ω) (task : PackageTask γ) (c : JobContext) :
    World.Action (ServiceEnv γ ω) S JobContext.Outcome :=
  match task with
  | .install client request => PackageJob.install (clientOf deployer client) request c
  | .upgrade client request => PackageJob.upgrade (clientOf deployer client) request c
  | .uninstall client name space dryRun => PackageJob.uninstall (clientOf deployer client) name space dryRun c

/-! ## Clients -/

/-- One step of a call for a client, as soon as it has one. -/
def callStep (n : Nat) : World.Action (ServiceEnv γ ω) S Unit :=
  .step (fun w => (w.env.cache.step n w.clock.read).isSome)
    (fun w => { w with
      clock := w.clock.tick
      env := { w.env with cache := (w.env.cache.step n w.clock.read).getD w.env.cache } })
    fun _ => .done ()

/-- Takes a call on until its client has to be built or it has returned, in at most `fuel` steps. -/
def goOn (n : Nat) : (fuel : Nat) → World.Action (ServiceEnv γ ω) S Unit
  | 0 => pure ()
  | fuel + 1 => do
    if ← onCache fun _ c => (c.isBuilding n || (c.answer? n).isSome, c) then pure ()
    else do
      callStep n
      goOn n fuel

/-- The cached client under a key, or a new one. -/
def getOrCreate (key : CacheKey) (build : Nat → ω → CacheAnswer γ CapabilityError × ω) :
    World.Action (ServiceEnv γ ω) S (Except CapabilityError γ) := do
  let n ← onCache fun _ c => c.arrive key
  goOn n ClientCache.stages
  if ← onCache fun _ c => (c.isBuilding n, c) then do
    let built ← World.withEnv fun now env => let r := build now env.outside; (r.1, { env with outside := r.2 })
    onCache fun _ c => ((), (c.report n built).getD c)
    goOn n ClientCache.stages
  match ← onCache fun _ c => (c.answer? n, c.dismiss n) with
  | some (.client client) => return .ok client
  | some (.failed e) => return .error e
  | _ => .crash

/-- The client for a connection; only connections to package deployers have one here. -/
def client (s : PackageService γ ω τ) (conn : ConnectionConfig) :
    World.Action (ServiceEnv γ ω) S (Except CapabilityError γ) :=
  if conn.target = .packages then getOrCreate (.ofConnection conn) (s.connect conn)
  else pure (.error (.rejected (conn.target.name ++ " connection cannot deploy packages")))

/-- The client for a connection answers. -/
def healthCheck (s : PackageService γ ω τ) (conn : ConnectionConfig) :
    World.Action (ServiceEnv γ ω) S (Except ServiceError Unit) := do
  match ← s.client conn with
  | .error e => return .error (.client e)
  | .ok client =>
    let answer ← World.withEnv (clientOf s.deployer client).healthCheck
    return answer.mapError .client

/-! ## Requests -/

/-- What is noted about a job of the service. -/
def metadata (operation release space : String) (conn : ConnectionConfig) : Labels :=
  .ofList [("operation", operation), ("release", release), ("namespace", space), ("target", conn.target.name)]

/-- Gets a client and spawns a job that uses it. -/
def request (s : PackageService γ ω τ) (conn : ConnectionConfig) (metadata : Labels) (task : γ → PackageTask γ) :
    Orchestrator.Action (ServiceEnv γ ω) τ (Except ServiceError JobId) := do
  match ← s.client conn with
  | .error e => return .error (.client e)
  | .ok client =>
    return (← Orchestrator.spawn s.config none metadata (s.task (task client))).mapError .job

def install (s : PackageService γ ω τ) (conn : ConnectionConfig) (r : PackageRequest) :
    Orchestrator.Action (ServiceEnv γ ω) τ (Except ServiceError JobId) :=
  s.request conn (metadata "install" r.name r.space conn) fun client => .install client r

def upgrade (s : PackageService γ ω τ) (conn : ConnectionConfig) (r : PackageRequest) :
    Orchestrator.Action (ServiceEnv γ ω) τ (Except ServiceError JobId) :=
  s.request conn (metadata "upgrade" r.name r.space conn) fun client => .upgrade client r

def uninstall (s : PackageService γ ω τ) (conn : ConnectionConfig) (name space : String) (dryRun : Bool) :
    Orchestrator.Action (ServiceEnv γ ω) τ (Except ServiceError JobId) :=
  s.request conn ((metadata "uninstall" name space conn).insert "dry_run" (if dryRun then "true" else "false"))
    fun client => .uninstall client name space dryRun

end PackageService
end JobRunner
