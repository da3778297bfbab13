import JobRunner.Job.Context
import JobRunner.Package.Client
/-!
# Package jobs

The work of jobs that install, upgrade and remove releases.  A deployer that has accepted a change need not show it yet,
so each job first attempts its call under the retry policy and then waits until the change is seen, in the status of the
release or in the list of resources.
-/
namespace JobRunner
namespace PackageJob

variable {ε : Type} {S : Interface}

/-- A call as one step. -/
def ask {α : Type} (f : BackendCall ε α) : World.Action ε S (Except CapabilityError α) := World.withEnv f

/-- Some resource of one of the given kinds has a name that contains the name of the release; kinds behind the first one
with such a resource are not listed. -/
def anyResource (client : PackageClient ε) (space release : String) :
    List ResourceKind → World.Action ε S (Except CapabilityError Bool)
  | [] => pure (.ok false)
  | kind :: kinds => do
    match ← ask (client.list kind space release) with
    | .error e => return .error e
    | .ok [] => anyResource client space release kinds
    | .ok _ => return .ok true

def resourcesPresent (client : PackageClient ε) (space release : String) :
    World.Action ε S (Except CapabilityError Bool) :=
  anyResource client space release [.pod, .configMap, .secret]

/-- A question about the status of a release. -/
def statusProbe (client : PackageClient ε) (name space : String) (test : ReleaseStatus → Bool) :
    World.Action ε S (Except CapabilityError Bool) := do
  return (← ask (client.releaseStatus name space)).map test

/-- The result of a job that saw its change. -/
def summary (operation release space : String) (o : PollOutcome) : Json :=
  .obj [("operation", .str operation), ("release", .str release), ("namespace", .str space),
    ("checks", .int o.checks.toNat), ("elapsed_ms", .int o.elapsed.millis.toNat)]

/-- Waits for the change and sums up. -/
def confirm (c : JobContext) (operation participle name space : String) (condition : Condition ε S) :
    World.Action ε S JobContext.Outcome := do
  c.progress 60 ("confirming " ++ name ++ " is " ++ participle)
  match ← c.wait condition with
  | .error t => return .error (.poll t)
  | .ok outcome => return .ok (summary operation name space outcome)

/-- The condition that a release was changed, as seen by two probes. -/
def condition (name participle probeName : String) (status resources : World.Action ε S (Except CapabilityError Bool)) :
    Condition ε S :=
  ((Condition.mk ("release " ++ name ++ " " ++ participle) []).orProbe probeName status).orProbe "release resources"
    resources

def installed (client : PackageClient ε) (name space : String) : Condition ε S :=
  condition name "installed" "release status" (statusProbe client name space (·.installed))
    (resourcesPresent client space name)

/-- A release without a wanted version is upgraded when it is installed at all. -/
def upgraded (client : PackageClient ε) (name space : String) (wanted : Option String) : Condition ε S :=
  condition name "upgraded" "release version"
    (statusProbe client name space fun s => s.installed && wanted.all fun v => s.version == some v)
    (resourcesPresent client space name)

def removed (client : PackageClient ε) (name space : String) : Condition ε S :=
  condition name "removed" "release status" (statusProbe client name space (!·.installed)) do
    return (← resourcesPresent client space name).map (!·)

/-- Installs a release. -/
def install (client : PackageClient ε) (request : PackageRequest) (c : JobContext) :
    World.Action ε S JobContext.Outcome := do
  let name := request.name
  c.log ("installing " ++ name ++ " from " ++ request.source ++ " into " ++ request.space)
  match ← c.attempt ("install " ++ name) (ask (client.install request)) with
  | .error e => return .error (.retry e)
  | .ok () => confirm c "install" "installed" name request.space (installed client name request.space)

/-- Brings a release to the requested version. -/
def upgrade (client : PackageClient ε) (request : PackageRequest) (c : JobContext) :
    World.Action ε S JobContext.Outcome := do
  let name := request.name
  c.log ("upgrading " ++ name ++ " in " ++ request.space ++ " to " ++ request.version.getD "latest")
  match ← c.attempt ("upgrade " ++ name) (ask (client.upgrade request)) with
  | .error e => return .error (.retry e)
  | .ok () => confirm c "upgrade" "upgraded" name request.space (upgraded client name request.space request.version)

/-- The result of a job that only asked whether a release could be removed. -/
def dryRunSummary (release space : String) : Json :=
  .obj [("operation", .str "uninstall"), ("release", .str release), ("namespace", .str space),
    ("dry_run", .bool true), ("checks", .int 0)]

/-- Removes a release, or only asks whether it could be removed. -/
def uninstall (client : PackageClient ε) (name space : String) (dryRun : Bool) (c : JobContext) :
    World.Action ε S JobContext.Outcome := do
  c.log ("uninstalling " ++ name ++ " from " ++ space ++ (if dryRun then " (dry run)" else ""))
  match ← c.attempt ("uninstall " ++ name) (ask (client.uninstall name space dryRun)) with
  | .error e => return .error (.retry e)
  | .ok () =>
    if dryRun then do
      c.log "dry run: nothing removed"
      return .ok (dryRunSummary name space)
    else confirm c "uninstall" "removed" name space (removed client name space)

end PackageJob
end JobRunner
