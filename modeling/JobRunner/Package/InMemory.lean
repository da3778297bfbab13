import JobRunner.Package.Client
import JobRunner.Table
import JobRunner.Text.Search
/-!
# The in-memory deployer

A deployer that keeps its releases in a table.  An accepted change shows only after a lag, one for the status of releases
and one for the list of resources, so that whoever made the change has to look for it as with a real deployer.  Calls of
any kind are counted, and can be told to fail a number of times.
-/
namespace JobRunner

/-- The kinds of calls that are counted and that can be told to fail. -/
inductive CallKind where
  | healthCheck
  | releaseStatus
  | install
  | upgrade
  | uninstall
  | listResources
  deriving DecidableEq, Repr

/-- The name of a kind of call in messages. -/
def CallKind.name : CallKind → String
  | healthCheck => "HealthCheck"
  | releaseStatus => "ReleaseStatus"
  | install => "Install"
  | upgrade => "Upgrade"
  | uninstall => "Uninstall"
  | listResources => "ListResources"

/-- What can be seen of a release at some time. -/
structure Snapshot where
  isPresent : Bool := false
  version : Option String := none
  deriving DecidableEq, Repr

/-- A release with its last change. -/
structure Release where
  source : String
  previous : Snapshot
  current : Snapshot
  /-- When the last change was accepted, in nanoseconds. -/
  changedAt : Nat
  deriving DecidableEq, Repr

/-- The namespace and the name of a release. -/
structure ReleaseKey where
  space : String
  name : String
  deriving DecidableEq, Repr

/-- A deployer. -/
structure InMemoryDeployer where
  statusLag : Duration := .zero
  resourceLag : Duration := .zero
  releases : Table ReleaseKey Release := .empty
  /-- How many of the next calls of a kind fail. -/
  failures : Table CallKind UInt32 := .empty
  /-- How often calls of a kind were made; the numbers wrap around. -/
  calls : Table CallKind UInt32 := .empty
  unhealthy : Option String := none

namespace InMemoryDeployer

/-! ## Set up -/

/-- How often calls of a kind were made, failed ones included. -/
def callCount (d : InMemoryDeployer) (k : CallKind) : UInt32 := d.calls.getD k 0

/-- How many of the next calls of a kind fail. -/
def failuresLeft (d : InMemoryDeployer) (k : CallKind) : UInt32 := d.failures.getD k 0

/-- The next calls of a kind fail, so many of them. -/
def failNext (k : CallKind) (times : UInt32) (d : InMemoryDeployer) : InMemoryDeployer :=
  { d with failures := d.failures.insert k times }

def setUnhealthy (reason : Option String) (d : InMemoryDeployer) : InMemoryDeployer := { d with unhealthy := reason }

/-- A release that was installed long ago. -/
def seed (name space : String) (version : Option String) (now : Nat) (d : InMemoryDeployer) : InMemoryDeployer :=
  let snapshot : Snapshot := ⟨true, version⟩
  { d with releases := d.releases.insert ⟨space, name⟩ ⟨"seed", snapshot, snapshot, now⟩ }

/-! ## Calls -/

/-- Counts a call, and fails it if calls of its kind are to fail. -/
def enter (k : CallKind) (d : InMemoryDeployer) : Except CapabilityError Unit × InMemoryDeployer :=
  let d := { d with calls := d.calls.insert k (d.callCount k + 1) }
  if d.failuresLeft k = 0 then (.ok (), d)
  else (.error (.unavailable (k.name ++ " injected failure")),
    { d with failures := d.failures.insert k (d.failuresLeft k - 1) })

/-- A call that is counted and may be told to fail. -/
def counted {α : Type} (k : CallKind) (f : BackendCall InMemoryDeployer α) : BackendCall InMemoryDeployer α :=
  fun now d =>
    match d.enter k with
    | (.error e, d) => (.error e, d)
    | (.ok (), d) => f now d

/-- What can be seen of a release behind a lag. -/
def observed (r : Release) (lag : Duration) (now : Nat) : Snapshot :=
  if lag.nanos ≤ now - r.changedAt then r.current else r.previous

/-- The release, if its last change did not remove it. -/
def present? (d : InMemoryDeployer) (k : ReleaseKey) : Option Release :=
  (d.releases.get? k).filter (·.current.isPresent)

/-- The release with one more change. -/
def changed (r : Release) (current : Snapshot) (now : Nat) : Release :=
  { r with previous := r.current, current, changedAt := now }

def put (d : InMemoryDeployer) (k : ReleaseKey) (r : Release) : InMemoryDeployer :=
  { d with releases := d.releases.insert k r }

def missing (name space : String) : CapabilityError := .notFound ("release " ++ name ++ " in " ++ space)

def healthCheck : BackendCall InMemoryDeployer Unit := counted .healthCheck fun _ d =>
  match d.unhealthy with
  | some reason => (.error (.unavailable reason), d)
  | none => (.ok (), d)

/-- What a release shows of itself. -/
def statusOf (r : Release) (s : Snapshot) : ReleaseStatus :=
  if s.isPresent then
    let details := Labels.empty.insert "chart" r.source
    .present (match s.version with
      | some v => details.insert "version" v
      | none => details)
  else .absent

def releaseStatus (name space : String) : BackendCall InMemoryDeployer ReleaseStatus :=
  counted .releaseStatus fun now d =>
    match d.releases.get? ⟨space, name⟩ with
    | none => (.ok .absent, d)
    | some r => (.ok (statusOf r (observed r d.statusLag now)), d)

def install (request : PackageRequest) : BackendCall InMemoryDeployer Unit := counted .install fun now d =>
  let key : ReleaseKey := ⟨request.space, request.name⟩
  match d.present? key with
  | some _ => (.error (.rejected ("release " ++ request.name ++ " already exists in " ++ request.space)), d)
  | none => (.ok (), d.put key ⟨request.source, {}, ⟨true, request.version⟩, now⟩)

def upgrade (request : PackageRequest) : BackendCall InMemoryDeployer Unit := counted .upgrade fun now d =>
  let key : ReleaseKey := ⟨request.space, request.name⟩
  match d.present? key with
  | none => (.error (missing request.name request.space), d)
  | some r => (.ok (), d.put key { changed r ⟨true, request.version⟩ now with source := request.source })

def uninstall (name space : String) (dryRun : Bool) : BackendCall InMemoryDeployer Unit :=
  counted .uninstall fun now d =>
    let key : ReleaseKey := ⟨space, name⟩
    match d.present? key with
    | none => (.error (missing name space), d)
    | some r => (.ok (), if dryRun then d else d.put key (changed r {} now))

/-- The name of the one resource of a kind that a release leaves. -/
def resourceName (kind : ResourceKind) (release : String) : String :=
  match kind with
  | .pod => release ++ "-0"
  | .configMap => release ++ "-config"
  | .secret => "sh.release.v1." ++ release

/-- The resource of a kind that can be seen of a release. -/
def resource? (d : InMemoryDeployer) (kind : ResourceKind) (space filter : String) (now : Nat)
    (e : ReleaseKey × Release) : Option ResourceRef :=
  let name := resourceName kind e.1.name
  if e.1.space = space ∧ (observed e.2 d.resourceLag now).isPresent ∧ Text.contains name filter then
    some ⟨kind, space, name⟩
  else none

def list (kind : ResourceKind) (space filter : String) : BackendCall InMemoryDeployer (List ResourceRef) :=
  counted .listResources fun now d =>
    let found := d.releases.entries.filterMap (d.resource? kind space filter now)
    (.ok (found.mergeSort fun a b => a.name ≤ b.name), d)

/-- The client of a deployer. -/
def client : PackageClient InMemoryDeployer := ⟨healthCheck, releaseStatus, install, upgrade, uninstall, list⟩

end InMemoryDeployer
end JobRunner
