import JobRunner.Capability
import JobRunner.Package.Basic
import JobRunner.World
/-!
# Package clients

What a client for a package deployer can be asked.  A client does not hold the deployer: each call reads and changes it
in the environment, and knows the time at which it is made.
-/
namespace JobRunner

/-- A call that reads and changes an environment and may fail; it is given the time in nanoseconds. -/
abbrev BackendCall (ε α : Type) : Type := Nat → ε → Except CapabilityError α × ε

/-- The calls of a package deployer. -/
structure PackageClient (ε : Type) where
  healthCheck : BackendCall ε Unit
  releaseStatus : (name space : String) → BackendCall ε ReleaseStatus
  install : PackageRequest → BackendCall ε Unit
  upgrade : PackageRequest → BackendCall ε Unit
  uninstall : (name space : String) → (dryRun : Bool) → BackendCall ε Unit
  /-- The resources of a kind in a namespace whose name contains a text. -/
  list : ResourceKind → (space filter : String) → BackendCall ε (List ResourceRef)

namespace PackageClient

variable {ε δ : Type}

/-- A call on a part of an environment. -/
def within {α : Type} (get : δ → ε) (set : ε → δ → δ) (f : BackendCall ε α) : BackendCall δ α :=
  fun now d => let r := f now (get d); (r.1, set r.2 d)

/-- A client whose deployer is a part of an environment. -/
def ofPart (get : δ → ε) (set : ε → δ → δ) (c : PackageClient ε) : PackageClient δ where
  healthCheck := within get set c.healthCheck
  releaseStatus name space := within get set (c.releaseStatus name space)
  install request := within get set (c.install request)
  upgrade request := within get set (c.upgrade request)
  uninstall name space dryRun := within get set (c.uninstall name space dryRun)
  list kind space filter := within get set (c.list kind space filter)

end PackageClient
end JobRunner
