import JobRunner.Package.InMemory
import JobRunner.Package.Service
/-!
# Stages

A rehearsal runs jobs in a world where everything outside is scripted: how often a script was called, which gates were
reached and opened, which deployers there are, and how attempts to connect to them end.  What is worth remembering is
noted under a number; `ρ` is the type of notes.
-/
namespace JobRunner

/-- What lies outside the library in a rehearsal. -/
structure Stage (ρ : Type) where
  /-- How often the script with a number was called. -/
  counts : Table Nat Nat := .empty
  /-- What was noted under a number, oldest first. -/
  notes : Table Nat (List ρ) := .empty
  /-- Numbers below this one are in use. -/
  numbers : Nat := 0
  started : List String := []
  opened : List String := []
  /-- The units that ran, oldest first. -/
  finished : List String := []
  deployers : Table String InMemoryDeployer := .empty
  /-- A deployer that nobody has used yet. -/
  fresh : InMemoryDeployer := {}
  /-- How the attempts to connect end; those behind the last one succeed. -/
  connects : List (Option CapabilityError) := []
  connected : Nat := 0
  /-- Each context has a deployer of its own. -/
  perContext : Bool := false

namespace Stage

variable {ρ : Type}

/-- The environment of a rehearsal; clients are known by the names of their deployers. -/
abbrev Env (ρ : Type) : Type := ServiceEnv String (Stage ρ)

/-- The world of a rehearsal. -/
abbrev Scene (ρ : Type) : Type := World (Env ρ)

/-- The deployer with the given name. -/
def deployer (name : String) (s : Stage ρ) : InMemoryDeployer := (s.deployers.get? name).getD s.fresh

def setDeployer (name : String) (d : InMemoryDeployer) (s : Stage ρ) : Stage ρ :=
  { s with deployers := s.deployers.insert name d }

/-- The client of the deployer with the given name. -/
def client (name : String) : PackageClient (Stage ρ) :=
  .ofPart (deployer name) (setDeployer name) InMemoryDeployer.client

/-- The name of the deployer that a connection leads to. -/
def deployerName (context : Option String) (s : Stage ρ) : String := if s.perContext then context.getD "" else ""

/-- Connects, or fails as scripted. -/
def connect (conn : ConnectionConfig) (_ : Nat) (s : Stage ρ) : CacheAnswer String CapabilityError × Stage ρ :=
  let answer : CacheAnswer String CapabilityError :=
    match (s.connects[s.connected]?).getD none with
    | some e => .failed e
    | none => .client (s.deployerName conn.context)
  (answer, { s with connected := s.connected + 1 })

/-! ## Steps on a stage -/

variable {S : Interface}

/-- Changes the stage of a scene. -/
def update (f : Stage ρ → Stage ρ) (w : Scene ρ) : Scene ρ :=
  { w with env := { w.env with outside := f w.env.outside } }

def stage (w : Scene ρ) : Stage ρ := w.env.outside

/-- How often the script with a number was called. -/
def callCount (n : Nat) (w : Scene ρ) : Nat := (stage w).counts.getD n 0

/-- What was noted under a number. -/
def noted (n : Nat) (w : Scene ρ) : List ρ := (stage w).notes.getD n []

/-- A change of the scene as a step. -/
def act (f : Scene ρ → Scene ρ) : Routine (Scene ρ) S Unit := .atomically fun w => ((), f w)

/-- So many new numbers, the first of which is the value. -/
def number (count : Nat) (w : Scene ρ) : Nat × Scene ρ :=
  ((stage w).numbers, update (fun s => { s with numbers := s.numbers + count }) w)

/-- Notes something. -/
def note (n : Nat) (a : ρ) (w : Scene ρ) : Scene ρ :=
  update (fun s => { s with notes := s.notes.insert n (s.notes.getD n [] ++ [a]) }) w

/-- Counts a call of a script; the value is the number of calls before. -/
def call (n : Nat) (w : Scene ρ) : Nat × Scene ρ :=
  (callCount n w, update (fun s => { s with counts := s.counts.insert n (s.counts.getD n 0 + 1) }) w)

/-- Notes that a unit ran. -/
def finish (line : String) : Routine (Scene ρ) S Unit :=
  act (update fun s => { s with finished := s.finished ++ [line] })

/-- Opens a gate. -/
def openGate (name : String) (w : Scene ρ) : Scene ρ := update (fun s => { s with opened := name :: s.opened }) w

/-- Signals that a gate was reached, and waits until it is open. -/
def passGate (name : String) : Routine (Scene ρ) S Unit := do
  act (update fun s => { s with started := name :: s.started })
  Routine.await fun w => (stage w).opened.contains name

/-- The scene at the start of a rehearsal: time moves by a microsecond between two readings of the clock. -/
def scene (cache : CacheConfig) (s : Stage ρ) : Scene ρ where
  clock := { now := 1760000000000000000, drift := fun _ => 1000 }
  env := ⟨.ofConfig cache, s⟩

/-- Runs a routine alone, in which time passes while it sleeps; there is no value if it crashes. -/
def alone {α : Type} (r : Routine (Scene ρ) .none α) (w : Scene ρ) : Option α × Scene ρ :=
  match r.perform World.pass? w with
  | (.returned a, w) => (some a, w)
  | (_, w) => (none, w)

end Stage
end JobRunner
