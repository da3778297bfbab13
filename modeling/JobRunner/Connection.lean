import JobRunner.Json.Wire
/-!
# Connections

The systems that jobs work on, and what it takes to connect to one of them.
-/
namespace JobRunner

/-- A kind of system that a client talks to. -/
inductive TargetSystem where
  | cluster
  | packages
  | objectStorage
  | backup
  deriving DecidableEq, Repr

namespace TargetSystem

def name : TargetSystem → String
  | cluster => "cluster"
  | packages => "packages"
  | objectStorage => "object_storage"
  | backup => "backup"

/-- The place of a system in the order of systems. -/
def rank : TargetSystem → Nat
  | cluster => 0
  | packages => 1
  | objectStorage => 2
  | backup => 3

def all : List TargetSystem := [cluster, packages, objectStorage, backup]

/-- The system with the given name. -/
def ofName? (s : String) : Option TargetSystem := all.find? fun t => t.name == s

instance : Wire TargetSystem where
  encode t := .str t.name
  decode? v := (Wire.constant? v).bind ofName?

theorem ofName?_name (t : TargetSystem) : ofName? t.name = some t := by cases t <;> decide

theorem name_inj {s t : TargetSystem} (h : s.name = t.name) : s = t := by
  have := congrArg ofName? h
  simpa [ofName?_name] using this

end TargetSystem

/-- What a client is built from.  Requests with equal connections can share a client. -/
structure ConnectionConfig where
  target : TargetSystem
  endpoint : String
  context : Option String := none
  space : Option String := none
  settings : Labels := .empty
  deriving DecidableEq, Repr

namespace ConnectionConfig

def withContext (value : String) (c : ConnectionConfig) : ConnectionConfig := { c with context := some value }

def withNamespace (value : String) (c : ConnectionConfig) : ConnectionConfig := { c with space := some value }

def withSetting (key value : String) (c : ConnectionConfig) : ConnectionConfig :=
  { c with settings := c.settings.insert key value }

def fieldNames : List String := ["target", "endpoint", "context", "namespace", "settings"]

instance : Wire ConnectionConfig where
  encode c := .objOf [("target", some (Wire.encode c.target)), ("endpoint", some (.str c.endpoint)),
    ("context", c.context.map .str), ("namespace", c.space.map .str), ("settings", some (Wire.encode c.settings))]
  decode? v := do
    match ← Wire.fields? fieldNames 2 v with
    | [t, e, c, n, s] =>
      some ⟨← Wire.required t, ← Wire.required e, ← Wire.optional c, ← Wire.optional n, ← Wire.defaulted .empty s⟩
    | _ => none

end ConnectionConfig
end JobRunner
