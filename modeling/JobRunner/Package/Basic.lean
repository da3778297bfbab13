import JobRunner.Json.Wire
/-!
# Packages

What is asked of a package deployer and what it reports: requests, the status of a release, and the resources that
releases leave in a namespace.
-/
namespace JobRunner

/-- A request to install a release or to bring it to another version. -/
structure PackageRequest where
  name : String
  source : String
  version : Option String := none
  space : String
  values : Json := .null

/-- What a deployer says about a release. -/
structure ReleaseStatus where
  installed : Bool
  details : Labels := .empty
  deriving DecidableEq, Repr

/-- The kinds of resources that a release leaves in its namespace. -/
inductive ResourceKind where
  | pod
  | configMap
  | secret
  deriving DecidableEq, Repr

/-- One resource. -/
structure ResourceRef where
  kind : ResourceKind
  space : String
  name : String
  deriving DecidableEq, Repr

namespace PackageRequest

def withVersion (version : String) (r : PackageRequest) : PackageRequest := { r with version := some version }

def withValues (values : Json) (r : PackageRequest) : PackageRequest := { r with values }

def fieldNames : List String := ["name", "source", "version", "namespace", "values"]

instance : Wire PackageRequest where
  encode r := .objOf [("name", some (.str r.name)), ("source", some (.str r.source)), ("version", r.version.map .str),
    ("namespace", some (.str r.space)), ("values", some r.values)]
  decode? v := do
    match ← Wire.fields? fieldNames 4 v with
    | [n, s, ver, ns, vals] =>
      some ⟨← Wire.required n, ← Wire.required s, ← Wire.optional ver, ← Wire.required ns, ← Wire.defaulted .null vals⟩
    | _ => none

end PackageRequest

namespace ReleaseStatus

/-- No such release. -/
def absent : ReleaseStatus := ⟨false, .empty⟩

def present (details : Labels) : ReleaseStatus := ⟨true, details⟩

/-- The version that the deployer reports, if any. -/
def version (s : ReleaseStatus) : Option String := s.details.get? "version"

def fieldNames : List String := ["installed", "metadata"]

instance : Wire ReleaseStatus where
  encode s := .obj [("installed", .bool s.installed), ("metadata", Wire.encode s.details)]
  decode? v := do
    match ← Wire.fields? fieldNames 1 v with
    | [i, d] => some ⟨← Wire.required i, ← Wire.defaulted .empty d⟩
    | _ => none

end ReleaseStatus

namespace ResourceKind

def name : ResourceKind → String
  | pod => "pod"
  | configMap => "config_map"
  | secret => "secret"

def all : List ResourceKind := [pod, configMap, secret]

def ofName? (s : String) : Option ResourceKind := all.find? fun k => k.name == s

instance : Wire ResourceKind where
  encode k := .str k.name
  decode? v := (Wire.constant? v).bind ofName?

end ResourceKind

namespace ResourceRef

def fieldNames : List String := ["kind", "namespace", "name"]

instance : Wire ResourceRef where
  encode r := .obj [("kind", Wire.encode r.kind), ("namespace", .str r.space), ("name", .str r.name)]
  decode? v := do
    match ← Wire.fields? fieldNames 3 v with
    | [k, ns, n] => some ⟨← Wire.required k, ← Wire.required ns, ← Wire.required n⟩
    | _ => none

end ResourceRef
end JobRunner
