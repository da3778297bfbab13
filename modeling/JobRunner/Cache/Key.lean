import JobRunner.Connection
import JobRunner.Digest.Sha256
import JobRunner.Json.Compact
import JobRunner.Text.Search
/-!
# Cache keys

Clients are kept under the system they talk to and a digest of the settings they were built from.  The digest covers the
name of the system, a zero byte and the compact text of the settings, so that equal settings for two systems differ.
-/
namespace JobRunner

/-- What a client is kept under. -/
structure CacheKey where
  target : TargetSystem
  digest : String
  deriving DecidableEq, Repr

namespace CacheKey

/-- The bytes that a digest is taken of. -/
def hashedBytes (target : TargetSystem) (settings : Json) : List UInt8 :=
  target.name.toUTF8.toList ++ 0 :: settings.compact.toUTF8.toList

/-- The key for settings of any form. -/
def fingerprint (target : TargetSystem) (settings : Json) : CacheKey :=
  ⟨target, String.ofList (Text.hexBytes (Sha256.digest (hashedBytes target settings)))⟩

/-- The key for a connection. -/
def ofConnection (c : ConnectionConfig) : CacheKey := fingerprint c.target (Wire.encode c)

/-- The form in which keys are shown and searched. -/
def text (k : CacheKey) : String := k.target.name ++ ":" ++ k.digest

/-- The shown form contains the pattern. -/
def isMatch (k : CacheKey) (pattern : String) : Bool := Text.contains k.text pattern

/-- Keys are ordered by system, and by digest within one system. -/
def le (a b : CacheKey) : Bool :=
  a.target.rank < b.target.rank || (a.target.rank == b.target.rank && a.digest ≤ b.digest)

end CacheKey
end JobRunner
