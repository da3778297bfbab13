import JobRunner.Job.Policy
import JobRunner.Text.Blank
import JobRunner.Text.Decimal
import JobRunner.Text.Quoted
/-!
# Configuration

How many workers run jobs and under which policies, and how many clients are kept and for how long.  Both start from
defaults, over which environment variables may lay numbers.  A variable that is set has to be a number; the first one
that is not refuses the whole configuration.
-/
namespace JobRunner

/-- The number of workers and the policies of jobs that bring none of their own. -/
structure OrchestratorConfig where
  workers : UInt64 := 4
  retry : RetryPolicy := .standard
  poll : PollPolicy := .standard
  deriving DecidableEq, Repr

/-- How many clients are kept, and for how long at most. -/
structure CacheConfig where
  capacity : UInt64 := 100
  ttl : Option Duration := some (.ofSecs 1800)
  deriving DecidableEq, Repr

/-- What environment variables are set to. -/
abbrev Environment : Type := String → Option String

/-- A variable that is set to something else than a number that fits. -/
structure ConfigError where
  name : String
  value : String
  reason : Text.Decimal.Fault
  deriving DecidableEq, Repr

namespace ConfigError

def message (e : ConfigError) : String :=
  "invalid value " ++ Text.quote e.value ++ " for " ++ e.name ++ ": " ++ e.reason.message

end ConfigError

namespace Environment

/-- A process can have the variable with the value: the name is not empty and has no equals sign, and neither of them
holds a zero character. -/
def canHold (name value : String) : Bool :=
  !name.isEmpty && name.toList.all (fun c => c != '=' && c != '\x00') && value.toList.all (· != '\x00')

/-- The number below `limit` that a variable is set to; blanks around it do not count. -/
def number? (env : Environment) (name : String) (limit : Nat) : Except ConfigError (Option Nat) :=
  match env name with
  | none => .ok none
  | some raw =>
    match Text.Decimal.read limit (Text.trim raw).toList with
    | .ok n => .ok (some n)
    | .error fault => .error ⟨name, raw, fault⟩

end Environment

namespace OrchestratorConfig

def workersVariable : String := "FLEETOPS_WORKERS"
def retryAttemptsVariable : String := "FLEETOPS_RETRY_ATTEMPTS"
def retryDelayVariable : String := "FLEETOPS_RETRY_DELAY_MS"
def pollTimeoutVariable : String := "FLEETOPS_POLL_TIMEOUT_SECS"
def pollTickVariable : String := "FLEETOPS_POLL_TICK_MS"

/-- The configuration that an environment asks for. -/
def ofEnvironment (env : Environment) : Except ConfigError OrchestratorConfig := do
  let workers ← env.number? workersVariable UInt64.size
  let attempts ← env.number? retryAttemptsVariable UInt32.size
  let delay ← env.number? retryDelayVariable UInt64.size
  let timeout ← env.number? pollTimeoutVariable UInt64.size
  let tick ← env.number? pollTickVariable UInt64.size
  let base : OrchestratorConfig := {}
  return {
    workers := (workers.map .ofNat).getD base.workers
    retry := {
      maxAttempts := (attempts.map .ofNat).getD base.retry.maxAttempts
      delay := (delay.map fun ms => .ofMillis (.ofNat ms)).getD base.retry.delay }
    poll := {
      timeout := (timeout.map fun s => .ofSecs (.ofNat s)).getD base.poll.timeout
      tick := (tick.map fun ms => .ofMillis (.ofNat ms)).getD base.poll.tick } }

def fieldNames : List String := ["workers", "retry", "poll"]

instance : Wire OrchestratorConfig where
  encode c := .obj [("workers", Wire.encode c.workers), ("retry", Wire.encode c.retry), ("poll", Wire.encode c.poll)]
  decode? v := do
    match ← Wire.fields? fieldNames 3 v with
    | [w, r, p] => some ⟨← Wire.required w, ← Wire.required r, ← Wire.required p⟩
    | _ => none

end OrchestratorConfig

namespace CacheConfig

def capacityVariable : String := "FLEETOPS_CACHE_CAPACITY"
def ttlVariable : String := "FLEETOPS_CACHE_TTL_SECS"

/-- The configuration that an environment asks for; a lifetime of zero stands for no limit. -/
def ofEnvironment (env : Environment) : Except ConfigError CacheConfig := do
  let capacity ← env.number? capacityVariable UInt64.size
  let ttl ← env.number? ttlVariable UInt64.size
  let base : CacheConfig := {}
  return {
    capacity := (capacity.map .ofNat).getD base.capacity
    ttl := match ttl with
      | none => base.ttl
      | some 0 => none
      | some s => some (.ofSecs (.ofNat s)) }

def fieldNames : List String := ["capacity", "ttl"]

instance : Wire CacheConfig where
  encode c := .obj [("capacity", Wire.encode c.capacity), ("ttl", (c.ttl.map Wire.encode).getD .null)]
  decode? v := do
    match ← Wire.fields? fieldNames 2 v with
    | [c, t] => some ⟨← Wire.required c, ← Wire.optional t⟩
    | _ => none

/-- The form in which a configuration appears in messages about a cache. -/
def text (c : CacheConfig) : String :=
  let ttl := match c.ttl with
    | none => "None"
    | some d => "Some(" ++ d.text ++ ")"
  "CacheConfig \x7b capacity: " ++ Nat.repr c.capacity.toNat ++ ", ttl: " ++ ttl ++ " \x7d"

end CacheConfig
end JobRunner
