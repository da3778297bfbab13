import JobRunner.Pool.Step
import JobRunner.Rehearsal.Stage
/-!
# Scripted units

Units of work that try out a pool: units that end at once, stop at a gate, crash, close the pool, or hand another unit
to it.  Each notes that it ran.
-/
namespace JobRunner

/-- A unit with its name. -/
inductive ScriptedUnit where
  | noop (id : String)
  | gate (id : String)
  | crash (id : String)
  | close (id : String)
  | submit (id : String) (inner : ScriptedUnit)
  deriving Inhabited

/-- The name of what became of a unit. -/
def Submission.name : Submission → String
  | queued => "Queued"
  | overflow => "Overflow"
  | rejected => "Rejected"

namespace ScriptedUnit

/-- What a unit does. -/
def code {ρ : Type} : ScriptedUnit → Routine (Stage.Scene ρ) (Pool.interface ScriptedUnit) Unit
  | noop id => Stage.finish id
  | gate id => do
    Stage.passGate id
    Stage.finish id
  | crash id => do
    Stage.finish id
    Routine.crash
  | close id => do
    Pool.close
    Stage.finish (id ++ ":closed=true")
  | submit id inner => do
    let s ← Pool.submit inner
    Stage.finish (id ++ ":" ++ s.name)

end ScriptedUnit
end JobRunner
