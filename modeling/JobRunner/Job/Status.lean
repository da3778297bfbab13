import JobRunner.Json.Wire
/-!
# The status of a job

A job waits, runs and ends well or badly.  It may be given up before it runs; running it says so again with every bit of
progress; nothing follows an end.
-/
namespace JobRunner

/-- Where a job stands. -/
inductive JobStatus where
  /-- Accepted, but its work has not begun. -/
  | pending
  /-- Its work runs. -/
  | processing
  /-- Ended with a result. -/
  | completed
  /-- Ended with an error. -/
  | failed
  deriving DecidableEq, Repr

namespace JobStatus

def name : JobStatus → String
  | pending => "pending"
  | processing => "processing"
  | completed => "completed"
  | failed => "failed"

def all : List JobStatus := [pending, processing, completed, failed]

def ofName? (s : String) : Option JobStatus := all.find? fun t => t.name == s

instance : Wire JobStatus where
  encode s := .str s.name
  decode? v := (Wire.constant? v).bind ofName?

/-- Nothing follows this status. -/
def isFinal : JobStatus → Bool
  | completed | failed => true
  | pending | processing => false

/-- A job may go from the first status to the second. -/
def canMove : JobStatus → JobStatus → Bool
  | pending, processing | pending, failed => true
  | processing, processing | processing, completed | processing, failed => true
  | _, _ => false

theorem canMove_eq_false_of_isFinal {s t : JobStatus} (h : s.isFinal = true) : s.canMove t = false := by
  cases s <;> simp_all [isFinal, canMove]

end JobStatus
end JobRunner
