import JobRunner.Job.Id
import JobRunner.Job.Status
import JobRunner.Time.Timestamp
/-!
# Job records

What is known about a job: where it stands, how far it got, what was logged, and how it ended.  Each change is stamped
with the time at which it is made.
-/
namespace JobRunner

/-- One line of a job's log. -/
structure LogEntry where
  timestamp : Timestamp
  message : String
  deriving DecidableEq, Repr

/-- The state of a job. -/
structure JobRecord where
  id : JobId
  status : JobStatus
  /-- A percentage that never goes down. -/
  progress : UInt8
  /-- What is going on. -/
  message : String
  /-- What went on, oldest first. -/
  logs : List LogEntry
  /-- The value of a completed job, which may be null. -/
  result : Option Json
  /-- The error of a failed job. -/
  error : Option String
  /-- What the caller said about the job. -/
  metadata : Labels
  createdAt : Timestamp
  updatedAt : Timestamp

namespace LogEntry

def fieldNames : List String := ["timestamp", "message"]

instance : Wire LogEntry where
  encode e := .obj [("timestamp", Wire.encode e.timestamp), ("message", .str e.message)]
  decode? v := do
    match ← Wire.fields? fieldNames 2 v with
    | [t, m] => some ⟨← Wire.required t, ← Wire.required m⟩
    | _ => none

end LogEntry

namespace JobRecord

/-- A job that was just accepted. -/
def accepted (id : JobId) (metadata : Labels) (now : Timestamp) : JobRecord where
  id := id
  status := .pending
  progress := 0
  message := "job accepted"
  logs := []
  result := none
  error := none
  metadata := metadata
  createdAt := now
  updatedAt := now

/-- The lines of the log without their times. -/
def logMessages (r : JobRecord) : List String := r.logs.map (·.message)

/-! ## Changes -/

/-- One more line in the log. -/
def withLog (message : String) (now : Timestamp) (r : JobRecord) : JobRecord :=
  { r with logs := r.logs ++ [⟨now, message⟩], updatedAt := now }

/-- The job runs and got as far as the given percentage, if it was not further already. -/
def markProcessing (progress : UInt8) (message : String) (now : Timestamp) (r : JobRecord) : JobRecord :=
  { r with status := .processing, progress := max r.progress (min progress 100), message, updatedAt := now }

/-- The job ended with a result. -/
def markCompleted (result : Json) (now : Timestamp) (r : JobRecord) : JobRecord :=
  { r with status := .completed, progress := 100, message := "completed", result := some result }
    |>.withLog "job completed" now

/-- The job ended with an error. -/
def markFailed (error : String) (now : Timestamp) (r : JobRecord) : JobRecord :=
  { r with status := .failed, message := "failed: " ++ error, error := some error }
    |>.withLog ("job failed: " ++ error) now

/-! ## Wire form -/

def fieldNames : List String :=
  ["id", "status", "progress", "message", "logs", "result", "error", "metadata", "created_at", "updated_at"]

instance : Wire JobRecord where
  encode r := .objOf [("id", some (Wire.encode r.id)), ("status", some (Wire.encode r.status)),
    ("progress", some (Wire.encode r.progress)), ("message", some (.str r.message)),
    ("logs", some (Wire.encode r.logs)), ("result", r.result), ("error", r.error.map .str),
    ("metadata", some (Wire.encode r.metadata)), ("created_at", some (Wire.encode r.createdAt)),
    ("updated_at", some (Wire.encode r.updatedAt))]
  decode? v := do
    match ← Wire.fields? fieldNames 10 v with
    | [i, s, p, m, l, res, err, labels, c, u] =>
      some {
        id := ← Wire.required i
        status := ← Wire.required s
        progress := ← Wire.required p
        message := ← Wire.required m
        logs := ← Wire.required l
        result := ← Wire.optional res
        error := ← Wire.optional err
        metadata := ← Wire.required labels
        createdAt := ← Wire.required c
        updatedAt := ← Wire.required u }
    | _ => none

end JobRecord
end JobRunner
