import JobRunner.Job.Record
import JobRunner.Table
/-!
# The job registry

All jobs that are known, by identifier.  A job is changed only by the four changes of `Change`, each of which is refused
when there is no such job, when the job has ended, or when its status does not allow the move; a refused operation
changes nothing at all.
-/
namespace JobRunner

/-- Why an operation on a job was refused. -/
inductive JobError where
  | notFound (id : JobId)
  | alreadyExists (id : JobId)
  | finished (id : JobId) (status : JobStatus)
  | invalidMove (id : JobId) (source target : JobStatus)
  deriving DecidableEq, Repr

namespace JobError

def message : JobError → String
  | notFound id => "job not found: " ++ id.text
  | alreadyExists id => "job already exists: " ++ id.text
  | finished id status => "job " ++ id.text ++ " already " ++ status.name
  | invalidMove id source target =>
    "job " ++ id.text ++ ": cannot move from " ++ source.name ++ " to " ++ target.name

end JobError

/-- A change of a job. -/
inductive Change where
  /-- The job runs and got as far as a percentage. -/
  | progress (percent : UInt8) (message : String)
  /-- A line for the log. -/
  | log (message : String)
  /-- The job ended with a result. -/
  | complete (result : Json)
  /-- The job ended with an error. -/
  | fail (error : String)

namespace Change

/-- The status that a change moves a job to. -/
def target? : Change → Option JobStatus
  | progress _ _ => some .processing
  | log _ => none
  | complete _ => some .completed
  | fail _ => some .failed

/-- The record after a change. -/
def mark (now : Timestamp) : Change → JobRecord → JobRecord
  | progress percent message => .markProcessing percent message now
  | log message => .withLog message now
  | complete result => .markCompleted result now
  | fail error => .markFailed error now

/-- Changes a job, or says why it may not be changed so. -/
def apply (c : Change) (now : Timestamp) (r : JobRecord) : Except JobError JobRecord :=
  if r.status.isFinal then .error (.finished r.id r.status)
  else match c.target? with
    | none => .ok (c.mark now r)
    | some s => if r.status.canMove s then .ok (c.mark now r) else .error (.invalidMove r.id r.status s)

end Change

/-- How many jobs stand where. -/
structure JobStats where
  pending : Nat
  processing : Nat
  completed : Nat
  failed : Nat
  deriving DecidableEq, Repr

def JobStats.total (s : JobStats) : Nat := s.pending + s.processing + s.completed + s.failed

/-- The known jobs. -/
structure Registry where
  jobs : Table JobId JobRecord := .empty

namespace Registry

instance : Inhabited Registry := ⟨{}⟩

/-! ## Operations -/

def get? (r : Registry) (id : JobId) : Option JobRecord := r.jobs.get? id

/-- Adds a job under an identifier that is not taken yet. -/
def create (id : JobId) (metadata : Labels) (now : Timestamp) (r : Registry) : Except JobError JobRecord × Registry :=
  if r.jobs.contains id then (.error (.alreadyExists id), r)
  else
    let record := JobRecord.accepted id metadata now
    (.ok record, ⟨r.jobs.insert id record⟩)

/-- Changes the job with the given identifier. -/
def change (id : JobId) (c : Change) (now : Timestamp) (r : Registry) : Except JobError Unit × Registry :=
  match r.jobs.get? id with
  | none => (.error (.notFound id), r)
  | some record =>
    match c.apply now record with
    | .error e => (.error e, r)
    | .ok record' => (.ok (), ⟨r.jobs.insert id record'⟩)

/-- Removes a job and gives back what was known about it. -/
def delete (id : JobId) (r : Registry) : Option JobRecord × Registry := (r.jobs.get? id, ⟨r.jobs.erase id⟩)

/-! ## Queries -/

/-- All jobs, in no particular order. -/
def all (r : Registry) : List JobRecord := r.jobs.values

def size (r : Registry) : Nat := r.jobs.size

/-- Jobs are listed by the time at which they were accepted, and by identifier within the same moment. -/
def isBefore (a b : JobRecord) : Bool :=
  a.createdAt.lt b.createdAt || (a.createdAt == b.createdAt && a.id.le b.id)

/-- Jobs from the oldest to the newest. -/
def oldestFirst (jobs : List JobRecord) : List JobRecord := jobs.mergeSort isBefore

/-- All jobs, oldest first. -/
def list (r : Registry) : List JobRecord := oldestFirst r.all

def listByStatus (status : JobStatus) (r : Registry) : List JobRecord :=
  oldestFirst (r.all.filter fun j => j.status == status)

/-- The jobs whose metadata binds a key to a value, oldest first. -/
def findByMetadata (key value : String) (r : Registry) : List JobRecord :=
  oldestFirst (r.all.filter fun j => j.metadata.get? key == some value)

def count (status : JobStatus) (r : Registry) : Nat := r.all.countP fun j => j.status == status

def stats (r : Registry) : JobStats := ⟨r.count .pending, r.count .processing, r.count .completed, r.count .failed⟩

/-! ## Look-up after each operation -/

theorem get?_create (id id' : JobId) (metadata : Labels) (now : Timestamp) (r : Registry) :
    (r.create id metadata now).2.get? id' =
      if id = id' ∧ r.get? id = none then some (.accepted id metadata now) else r.get? id' := by
  by_cases h : r.jobs.contains id
  · have : ¬ r.get? id = none := by
      intro e; simp only [get?] at e; simp [Table.contains, e] at h
    simp [create, h, this]
  · have e : r.jobs.get? id = none := by simpa [Table.contains] using h
    simp only [create, h, get?, e]
    by_cases hid : id = id' <;> simp [hid, Table.get?_insert]

theorem get?_delete (id id' : JobId) (r : Registry) :
    (r.delete id).2.get? id' = if id = id' then none else r.get? id' := Table.get?_erase ..

end Registry
end JobRunner
