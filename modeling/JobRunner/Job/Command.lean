import JobRunner.Job.Registry
/-!
# Commands

The operations and queries of a registry as data, so that a run of a registry is a list of commands, and what each of
them answers.
-/
namespace JobRunner

/-- An operation or a query. -/
inductive Command where
  | create (id : JobId) (metadata : Labels)
  | change (id : JobId) (c : Change)
  | delete (id : JobId)
  | get (id : JobId)
  | all
  | size
  | listByStatus (status : JobStatus)
  | findByMetadata (key value : String)
  | stats

namespace Command

/-- What a command answers. -/
inductive Answer where
  | created (r : Except JobError JobRecord)
  /-- The record of the job before and after a change goes with the answer to it. -/
  | changed (r : Except JobError Unit) (before after : Option JobRecord)
  /-- The number of jobs that are left goes with the answer to a removal. -/
  | deleted (r : Option JobRecord) (left : Nat)
  | record (r : Option JobRecord)
  | records (rs : List JobRecord)
  | size (n : Nat)
  | stats (s : JobStats)

/-- Carries out a command. -/
def run (c : Command) (now : Timestamp) (r : Registry) : Answer × Registry :=
  match c with
  | create id metadata => let a := r.create id metadata now; (.created a.1, a.2)
  | change id c => let a := r.change id c now; (.changed a.1 (r.get? id) (a.2.get? id), a.2)
  | delete id => let a := r.delete id; (.deleted a.1 a.2.size, a.2)
  | get id => (.record (r.get? id), r)
  | all => (.records (r.all.mergeSort fun a b => a.id.le b.id), r)
  | size => (.size r.size, r)
  | listByStatus status => (.records (r.listByStatus status), r)
  | findByMetadata key value => (.records (r.findByMetadata key value), r)
  | stats => (.stats r.stats, r)

end Command
end JobRunner
