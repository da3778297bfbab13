import JobRunner.Orchestrator
/-!
# The code of jobs

What threads around an orchestrator may do to the registry, whatever else they do.  A caller spawns and creates jobs,
asks about them, removes some of them and closes the pool.  The work of a job may do the same, and it reports progress
and log lines on its own job; the last word on the job is not its own, but is written when the work has ended.

Spawning takes several steps, between which other threads go on.  Code in the middle of it either holds a job that it has
registered and not handed over yet, or has been told that the job was turned away and is about to write that down.
-/
namespace JobRunner

/-- The change reports on a job that goes on. -/
def Change.isReport : Change → Bool
  | progress _ _ | log _ => true
  | complete _ | fail _ => false

namespace Orchestrator

variable {ε τ α β : Type}

/-! ## Units -/

/-- What a unit has still to run when so much of its work is left. -/
def remainder (c : JobContext) (left : Action ε τ JobContext.Outcome) : Action ε τ Unit := do
  let ended ← left.attempt
  c.finish (ended.getD (.error crashFailure))

/-- The work of a job, and before it the word that it has started. -/
def wholeWork (work : Work ε τ) (job : Job τ) : Action ε τ JobContext.Outcome := do
  job.context.progress 0 "job started"
  work job.task job.context

/-! ## Spawning, step by step -/

def settle (id : JobId) : Submission → Action ε τ (Except JobError JobId)
  | .rejected => (World.change id (.fail rejectedMessage)).bind fun r => .done (r.map fun _ => id)
  | _ => .done (.ok id)

def handOver (config : OrchestratorConfig) (id : JobId) (task : τ) : Action ε τ (Except JobError JobId) :=
  (Pool.submit ⟨⟨id, config.retry, config.poll⟩, task⟩).bind (settle id)

def register (config : OrchestratorConfig) (metadata : Labels) (task : τ) (id : JobId) :
    Action ε τ (Except JobError JobId) :=
  (World.create id metadata).bind fun r =>
    match r with
    | .error e => .done (.error e)
    | .ok _ => handOver config id task

theorem spawn_eq (config : OrchestratorConfig) (id? : Option JobId) (metadata : Labels) (task : τ) :
    (spawn config id? metadata task : Action ε τ _) = (identify id?).bind (register config metadata task) := by
  refine congrArg (Routine.bind _) (funext fun id => congrArg (Routine.bind _) (funext fun r => ?_))
  cases r with
  | error e => rfl
  | ok record =>
    refine congrArg (Routine.bind _) (funext fun a => ?_)
    cases a with
    | queued | overflow => rfl
    | rejected =>
      refine congrArg (Routine.bind _) (funext fun r => ?_)
      cases r with
      | _ => rfl

/-! ## What code may do -/

/-- What a step may do to the registry: nothing, a report on the job of the thread, or the removal of a job that may be
removed. -/
inductive Harmless (D : JobId → Prop) (own : Option JobId) (r : Registry) : Registry → Prop where
  | same : Harmless D own r r
  | report {id : JobId} {c : Change} (now : Timestamp) (ho : own = some id) (hc : c.isReport = true) :
    Harmless D own r (r.change id c now).2
  | delete {id : JobId} (hd : D id) : Harmless D own r (r.delete id).2

/-- Code that touches the registry only as it may.  `D` says which jobs may be removed, and `own` is the job on whose
behalf the code runs. -/
inductive Proper (D : JobId → Prop) (own : Option JobId) : Action ε τ α → Prop where
  | done (a : α) : Proper D own (.done a)
  | crash : Proper D own .crash
  | step {ready : World ε → Bool} {act : World ε → World ε} {next : World ε → Action ε τ α}
    (h : ∀ w, Harmless D own w.registry (act w).registry) (hn : ∀ w, Proper D own (next w)) :
    Proper D own (.step ready act next)
  | close {next : Unit → Action ε τ α} (hn : Proper D own (next ())) :
    Proper D own (.ask (S := Pool.interface (Job τ)) .close next)
  | spawn {m : Action ε τ α} {config : OrchestratorConfig} {id? : Option JobId} {metadata : Labels} {task : τ}
    {next : Except JobError JobId → Action ε τ α} (hm : m = (Orchestrator.spawn config id? metadata task).bind next)
    (hn : ∀ r, Proper D own (next r)) : Proper D own m
  | createJob {m : Action ε τ α} {id? : Option JobId} {metadata : Labels}
    {next : Except JobError JobRecord → Action ε τ α} (hm : m = (Orchestrator.createJob id? metadata).bind next)
    (hn : ∀ r, Proper D own (next r)) : Proper D own m

variable {D : JobId → Prop} {own : Option JobId} {ready : World ε → Bool} {act : World ε → World ε}

theorem Proper.bind {m : Action ε τ α} {f : α → Action ε τ β} (h : Proper D own m) (hf : ∀ a, Proper D own (f a)) :
    Proper D own (m.bind f) := by
  induction h with
  | done a => exact hf a
  | crash => exact .crash
  | step h _ ih => exact .step h ih
  | close _ ih => exact .close ih
  | spawn hm _ ih =>
    subst hm
    exact .spawn (Routine.bind_assoc ..) ih
  | createJob hm _ ih =>
    subst hm
    exact .createJob (Routine.bind_assoc ..) ih

/-- Of the pool, proper code asks only to be closed, unless it spawns. -/
theorem Proper.of_ask {r : Pool.Request (Job τ)} {next : r.Reply → Action ε τ α}
    (h : Proper D own (.ask (S := Pool.interface (Job τ)) r next)) : r = .close ∧ ∀ a, Proper D own (next a) := by
  cases h with
  | close hn => exact ⟨rfl, fun _ => hn⟩
  | @spawn _ config id? metadata task after hm hn =>
    -- spawning begins with a step, whether it makes the identifier or not
    cases id? with
    | _ => cases hm
  | @createJob _ id? metadata after hm hn =>
    cases id? with
    | _ => cases hm

/-! ## In the middle of spawning -/

/-- Where code stands in spawning a job. -/
inductive Spot where
  | free
  /-- It has registered the job and is about to hand it over. -/
  | holding (id : JobId)
  /-- It was told that the job was turned away and is about to write that down. -/
  | refusing (id : JobId)

def Spot.told (id : JobId) : Submission → Spot
  | .rejected => refusing id
  | _ => free

/-- Code that stands somewhere in spawning and is proper from there on. -/
inductive Stands (D : JobId → Prop) (own : Option JobId) : Spot → Action ε τ α → Prop where
  | free {m : Action ε τ α} (h : Proper D own m) : Stands D own .free m
  | registering {m : Action ε τ α} {config : OrchestratorConfig} {metadata : Labels} {task : τ} {id : JobId}
    {next : Except JobError JobId → Action ε τ α} (hm : m = (register config metadata task id).bind next)
    (hn : ∀ r, Proper D own (next r)) : Stands D own .free m
  | creating {m : Action ε τ α} {metadata : Labels} {id : JobId} {next : Except JobError JobRecord → Action ε τ α}
    (hm : m = (World.create id metadata).bind next) (hn : ∀ r, Proper D own (next r)) : Stands D own .free m
  | holding {m : Action ε τ α} {config : OrchestratorConfig} {task : τ} {id : JobId}
    {next : Except JobError JobId → Action ε τ α} (hm : m = (handOver config id task).bind next)
    (hn : ∀ r, Proper D own (next r)) : Stands D own (.holding id) m
  | refusing {m : Action ε τ α} {id : JobId} {next : Except JobError JobId → Action ε τ α}
    (hm : m = (settle id .rejected).bind next) (hn : ∀ r, Proper D own (next r)) : Stands D own (.refusing id) m

/-- What a step does to the registry, by where the code stands before and after it. -/
inductive Effect (D : JobId → Prop) (own : Option JobId) (r : Registry) : Spot → Spot → Registry → Prop where
  | harmless {r' : Registry} (h : Harmless D own r r') : Effect D own r .free .free r'
  | create {id : JobId} {spot : Spot} (metadata : Labels) (now : Timestamp) (hn : r.get? id = none)
    (hs : spot = .free ∨ spot = .holding id) : Effect D own r .free spot (r.create id metadata now).2
  | refuse {id : JobId} (now : Timestamp) :
    Effect D own r (.refusing id) .free (r.change id (.fail rejectedMessage) now).2

variable {spot : Spot}

theorem create_cases (id : JobId) (metadata : Labels) (now : Timestamp) (r : Registry) :
    (∃ e, r.create id metadata now = (.error e, r)) ∨
      r.get? id = none ∧ ∃ record, r.create id metadata now = (.ok record, (r.create id metadata now).2) := by
  unfold Registry.create Registry.get? Table.contains
  cases h : r.jobs.get? id with
  | none => exact .inr ⟨rfl, _, rfl⟩
  | some record => exact .inl ⟨_, rfl⟩

variable {next : World ε → Action ε τ α}

theorem step_registering {config : OrchestratorConfig} {metadata : Labels} {task : τ} {id : JobId}
    {after : Except JobError JobId → Action ε τ α}
    (hm : .step ready act next = (register config metadata task id).bind after) (hn : ∀ r, Proper D own (after r))
    (w : World ε) :
    ∃ spot', Stands D own spot' (next w) ∧ Effect D own w.registry .free spot' (act w).registry := by
  cases hm
  show ∃ spot', Stands D own spot' (Routine.bind (match (w.registry.create id metadata (.ofNanos w.clock.read)).1 with
    | .error e => .done (.error e)
    | .ok _ => handOver config id task) after) ∧
      Effect D own w.registry .free spot' (w.registry.create id metadata (.ofNanos w.clock.read)).2
  rcases create_cases id metadata (.ofNanos w.clock.read) w.registry with ⟨e, he⟩ | ⟨hnone, record, hr⟩
  · rw [he]
    exact ⟨.free, .free (hn _), .harmless .same⟩
  · rw [hr]
    exact ⟨.holding id, .holding rfl hn, .create metadata _ hnone (.inr rfl)⟩

theorem step_creating {metadata : Labels} {id : JobId} {after : Except JobError JobRecord → Action ε τ α}
    (hm : .step ready act next = (World.create id metadata).bind after) (hn : ∀ r, Proper D own (after r))
    (w : World ε) :
    ∃ spot', Stands D own spot' (next w) ∧ Effect D own w.registry .free spot' (act w).registry := by
  cases hm
  refine ⟨.free, .free (hn _), ?_⟩
  show Effect D own w.registry .free .free (w.registry.create id metadata (.ofNanos w.clock.read)).2
  rcases create_cases id metadata (.ofNanos w.clock.read) w.registry with ⟨e, he⟩ | ⟨hnone, record, hr⟩
  · rw [he]
    exact .harmless .same
  · exact .create metadata _ hnone (.inl rfl)

/-- **What a step of proper code does.** -/
theorem Stands.step (h : Stands D own spot (.step ready act next)) (w : World ε) :
    ∃ spot', Stands D own spot' (next w) ∧ Effect D own w.registry spot spot' (act w).registry := by
  cases h with
  | free h =>
    cases h with
    | step h hn => exact ⟨.free, .free (hn w), .harmless (h w)⟩
    | @spawn _ config id? metadata task after hm hn =>
      rw [spawn_eq] at hm
      cases id? with
      | some id => exact step_registering hm hn w
      | none =>
        cases hm
        exact ⟨.free, .registering rfl hn, .harmless .same⟩
    | @createJob _ id? metadata after hm hn =>
      cases id? with
      | some id => exact step_creating hm hn w
      | none =>
        cases hm
        exact ⟨.free, .creating rfl hn, .harmless .same⟩
  | registering hm hn => exact step_registering hm hn w
  | creating hm hn => exact step_creating hm hn w
  | holding hm hn => cases hm
  | refusing hm hn =>
    cases hm
    exact ⟨.free, .free (hn _), .refuse _⟩

/-- **Only code that holds a job hands one over**, and it is that job. -/
theorem Stands.submit {job : Job τ} {next : Submission → Action ε τ α}
    (h : Stands D own spot (.ask (S := Pool.interface (Job τ)) (.submit job) next)) :
    spot = .holding job.context.id ∧ ∀ a, Stands D own (.told job.context.id a) (next a) := by
  cases h with
  | free h => cases h.of_ask.1
  | registering hm hn | creating hm hn | refusing hm hn => cases hm
  | holding hm hn =>
    cases hm
    refine ⟨rfl, fun a => ?_⟩
    cases a with
    | queued | overflow => exact .free (hn _)
    | rejected => exact .refusing rfl hn

theorem Stands.close {next : Unit → Action ε τ α}
    (h : Stands D own spot (.ask (S := Pool.interface (Job τ)) .close next)) :
    spot = .free ∧ Stands D own .free (next ()) := by
  cases h with
  | free h => exact ⟨rfl, .free (h.of_ask.2 ())⟩
  | registering hm hn | creating hm hn | refusing hm hn | holding hm hn => cases hm

theorem Stands.over {m : Action ε τ α} (h : Stands D own spot m) (ho : (∃ a, m = .done a) ∨ m = .crash) :
    spot = .free := by
  cases h with
  | free | registering | creating => rfl
  | holding hm | refusing hm =>
    subst hm
    rcases ho with ⟨a, ho⟩ | ho
    · cases ho
    · cases ho

end Orchestrator
end JobRunner
