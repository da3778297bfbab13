import JobRunner.Proofs.JobFates
/-!
# Bids for an identifier

Callers may bring their own identifiers, and then several of them may bring the same one, at the same time.  A call that
registers a job under a given identifier is a bid for it.  Here is what code may do around an identifier if bids are to
decide who has it, and runs of an orchestrator with a list of the bids that were made on the way: who made each, what is
left of it, and what was seen of the pool meanwhile.
-/
namespace JobRunner

/-- A change neither registers nor removes a job. -/
theorem Registry.get?_change_eq_none {id x : JobId} {c : Change} {now : Timestamp} {r : Registry} :
    (r.change id c now).2.get? x = none ↔ r.get? x = none := by
  unfold change get?
  cases h : r.jobs.get? id with
  | none => rfl
  | some record =>
    dsimp only
    cases c.apply now record with
    | error e => rfl
    | ok record' =>
      by_cases hx : id = x
      · subst hx
        simp [h]
      · rw [Table.get?_insert_ne hx]

theorem Registry.create_of_some {x : JobId} {metadata : Labels} {now : Timestamp} {r : Registry} {record : JobRecord}
    (h : r.get? x = some record) : r.create x metadata now = (.error (.alreadyExists x), r) := by
  have hc : r.jobs.contains x = true := by
    unfold Table.contains
    rw [show r.jobs.get? x = some record from h]
    rfl
  exact if_pos hc

theorem Registry.create_of_none {x : JobId} {metadata : Labels} {now : Timestamp} {r : Registry}
    (h : r.get? x = none) : (r.create x metadata now).1 = .ok (.accepted x metadata now) := by
  have hc : ¬ r.jobs.contains x = true := by
    unfold Table.contains
    rw [show r.jobs.get? x = none from h]
    exact Bool.false_ne_true
  exact congrArg Prod.fst (if_neg hc)

namespace Routine

variable {σ : Type} {S : Interface} {α β : Type}

theorem attempt_bind (m : Routine σ S α) (f : α → Routine σ S β) :
    (m.bind f).attempt = m.attempt.bind fun o => (o.map fun a => (f a).attempt).getD (.done none) := by
  induction m with
  | done a => rfl
  | crash => rfl
  | step ready act next ih => simp [bind, attempt, ih]
  | ask r next ih => simp [bind, attempt, ih]

/-- If the first routine never crashes, only the second one has to be guarded. -/
theorem attempt_bind_of_sure {m : Routine σ S α} (h : m.attempt = m.bind fun a => .done (some a))
    (f : α → Routine σ S β) : (m.bind f).attempt = m.bind fun a => (f a).attempt := by
  rw [attempt_bind, h, bind_assoc]
  rfl

end Routine

namespace Orchestrator

variable {ε τ α β : Type} {x : JobId} {own own' : Bool} {r r' : Registry} {D : JobId → Prop}

/-! ## Code that leaves an identifier alone -/

/-- Whatever became of the registry, under this identifier no job was registered or removed; and the job there is in the
same status, unless whoever did it has the job as their own. -/
structure Spares (x : JobId) (own : Bool) (r r' : Registry) : Prop where
  registered : r'.get? x = none ↔ r.get? x = none
  status : own = true ∨ (r'.get? x).map (·.status) = (r.get? x).map (·.status)

theorem Spares.of_eq (h : r'.get? x = r.get? x) : Spares x own r r' := by
  constructor
  · rw [h]
  · exact .inr (by rw [h])

theorem Spares.mono (h : Spares x own r r') (ho : own = true → own' = true) : Spares x own' r r' :=
  ⟨h.registered, h.status.imp ho id⟩

theorem spares_change {id : JobId} (c : Change) (now : Timestamp) (ho : id = x → own = true) :
    Spares x own r (r.change id c now).2 := by
  refine ⟨Registry.get?_change_eq_none, ?_⟩
  by_cases hid : id = x
  · exact .inl (ho hid)
  · exact .inr (by rw [Registry.get?_change_of_ne hid])

/-- Code that registers jobs under the identifier only by the calls that are made for that, and removes none.  Whoever
was told that the job is theirs may write into its record from then on; others do not touch it. -/
inductive Respects (x : JobId) : Bool → Action ε τ α → Prop where
  | done {own : Bool} (a : α) : Respects x own (.done a)
  | crash {own : Bool} : Respects x own .crash
  | step {own : Bool} {ready : World ε → Bool} {act : World ε → World ε} {next : World ε → Action ε τ α}
    (h : ∀ w, Spares x own w.registry (act w).registry) (hn : ∀ w, Respects x own (next w)) :
    Respects x own (.step ready act next)
  | submit {own : Bool} {job : Job τ} {next : Submission → Action ε τ α} (hj : job.context.id ≠ x)
    (hn : ∀ a, Respects x own (next a)) : Respects x own (.ask (S := Pool.interface (Job τ)) (.submit job) next)
  | close {own : Bool} {next : Unit → Action ε τ α} (hn : Respects x own (next ())) :
    Respects x own (.ask (S := Pool.interface (Job τ)) .close next)
  | spawn {own : Bool} {m : Action ε τ α} {config : OrchestratorConfig} {metadata : Labels} {task : τ}
    {next : Except JobError JobId → Action ε τ α}
    (hm : m = (Orchestrator.spawn config (some x) metadata task).bind next)
    (he : ∀ e, Respects x own (next (.error e))) (ho : ∀ id, Respects x true (next (.ok id))) : Respects x own m
  | createJob {own : Bool} {m : Action ε τ α} {metadata : Labels}
    {next : Except JobError JobRecord → Action ε τ α}
    (hm : m = (Orchestrator.createJob (some x) metadata).bind next)
    (he : ∀ e, Respects x own (next (.error e))) (ho : ∀ r, Respects x true (next (.ok r))) : Respects x own m

theorem Respects.mono {m : Action ε τ α} (h : Respects x own m) (ho : own = true → own' = true) :
    Respects x own' m := by
  induction h generalizing own' with
  | done a => exact .done a
  | crash => exact .crash
  | step h _ ih => exact .step (fun w => (h w).mono ho) fun w => ih w ho
  | submit hj _ ih => exact .submit hj fun a => ih a ho
  | close _ ih => exact .close (ih ho)
  | spawn hm _ hok ihe _ => exact .spawn hm (fun e => ihe e ho) hok
  | createJob hm _ hok ihe _ => exact .createJob hm (fun e => ihe e ho) hok

theorem Respects.bind {m : Action ε τ α} {f : α → Action ε τ β} (h : Respects x own m)
    (hf : ∀ a, Respects x own (f a)) : Respects x own (m.bind f) := by
  induction h with
  | done a => exact hf a
  | crash => exact .crash
  | step h _ ih => exact .step h fun w => ih w hf
  | submit hj _ ih => exact .submit hj fun a => ih a hf
  | close _ ih => exact .close (ih hf)
  | spawn hm _ _ ihe ihok =>
    subst hm
    exact .spawn (Routine.bind_assoc ..) (fun e => ihe e hf) fun id => ihok id fun a => (hf a).mono fun _ => rfl
  | createJob hm _ _ ihe ihok =>
    subst hm
    exact .createJob (Routine.bind_assoc ..) (fun e => ihe e hf) fun r => ihok r fun a => (hf a).mono fun _ => rfl

/-- What spawning does when it knows whether the job is registered. -/
def proceed (config : OrchestratorConfig) (id : JobId) (task : τ) :
    Except JobError JobRecord → Action ε τ (Except JobError JobId)
  | .error e => .done (.error e)
  | .ok _ => handOver config id task

theorem spawn_eq_proceed (config : OrchestratorConfig) (metadata : Labels) (task : τ) :
    (spawn config (some x) metadata task : Action ε τ _) = (World.create x metadata).bind (proceed config x task) := by
  rw [spawn_eq]
  show (World.create x metadata).bind _ = _
  refine congrArg (Routine.bind _) (funext fun r => ?_)
  cases r with
  | _ => rfl

/-- Spawning a job never crashes. -/
theorem attempt_spawn (config : OrchestratorConfig) (metadata : Labels) (task : τ) :
    (spawn config (some x) metadata task : Action ε τ _).attempt =
      (spawn config (some x) metadata task).bind fun r => .done (some r) := by
  rw [spawn_eq_proceed, Routine.attempt_bind_of_sure rfl, Routine.bind_assoc]
  refine congrArg (Routine.bind _) (funext fun r => ?_)
  cases r with
  | error e => rfl
  | ok record =>
    refine congrArg (Routine.ask _) (funext fun a => ?_)
    cases a with
    | _ => rfl

theorem Respects.attempt {m : Action ε τ α} (h : Respects x own m) : Respects x own m.attempt := by
  induction h with
  | done a => exact .done _
  | crash => exact .done _
  | step h _ ih => exact .step h ih
  | submit hj _ ih => exact .submit hj ih
  | close _ ih => exact .close ih
  | spawn hm _ _ ihe ihok =>
    subst hm
    exact .spawn (Routine.attempt_bind_of_sure (attempt_spawn ..) _) ihe ihok
  | createJob hm _ _ ihe ihok =>
    subst hm
    exact .createJob (Routine.attempt_bind_of_sure rfl _) ihe ihok

theorem respects_change {id : JobId} (c : Change) (ho : id = x → own = true) :
    Respects x own (World.change id c : Action ε τ _) :=
  .step (fun _ => spares_change c _ ho) fun _ => .done _

theorem respects_report {id : JobId} (c : Change) (ho : id = x → own = true) :
    Respects x own (World.report id c : Action ε τ Unit) :=
  (respects_change c ho).bind fun _ => .done ()

/-- Registering another job does not concern this one. -/
theorem respects_create_of_ne {id : JobId} (metadata : Labels) (hid : id ≠ x) :
    Respects x own (World.create id metadata : Action ε τ _) :=
  .step (fun _ => .of_eq ((Registry.get?_create ..).trans (if_neg fun h => hid h.1))) fun _ => .done _

theorem respects_proceed {id : JobId} (config : OrchestratorConfig) (task : τ) (hid : id ≠ x) :
    ∀ r, Respects x own (proceed config id task r : Action ε τ _)
  | .error _ => .done _
  | .ok _ => .submit hid fun a =>
    match a with
    | .queued | .overflow => .done _
    | .rejected => (respects_change _ fun h => absurd h hid).bind fun _ => .done _

/-- A call that spawns a job, under whatever identifier, even one that is made for it. -/
theorem respects_spawn (config : OrchestratorConfig) (id? : Option JobId) (metadata : Labels) (task : τ) :
    Respects x own (spawn config id? metadata task : Action ε τ _) := by
  have hsome : ∀ id, Respects x own (spawn config (some id) metadata task : Action ε τ _) := by
    intro id
    by_cases hid : id = x
    · subst hid
      exact .spawn (Routine.bind_done _).symm (fun _ => .done _) fun _ => .done _
    · rw [spawn_eq_proceed]
      exact (respects_create_of_ne metadata hid).bind (respects_proceed config task hid)
  cases id? with
  | some id => exact hsome id
  | none => exact .step (fun _ => .of_eq rfl) fun _ => hsome _

theorem respects_createJob (id? : Option JobId) (metadata : Labels) :
    Respects x own (createJob id? metadata : Action ε τ _) := by
  have hsome : ∀ id, Respects x own (createJob (some id) metadata : Action ε τ _) := by
    intro id
    by_cases hid : id = x
    · subst hid
      exact .createJob (Routine.bind_done _).symm (fun _ => .done _) fun _ => .done _
    · exact respects_create_of_ne metadata hid
  cases id? with
  | some id => exact hsome id
  | none => exact .step (fun _ => .of_eq rfl) fun _ => hsome _

/-- A unit has the job as its own if that is the job it runs for. -/
theorem respects_unit {work : Work ε τ} (hwork : ∀ task c, Respects x (decide (c.id = x)) (work task c)) (job : Job τ) :
    Respects x (decide (job.context.id = x)) (unit work job) := by
  have hreport : ∀ c, Respects x (decide (job.context.id = x)) (World.report job.context.id c : Action ε τ Unit) :=
    fun c => respects_report c fun h => decide_eq_true h
  exact (hreport _).bind fun _ => (hwork ..).attempt.bind fun _ => hreport _

/-- Code that is proper leaves alone what it may not remove. -/
theorem Proper.respects {own? : Option JobId} {m : Action ε τ α} (h : Proper D own? m) (hx : ¬ D x) :
    Respects x (decide (own? = some x)) m := by
  induction h with
  | done a => exact .done a
  | crash => exact .crash
  | @step ready act next h _ ih =>
    refine .step (fun w => ?_) ih
    have hw := h w
    generalize (act w).registry = r' at hw ⊢
    cases hw with
    | same => exact .of_eq rfl
    | report now ho hc => exact spares_change _ now fun hid => decide_eq_true (hid ▸ ho)
    | @delete id hd =>
      have hid : id ≠ x := by
        rintro rfl
        exact hx hd
      exact .of_eq ((Registry.get?_delete ..).trans (if_neg hid))
  | close _ ih => exact .close ih
  | spawn hm _ ih =>
    subst hm
    exact (respects_spawn ..).bind ih
  | createJob hm _ ih =>
    subst hm
    exact (respects_createJob ..).bind ih

/-! ## Calls that register a job under the identifier -/

/-- A call that registers a job under a given identifier: one with work, or one without. -/
inductive Registration (τ : Type) where
  | spawn (config : OrchestratorConfig) (metadata : Labels) (task : τ)
  | createJob (metadata : Labels)

/-- What the call does.  It gives back the identifier of the job. -/
def Registration.code (x : JobId) : Registration τ → Action ε τ (Except JobError JobId)
  | spawn config metadata task => Orchestrator.spawn config (some x) metadata task
  | createJob metadata => (Orchestrator.createJob (some x) metadata).bind fun r => .done (r.map (·.id))

def Registration.metadata : Registration τ → Labels
  | spawn _ metadata _ | createJob metadata => metadata

/-- The rest of the call, when it is known whether the job was registered. -/
def Registration.proceed (x : JobId) : Registration τ → Except JobError JobRecord → Action ε τ (Except JobError JobId)
  | spawn config _ task, r => Orchestrator.proceed config x task r
  | createJob _, r => .done (r.map (·.id))

theorem Registration.code_eq (request : Registration τ) :
    (request.code x : Action ε τ _) = (World.create x request.metadata).bind (request.proceed x) := by
  cases request with
  | spawn config metadata task => exact spawn_eq_proceed config metadata task
  | createJob metadata => rfl

/-- The job that the call hands to the pool. -/
def Registration.job? (x : JobId) : Registration τ → Option (Job τ)
  | spawn config _ task => some ⟨⟨x, config.retry, config.poll⟩, task⟩
  | createJob _ => none

/-- The code begins with such a call.  Code that registers a job and then hands it over spawns it. -/
inductive Begins (x : JobId) : Registration τ → Action ε τ α → Prop where
  | spawn {m : Action ε τ α} {config : OrchestratorConfig} {metadata : Labels} {task : τ}
    {next : Except JobError JobId → Action ε τ α}
    (hm : m = (Orchestrator.spawn config (some x) metadata task).bind next) :
    Begins x (.spawn config metadata task) m
  | createJob {m : Action ε τ α} {metadata : Labels} {next : Except JobError JobRecord → Action ε τ α}
    (hm : m = (Orchestrator.createJob (some x) metadata).bind next)
    (hno : ∀ config metadata task (after : Except JobError JobId → Action ε τ α),
      m ≠ (Orchestrator.spawn config (some x) metadata task).bind after) : Begins x (.createJob metadata) m

variable {config config' : OrchestratorConfig} {metadata metadata' : Labels} {task task' : τ} {m : Action ε τ α}
  {next : Except JobError JobId → Action ε τ α}

/-- Code that registers a job and goes on in one way goes on in no other way. -/
theorem eq_of_create_bind {f f' : Except JobError JobRecord → Action ε τ α}
    (h : (World.create x metadata).bind f = (World.create x metadata').bind f') (w : World ε) :
    f (w.registry.create x metadata (.ofNanos w.clock.read)).1 =
      f' (w.registry.create x metadata' (.ofNanos w.clock.read)).1 := by
  injection h with _ _ hn
  exact congrFun hn w

theorem eq_error_of_create_bind {f f' : Except JobError JobRecord → Action ε τ α}
    (h : (World.create x metadata).bind f = (World.create x metadata').bind f') (w : World ε) :
    f (.error (.alreadyExists x)) = f' (.error (.alreadyExists x)) := by
  have hw := eq_of_create_bind h { w with registry := (({} : Registry).create x metadata (.ofNanos 0)).2 }
  have htaken : (({} : Registry).create x metadata (.ofNanos 0)).2.get? x = some (.accepted x metadata (.ofNanos 0)) :=
    (Registry.get?_create ..).trans (if_pos ⟨rfl, rfl⟩)
  simp only [Registry.create_of_some htaken] at hw
  exact hw

theorem eq_ok_of_create_bind {f f' : Except JobError JobRecord → Action ε τ α}
    (h : (World.create x metadata).bind f = (World.create x metadata').bind f') {w : World ε}
    (hw : w.registry.get? x = none) :
    f (.ok (.accepted x metadata (.ofNanos w.clock.read))) = f' (.ok (.accepted x metadata' (.ofNanos w.clock.read))) := by
  have hf := eq_of_create_bind h w
  rwa [Registry.create_of_none hw, Registry.create_of_none hw] at hf

/-- To register a job is no step that leaves its identifier alone. -/
theorem not_spares_create (w : World ε) (metadata : Labels) :
    ¬ ∀ w' : World ε, Spares x own w'.registry (World.onRegistry (Registry.create x metadata) w').2.registry := by
  intro h
  have hfree : ({ w with registry := {} } : World ε).registry.get? x = none := rfl
  have hnone := (h { w with registry := {} }).registered.2 hfree
  have hsome : (World.onRegistry (Registry.create x metadata) { w with registry := {} }).2.registry.get? x ≠ none := by
    show (Registry.create x metadata _ {}).2.get? x ≠ none
    rw [Registry.get?_create, if_pos ⟨rfl, rfl⟩]
    exact Option.some_ne_none _
  exact hsome hnone

/-- Code that is about to hand the job over does not leave its identifier alone. -/
theorem not_respects_handOver : ¬ Respects x own ((handOver config x task).bind next) := by
  intro h
  cases h with
  | submit hj _ => exact hj rfl
  | spawn hm => cases hm
  | createJob hm => cases hm

theorem spawn_bind_eq (config : OrchestratorConfig) (metadata : Labels) (task : τ)
    (next : Except JobError JobId → Action ε τ α) :
    (spawn config (some x) metadata task).bind next =
      (World.create x metadata).bind fun r => (proceed config x task r).bind next := by
  rw [spawn_eq_proceed, Routine.bind_assoc]

/-- What code does after it was told that the job is there already, and after it was told that it has spawned the job. -/
theorem Respects.of_spawn (h : Respects x own ((Orchestrator.spawn config (some x) metadata task).bind next)) {w : World ε}
    (hw : w.registry.get? x = none) :
    Respects x own (next (.error (.alreadyExists x))) ∧ Respects x true (next (.ok x)) := by
  rw [spawn_bind_eq] at h
  generalize hm : (World.create x metadata).bind _ = m at h
  cases h with
  | done | crash | submit | close => cases hm
  | step h hn =>
    injection hm with _ hact
    subst hact
    exact absurd h (not_spares_create w metadata)
  | @spawn _ _ config' metadata' task' next' hm' he ho =>
    rw [spawn_bind_eq] at hm'
    have heq := hm.trans hm'
    have herr : next (.error (.alreadyExists x)) = next' (.error (.alreadyExists x)) := eq_error_of_create_bind heq w
    have hok : (handOver config x task).bind next = (handOver config' x task').bind next' :=
      eq_ok_of_create_bind heq hw
    injection hok with _ hn
    have hqueued : next (.ok x) = next' (.ok x) := congrFun hn Submission.queued
    exact ⟨herr ▸ he _, hqueued ▸ ho x⟩
  | @createJob _ _ metadata' next' hm' he ho =>
    have hok : (handOver config x task).bind next = next' _ := eq_ok_of_create_bind (hm.trans hm') hw
    exact absurd (hok ▸ ho _) not_respects_handOver

theorem Respects.of_createJob {next : Except JobError JobRecord → Action ε τ α}
    (h : Respects x own ((Orchestrator.createJob (some x) metadata).bind next))
    (hno : ∀ config metadata' task (after : Except JobError JobId → Action ε τ α),
      (Orchestrator.createJob (some x) metadata).bind next ≠
        (Orchestrator.spawn config (some x) metadata' task).bind after)
    {w : World ε} (hw : w.registry.get? x = none) :
    Respects x own (next (.error (.alreadyExists x))) ∧
      Respects x true (next (.ok (.accepted x metadata (.ofNanos w.clock.read)))) := by
  generalize hm : (Orchestrator.createJob (some x) metadata).bind next = m at h hno
  cases h with
  | done | crash | submit | close => cases hm
  | step h hn =>
    injection hm with _ hact
    subst hact
    exact absurd h (not_spares_create w metadata)
  | spawn hm' => exact (hno _ _ _ _ hm').elim
  | @createJob _ _ metadata' next' hm' he ho =>
    have heq : (World.create x metadata).bind next = (World.create x metadata').bind next' := hm.trans hm'
    exact ⟨eq_error_of_create_bind heq w ▸ he _, eq_ok_of_create_bind heq hw ▸ ho _⟩

theorem exists_begins {next : Except JobError JobRecord → Action ε τ α}
    (hm : m = (Orchestrator.createJob (some x) metadata).bind next) : ∃ request, Begins x request m := by
  by_cases h : ∃ config metadata task, ∃ after : Except JobError JobId → Action ε τ α,
      m = (Orchestrator.spawn config (some x) metadata task).bind after
  · obtain ⟨config, metadata, task, after, h⟩ := h
    exact ⟨_, .spawn h⟩
  · exact ⟨_, .createJob hm fun config metadata task after he => h ⟨config, metadata, task, after, he⟩⟩

/-! ## Runs with bids -/

/-- A bid: the thread that makes it, what it is, what is left of it, how many steps the thread has taken for it, and what
was seen of units in these steps. -/
structure Bid (ε τ : Type) where
  thread : Pool.ThreadId
  request : Registration τ
  left : Action ε τ (Except JobError JobId)
  steps : Nat := 0
  seen : List (Pool.Event (Job τ)) := []

/-- The answer to a bid, once it is settled. -/
def Bid.answer? (c : Bid ε τ) : Option (Except JobError JobId) :=
  match c.left with
  | .done r => some r
  | _ => none

/-- The thread that is in the middle of the bid. -/
def Bid.busy? (c : Bid ε τ) : Option Pool.ThreadId := if c.answer?.isNone then some c.thread else none

/-- A bid after a step of its thread. -/
def Bid.goOn (p : Pool (World ε) (Job τ)) (phase : Pool.Phase (World ε) (Job τ)) (c : Bid ε τ) : Bid ε τ :=
  { c with left := advance p phase c.left, steps := c.steps + 1, seen := c.seen ++ p.seen c.thread }

/-- A bid after a step of some thread. -/
def Bid.after (p : Pool (World ε) (Job τ)) (i : Pool.ThreadId) (c : Bid ε τ) : Bid ε τ :=
  match p.threads.get? i with
  | none => c
  | some t => if c.busy? = some i then c.goOn p t.phase else c

/-- The bids that a thread makes with its next step: one or none. -/
inductive Opens (x : JobId) (p : Pool (World ε) (Job τ)) (i : Pool.ThreadId) : List (Bid ε τ) → Prop where
  | bid {t : Pool.Thread (World ε) (Job τ)} {code : Action ε τ Unit} {request : Registration τ}
    (hi : p.threads.get? i = some t) (hp : t.phase = .running code) (hb : Begins x request code) :
    Opens x p i [{ thread := i, request, left := request.code x }]
  | none (h : ∀ t code request, p.threads.get? i = some t → t.phase = .running code → ¬ Begins x request code) :
    Opens x p i []

/-- Runs of an orchestrator, with what was seen on the way and the bids for an identifier, oldest first.  Bids are made by
any thread: by callers from outside and by the work of jobs.  Whatever else changes what threads share, and time above
all, leaves the identifier alone. -/
inductive BidRun (x : JobId) (work : Work ε τ) (name : String) (workers : Nat) (world : World ε) :
    List (Pool.Event (Job τ)) → List (Bid ε τ) → Pool (World ε) (Job τ) → Prop where
  | start {grants : Nat → Bool} : BidRun x work name workers world [] [] (.start name workers (unit work) world grants)
  | thread {es : List (Pool.Event (Job τ))} {bids new : List (Bid ε τ)} {p q : Pool (World ε) (Job τ)}
    (i : Pool.ThreadId) (before : BidRun x work name workers world es bids p) (ho : Opens x p i new)
    (h : p.step i = some q) :
    BidRun x work name workers world (es ++ p.seen i) ((bids ++ new).map (Bid.after p i)) q
  | passing {es : List (Pool.Event (Job τ))} {bids : List (Bid ε τ)} {p : Pool (World ε) (Job τ)} {w : World ε}
    (before : BidRun x work name workers world es bids p) (h : Spares x false p.shared.registry w.registry) :
    BidRun x work name workers world es bids { p with shared := w }
  | call {es : List (Pool.Event (Job τ))} {bids : List (Bid ε τ)} {p : Pool (World ε) (Job τ)}
    {code : Action ε τ Unit} (before : BidRun x work name workers world es bids p) (h : Respects x false code) :
    BidRun x work name workers world es bids (p.call code)

variable {work : Work ε τ} {name : String} {workers : Nat} {world : World ε} {es : List (Pool.Event (Job τ))}
  {bids : List (Bid ε τ)} {left : Nat → Option (Action ε τ JobContext.Outcome)} {p : Pool (World ε) (Job τ)}

theorem BidRun.pool (run : BidRun x work name workers world es bids p) :
    Pool.Run (fun w w' => Spares x false w.registry w'.registry) (.start name workers (unit work) world p.grants) es
      p := by
  induction run with
  | start =>
    rw [Pool.grants_start]
    exact .refl
  | thread i _ _ h ih =>
    obtain ⟨t, -, m⟩ := Pool.move_of_step h
    rw [m.grants]
    exact ih.thread i h
  | passing _ h ih => exact ih.passing h
  | @call _ _ _ code _ _ ih => exact ih.call code

theorem exists_opens (x : JobId) (p : Pool (World ε) (Job τ)) (i : Pool.ThreadId) : ∃ new, Opens x p i new := by
  by_cases h : ∃ t code request, p.threads.get? i = some t ∧ t.phase = .running code ∧ Begins x request code
  · obtain ⟨t, code, request, hi, hp, hb⟩ := h
    exact ⟨_, .bid hi hp hb⟩
  · exact ⟨[], .none fun t code request hi hp hb => h ⟨t, code, request, hi, hp, hb⟩⟩

/-- **Bids can be listed in every run** of an orchestrator in which the job may not be removed. -/
theorem Run.exists_bids (run : Run D work name workers world es left p) (hx : ¬ D x) :
    ∃ bids, BidRun x work name workers world es bids p := by
  induction run with
  | start => exact ⟨[], .start⟩
  | @thread es left p q i _ h ih =>
    obtain ⟨bids, hbids⟩ := ih
    obtain ⟨new, hnew⟩ := exists_opens x p i
    exact ⟨_, hbids.thread i hnew h⟩
  | passing _ h ih =>
    obtain ⟨bids, hbids⟩ := ih
    exact ⟨bids, hbids.passing (.of_eq (by rw [h]))⟩
  | call _ h ih =>
    obtain ⟨bids, hbids⟩ := ih
    exact ⟨bids, hbids.call (h.respects hx)⟩

theorem bidRun_of_follow : ∀ {ids : List Pool.ThreadId} {es es' : List (Pool.Event (Job τ))} {bids : List (Bid ε τ)}
    {p q : Pool (World ε) (Job τ)}, BidRun x work name workers world es bids p → Pool.follow ids p = some (es', q) →
      ∃ bids', BidRun x work name workers world (es ++ es') bids' q ∧ bids.length ≤ bids'.length
  | [], es, es', bids, p, q, run, hf => by
    cases hf
    rw [List.append_nil]
    exact ⟨bids, run, Nat.le_refl _⟩
  | i :: ids, es, es', bids, p, q, run, hf => by
    simp only [Pool.follow, Option.bind_eq_bind, Option.bind_eq_some_iff] at hf
    obtain ⟨p', hp, r, hr, he⟩ := hf
    cases he
    rw [← List.append_assoc]
    obtain ⟨new, hnew⟩ := exists_opens x p i
    obtain ⟨bids', run', hlen⟩ := bidRun_of_follow (run.thread i hnew hp) hr
    refine ⟨bids', run', Nat.le_trans ?_ hlen⟩
    rw [List.length_map, List.length_append]
    exact Nat.le_add_right ..

end Orchestrator
end JobRunner
