import JobRunner.Proofs.JobCode
import JobRunner.Proofs.LoneThreads
import JobRunner.Proofs.RegistryAnswers
/-!
# A job that is spawned alone

What comes of spawning a job while all other threads stand still.  Either the identifier that was made for it is taken,
and then nothing was touched; or one record was added and one unit handed over.  A pool that is closed does not undo
this: it is written down in the record.  Nor does it if no thread can be made for the unit, which the thread that spawns
the job then runs itself before it goes on.
-/
namespace JobRunner
namespace Orchestrator

open Pool (Solo Carried)

variable {ε τ : Type} {config : OrchestratorConfig} {labels : Labels} {task : τ} {p q : Pool (World ε) (Job τ)}
  {id : Pool.ThreadId} {ticket : Option Nat}

/-- The record of a new job, by what was answered when it was handed over. -/
inductive Filed (x : JobId) (labels : Labels) : Submission → JobRecord → Prop where
  | accepted {a : Submission} (now : Timestamp) (h : a ≠ .rejected) : Filed x labels a (.accepted x labels now)
  | turnedAway (now later : Timestamp) :
    Filed x labels .rejected ((JobRecord.accepted x labels now).markFailed rejectedMessage later)

/-- No job was touched, nothing was handed over, and the pool is as open as it was. -/
structure Untouched (p q : Pool (World ε) (Job τ)) : Prop where
  registry : q.shared.registry = p.shared.registry
  queue : q.queue = p.queue
  submissions : q.submissions = p.submissions
  isClosed : q.isClosed = p.isClosed
  isOpen : q.isOpen = p.isOpen

theorem untouched_doing {code : Action ε τ Unit} {w : World ε} (h : w.registry = p.shared.registry) :
    Untouched p (p.doing id ticket code w) := ⟨h, rfl, rfl, rfl, rfl⟩

theorem Untouched.trans {u : Pool (World ε) (Job τ)} (h : Untouched p u) (h' : Untouched u q) : Untouched p q :=
  ⟨h'.registry.trans h.registry, h'.queue.trans h.queue, h'.submissions.trans h.submissions,
    h'.isClosed.trans h.isClosed, h'.isOpen.trans h.isOpen⟩

/-- What has come of spawning a job, and what is seen of it. -/
inductive Spawned (config : OrchestratorConfig) (labels : Labels) (task : τ) (p q : Pool (World ε) (Job τ)) :
    Except JobError JobId → List (Pool.Event (Job τ)) → Prop where
  | taken {x : JobId} {r : JobRecord} (hr : p.shared.registry.get? x = some r) (hq : Untouched p q) :
    Spawned config labels task p q (.error (.alreadyExists x)) []
  | filed {x : JobId} {a : Submission} {r : JobRecord} (hfree : p.shared.registry.get? x = none)
    (hr : q.shared.registry = ⟨p.shared.registry.jobs.insert x r⟩) (hf : Filed x labels a r)
    (hc : p.isClosed = true → a = .rejected) (ho : p.isOpen = true → p.isClosed = false → a ≠ .rejected) :
    Spawned config labels task p q (.ok x)
      [.submitted ⟨p.submissions, ⟨⟨x, config.retry, config.poll⟩, task⟩⟩, .answered p.submissions a]

/-- What has come of spawning a job from where no job had been touched yet. -/
theorem Untouched.spawned {u : Pool (World ε) (Job τ)} {result : Except JobError JobId}
    {es : List (Pool.Event (Job τ))} (hu : Untouched p u) (h : Spawned config labels task u q result es) :
    Spawned config labels task p q result es := by
  cases h with
  | taken hr hq =>
    rw [hu.registry] at hr
    exact .taken hr (hu.trans hq)
  | filed hfree hr hf hc ho =>
    rw [hu.registry] at hfree hr
    rw [hu.isClosed] at hc ho
    rw [hu.isOpen] at ho
    rw [hu.submissions]
    exact .filed hfree hr hf hc ho

/-- What is left of spawning a job when it was handed over. -/
theorem solo_settle {next : Except JobError JobId → Action ε τ Unit} {x : JobId} {a : Submission} {now : Timestamp}
    {reg : Registry} (hno : a = .rejected → p.isHosting id = false)
    (hp : p.threads.get? id = some { ticket, phase := .running ((settle x a).bind next) })
    (hr : p.shared.registry = ⟨reg.jobs.insert x (.accepted x labels now)⟩) :
    ∃ r q, Solo id p [] q ∧ q.threads.get? id = some { ticket, phase := .running (next (.ok x)) } ∧
      q.shared.env = p.shared.env ∧ Filed x labels a r ∧ q.shared.registry = ⟨reg.jobs.insert x r⟩ ∧
      (q = p ∨ q.isHosting id = false) := by
  cases a with
  | queued | overflow => exact ⟨_, p, .refl p, hp, rfl, .accepted now nofun, hr, .inl rfl⟩
  | rejected =>
    let later := Timestamp.ofNanos p.shared.clock.read
    have hget : p.shared.registry.get? x = some (.accepted x labels now) := by
      rw [hr]
      exact Table.get?_insert_self ..
    have happly : (Change.fail rejectedMessage).apply later (.accepted x labels now) =
        .ok ((JobRecord.accepted x labels now).markFailed rejectedMessage later) :=
      JobRecord.apply_of_allowed (.inr ⟨rfl, nofun⟩)
    have hchange := Registry.change_of_ok hget happly
    have hperform : (World.change x (.fail rejectedMessage) : Action ε τ _).Performs p.shared
        (.returned (p.shared.registry.change x (.fail rejectedMessage) later).1)
        (World.onRegistry (Registry.change x (.fail rejectedMessage)) p.shared).2 := Routine.performs_atomically ..
    rw [hchange] at hperform
    have hbind : (settle x .rejected : Action ε τ _).bind next =
        (World.change x (.fail rejectedMessage)).bind fun r => next (r.map fun _ => x) := Routine.bind_assoc ..
    rw [hbind] at hp
    refine ⟨_, _, Pool.solo_of_returned (hno rfl) hp hperform, Pool.get?_doing, rfl, .turnedAway now later, ?_,
      .inr (Pool.isHosting_doing (hno rfl) hp)⟩
    show (p.shared.registry.change x (.fail rejectedMessage) later).2 = _
    rw [hchange, hr, Table.insert_insert]

theorem solo_handOver {next : Except JobError JobId → Action ε τ Unit} {x : JobId} {now : Timestamp} {reg : Registry}
    (hno : p.isHosting id = false)
    (hp : p.threads.get? id = some { ticket, phase := .running ((handOver config x task).bind next) })
    (hr : p.shared.registry = ⟨reg.jobs.insert x (.accepted x labels now)⟩) :
    ∃ a r q, Carried p id ticket next (.returned (.ok x))
        [.submitted ⟨p.submissions, ⟨⟨x, config.retry, config.poll⟩, task⟩⟩, .answered p.submissions a] q ∧
      q.shared.env = p.shared.env ∧ Filed x labels a r ∧ q.shared.registry = ⟨reg.jobs.insert x r⟩ ∧
      (p.isClosed = true → a = .rejected) ∧ (p.isOpen = true → p.isClosed = false → a ≠ .rejected) := by
  obtain ⟨a, u, hsubmit, hanswered, hclosed, hopen⟩ := Pool.solo_submit hno hp
  have halone : a = .rejected → u.isHosting id = false := by
    rintro rfl
    exact hanswered.alone nofun
  obtain ⟨r, q, hsettle, hthread, henv, hfiled, hreg, hsame⟩ := solo_settle halone hanswered.thread (hanswered.shared ▸ hr)
  rw [hanswered.shared] at henv
  have hsolo := hsubmit.trans hsettle
  rw [List.append_nil] at hsolo
  refine ⟨a, r, q, ⟨hsolo, ⟨_, .returned _, hthread⟩, fun hf hh hw => ?_⟩, henv, hfiled, hreg, hclosed, hopen⟩
  obtain rfl : q = u := by
    refine hsame.resolve_right fun hnot => ?_
    rw [hnot] at hw
    cases hw
  obtain rfl : a = .overflow := by
    refine Decidable.byContradiction fun hne => ?_
    rw [hanswered.alone hne] at hw
    cases hw
  exact ⟨_, List.mem_cons_self, List.mem_cons_of_mem _ List.mem_cons_self, hanswered.lodger hf hh hw⟩

theorem solo_register {next : Except JobError JobId → Action ε τ Unit} {x : JobId} (hno : p.isHosting id = false)
    (hp : p.threads.get? id = some { ticket, phase := .running ((register config labels task x).bind next) }) :
    ∃ result es q, Carried p id ticket next (.returned result) es q ∧ q.shared.env = p.shared.env ∧
      Spawned config labels task p q result es := by
  let now := Timestamp.ofNanos p.shared.clock.read
  have hcreate : (World.create x labels : Action ε τ _).Performs p.shared
      (.returned (p.shared.registry.create x labels now).1)
      (World.onRegistry (Registry.create x labels) p.shared).2 := Routine.performs_atomically ..
  rw [register, Routine.bind_assoc] at hp
  have hsolo := Pool.solo_of_returned hno hp hcreate
  have halone : ∀ {code w}, (p.doing id ticket code w).isHosting id = false := Pool.isHosting_doing hno hp
  have hreg : (World.onRegistry (Registry.create x labels) p.shared).2.registry =
      (p.shared.registry.create x labels now).2 := rfl
  cases hr : p.shared.registry.get? x with
  | some r =>
    rw [Registry.create_of_some hr] at hsolo hreg
    exact ⟨_, _, _, .of_alone hsolo ⟨_, .returned _, Pool.get?_doing⟩ halone, rfl, .taken hr (untouched_doing hreg)⟩
  | none =>
    rw [Registry.create_eq_of_none hr] at hsolo hreg
    obtain ⟨a, r, q, hcarried, henv, hfiled, hq, hclosed, hopen⟩ := solo_handOver halone Pool.get?_doing hreg
    exact ⟨_, _, q, hcarried.after hsolo, henv, .filed hr hq hfiled hclosed hopen⟩

/-- **A job that is spawned alone** is registered and handed over, unless the identifier that was made for it is taken. -/
theorem solo_spawn {next : Except JobError JobId → Action ε τ Unit} (hno : p.isHosting id = false)
    (hp : p.threads.get? id = some { ticket, phase := .running ((spawn config none labels task).bind next) }) :
    ∃ result es q, Carried p id ticket next (.returned result) es q ∧ q.shared.env = p.shared.env ∧
      Spawned config labels task p q result es := by
  rw [spawn_eq, Routine.bind_assoc] at hp
  let x : JobId := .made (p.shared.clock.read / 1000000) p.shared.minted
  let minted : World ε := { p.shared with clock := p.shared.clock.tick, minted := p.shared.minted + 1 }
  have hmint : (identify none : Action ε τ JobId).Performs p.shared (.returned x) minted :=
    Routine.performs_atomically ..
  have hsolo := Pool.solo_of_returned hno hp hmint
  have huntouched : Untouched p (p.doing id ticket ((register config labels task x).bind next) minted) :=
    untouched_doing rfl
  obtain ⟨result, es, q, hcarried, henv, hspawned⟩ := solo_register (Pool.isHosting_doing hno hp) Pool.get?_doing
  exact ⟨result, es, q, hcarried.after hsolo, henv, huntouched.spawned hspawned⟩

end Orchestrator
end JobRunner
