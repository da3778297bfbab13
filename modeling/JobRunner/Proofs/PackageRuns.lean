import JobRunner.Proofs.DiscreetRuns
import JobRunner.Proofs.PackageJobs
import JobRunner.Proofs.PollDeadline
import JobRunner.Proofs.RetryCourse
/-!
# Package jobs from end to end

Package jobs among other jobs and callers, who all have the registry, the cached clients and what lies outside in
common, but leave the notebooks of others alone.  What a package job has asked for when it has ended is in its notebook,
and what came of it in its record.
-/
namespace JobRunner

open World (Calm)

namespace Orchestrator

variable {γ ω τ : Type} {D : JobId → Prop} {deployer : γ → PackageClient ω} {embed : PackageTask γ → τ}
  {work : Work (ServiceEnv γ (Notebooks ω)) τ} {name : String} {workers : Nat}
  {world : World (ServiceEnv γ (Notebooks ω))} {es : List (Pool.Event (Job τ))}
  {left : Nat → Option (Action (ServiceEnv γ (Notebooks ω)) τ JobContext.Outcome)}
  {p : Pool (World (ServiceEnv γ (Notebooks ω))) (Job τ)} {e : Pool.Entry (Job τ)} {task : τ} {c : JobContext}

/-- Package tasks do their work through clients whose calls are noted for their jobs.  Of other tasks nothing is said
but that they are proper, write into no notebook of another job and do not turn the clock back. -/
structure Serves (D : JobId → Prop) (deployer : γ → PackageClient ω) (embed : PackageTask γ → τ)
    (work : Work (ServiceEnv γ (Notebooks ω)) τ) : Prop where
  package : ∀ t c, work (embed t) c = PackageService.work (fun g => (deployer g).noted c.id) t c
  proper : ∀ task c, (∀ t, task ≠ embed t) → Proper D (some c.id) (work task c)
  keeps : ∀ task c, (∀ t, task ≠ embed t) → ∀ x, x ≠ c.id → (work task c).Keeps (Calm fun env => env.outside.notes x)

theorem Serves.work_eq (h : Serves D deployer embed work) (t : PackageTask γ) (c : JobContext) :
    work (embed t) c = t.carryOut (PackageJob.clientFor (deployer t.client) c.id) c :=
  (h.package t c).trans (PackageTask.work_eq _ t c)

theorem Serves.does_modest (h : Serves D deployer embed work) (t : PackageTask γ) (c : JobContext) :
    (work (embed t) c).Does (PackageJob.Modest D c.id) fun _ => False := by
  rw [h.work_eq]
  exact PackageJob.does_carryOut PackageJob.allows_modest (PackageJob.calls_modest _ _) t

theorem Serves.proper_work (h : Serves D deployer embed work) (task : τ) (c : JobContext) :
    Proper D (some c.id) (work task c) := by
  by_cases ht : ∃ t, task = embed t
  · obtain ⟨t, rfl⟩ := ht
    exact .of_does ((h.does_modest t c).mono (fun _ _ hw => hw.harmless) fun _ hf => hf)
  · exact h.proper task c fun t hne => ht ⟨t, hne⟩

theorem Serves.keeps_work (h : Serves D deployer embed work) (task : τ) (c : JobContext) {x : JobId} (hx : x ≠ c.id) :
    (work task c).Keeps (Calm fun env => env.outside.notes x) := by
  by_cases ht : ∃ t, task = embed t
  · obtain ⟨t, rfl⟩ := ht
    exact (h.does_modest t c).mono (fun _ _ hw => ⟨hw.apart x hx, hw.later⟩) fun _ _ => trivial
  · exact h.keeps task c (fun t hne => ht ⟨t, hne⟩) x hx

/-- A package job that has ended has ended as its errand may end, with the calls that it noted. -/
theorem DiscreetRun.package_ended {t : PackageTask γ} {crashed : Bool} (h : Serves D deployer embed work)
    (run : DiscreetRun D (Calm fun env => env.outside.notes) work name workers world es left p)
    (hnew : world.env.outside.notes (jobId e) = []) (he : .submitted e ∈ es) (ht : e.unit.task = embed t)
    (hx : ¬ D (jobId e)) (hend : .ended e.ticket crashed ∈ es) :
    ∃ o r, p.shared.registry.get? (jobId e) = some r ∧ r.Tells o ∧
      t.Ends e.unit.context p.shared.clock.now o (PackageJob.said (deployer t.client) (jobId e) p.shared.env) := by
  have hmine : (wholeWork work e.unit).Ensures (Calm (PackageJob.said (deployer t.client) (jobId e)))
      (fun o w => ∃ outcome, o = some outcome ∧
        t.Ends e.unit.context w.clock.now outcome (PackageJob.said (deployer t.client) (jobId e) w.env)) world := by
    unfold wholeWork
    rw [ht, h.work_eq]
    refine World.ensures_report fun w hw => PackageJob.ensures_carryOut t e.unit.context ?_
    refine hw.seen.trans ?_
    unfold PackageJob.said
    rw [hnew]
    rfl
  have hrun : DiscreetRun D (Calm (PackageJob.said (deployer t.client) (jobId e))) work name workers world es left p :=
    run.mono fun _ _ hw => hw.map fun notes => (notes (jobId e)).map (deployer t.client).exchange
  obtain ⟨o, r, v, hr, htells, hv, hends⟩ := hrun.ended World.rule_calm h.proper_work he hx (fun e' _ hne =>
    keeps_unit ((h.keeps_work e'.unit.task e'.unit.context (Ne.symm hne)).mono fun _ _ hw =>
      hw.map fun notes => notes.map (deployer t.client).exchange)) hmine hend
  rcases hends with ⟨outcome, ho, hends⟩ | ⟨⟨_, ho, -⟩, -⟩
  · cases ho
    -- nothing was noted for the job between its last step and the end of the run
    rw [← hv.seen] at hends
    exact ⟨o, r, hr, htells, hends.mono hv.later⟩
  · cases ho

end Orchestrator

/-! ## The reckoning -/

/-- What the record of a package job that has ended says at some time, by the attempts and the looks that it made; a look
is given with whether a probe said yes. -/
structure PackageTask.Settles {γ : Type} (t : PackageTask γ) (c : JobContext) (now : Nat) (tried : List CapabilityError)
    (last : Except CapabilityError Unit) (looks : List (List Exchange × Bool)) (r : JobRecord) : Prop where
  /-- Attempts end with the first one that is accepted, and with the last one that is allowed. -/
  attempts : tried.length < max 1 c.retry.maxAttempts.toNat ∧
    ∀ e, last = .error e → tried.length + 1 = max 1 c.retry.maxAttempts.toNat
  seen : ∀ look ∈ looks, t.errand.Look look.1 look.2
  /-- Looks end with the first one that says yes. -/
  unconfirmed : ∀ look ∈ looks.dropLast, look.2 = false
  /-- If clocks can show the deadline of the wait, it makes no more looks than there are ticks in its time. -/
  bounded : now + c.poll.timeout.nanos < Poll.clockLimit →
    looks.length ≤ c.poll.timeout.nanos / max c.poll.tick.nanos 1000000
  /-- The number of looks does not wrap around if fewer fit in the time. -/
  counted : now + c.poll.timeout.nanos < Poll.clockLimit →
    c.poll.timeout.nanos / max c.poll.tick.nanos 1000000 < 2 ^ 32 → looks.length % 2 ^ 32 = looks.length
  refused : ∀ e, last = .error e → looks = [] ∧ r.status = .failed ∧ r.result = none ∧
    r.error = some (t.errand.operation ++ " " ++ t.errand.name ++ " failed after " ++
      Nat.repr (max 1 c.retry.maxAttempts.toNat) ++ " attempt(s): " ++ e.message)
  dry : last = .ok () → t.isDryRun = true → looks = [] ∧ r.status = .completed ∧ r.error = none ∧
    r.result = some (.obj [("operation", .str "uninstall"), ("release", .str t.errand.name),
      ("namespace", .str t.errand.space), ("dry_run", .bool true), ("checks", .int 0)])
  completed : last = .ok () → t.isDryRun = false → (r.status = .completed ↔ ∃ look ∈ looks, look.2 = true)
  /-- A job that saw its change tells which, and at which look. -/
  result : last = .ok () → t.isDryRun = false → r.status = .completed → r.error = none ∧ ∃ elapsed : Duration,
    r.result = some (.obj [("operation", .str t.errand.operation), ("release", .str t.errand.name),
      ("namespace", .str t.errand.space), ("checks", .int (looks.length % 2 ^ 32 : Nat)),
      ("elapsed_ms", .int elapsed.millis.toNat)])
  /-- A wait is told of when it has taken the time that it may take. -/
  timeout : last = .ok () → t.isDryRun = false → r.status ≠ .completed → r.status = .failed ∧ r.result = none ∧
    ∃ elapsed : Duration, c.poll.timeout.nanos ≤ elapsed.nanos ∧
      r.error = some ("timed out after " ++ elapsed.text ++ " waiting for " ++
        ("release " ++ t.errand.name ++ " " ++ t.errand.participle) ++
        " (" ++ Nat.repr (looks.length % 2 ^ 32) ++ " checks)")

namespace PackageTask

variable {γ : Type} {t : PackageTask γ} {c : JobContext} {now : Nat} {o : JobContext.Outcome} {said : List Exchange}
  {r : JobRecord}

def unseen (look : List Exchange) : List Exchange × Bool := (look, false)

variable {tried : List CapabilityError} {looks : List (List Exchange)}

theorem snd_unseen : ∀ look ∈ looks.map unseen, look.2 = false := by
  intro look hl
  obtain ⟨l, -, rfl⟩ := List.mem_map.1 hl
  rfl

theorem look_unseen (h : ∀ look ∈ looks, t.errand.Look look false) :
    ∀ look ∈ looks.map unseen, t.errand.Look look.1 look.2 := by
  intro look hl
  obtain ⟨l, hmem, rfl⟩ := List.mem_map.1 hl
  exact h l hmem

theorem flatten_unseen (looks : List (List Exchange)) : ((looks.map unseen).map (·.1)).flatten = looks.flatten := by
  rw [List.map_map]
  exact congrArg List.flatten (List.map_id looks)

/-- Looks that take no more than the time of the wait are no more than there are ticks in it. -/
theorem length_le {n : Nat} (h : n * c.poll.pace.nanos ≤ c.poll.timeout.nanos) :
    n ≤ c.poll.timeout.nanos / max c.poll.tick.nanos 1000000 := by
  rw [← Poll.nanos_pace]
  exact (Nat.le_div_iff_mul_le (Poll.pace_pos _)).2 h

theorem mod_length {n m : Nat} (h : n ≤ m) (hm : m < 2 ^ 32) : n % 2 ^ 32 = n :=
  Nat.mod_eq_of_lt (Nat.lt_of_le_of_lt h hm)

/-- The record of a job that saw its change. -/
theorem Settles.confirmed {last : List Exchange} {elapsed : Duration}
    (h : tried.length < max 1 c.retry.maxAttempts.toNat) (hd : t.isDryRun = false)
    (hlooks : ∀ look ∈ looks, t.errand.Look look false) (hlast : t.errand.Look last true)
    (hroom : now + c.poll.timeout.nanos < Poll.clockLimit →
      (looks.length + 1) * c.poll.pace.nanos ≤ c.poll.timeout.nanos)
    (hr : r.Tells (.ok (PackageJob.summary t.errand.operation t.errand.name t.errand.space
      ⟨.ofNat (looks.length + 1), elapsed⟩))) :
    t.Settles c now tried (.ok ()) (looks.map unseen ++ [(last, true)]) r := by
  obtain ⟨hstatus, hresult, herror⟩ := hr
  have hlen : (looks.map unseen ++ [(last, true)]).length = looks.length + 1 := by simp
  constructor
  case attempts => exact ⟨h, nofun⟩
  case seen =>
    intro look hl
    rcases List.mem_append.1 hl with hl | hl
    · exact look_unseen hlooks look hl
    · cases List.mem_singleton.1 hl
      exact hlast
  case unconfirmed =>
    rw [List.dropLast_concat]
    exact snd_unseen
  case bounded => exact fun hnow => hlen ▸ length_le (hroom hnow)
  case counted => exact fun hnow => mod_length (hlen ▸ length_le (hroom hnow))
  case refused => exact nofun
  case dry =>
    intro _ hd'
    rw [hd] at hd'
    cases hd'
  case completed =>
    intro _ _
    exact ⟨fun _ => ⟨_, List.mem_append_right _ (List.mem_singleton.2 rfl), rfl⟩, fun _ => hstatus⟩
  case result =>
    intro _ _ _
    refine ⟨herror, elapsed, ?_⟩
    rw [hresult, hlen, ← UInt32.toNat_ofNat']
    rfl
  case timeout => exact fun _ _ hne => absurd hstatus hne

/-- The record of a job that did not see its change. -/
theorem Settles.late {elapsed : Duration} (h : tried.length < max 1 c.retry.maxAttempts.toNat)
    (hd : t.isDryRun = false) (hlooks : ∀ look ∈ looks, t.errand.Look look false)
    (hroom : now + c.poll.timeout.nanos < Poll.clockLimit →
      looks.length * c.poll.pace.nanos ≤ c.poll.timeout.nanos)
    (hover : c.poll.timeout.nanos ≤ elapsed.nanos) (hr : r.Tells (.error (.poll
      ⟨"release " ++ t.errand.name ++ " " ++ t.errand.participle, elapsed, .ofNat looks.length⟩))) :
    t.Settles c now tried (.ok ()) (looks.map unseen) r := by
  obtain ⟨hstatus, hresult, herror⟩ := hr
  have hlen : (looks.map unseen).length = looks.length := List.length_map _
  have hne : r.status ≠ .completed := by
    rw [hstatus]
    decide
  constructor
  case attempts => exact ⟨h, nofun⟩
  case seen => exact look_unseen hlooks
  case unconfirmed => exact fun look hl => snd_unseen look (List.dropLast_subset _ hl)
  case bounded => exact fun hnow => hlen ▸ length_le (hroom hnow)
  case counted => exact fun hnow => mod_length (hlen ▸ length_le (hroom hnow))
  case refused => exact nofun
  case dry =>
    intro _ hd'
    rw [hd] at hd'
    cases hd'
  case completed =>
    refine fun _ _ => ⟨fun hc => absurd hc hne, ?_⟩
    rintro ⟨look, hl, hyes⟩
    rw [snd_unseen look hl] at hyes
    cases hyes
  case result => exact fun _ _ hc => absurd hc hne
  case timeout =>
    refine fun _ _ _ => ⟨hstatus, hresult, elapsed, hover, ?_⟩
    rw [herror, hlen, ← UInt32.toNat_ofNat']
    rfl

theorem Ends.settles (h : t.Ends c now o said) (hr : r.Tells o) :
    ∃ tried last looks, said = (Retry.answers tried last).map (.change t.errand.change) ++ (looks.map (·.1)).flatten ∧
      t.Settles c now tried last looks r := by
  cases h with
  | @refused tried e h =>
    obtain ⟨hstatus, hresult, herror⟩ := hr
    refine ⟨tried, .error e, [], (List.append_nil _).symm, ?_⟩
    constructor
    case attempts => exact ⟨by omega, fun e' _ => h⟩
    case bounded => exact fun _ => Nat.zero_le _
    case counted => exact fun _ _ => rfl
    case seen | unconfirmed | dry | completed | result | timeout => exact nofun
    case refused =>
      rintro e' ⟨⟩
      rw [← h]
      exact ⟨rfl, hstatus, hresult, herror⟩
  | @dry tried h hd =>
    obtain ⟨hstatus, hresult, herror⟩ := hr
    refine ⟨tried, .ok (), [], (List.append_nil _).symm, ?_⟩
    constructor
    case attempts => exact ⟨h, nofun⟩
    case bounded => exact fun _ => Nat.zero_le _
    case counted => exact fun _ _ => rfl
    case seen | unconfirmed | refused => exact nofun
    case dry => exact fun _ _ => ⟨rfl, hstatus, herror, hresult⟩
    case completed | result | timeout =>
      intro _ hd'
      rw [hd] at hd'
      cases hd'
  | @confirmed tried looks last elapsed h hd hlooks hlast hroom =>
    refine ⟨tried, .ok (), looks.map unseen ++ [(last, true)], ?_, .confirmed h hd hlooks hlast hroom hr⟩
    rw [List.map_append, List.flatten_append, List.flatten_append, flatten_unseen]
    rfl
  | @late tried looks elapsed h hd hlooks hroom hover =>
    refine ⟨tried, .ok (), looks.map unseen, ?_, .late h hd hlooks hroom hover hr⟩
    rw [flatten_unseen]

end PackageTask

/-! ## Coming to an end -/

namespace PackageTask

variable {γ ε : Type} {S : Interface} {client : PackageClient ε} {t : PackageTask γ} {c : JobContext}
  {R : World ε → World ε → Prop}

/-- What a job does before it begins to wait, and when it then begins, unless it is over already. -/
def untilWait (client : PackageClient ε) (t : PackageTask γ) (c : JobContext) :
    World.Action ε S (Except JobContext.Outcome Nat) := do
  c.log t.headline
  match ← c.attempt (t.errand.operation ++ " " ++ t.errand.name) (PackageJob.ask (client.change t.errand.change)) with
  | .error e => return .error (.error (.retry e))
  | .ok () =>
    if t.isDryRun then do
      c.log "dry run: nothing removed"
      return .error (.ok (PackageJob.dryRunSummary t.errand.name t.errand.space))
    else do
      c.progress 60 ("confirming " ++ t.errand.name ++ " is " ++ t.errand.participle)
      return .ok (← World.now)

/-- The wait of a job, and what it makes of it. -/
def fromWait (client : PackageClient ε) (t : PackageTask γ) (c : JobContext) :
    Except JobContext.Outcome Nat → World.Action ε S JobContext.Outcome
  | .error o => pure o
  | .ok start => do
    match ← Poll.onward c.id (t.condition client) c.poll start with
    | .error timeout => return .error (.poll timeout)
    | .ok outcome =>
      return .ok (PackageJob.summary t.errand.operation t.errand.name t.errand.space outcome)

theorem carryOut_eq : (t.carryOut client c : World.Action ε S JobContext.Outcome) =
    t.untilWait client c >>= t.fromWait client c := by
  unfold carryOut untilWait
  rw [bind_assoc, bind_assoc]
  refine congrArg _ (funext fun _ => congrArg _ (funext fun answer => ?_))
  cases answer with
  | error e => rfl
  | ok u =>
    dsimp only
    unfold afterwards
    split
    · rw [bind_assoc]
      rfl
    · rw [bind_assoc]
      rfl

theorem completes_anyResource (hP : World.Patient R) (space release : String) : ∀ kinds w,
    (PackageJob.anyResource client space release kinds : World.Action ε S (Except CapabilityError Bool)).Completes R w
  | [], _ => trivial
  | kind :: kinds, w => by
    refine Routine.completes_bind.2 ⟨Routine.completes_atomically hP.refl _ w, fun answer u _ => ?_⟩
    cases answer with
    | error e => exact trivial
    | ok resources =>
      cases resources with
      | nil => exact completes_anyResource hP space release kinds u
      | cons r rs => exact trivial

/-- The probes of a package job always come to an answer. -/
theorem completes_condition (hP : World.Patient R) :
    ∀ p ∈ (t.condition client : Condition ε S).probes, ∀ w, p.check.Completes R w := by
  have hstatus : ∀ name space test w, (PackageJob.statusProbe client name space test :
      World.Action ε S (Except CapabilityError Bool)).Completes R w := fun _ _ _ w =>
    Routine.completes_bind.2 ⟨Routine.completes_atomically hP.refl _ w, fun _ _ _ => trivial⟩
  have hlist : ∀ space release w, (PackageJob.resourcesPresent client space release :
      World.Action ε S (Except CapabilityError Bool)).Completes R w :=
    fun space release w => completes_anyResource hP space release _ w
  cases t with
  | install g r | upgrade g r =>
    exact List.forall_mem_cons.2 ⟨hstatus _ _ _, List.forall_mem_singleton.2 (hlist _ _)⟩
  | uninstall g name space dryRun =>
    refine List.forall_mem_cons.2 ⟨hstatus _ _ _, List.forall_mem_singleton.2 fun w => ?_⟩
    exact Routine.completes_bind.2 ⟨hlist _ _ w, fun _ _ _ => trivial⟩

theorem forward_condition (hR : World.Forward R) (probe : Probe ε S × Except CapabilityError Bool) :
    World.Forward (Poll.Answers R (t.condition client) probe) := by
  rintro w v ⟨hmem, hrun⟩
  have hcalls : PackageJob.Calls (fun u v : World ε => u.clock.now ≤ v.clock.now) client :=
    ⟨fun _ w => w.clock.now_le_read, fun _ _ w => w.clock.now_le_read, fun _ _ _ w => w.clock.now_le_read⟩
  exact hrun.of_does (PackageJob.does_condition (Q := fun _ => True) hcalls t _ hmem) (fun _ => Nat.le_refl _)
    Nat.le_trans hR

/-- **A package job comes to its end** in a world where time passes: it never fails to begin its wait, and never fails to
end one whose deadline clocks can show. -/
structure Finishes (client : PackageClient ε) (t : PackageTask γ) (c : JobContext) (R : World ε → World ε → Prop)
    (work : World.Action ε S JobContext.Outcome) : Prop where
  parts : work = t.untilWait client c >>= t.fromWait client c
  begins : ∀ w, (t.untilWait client c : World.Action ε S _).Completes R w
  ends : ∀ w begun u, (t.untilWait client c : World.Action ε S _).Runs R w (some begun) u →
    (∀ start, begun = .ok start → start + c.poll.timeout.nanos < Poll.clockLimit) →
      (t.fromWait client c begun : World.Action ε S _).Completes R u

theorem finishes_carryOut (hP : World.Patient R) (hR : World.Forward R) :
    t.Finishes client c R (t.carryOut client c : World.Action ε S JobContext.Outcome) where
  parts := carryOut_eq
  begins w := by
    refine Routine.completes_bind.2 ⟨hP.completes_report _ _ w, fun _ u _ => Routine.completes_bind.2 ⟨?_, ?_⟩⟩
    · exact Retry.completes_attemptsFrom hP (fun v => Routine.completes_atomically hP.refl _ v) _ _ u
    · intro answer v _
      cases answer with
      | error e => exact trivial
      | ok u =>
        dsimp only
        split
        · exact Routine.completes_bind.2 ⟨hP.completes_report _ _ v, fun _ _ _ => trivial⟩
        · refine Routine.completes_bind.2 ⟨hP.completes_report _ _ v, fun _ x _ => ?_⟩
          exact Routine.completes_bind.2 ⟨hP.completes_now x, fun _ _ _ => trivial⟩
  ends w begun u _ hbegun := by
    cases begun with
    | error o => exact trivial
    | ok start =>
      refine Routine.completes_bind.2 ⟨?_, fun answer v _ => ?_⟩
      · exact Poll.completes_onward hP hR (forward_condition hR) (completes_condition hP) (hbegun start rfl) u
      · cases answer with
        | error timeout => exact trivial
        | ok outcome => exact trivial

end PackageTask

namespace Orchestrator

/-- **Package jobs from end to end**, whatever the deployer answers, however fast the clock goes and whatever the other
threads do, as long as the job is not removed.  When the pool has come to rest, a job that was not turned away has
ended; and a job comes to its end where time passes and its deadline can be shown.  A job that has ended has asked for
nothing but its change, up to the first time that this was accepted or as often as it may, and then for looks at what
came of it; and its record says how that went. -/
theorem package_job_end_to_end {γ ω τ : Type} {D : JobId → Prop} {deployer : γ → PackageClient ω}
    {embed : PackageTask γ → τ} {work : Work (ServiceEnv γ (Notebooks ω)) τ} {name : String} {workers : Nat}
    {world : World (ServiceEnv γ (Notebooks ω))} {es : List (Pool.Event (Job τ))}
    {left : Nat → Option (Action (ServiceEnv γ (Notebooks ω)) τ JobContext.Outcome)}
    {p : Pool (World (ServiceEnv γ (Notebooks ω))) (Job τ)} {e : Pool.Entry (Job τ)} {t : PackageTask γ}
    (h : Serves D deployer embed work)
    (run : DiscreetRun D (Calm fun env => env.outside.notes) work name workers world es left p)
    (hnew : world.env.outside.notes (jobId e) = []) (he : .submitted e ∈ es) (ht : e.unit.task = embed t)
    (hx : ¬ D (jobId e)) :
    (p.AllReturned → p.AtRest → .answered e.ticket .rejected ∉ es → ∃ crashed, .ended e.ticket crashed ∈ es) ∧
    (∀ R, World.Patient R → World.Forward R → t.Finishes (PackageJob.clientFor (deployer t.client) (jobId e))
      e.unit.context R (work e.unit.task e.unit.context)) ∧
    ∀ crashed, .ended e.ticket crashed ∈ es → ∃ r tried last looks,
      p.shared.registry.get? (jobId e) = some r ∧
      PackageJob.said (deployer t.client) (jobId e) p.shared.env =
        (Retry.answers tried last).map (.change t.errand.change) ++ (looks.map (·.1)).flatten ∧
      t.Settles e.unit.context p.shared.clock.now tried last looks r := by
  refine ⟨fun hret hrest hno => ?_, fun R hP hR => ?_, fun crashed hend => ?_⟩
  · exact (run.run.pool.rejected_or_ended hret hrest he).resolve_left hno
  · rw [ht, h.work_eq]
    exact PackageTask.finishes_carryOut hP hR
  · obtain ⟨o, r, hr, htells, hends⟩ := run.package_ended h hnew he ht hx hend
    obtain ⟨tried, last, looks, hsaid, hsettles⟩ := hends.settles htells
    exact ⟨r, tried, last, looks, hr, hsaid, hsettles⟩

/-! ## A job that is installed at the second attempt -/

variable {ω : Type}

/-- All tasks are package tasks, and all clients are one. -/
def packageWork (client : PackageClient ω) : Work (ServiceEnv Unit (Notebooks ω)) (PackageTask Unit) := fun t c =>
  PackageService.work (fun _ => client.noted c.id) t c

def redis : PackageRequest := { name := "redis", source := "bitnami/redis", space := "cache" }

/-- Spawns a job, and lets time pass by reading the clock. -/
def packageCaller (t : PackageTask Unit) : Action (ServiceEnv Unit (Notebooks ω)) (PackageTask Unit) Unit := do
  let _ ← spawn { retry := ⟨3, .zero⟩, poll := ⟨.ofSecs 60, .ofMillis 100⟩ } (some ⟨"first"⟩) .empty t
  let _ ← World.now
  let _ ← World.now

/-- One second passes with each reading. -/
def packageWorld (state : ω) : World (ServiceEnv Unit (Notebooks ω)) :=
  { clock := { drift := fun _ => 1000000000 }, env := { cache := .ofConfig {}, outside := { outside := state } } }

def packagePool (client : PackageClient ω) (state : ω) (t : PackageTask Unit) :
    Pool (World (ServiceEnv Unit (Notebooks ω))) (Job (PackageTask Unit)) :=
  (Pool.start "sample" 1 (unit (packageWork client)) (packageWorld state)).call (packageCaller t)

theorem serves_packageWork (client : PackageClient ω) :
    Serves (fun _ => False) (fun _ : Unit => client) (fun t => t) (packageWork client) where
  package _ _ := rfl
  proper task _ h := absurd rfl (h task)
  keeps task _ h := absurd rfl (h task)

theorem discreet_packagePool (client : PackageClient ω) (state : ω) (t : PackageTask Unit) :
    DiscreetRun (fun _ => False) (Calm fun env => env.outside.notes) (packageWork client) "sample" 1
      (packageWorld state) [] (fun _ => none) (packagePool client state t) := by
  have hnow : (World.now : Action (ServiceEnv Unit (Notebooks ω)) (PackageTask Unit) Nat).Keeps
      (Calm fun env => env.outside.notes) := Routine.does_atomically fun w => ⟨rfl, w.clock.now_le_read⟩
  refine DiscreetRun.start.call (.spawn rfl fun _ => ?_)
    ((keeps_spawn _ _ _ _).bind fun _ => hnow.bind fun _ => hnow.bind fun _ => .done ())
  exact .step (fun w => .same) fun w => .step (fun w => .same) fun w => .done _

/-- A run in which a job has ended well, read off the steps of its threads. -/
theorem exists_completed {client : PackageClient ω} {state : ω} {t : PackageTask Unit} {ids : List Pool.ThreadId}
    {isTask : PackageTask Unit → Bool} {test : List (Note ω) → Bool}
    (h : ((Pool.follow ids (packagePool client state t)).any fun b =>
      (b.1.any fun ev => ev.entry?.any fun e => decide (jobId e = ⟨"first"⟩) && e.ticket == 0 && isTask e.unit.task) &&
      (b.1.any (Pool.Event.ends (· == 0))) &&
      ((b.2.shared.registry.get? ⟨"first"⟩).any fun r => decide (r.status = .completed)) &&
      test (b.2.shared.env.outside.notes ⟨"first"⟩)) = true) :
    ∃ es left p e crashed r,
      DiscreetRun (fun _ => False) (Calm fun env => env.outside.notes) (packageWork client) "sample" 1
        (packageWorld state) es left p ∧ .submitted e ∈ es ∧ isTask e.unit.task = true ∧ .ended e.ticket crashed ∈ es ∧
      p.shared.registry.get? (jobId e) = some r ∧ r.status = .completed ∧
      test (p.shared.env.outside.notes (jobId e)) = true := by
  simp only [Option.any_eq_true, Bool.and_eq_true, decide_eq_true_eq, List.any_eq_true, beq_iff_eq] at h
  obtain ⟨⟨es, p⟩, hfollow, ⟨⟨⟨ev, hev, e, hentry, ⟨hid, hticket⟩, htask⟩, evend, hevend, hends⟩, r, hr, hstatus⟩,
    htest⟩ := h
  obtain ⟨left, run⟩ := discreetRun_of_follow (discreet_packagePool _ _ _) hfollow
  rw [List.nil_append] at run
  obtain ⟨crashed, rfl⟩ := Pool.Event.exists_ended hends
  rw [← hticket] at hevend
  exact ⟨es, left, p, e, crashed, r, run, Pool.Event.eq_submitted hentry ▸ hev, htask, hevend, hid ▸ hr, hstatus,
    hid ▸ htest⟩

/-- The task is to install the sample. -/
def installsRedis : PackageTask Unit → Bool
  | .install _ r => r.name == "redis" && r.space == "cache"
  | _ => false

theorem exists_installed {client : PackageClient ω} {state : ω} {ids : List Pool.ThreadId}
    {test : List (Note ω) → Bool}
    (h : ((Pool.follow ids (packagePool client state (.install () redis))).any fun b =>
      (b.1.any fun ev => ev.entry?.any fun e => decide (jobId e = ⟨"first"⟩) && e.ticket == 0 &&
        installsRedis e.unit.task) &&
      (b.1.any (Pool.Event.ends (· == 0))) &&
      ((b.2.shared.registry.get? ⟨"first"⟩).any fun r => decide (r.status = .completed)) &&
      test (b.2.shared.env.outside.notes ⟨"first"⟩)) = true) :
    ∃ es left p e request crashed r,
      DiscreetRun (fun _ => False) (Calm fun env => env.outside.notes) (packageWork client) "sample" 1
        (packageWorld state) es left p ∧ .submitted e ∈ es ∧ e.unit.task = .install () request ∧ request.name = "redis" ∧
      request.space = "cache" ∧ .ended e.ticket crashed ∈ es ∧ p.shared.registry.get? (jobId e) = some r ∧
      r.status = .completed ∧ test (p.shared.env.outside.notes (jobId e)) = true := by
  obtain ⟨es, left, p, e, crashed, r, run, he, htask, hend, hr, hstatus, htest⟩ := exists_completed h
  generalize ht : e.unit.task = t at htask
  cases t with
  | install g request =>
    rw [installsRedis, Bool.and_eq_true, beq_iff_eq, beq_iff_eq] at htask
    exact ⟨es, left, p, e, request, crashed, r, run, he, ht, htask.1, htask.2, hend, hr, hstatus, htest⟩
  | upgrade | uninstall => cases htask

/-- A deployer that refuses the first change, counts its calls, and shows a release when it was asked for it before. -/
def sampleDeployer : PackageClient Nat where
  healthCheck _ n := (.ok (), n)
  releaseStatus _ _ _ n := (.ok (if n < 3 then .absent else .present .empty), n + 1)
  install _ _ n := (if n = 0 then .error (.unavailable "busy") else .ok (), n + 1)
  upgrade _ _ n := (.ok (), n)
  uninstall _ _ _ _ n := (.ok (), n)
  list _ _ _ _ n := (.error (.unavailable "down"), n)

/-- The second attempt is accepted, and the second look says so. -/
theorem package_job_end_to_end_sample : ∃ es left p e request crashed r tried, ∃ looks : List (List Exchange × Bool),
    DiscreetRun (fun _ => False) (Calm fun env => env.outside.notes) (packageWork sampleDeployer) "sample" 1
        (packageWorld 0) es left p ∧
      .submitted e ∈ es ∧ e.unit.task = .install () request ∧ .ended e.ticket crashed ∈ es ∧
      p.shared.registry.get? (jobId e) = some r ∧ r.status = .completed ∧
      PackageJob.said sampleDeployer (jobId e) p.shared.env =
        (Retry.answers tried (.ok ())).map (.change (.install request)) ++ (looks.map (·.1)).flatten ∧
      ∃ look ∈ looks, look.2 = true := by
  obtain ⟨es, left, p, e, request, crashed, r, run, he, ht, -, -, hend, hr, hstatus, -⟩ :=
    @exists_installed _ sampleDeployer 0 (List.replicate 4 (.caller 0) ++ List.replicate 17 (.worker 0) ++
      [.caller 0] ++ List.replicate 7 (.worker 0) ++ [.caller 0] ++ List.replicate 10 (.worker 0)) (fun _ => true)
      (by decide +kernel)
  obtain ⟨r', tried, last, looks, hr', hsaid, hsettles⟩ :=
    (package_job_end_to_end (serves_packageWork sampleDeployer) run rfl he ht fun hf => hf).2.2 crashed hend
  rw [hr] at hr'
  cases hr'
  -- had all attempts failed, the record would say so
  cases last with
  | error error =>
    have hfailed := (hsettles.refused error rfl).2.1
    rw [hstatus] at hfailed
    cases hfailed
  | ok u =>
    exact ⟨es, left, p, e, request, crashed, r, tried, looks, run, he, ht, hend, hr, hstatus, hsaid,
      (hsettles.completed rfl rfl).1 hstatus⟩

end Orchestrator
end JobRunner
