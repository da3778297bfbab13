import JobRunner.Proofs.JobFates
import JobRunner.Proofs.JobTurns
/-!
# The boundary between jobs and the pool

However the threads of an orchestrator take turns, the record of a spawned job says how its work stands, as long as no
spawned job is removed and the work of a job changes no other job: the job is pending until its unit begins, it has not
ended while its work runs, and when the unit has ended or was turned away, the record says how.  So no job is left behind
when all is over, and the pool never sees a crash.
-/
namespace JobRunner
namespace Orchestrator

variable {ε τ : Type} {D : JobId → Prop} {work : Work ε τ} {name : String} {workers : Nat} {world : World ε}
  {es : List (Pool.Event (Job τ))} {left : Nat → Option (Action ε τ JobContext.Outcome)} {b : Board ε τ}
  {p : Pool (World ε) (Job τ)} {i : Pool.ThreadId} {t : Pool.Thread (World ε) (Job τ)} {e : Pool.Entry (Job τ)}
  {u : Option (Pool.Entry (Job τ))} {x : JobId} {registry : Registry}

/-! ## What the board says of threads -/

/-- A spawn was told that its job was turned away, and is about to write that down. -/
def Refusing (p : Pool (World ε) (Job τ)) (id : JobId) : Prop :=
  ∃ i t next, p.threads.get? i = some t ∧ t.phase = .running ((World.change id (.fail rejectedMessage)).bind next)

theorem around_settle (id : JobId) (next : Except JobError JobId → Action ε τ JobContext.Outcome) :
    ∃ after, around u ((settle id .rejected).bind next) = (World.change id (.fail rejectedMessage)).bind after := by
  refine ⟨fun r => around u ((Routine.done (r.map fun _ => id)).bind next), ?_⟩
  cases u with
  | _ => rfl

theorem Board.Shows.refusing (h : b.Shows D work p) (hi : b.roles i = .inside u (.code (.refusing x))) :
    ∃ t next, p.threads.get? i = some t ∧
      t.phase = .running ((World.change x (.fail rejectedMessage)).bind next) := by
  cases ht : p.threads.get? i with
  | none =>
    rw [h.idle i ht] at hi
    cases hi
  | some t =>
    have hplays := h.plays i t ht
    rw [hi] at hplays
    cases hplays with
    | inside hk hl hd =>
      generalize hp : t.phase = phase at hd
      cases hd with
      | running hs =>
        cases hs with
        | @refusing _ _ next hm hn =>
          subst hm
          obtain ⟨after, hafter⟩ := around_settle (u := u) x next
          exact ⟨t, after, rfl, hp.trans (congrArg _ hafter)⟩

theorem Board.Shows.holding {job : Job τ} {next : Submission → Action ε τ Unit} (h : b.Shows D work p)
    (hi : p.threads.get? i = some t)
    (hp : t.phase = .running (.ask (S := Pool.interface (Job τ)) (.submit job) next)) :
    ∃ u, b.roles i = .inside u (.code (.holding job.context.id)) := by
  rcases (h.plays i t hi).running hp with ⟨e, -, -, -, hcode⟩ | ⟨u, s, m, hr, -, -, hs, hcode⟩ | ⟨e, -, hcode⟩
  · cases hcode
  · refine ⟨u, ?_⟩
    cases m with
    | done o =>
      cases u with
      | _ => cases hcode
    | crash =>
      cases u with
      | _ => cases hcode
    | step ready act next =>
      rw [around_step] at hcode
      cases hcode
    | ask r next =>
      rw [around_ask] at hcode
      cases hcode
      rw [hr, hs.submit.1]
  · cases hcode

/-! ## What the record of a job says -/

/-- The job is over, and its record says how: it tells what the work returned, or that it crashed, or that it was turned
away. -/
structure Settled (es : List (Pool.Event (Job τ))) (left : Nat → Option (Action ε τ JobContext.Outcome))
    (e : Pool.Entry (Job τ)) (r : JobRecord) : Prop where
  isFinal : r.status.isFinal = true
  completed : ∀ value, r.status = .completed ∧ r.result = some value ∧ r.error = none ↔
    left e.ticket = some (.done (.ok value))
  failed : ∀ text, r.status = .failed ∧ r.result = none ∧ r.error = some text ↔
    (∃ failure : JobFailure, left e.ticket = some (.done (.error failure)) ∧ failure.text = text) ∨
      (left e.ticket = some .crash ∧ text = "job panicked") ∨
      (.answered e.ticket .rejected ∈ es ∧ text = "worker pool is shut down")

theorem settled_of_ends {m : Action ε τ JobContext.Outcome} {o : JobContext.Outcome} {r : JobRecord}
    (hl : left e.ticket = some m) (hm : Ends m o) (hr : r.Tells o) (ha : .answered e.ticket .rejected ∉ es) :
    Settled es left e r := by
  rcases hm with rfl | ⟨rfl, rfl⟩
  · cases o with
    | ok value =>
      obtain ⟨hs, hv, hf⟩ := hr
      exact ⟨by rw [hs]; rfl, fun value' => by simp [hs, hv, hf, hl], fun text => by simp [hs, hl, ha]⟩
    | error failure =>
      obtain ⟨hs, hv, hf⟩ := hr
      exact ⟨by rw [hs]; rfl, fun value' => by simp [hs, hl], fun text => by simp [hs, hv, hf, hl, ha]⟩
  · obtain ⟨hs, hv, hf⟩ := hr
    have htext : crashFailure.text = "job panicked" := rfl
    exact ⟨by rw [hs]; rfl, fun value' => by simp [hs, hl], fun text => by simp [hs, hv, hf, hl, ha, htext, eq_comm]⟩

theorem settled_of_refused {r : JobRecord} (hl : left e.ticket = none) (ha : .answered e.ticket .rejected ∈ es)
    (hr : r.Tells (.error (.message rejectedMessage))) : Settled es left e r := by
  obtain ⟨hs, hv, hf⟩ := hr
  have htext : (JobFailure.message rejectedMessage).text = "worker pool is shut down" := rfl
  exact ⟨by rw [hs]; rfl, fun value' => by simp [hs, hl], fun text => by simp [hs, hv, hf, hl, ha, htext, eq_comm]⟩

/-- What is true of a spawned job at any time. -/
structure Accounted (p : Pool (World ε) (Job τ)) (es : List (Pool.Event (Job τ)))
    (left : Nat → Option (Action ε τ JobContext.Outcome)) (e : Pool.Entry (Job τ)) (r : JobRecord) : Prop where
  pending : .started e ∉ es → .answered e.ticket .rejected ∉ es → r.IsAt .pending
  working : ∀ m, left e.ticket = some m → (∀ o, ¬ Ends m o) → r.IsAt .pending ∨ r.IsAt .processing
  ended : ∀ crashed, .ended e.ticket crashed ∈ es → Settled es left e r
  refused : .answered e.ticket .rejected ∈ es →
    .started e ∉ es ∧ (Refusing p (jobId e) ∧ r.IsAt .pending ∨ Settled es left e r)

theorem Known.started_iff (h : Known es b) (hd : Distinct es) (he : .submitted e ∈ es) :
    .started e ∈ es ↔ b.left e.ticket ≠ none := by
  rw [h.left]
  refine ⟨fun hs => ⟨e, hs, rfl⟩, ?_⟩
  rintro ⟨e', he', hk⟩
  rw [← hd.inj (h.begun e' he') he hk]
  exact he'

theorem Kept.accounted {s : Fate τ} (h : Kept x es b s) (hshows : b.Shows D work p) (hknown : Known es b)
    (hd : Distinct es) (he : .submitted e ∈ es) (hx : jobId e = x) :
    ∃ r, p.shared.registry.get? x = some r ∧ Accounted p es b.left e r := by
  have hentry := (h.submitted e).2 ⟨he, hx⟩
  have hstarted := hknown.started_iff hd he
  have hrejected := h.rejected e hentry
  have hended := h.ended e
  have hfits := h.fits
  rw [← hshows.registry]
  -- whatever has not come to an end is at most pending or processing
  have hopen : ∀ {r : JobRecord}, s.isRefused = false → (∀ e, s ≠ .ended e) → r.IsAt .pending ∨ r.IsAt .processing →
      (b.left e.ticket = none → r.IsAt .pending) → Accounted p es b.left e r := by
    intro r href hend hr hp
    refine ⟨fun hs _ => ?_, fun m hm hno => hr, fun c hc => ?_, fun ha => ?_⟩
    · exact hp (by_contra fun hl => hs (hstarted.2 hl))
    · exact absurd (hended c hentry hc).2 (hend e)
    · rw [hrejected.1 ha] at href
      cases href
  cases s with
  | none | held => cases hentry
  | offered i e' | dropped i e' | waiting e' | assigned i e' =>
    obtain ⟨hl, r, hr, hp⟩ := hfits
    exact ⟨r, hr, hopen rfl (by simp) (.inl hp) fun _ => hp⟩
  | begun i e' =>
    obtain ⟨r, hr, hp⟩ := hfits
    exact ⟨r, hr, hopen rfl (by simp) (.inl hp) fun _ => hp⟩
  | working i e' =>
    cases hentry
    obtain ⟨hl, r, hr, hp⟩ := hfits
    exact ⟨r, hr, hopen rfl (by simp) (.inr hp) fun hn => absurd hn hl⟩
  | refusing i e' =>
    cases hentry
    obtain ⟨hl, r, hr, hp⟩ := hfits
    obtain ⟨u, hu⟩ := h.refusing i e rfl
    have hno : .started e ∉ es := fun hs => hstarted.1 hs hl
    refine ⟨r, hr, fun _ _ => hp, fun m hm _ => .inl hp, fun c hc => ?_, fun _ => ⟨hno, .inl ⟨?_, hp⟩⟩⟩
    · cases (hended c rfl hc).2
    · rw [hx]
      exact ⟨i, hshows.refusing hu⟩
  | refused e' =>
    cases hentry
    obtain ⟨hl, r, hr, ht⟩ := hfits
    have ha := hrejected.2 rfl
    have hno : .started e ∉ es := fun hs => hstarted.1 hs hl
    refine ⟨r, hr, fun _ hna => absurd ha hna, fun m hm _ => ?_, fun c hc => ?_, fun _ =>
      ⟨hno, .inr (settled_of_refused hl ha ht)⟩⟩
    · rw [hl] at hm
      cases hm
    · cases (hended c rfl hc).2
  | closed i e' | ended e' =>
    cases hentry
    obtain ⟨m, o, r, hl, ho, hr, ht⟩ := hfits
    have hna : .answered e.ticket .rejected ∉ es := fun ha => absurd (hrejected.1 ha) Bool.false_ne_true
    have hset := settled_of_ends hl ho ht hna
    refine ⟨r, hr, fun hs _ => ?_, fun m' hm' hno => ?_, fun c hc => hset, fun ha => absurd ha hna⟩
    · exact absurd (hstarted.2 (by simp [hl])) hs
    · obtain rfl : m = m' := Option.some.inj (hl.symm.trans hm')
      exact absurd ho (hno o)

theorem Deeds.ended_eq_false (h : Deeds D work registry es b) {k : Nat} {crashed : Bool} (hk : .ended k crashed ∈ es) :
    crashed = false := by
  induction h with
  | start => exact absurd hk List.not_mem_nil
  | deed _ _ h ih =>
    refine (List.mem_append.1 hk).elim ih fun hk => ?_
    cases h with
    | count =>
      cases List.mem_singleton.1 hk
      rfl
    | _ => simp at hk

theorem Run.distinct (run : Run D work name workers world es left p) : Distinct es := by
  unfold Distinct
  rw [run.pool.tickets]
  exact List.nodup_range

/-- **The boundary between jobs and the pool.**  The work of each job changes no other job, and no spawned job may be
removed.  Then, whichever steps the threads take and in whatever order: a job that is about to be handed over is pending;
a job that was handed over is pending until its unit begins, has not ended as long as something of its work is left, and
is settled when its unit has ended or when its spawn has done with the answer that it was turned away, in which case its
unit never begins.  When all spawns have returned and no thread of the pool has anything left to do, all jobs are settled.
The pool counts no crash. -/
theorem job_boundary (hwork : ∀ task c, Proper D (some c.id) (work task c))
    (run : Run D work name workers world es left p) (hd : ∀ e, .submitted e ∈ es → ¬ D (jobId e)) :
    (∀ i t job next, p.threads.get? i = some t → t.phase = .running (.ask (S := Pool.interface (Job τ)) (.submit job) next) →
      ¬ D job.context.id → ∃ r, p.shared.registry.get? job.context.id = some r ∧ r.IsAt .pending) ∧
    (∀ e, .submitted e ∈ es →
      ∃ r, p.shared.registry.get? (jobId e) = some r ∧ Accounted p es left e r) ∧
    (p.AllReturned → p.AtRest → (∀ id, ¬ Refusing p id) → ∀ e, .submitted e ∈ es →
      ∃ r, p.shared.registry.get? (jobId e) = some r ∧ Settled es left e r) ∧
    p.stats.counters.crashed = 0 := by
  obtain ⟨b, hdeeds, rfl, hshows⟩ := run.deeds hwork
  have hdistinct := run.distinct
  have haccounted : ∀ e, .submitted e ∈ es →
      ∃ r, p.shared.registry.get? (jobId e) = some r ∧ Accounted p es b.left e r := by
    intro e he
    obtain ⟨s, hs⟩ := hdeeds.kept hdistinct (hd e he)
    exact hs.accounted hshows hdeeds.known hdistinct he rfl
  refine ⟨fun i t job next hi hp hjob => ?_, haccounted, fun hret hrest hno e he => ?_, ?_⟩
  · obtain ⟨u, hu⟩ := hshows.holding hi hp
    obtain ⟨s, hs⟩ := hdeeds.kept hdistinct hjob
    have hfits := hs.fits
    rw [show s = .held i from (hs.agree hu).2 rfl, hshows.registry] at hfits
    exact hfits
  -- at rest, a unit that was handed over was turned away or has ended
  · obtain ⟨r, hr, ha⟩ := haccounted e he
    refine ⟨r, hr, ?_⟩
    rcases run.pool.rejected_or_ended hret hrest he with hrejected | ⟨crashed, hended⟩
    · exact (ha.refused hrejected).2.resolve_left fun h => hno _ h.1
    · exact ha.ended crashed hended
  · show p.counters.crashed = 0
    rw [run.pool.counters]
    refine List.countP_eq_zero.2 fun ev hev => ?_
    cases ev with
    | ended k crashed =>
      rw [hdeeds.ended_eq_false hev]
      simp
    | _ => simp

/-- Work that reports something and ends well, and work that crashes. -/
def sampleWork : Work Unit Nat
  | 0, c => do
    c.progress 50 "half way"
    return .ok .null
  | _, _ => .crash

/-- Spawns one job of each kind, and one more when it is too late. -/
def sampleCaller : Action Unit Nat Unit := do
  let _ ← spawn {} (some ⟨"well"⟩) .empty 0
  let _ ← spawn {} (some ⟨"badly"⟩) .empty 1
  shutdown
  let _ ← spawn {} (some ⟨"late"⟩) .empty 0

theorem proper_sampleWork (task : Nat) (c : JobContext) : Proper (fun _ => False) (some c.id) (sampleWork task c) := by
  cases task with
  | zero => exact .step (fun w => .report _ rfl rfl) fun w => .done _
  | succ n => exact .crash

theorem proper_sampleCaller : Proper (fun _ => False) none sampleCaller :=
  .spawn rfl fun _ => .spawn rfl fun _ => .close (.spawn rfl fun _ => .done ())

/-- One worker runs the first two jobs before the pool is closed; the third is turned away. -/
theorem job_boundary_sample : ∃ es left p, Run (fun _ => False) sampleWork "sample" 1 { env := () } es left p ∧
    p.AllReturned ∧ p.AtRest ∧
    (∃ e value, .submitted e ∈ es ∧ jobId e = ⟨"well"⟩ ∧ left e.ticket = some (.done (.ok value))) ∧
    (∃ e, .submitted e ∈ es ∧ jobId e = ⟨"late"⟩ ∧ .started e ∉ es) ∧ p.stats.counters = ⟨2, 0, 1, 2, 0⟩ := by
  let ids : List Pool.ThreadId := List.replicate 11 (.caller 0) ++ List.replicate 14 (.worker 0) ++
    List.replicate 9 (.caller 0)
  let made : Pool (World Unit) (Job Nat) := (Pool.start "sample" 1 (unit sampleWork) { env := () }).call sampleCaller
  have hends : ((Pool.follow ids made).any fun r => (r.2.threads.entries.all fun e => e.2.phase.isGone) &&
      decide (r.2.stats.counters = ⟨2, 0, 1, 2, 0⟩) &&
      (r.1.any fun ev => ev.entry?.any fun e => decide (jobId e = ⟨"well"⟩)) &&
      (r.1.any fun ev => ev.entry?.any fun e => decide (jobId e = ⟨"late"⟩) && r.1.any (Pool.Event.rejects (· == e.ticket))) &&
      ((r.2.shared.registry.get? ⟨"well"⟩).any fun r =>
        decide (r.status = .completed) && r.result.isSome && r.error.isNone)) = true := by decide +kernel
  rw [Option.any_eq_true] at hends
  obtain ⟨⟨es, p⟩, hfollow, hends⟩ := hends
  simp only [Option.any_eq_true, Bool.and_eq_true, decide_eq_true_eq, List.any_eq_true, Option.isSome_iff_exists,
    Option.isNone_iff_eq_none] at hends
  obtain ⟨⟨⟨⟨hgone, hcounters⟩, evwell, hwell, well, hwellentry, hwellid⟩, evlate, hlate, late, hlateentry, hlateid, ev, hev,
    hrejects⟩, r, hr, ⟨hstatus, value, hvalue⟩, herror⟩ := hends
  have hsubmitted : ∀ {ev : Pool.Event (Job Nat)} {e}, ev ∈ es → ev.entry? = some e → .submitted e ∈ es := by
    intro ev e hmem he
    cases ev with
    | submitted e' =>
      cases he
      exact hmem
    | _ => cases he
  obtain ⟨left, run⟩ := run_of_follow (Run.start.call proper_sampleCaller) hfollow
  rw [List.nil_append] at run
  have hphase : ∀ i t, p.threads.get? i = some t → t.phase.isGone = true := Pool.forall_of_all hgone
  obtain ⟨hret, hrest⟩ := Pool.atRest_of_gone hphase
  have hno : ∀ id, ¬ Refusing p id := by
    rintro id ⟨i, t, next, hi, hp⟩
    have hg := hphase i t hi
    rw [hp] at hg
    cases hg
  obtain ⟨-, haccounted, hsettled, -⟩ := job_boundary proper_sampleWork run fun e _ hf => hf
  have hlated := hsubmitted hlate hlateentry
  refine ⟨es, left, p, run, hret, hrest, ⟨well, value, hsubmitted hwell hwellentry, hwellid, ?_⟩,
    ⟨late, hlated, hlateid, ?_⟩, hcounters⟩
  · obtain ⟨r', hr', hset⟩ := hsettled hret hrest hno well (hsubmitted hwell hwellentry)
    rw [hwellid, hr] at hr'
    cases hr'
    exact (hset.completed value).1 ⟨hstatus, hvalue, herror⟩
  · obtain ⟨r', -, ha⟩ := haccounted late hlated
    have hrejected : .answered late.ticket .rejected ∈ es := by
      cases ev with
      | answered k a =>
        cases a with
        | rejected => exact beq_iff_eq.1 hrejects ▸ hev
        | queued | overflow => cases hrejects
      | _ => cases hrejects
    exact (ha.refused hrejected).1

end Orchestrator
end JobRunner
