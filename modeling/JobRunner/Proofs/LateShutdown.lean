import JobRunner.Proofs.JobBoundary
import JobRunner.Proofs.PoolBarrier
/-!
# Closing a pool that is closed already

A call that finds the pool closed returns at once and waits for nobody, however much is still queued or running.  So it
is a barrier only when the call that closed the pool is over: when that has returned to a thread outside the pool, or to
a unit of work whose thread is gone by now, and no unit is run in the place of a thread that could not be made, then no
thread of the pool is left, and all that was taken on has ended.
-/
namespace JobRunner
namespace Pool

variable {σ υ : Type} {passes : σ → σ → Prop} {p q : Pool σ υ} {id w : ThreadId} {t : Thread σ υ}
  {es es' : List (Event υ)} {name : String} {workers : Nat} {code : υ → Code σ υ} {shared : σ} {grants : Nat → Bool}
  {k : Nat} {a : Submission}

/-- The call that closed the pool has returned, to a thread outside the pool or to a unit of work whose thread is gone
by now, and so have all submissions whose units were to be run by those who made them. -/
inductive ClosingOver (passes : σ → σ → Prop) (first p : Pool σ υ) : Prop where
  | intro {es es' : List (Event υ)} {q q' : Pool σ υ} {id : ThreadId} {t : Thread σ υ} (before : Run passes first es q)
    (hid : q.threads.get? id = some t) (ht : t.phase.endsClosing = true) (hs : q.step id = some q')
    (later : Run passes q' es' p) (hout : (q'.runner id).isPool = false ∨ p.isGone (q'.runner id) = true)
    (hlodgers : p.lodgers = [])

theorem answered_of_accepts {ev : Event υ} (h : ev.accepts (· == k) = true) :
    ∃ a, ev = .answered k a ∧ a ≠ .rejected := by
  cases ev with
  | answered j a =>
    cases a with
    | queued | overflow =>
      obtain rfl : j = k := beq_iff_eq.1 h
      exact ⟨_, rfl, nofun⟩
    | rejected => cases h
  | _ => cases h

/-- **Closing again is one step**, which changes nothing but where the caller stands. -/
theorem step_closeAgain {next : Unit → Code σ υ} (hid : p.threads.get? id = some t)
    (ht : t.phase = .running (.ask (S := interface υ) .close next)) (hh : p.isHosting id = false)
    (hc : p.isClosed = true) : p.step id = some (p.put id { t with phase := .running (next ()) }) := by
  rw [step_eq_advance hh]
  simp only [advance, hid, Option.bind_eq_bind, Option.bind_some, ht]
  exact if_pos hc

/-- When the closing call is over, no thread of the pool is left. -/
theorem ClosingOver.gone (h : ClosingOver passes (start name workers code shared grants) p) :
    p.isClosed = true ∧ ∀ w, w.isPool = true → p.isGone w = true := by
  obtain ⟨before, hid, ht, hs, later, hout, hnobody⟩ := h
  rename_i es' closed closer _
  obtain ⟨run, hdrain, -⟩ := before.end_closing hid ht hs
  have hafter := Run.draining run hdrain later
  refine ⟨hafter.closed, fun w hw => ?_⟩
  by_cases he : w = closed.runner closer
  · subst he
    rcases hout with hcaller | hgone
    · rw [hw] at hcaller
      cases hcaller
    · exact hgone
  · rcases hafter.gone w hw he with hgone | hlodges
    · exact hgone
    · obtain ⟨⟨l, hl⟩, k, -, hk⟩ := hlodges
      have hmem : k ∈ p.lodgers := mem_lodgers_iff.2 ⟨w, l, hl, hk⟩
      rw [hnobody] at hmem
      cases hmem

/-- A closed pool without threads takes nothing on and has nothing left. -/
theorem Run.draining_of_gone (run : Run passes (start name workers code shared grants) es p) (hc : p.isClosed = true)
    (hg : ∀ w, w.isPool = true → p.isGone w = true) : p.Draining (.worker 0) [] [] [] := by
  obtain ⟨u, hu⟩ := run.closing.staffed
  have hgone := isGone_eq_true_iff.1 (hg (.worker 0) rfl) u hu
  obtain ⟨hopen, hqueue⟩ := (run.closing.orderly _ u hu).2.2 (by rw [hgone]; rfl) rfl
  refine ⟨hc, hopen, fun w hw _ => .inl (hg w hw), ?_, fun e he => nomatch he⟩
  rw [held_of_get? hu, hgone, hqueue]
  rfl

/-- **What a closed pool without threads has taken on has ended.** -/
theorem Run.ended_of_gone (run : Run passes (start name workers code shared grants) es p) (hc : p.isClosed = true)
    (hg : ∀ w, w.isPool = true → p.isGone w = true) (later : Run passes p es' q)
    (ha : Event.answered k a ∈ es ++ es') (hne : a ≠ .rejected) : es.countP (Event.ends (· == k)) = 1 := by
  have hdrain := run.draining_of_gone hc hg
  refine hdrain.ended run later (fun e he => nomatch he) (fun hk => nomatch hk) ?_ ha hne
  refine hdrain.not_running run.formed (fun hk => nomatch hk) ?_
  rw [run.formed.ticketOf_eq_none (hg (.worker 0) rfl)]
  exact nofun

end Pool

namespace Orchestrator

variable {ε τ : Type} {D : JobId → Prop} {work : Work ε τ} {name : String} {workers : Nat} {world : World ε}
  {es : List (Pool.Event (Job τ))} {left : Nat → Option (Action ε τ JobContext.Outcome)}
  {p : Pool (World ε) (Job τ)} {i : Pool.ThreadId} {t : Pool.Thread (World ε) (Job τ)} {e : Pool.Entry (Job τ)}

/-- Every job that was handed over and stays is accounted for. -/
theorem Run.accounted (hwork : ∀ task c, Proper D (some c.id) (work task c))
    (run : Run D work name workers world es left p) (he : .submitted e ∈ es) (hx : ¬ D (jobId e)) :
    ∃ r, p.shared.registry.get? (jobId e) = some r ∧ Accounted p es left e r := by
  obtain ⟨b, hdeeds, rfl, hshows⟩ := run.deeds hwork
  obtain ⟨s, hs⟩ := hdeeds.kept run.distinct hx
  exact hs.accounted hshows hdeeds.known run.distinct he rfl

/-- **Shutting down again.**  A shutdown that finds the pool closed returns at once, whatever is still to do.  If the
call that closed the pool is over by then, every unit that was taken on has ended, and every job that was handed over and
stays is settled, unless its spawn was turned away and is about to write that down. -/
theorem late_shutdown_is_barrier_if_over {next : Unit → Pool.Code (World ε) (Job τ)}
    (hwork : ∀ task c, Proper D (some c.id) (work task c)) (run : Run D work name workers world es left p)
    (hi : p.threads.get? i = some t) (ht : t.phase = .running (.ask (S := Pool.interface (Job τ)) .close next))
    (hh : p.isHosting i = false) (hc : p.isClosed = true) :
    p.step i = some (p.put i { t with phase := .running (next ()) }) ∧
      (Pool.ClosingOver (fun w w' => w'.registry = w.registry) (.start name workers (unit work) world p.grants) p →
        (∀ k a, .answered k a ∈ es → a ≠ .rejected → es.countP (Pool.Event.ends (· == k)) = 1) ∧
          ∀ e a, .submitted e ∈ es → .answered e.ticket a ∈ es → ¬ D (jobId e) → ¬ Refusing p (jobId e) →
            ∃ r, p.shared.registry.get? (jobId e) = some r ∧ Settled es left e r) := by
  refine ⟨Pool.step_closeAgain hi ht hh hc, fun hover => ?_⟩
  have hunits : ∀ k a, .answered k a ∈ es → a ≠ .rejected → es.countP (Pool.Event.ends (· == k)) = 1 := by
    intro k a ha hne
    refine run.pool.ended_of_gone hc hover.gone.2 .refl ?_ hne
    rw [List.append_nil]
    exact ha
  refine ⟨hunits, fun e a he ha hx hno => ?_⟩
  obtain ⟨r, hr, hacc⟩ := run.accounted hwork he hx
  refine ⟨r, hr, ?_⟩
  by_cases hrejected : a = .rejected
  · subst hrejected
    exact (hacc.refused ha).2.resolve_left fun h => hno h.1
  · obtain ⟨ev, hev, hends⟩ := List.countP_pos_iff.1 (Nat.lt_of_lt_of_eq Nat.zero_lt_one (hunits _ a ha hrejected).symm)
    cases ev with
    | ended k crashed =>
      obtain rfl : k = e.ticket := beq_iff_eq.1 hends
      exact hacc.ended crashed hev
    | _ => cases hends

/-! ## Two callers that shut down -/

/-- Spawns a job and shuts down. -/
def spawningCloser : Action Unit Nat Unit := do
  let _ ← spawn {} (some ⟨"well"⟩) .empty 0
  shutdown

/-- One caller spawns a job and shuts down; another one shuts down, too. -/
def twoClosers : Pool (World Unit) (Job Nat) :=
  ((Pool.start "sample" 1 (unit sampleWork) { env := () }).call spawningCloser).call shutdown

theorem run_twoClosers : Run (fun _ => False) sampleWork "sample" 1 { env := () } [] (fun _ => none) twoClosers :=
  (Run.start.call (.spawn rfl fun _ => .close (.done ()))).call (.close (.done ()))

/-- The thread is about to close the pool, or to find it closed. -/
def isShuttingDown (p : Pool (World Unit) (Job Nat)) (i : Pool.ThreadId) : Bool :=
  (p.threads.get? i).any fun t =>
    match t.phase with
    | .running (.ask .close _) => true
    | _ => false

theorem exists_of_isShuttingDown {p : Pool (World Unit) (Job Nat)} (h : isShuttingDown p i = true) :
    ∃ t next, p.threads.get? i = some t ∧ t.phase = .running (.ask (S := Pool.interface (Job Nat)) .close next) := by
  rw [isShuttingDown, Option.any_eq_true] at h
  obtain ⟨t, ht, h⟩ := h
  split at h
  · exact ⟨t, _, ht, ‹_›⟩
  · cases h

/-- The second caller comes when the first one is through: the job has ended, and its record says so. -/
theorem late_shutdown_after_return : ∃ es left p t next q r,
    Run (fun _ => False) sampleWork "sample" 1 { env := () } es left p ∧ p.threads.get? (.caller 1) = some t ∧
      t.phase = .running (.ask (S := Pool.interface (Job Nat)) .close next) ∧ p.step (.caller 1) = some q ∧
      es.countP (Pool.Event.ends (· == 0)) = 1 ∧
      p.shared.registry.get? ⟨"well"⟩ = some r ∧ r.status.isFinal = true := by
  let ids : List Pool.ThreadId := List.replicate 7 (.caller 0) ++ List.replicate 8 (.worker 0) ++
    List.replicate 3 (.caller 0)
  have hsteps : ((Pool.follow ids twoClosers).any fun b =>
      (b.1.any fun ev => ev.entry?.any fun e => decide (jobId e = ⟨"well"⟩) && e.ticket == 0) &&
      b.1.any (Pool.Event.accepts (· == 0)) && ((b.2.threads.get? (.caller 0)).any (·.phase.endsClosing)) &&
      ((b.2.step (.caller 0)).any fun q => (Pool.follow [.caller 0] q).any fun c => c.1.isEmpty && c.2.isClosed &&
        isShuttingDown c.2 (.caller 1) && !c.2.isHosting (.caller 1) && c.2.lodgers.isEmpty &&
        c.2.threads.entries.all fun e => decide (e.1 = .caller 1) || e.2.phase.isGone)) = true := by decide +kernel
  simp only [Option.any_eq_true, Bool.and_eq_true, decide_eq_true_eq, List.any_eq_true, List.isEmpty_iff,
    Bool.not_eq_true'] at hsteps
  obtain ⟨⟨es, p⟩, hbefore, ⟨⟨⟨evsub, hsub, e, hentry, hid, hticket⟩, ev, hev, haccepts⟩, u, hu, hends⟩, q, hq, ⟨es', r⟩,
    hlater, ⟨⟨⟨⟨hempty, hclosed⟩, hcloser⟩, halone⟩, hnobody⟩, hgone⟩ := hsteps
  dsimp only at hempty
  subst hempty
  obtain ⟨left, before⟩ := run_of_follow run_twoClosers hbefore
  rw [List.nil_append] at before
  obtain ⟨left', run⟩ := run_of_follow (before.thread (.caller 0) hq) hlater
  rw [List.append_nil] at run
  have later : Pool.Run (fun w w' : World Unit => w'.registry = w.registry) q ([] ++ []) r :=
    Pool.run_of_follow .refl hlater
  have hout : (q.runner (.caller 0)).isPool = false := by
    rw [(before.thread (.caller 0) hq).pool.housed.runner_eq_self rfl]
    rfl
  have hgrants : r.grants = p.grants := by
    obtain ⟨v, -, m⟩ := Pool.move_of_step hq
    exact later.grants.trans m.grants
  have hover : Pool.ClosingOver (fun w w' : World Unit => w'.registry = w.registry)
      (.start "sample" 1 (unit sampleWork) { env := () } r.grants) r := by
    rw [hgrants]
    exact .intro before.pool hu hends hq later (.inl hout) hnobody
  obtain ⟨t, next, ht, hnext⟩ := exists_of_isShuttingDown hcloser
  obtain ⟨hstep, hbarrier⟩ := late_shutdown_is_barrier_if_over (fun task c => proper_sampleWork task c) run ht hnext halone
    hclosed
  obtain ⟨hunits, hjobs⟩ := hbarrier hover
  obtain ⟨a, rfl, ha⟩ := Pool.answered_of_accepts haccepts
  have hanswered := List.mem_append_left (p.seen (.caller 0)) hev
  -- a thread that wrote down a refusal would be in the middle of some code
  have hno : ¬ Refusing r (jobId e) := by
    rintro ⟨i, v, after, hi, hp⟩
    have hdone := List.all_eq_true.1 hgone (i, v) (Table.get?_eq_some_iff.1 hi)
    rw [Bool.or_eq_true, decide_eq_true_eq] at hdone
    rcases hdone with rfl | hdone
    · rw [ht] at hi
      cases hi
      rw [hnext] at hp
      cases hp
    · rw [hp] at hdone
      cases hdone
  have hsubmitted : .submitted e ∈ es := Pool.Event.eq_submitted hentry ▸ hsub
  rw [beq_iff_eq] at hticket
  obtain ⟨record, hrecord, hset⟩ := hjobs e a (List.mem_append_left _ hsubmitted) (hticket ▸ hanswered) id hno
  rw [hid] at hrecord
  exact ⟨_, left', r, t, next, _, record, run, ht, hnext, hstep, hunits 0 a hanswered ha, hrecord, hset.isFinal⟩

/-- **A shutdown may return while a job is being worked on.**  The first caller has closed the pool and waits for the
worker; the second one returns at once. -/
theorem late_shutdown_returns_early : ∃ es left p t next r,
    Run (fun _ => False) sampleWork "sample" 1 { env := () } es left p ∧ p.isClosed = true ∧
      p.threads.get? (.caller 1) = some t ∧
      t.phase = .running (.ask (S := Pool.interface (Job Nat)) .close next) ∧
      p.step (.caller 1) = some (p.put (.caller 1) { t with phase := .running (next ()) }) ∧
      es.countP (Pool.Event.accepts (· == 0)) = 1 ∧ es.countP (Pool.Event.ends (· == 0)) = 0 ∧
      p.shared.registry.get? ⟨"well"⟩ = some r ∧ r.status = .processing := by
  let ids : List Pool.ThreadId := List.replicate 7 (.caller 0) ++ List.replicate 3 (.worker 0)
  have hsteps : ((Pool.follow ids twoClosers).any fun b =>
      b.2.isClosed && isShuttingDown b.2 (.caller 1) && !b.2.isHosting (.caller 1) &&
      decide (b.1.countP (Pool.Event.accepts (· == 0)) = 1) && decide (b.1.countP (Pool.Event.ends (· == 0)) = 0) &&
      ((b.2.shared.registry.get? ⟨"well"⟩).any fun r => decide (r.status = .processing))) = true := by decide +kernel
  simp only [Option.any_eq_true, Bool.and_eq_true, decide_eq_true_eq, Bool.not_eq_true'] at hsteps
  obtain ⟨⟨es, p⟩, hfollow, ⟨⟨⟨⟨hclosed, hcloser⟩, halone⟩, haccepts⟩, hends⟩, r, hr, hstatus⟩ := hsteps
  obtain ⟨t, next, ht, hnext⟩ := exists_of_isShuttingDown hcloser
  obtain ⟨left, run⟩ := run_of_follow run_twoClosers hfollow
  rw [List.nil_append] at run
  exact ⟨es, left, p, t, next, r, run, hclosed, ht, hnext, Pool.step_closeAgain ht hnext halone hclosed, haccepts, hends,
    hr, hstatus⟩

end Orchestrator
end JobRunner
