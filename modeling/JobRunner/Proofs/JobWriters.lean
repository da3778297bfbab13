import JobRunner.Proofs.JobBoundary
/-!
# Who writes the record of a job

A thread changes a record only when it runs the unit of a job with the identifier of the record, or has spawned one that
was turned away.  As long as a job is not removed, there is no other job with its identifier, so its record is written by
its own work only.  But a context knows its job by the identifier alone: when a job is removed and another one is
registered under the same identifier, the work of the first goes on and writes the record of the second.
-/
namespace JobRunner
namespace Orchestrator

variable {ε τ : Type} {D : JobId → Prop} {work : Work ε τ} {name : String} {workers : Nat} {world : World ε}
  {es new : List (Pool.Event (Job τ))} {left : Nat → Option (Action ε τ JobContext.Outcome)} {b b' : Board ε τ}
  {p q : Pool (World ε) (Job τ)} {i : Pool.ThreadId} {t : Pool.Thread (World ε) (Job τ)} {e : Pool.Entry (Job τ)}
  {u : Option (Pool.Entry (Job τ))} {x : JobId} {role : Role τ} {r r' : JobRecord}

theorem Deed.writer (deed : Deed D work b i new b') (hr : b.registry.get? x = some r)
    (hr' : b'.registry.get? x = some r') (hne : r' ≠ r) :
    (∃ e, (b.roles i).Runs e ∧ jobId e = x) ∨ ∃ u, b.roles i = .inside u (.code (.refusing x)) := by
  have hsame : b'.registry.get? x ≠ b.registry.get? x := by
    rw [hr, hr']
    exact fun h => hne (Option.some.inj h)
  cases deed with
  | @announce e now hi =>
    by_cases he : jobId e = x
    · exact .inl ⟨e, by rw [hi]; rfl, he⟩
    · exact absurd (Registry.get?_change_of_ne he) hsame
  | @close e m o now hi hm ho =>
    by_cases he : jobId e = x
    · exact .inl ⟨e, by rw [hi]; rfl, he⟩
    · exact absurd (Registry.get?_change_of_ne he) hsame
  | @act u s s' reg m hi he =>
    cases he with
    | harmless h =>
      cases h with
      | same => exact absurd rfl hsame
      | @report id c now ho hc =>
        by_cases hid : id = x
        · obtain ⟨e, rfl, he⟩ := Option.map_eq_some_iff.1 ho
          exact .inl ⟨e, by rw [hi]; rfl, he.trans hid⟩
        · exact absurd (Registry.get?_change_of_ne hid) hsame
      | @delete id hd =>
        have hid : id ≠ x := by
          rintro rfl
          have hgone : (b.registry.delete id).2.get? id = Option.none := (Registry.get?_delete ..).trans (if_pos rfl)
          rw [show (b.registry.delete id).2.get? id = some r' from hr'] at hgone
          cases hgone
        exact absurd ((Registry.get?_delete ..).trans (if_neg hid)) hsame
    | @create id _ metadata now hn hs =>
      have hid : id ≠ x := by
        rintro rfl
        rw [hn] at hr
        cases hr
      exact absurd ((Registry.get?_create ..).trans (if_neg fun h => hid h.1)) hsame
    | @refuse id now =>
      by_cases hid : id = x
      · exact .inr ⟨u, by rw [hi, hid]⟩
      · exact absurd (Registry.get?_change_of_ne hid) hsame
  | _ => exact absurd rfl hsame

theorem Board.Shows.ticket (h : b.Shows D work p) (hi : p.threads.get? i = some t) (hr : (b.roles i).Runs e) :
    t.ticket = some e.ticket := by
  have hplays := h.plays i t hi
  generalize b.roles i = role at hplays hr
  cases hplays with
  | idle | assigned => exact hr.elim
  | begun hk hl hp | closed hk hl ho hp =>
    cases hr
    exact hk
  | inside hk hl hd =>
    cases hr
    exact hk

/-- **A record is written under its identifier only.**  A step that changes the record of a job is taken by a thread that
runs the unit of a job with this identifier, be it as a lodger of the one that handed it over, or by the spawn of one that
was turned away.  If the job may not be removed, there is no other job with the identifier. -/
theorem written_under_its_id (hwork : ∀ task c, Proper D (some c.id) (work task c))
    (run : Run D work name workers world es left p) (hs : p.step i = some q)
    (hr : p.shared.registry.get? x = some r) (hr' : q.shared.registry.get? x = some r') (hne : r' ≠ r) :
    ∃ t, p.threads.get? i = some t ∧
      ((∃ e, .started e ∈ es ∧ jobId e = x ∧ t.ticket = some e.ticket) ∨
        ∃ next, t.phase = .running ((World.change x (.fail rejectedMessage)).bind next)) ∧
      (¬ D x → ∃ e, .submitted e ∈ es ∧ jobId e = x ∧ ∀ e', .submitted e' ∈ es → jobId e' = x → e' = e) := by
  obtain ⟨b, hdeeds, -, hshows⟩ := run.deeds hwork
  obtain ⟨t, hi, -⟩ := Pool.move_of_step hs
  obtain ⟨b', hdeed, -, hshows'⟩ := (run.turn hshows hi).follows hwork hs
  rw [← hshows.registry] at hr
  rw [← hshows'.registry] at hr'
  have hwriter := hdeed.writer hr hr' hne
  refine ⟨t, hi, hwriter.imp ?_ ?_, fun hx => ?_⟩
  · rintro ⟨e, hruns, he⟩
    exact ⟨e, hdeeds.known.runs i e hruns, he, hshows.ticket hi hruns⟩
  · rintro ⟨u, hu⟩
    obtain ⟨t', next, hi', hp⟩ := hshows.refusing hu
    rw [hi] at hi'
    cases hi'
    exact ⟨next, hp⟩
  -- the fate of a job that stays names its only unit
  · obtain ⟨s, hs⟩ := hdeeds.kept run.distinct hx
    have hentry : ∃ e, s.entry? = some e := by
      rcases hwriter with ⟨e, hruns, he⟩ | ⟨u, hu⟩
      · exact ⟨e, (hs.submitted e).2 ⟨hdeeds.known.begun e (hdeeds.known.runs i e hruns), he⟩⟩
      · obtain ⟨e, rfl⟩ := (hs.agree hu).2 rfl
        exact ⟨e, rfl⟩
    obtain ⟨e, he⟩ := hentry
    obtain ⟨hsub, hid⟩ := (hs.submitted e).1 he
    refine ⟨e, hsub, hid, fun e' hsub' hid' => ?_⟩
    exact (Option.some.inj (he.symm.trans ((hs.submitted e').2 ⟨hsub', hid'⟩))).symm

/-- The only worker says that the first job has started. -/
theorem written_under_its_id_sample : ∃ es left p q r r',
    Run (fun _ => False) sampleWork "sample" 1 { env := () } es left p ∧ p.step (.worker 0) = some q ∧
      p.shared.registry.get? ⟨"well"⟩ = some r ∧ q.shared.registry.get? ⟨"well"⟩ = some r' ∧ r.status = .pending ∧
      r'.status = .processing ∧
      ∃ e, .submitted e ∈ es ∧ jobId e = ⟨"well"⟩ ∧ ∀ e', .submitted e' ∈ es → jobId e' = ⟨"well"⟩ → e' = e := by
  let ids : List Pool.ThreadId := List.replicate 4 (.caller 0) ++ List.replicate 2 (.worker 0)
  let made : Pool (World Unit) (Job Nat) := (Pool.start "sample" 1 (unit sampleWork) { env := () }).call sampleCaller
  have hsteps : ((Pool.follow ids made).any fun a =>
      ((a.2.shared.registry.get? ⟨"well"⟩).any fun r => decide (r.status = .pending)) &&
      ((a.2.step (.worker 0)).any fun q =>
        (q.shared.registry.get? ⟨"well"⟩).any fun r => decide (r.status = .processing))) = true := by decide +kernel
  simp only [Option.any_eq_true, Bool.and_eq_true, decide_eq_true_eq] at hsteps
  obtain ⟨⟨es, p⟩, hfollow, ⟨r, hr, hpending⟩, q, hq, r', hr', hprocessing⟩ := hsteps
  obtain ⟨left, run⟩ := run_of_follow (Run.start.call proper_sampleCaller) hfollow
  rw [List.nil_append] at run
  have hne : r' ≠ r := by
    rintro rfl
    rw [hpending] at hprocessing
    cases hprocessing
  obtain ⟨t, -, -, hone⟩ := written_under_its_id proper_sampleWork run hq hr hr' hne
  exact ⟨es, left, p, q, r, r', run, hq, hr, hr', hpending, hprocessing, hone fun hf => hf⟩

/-! ## A job that outlives its record -/

/-- Work that waits until it is let go on, then reports something and ends well. -/
def gatedWork : Work Bool Unit := fun _ c => do
  Routine.await fun w => w.env
  c.progress 50 "late"
  return .ok .null

def reused : JobId := ⟨"a"⟩

def secondLabels : Labels := ⟨[("by", "second")], List.pairwise_singleton ..⟩

/-- Spawns a job, removes it, registers another one under the same identifier, and lets the work of the first go on. -/
def reusingCaller : Action Bool Unit Unit := do
  let _ ← spawn {} (some reused) .empty ()
  Routine.atomically fun w => ((), { w with registry := (w.registry.delete reused).2 })
  let _ ← createJob (some reused) secondLabels
  Routine.atomically fun w => ((), { w with env := true })

theorem proper_gatedWork (task : Unit) (c : JobContext) : Proper (· = reused) (some c.id) (gatedWork task c) :=
  .step (fun _ => .same) fun _ => .step (fun _ => .report _ rfl rfl) fun _ => .done _

theorem proper_reusingCaller : Proper (· = reused) none reusingCaller :=
  .spawn rfl fun _ => .step (fun _ => .delete rfl) fun _ => .createJob rfl fun _ => .step (fun _ => .same) fun _ => .done _

/-- **The work of a job that was removed completes the job that was registered later under its identifier.**  There was
one spawn only, and its work writes to its own job only; the second job has no work, and yet it is completed. -/
theorem outlived_work_completes_other : (∀ task c, Proper (· = reused) (some c.id) (gatedWork task c)) ∧
    ∃ es left p es' q r r', Run (· = reused) gatedWork "sample" 1 { env := false } es left p ∧
      es.countP (fun ev => ev.entry?.isSome) = 1 ∧
      p.shared.registry.get? reused = some r ∧ r.metadata = secondLabels ∧ r.status = .pending ∧
      Pool.follow (List.replicate 3 (.worker 0)) p = some (es', q) ∧
      q.shared.registry.get? reused = some r' ∧ r'.metadata = secondLabels ∧ r'.status = .completed := by
  let ids : List Pool.ThreadId := List.replicate 4 (.caller 0) ++ List.replicate 3 (.worker 0) ++
    List.replicate 3 (.caller 0)
  let made : Pool (World Bool) (Job Unit) := (Pool.start "sample" 1 (unit gatedWork) { env := false }).call reusingCaller
  have hsteps : ((Pool.follow ids made).any fun a => decide (a.1.countP (fun ev => ev.entry?.isSome) = 1) &&
      ((a.2.shared.registry.get? reused).any fun r => decide (r.metadata = secondLabels) && decide (r.status = .pending)) &&
      ((Pool.follow (List.replicate 3 (.worker 0)) a.2).any fun c => (c.2.shared.registry.get? reused).any fun r =>
        decide (r.metadata = secondLabels) && decide (r.status = .completed))) = true := by decide +kernel
  simp only [Option.any_eq_true, Bool.and_eq_true, decide_eq_true_eq] at hsteps
  obtain ⟨⟨es, p⟩, hbefore, ⟨hone, r, hr, hmeta, hpending⟩, ⟨es', q⟩, hafter, r', hr', hmeta', hcompleted⟩ := hsteps
  obtain ⟨left, run⟩ := run_of_follow (Run.start.call proper_reusingCaller) hbefore
  rw [List.nil_append] at run
  exact ⟨proper_gatedWork, es, left, p, es', q, r, r', run, hone, hr, hmeta, hpending, hafter, hr', hmeta', hcompleted⟩

end Orchestrator
end JobRunner
