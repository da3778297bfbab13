import JobRunner.Proofs.BidSteps
import JobRunner.Proofs.JobBoundary
import JobRunner.Proofs.RegistryAnswers
/-!
# One winner for each identifier

However many threads bid for an identifier that is free, and however their steps come between those of workers, of other
jobs and of a shutdown, one bid has the identifier: the first one.  All others are told so in the step in which they
ask, and that step changes nothing.  Only the winner hands work to the pool.

At any time at most one thread is in the middle of a bid.  All others leave the identifier alone until they bid for it
themselves, and until the winner was told that the job is its own, or its unit is out, the record stays as it was made.
-/
namespace JobRunner
namespace Orchestrator

variable {ε τ : Type} {x : JobId} {own own' : Bool} {work : Work ε τ} {name : String} {workers : Nat} {world : World ε}
  {es new : List (Pool.Event (Job τ))} {bids opened rest : List (Bid ε τ)} {c : Bid ε τ}
  {p q : Pool (World ε) (Job τ)} {i j : Pool.ThreadId} {t : Pool.Thread (World ε) (Job τ)} {request : Registration τ}
  {job : Job τ}

/-! ## The winner -/

/-- The thread of the bid is in this phase of handing the job over, and goes on as `next` says.  It has no other unit to run
meanwhile. -/
structure Bid.At (x : JobId) (p : Pool (World ε) (Job τ)) (c : Bid ε τ) (job : Job τ)
    (next : Except JobError JobId → Action ε τ Unit) (phase : Pool.Phase (World ε) (Job τ)) : Prop where
  request : c.request.job? x = some job
  here : ∃ ticket, p.threads.get? c.thread = some { ticket, phase }
  alone : p.isHosting c.thread = false
  after : Respects x true (next (.ok x))

/-- How far a bid has come that has the identifier.  The mark says that the job is its own, or that its unit is out. -/
inductive Leads (x : JobId) (p : Pool (World ε) (Job τ)) (c : Bid ε τ) : Bool → Prop where
  | created (hr : c.request.job? x = none) (hl : c.left = .done (.ok x)) (hn : c.steps = 1) (hs : c.seen = []) :
    Leads x p c true
  | holding {job : Job τ} {next : Except JobError JobId → Action ε τ Unit}
    (h : c.At x p job next (.running (((Pool.submit job).bind (settle x)).bind next)))
    (hl : c.left = (Pool.submit job).bind (settle x)) (hn : c.steps = 1) (hs : c.seen = []) : Leads x p c false
  | offering {job : Job τ} {next : Except JobError JobId → Action ε τ Unit} {k : Nat}
    (h : c.At x p job next (.offering ⟨k, job⟩ fun a => (settle x a).bind next))
    (hl : c.left = (Pool.submit job).bind (settle x)) (hn : c.steps = 2) (hs : c.seen = [.submitted ⟨k, job⟩]) :
    Leads x p c false
  | spilling {job : Job τ} {next : Except JobError JobId → Action ε τ Unit} {k : Nat}
    (h : c.At x p job next (.spilling ⟨k, job⟩ fun a => (settle x a).bind next))
    (hl : c.left = (Pool.submit job).bind (settle x)) (hn : c.steps = 3) (hs : c.seen = [.submitted ⟨k, job⟩]) :
    Leads x p c false
  | told {job : Job τ} {next : Except JobError JobId → Action ε τ Unit} {k : Nat} (a : Submission)
    (h : c.At x p job next (.answering k a fun a => (settle x a).bind next))
    (hl : c.left = (Pool.submit job).bind (settle x)) (hn : c.steps ≤ 4) (hs : c.seen = [.submitted ⟨k, job⟩]) :
    Leads x p c (decide (a ≠ .rejected))
  | refusing {job : Job τ} {next : Except JobError JobId → Action ε τ Unit} {k : Nat}
    (h : c.At x p job next (.running ((settle x .rejected).bind next))) (hl : c.left = settle x .rejected)
    (hn : c.steps ≤ 5) (hs : c.seen = [.submitted ⟨k, job⟩, .answered k .rejected]) : Leads x p c false
  | spawned {job : Job τ} {k : Nat} {a : Submission} (hr : c.request.job? x = some job) (hl : c.left = .done (.ok x))
    (hn : c.steps ≤ 6) (hs : c.seen = [.submitted ⟨k, job⟩, .answered k a]) : Leads x p c true

/-- The bid has the identifier.  The job is pending for as long as nobody may write into its record. -/
structure Taken (x : JobId) (work : Work ε τ) (p : Pool (World ε) (Job τ)) (c : Bid ε τ) (own : Bool) : Prop where
  minded : Minded x work own c.busy? p
  leads : Leads x p c own
  record : ∃ r, p.shared.registry.get? x = some r ∧ (own = false → r.status = .pending)

/-- Once anybody may write into the record, nothing has to be known about it. -/
theorem Taken.of_own {r : JobRecord} (hm : Minded x work true c.busy? p) (hl : Leads x p c true)
    (hr : p.shared.registry.get? x = some r) : Taken x work p c true := ⟨hm, hl, r, hr, nofun⟩

theorem Bid.busy?_of_answer {r : Except JobError JobId} (hl : c.left = .done r) : c.busy? = none := by
  unfold Bid.busy? Bid.answer?
  rw [hl]
  rfl

theorem Bid.At.goOn {job : Job τ} {next : Except JobError JobId → Action ε τ Unit}
    {phase was phase' : Pool.Phase (World ε) (Job τ)} {ticket : Option Nat} (h : c.At x p job next phase)
    (hq : q.threads = p.threads.insert c.thread { ticket, phase := phase' }) (ha : q.isHosting c.thread = false) :
    (c.goOn p was).At x q job next phase' := by
  refine ⟨h.request, ⟨ticket, ?_⟩, ha, h.after⟩
  rw [hq]
  exact Table.get?_insert_self ..

theorem Bid.At.phase_eq {job : Job τ} {next : Except JobError JobId → Action ε τ Unit}
    {phase : Pool.Phase (World ε) (Job τ)} (h : c.At x p job next phase) (hi : p.threads.get? c.thread = some t) :
    t.phase = phase := by
  obtain ⟨ticket, hhere⟩ := h.here
  cases hi.symm.trans hhere
  rfl

/-- The thread of the bid goes on: the unit may get out, and nothing is written. -/
theorem Taken.put {t' : Pool.Thread (World ε) (Job τ)} {c' : Bid ε τ} (h : Taken x work p c own)
    (ho : own = true → own' = true) (hb : c.busy? = some c.thread) (hq : q.threads = p.threads.insert c.thread t')
    (hc : q.code = p.code) (hu : ∀ e ∈ q.queue, e ∈ p.queue ∨ own' = true) (hg : q.shared = p.shared)
    (hl : Leads x q c' own') (hb' : c'.busy? = some c.thread ∨ c'.busy? = none ∧ Minds x own' t'.phase) :
    Taken x work q c' own' := by
  obtain ⟨r, hr, hp⟩ := h.record
  refine ⟨(h.minded.mono ho).put hq hc (fun e he hx => ?_) (fun hne => ?_) fun j hj _ => ?_, hl, r, hg ▸ hr, fun ho' => ?_⟩
  · exact (hu e he).elim (fun he => ho (h.minded.queue e he hx)) id
  · exact hb'.elim (fun he => absurd he hne) (·.2)
  · rw [hb]
    exact fun he => hj (Option.some.inj he).symm
  · refine hp ?_
    cases own with
    | false => rfl
    | true => rw [ho rfl] at ho'; cases ho'

theorem Registration.id_of_job? (h : request.job? x = some job) : job.context.id = x := by
  cases request with
  | spawn config metadata task =>
    cases h
    rfl
  | createJob metadata => cases h

theorem Bid.busy?_of_left {m : Action ε τ (Except JobError JobId)} (hl : c.left = m) (hm : ∀ r, m ≠ .done r) :
    c.busy? = some c.thread := by
  subst hl
  unfold Bid.busy? Bid.answer?
  cases hc : c.left with
  | done r => exact absurd hc (hm r)
  | _ => rfl

/-- Handing a job over takes at least one more step, and so does putting down that it was turned away. -/
theorem submit_ne_done (job : Job τ) (r : Except JobError JobId) :
    ((Pool.submit job).bind (settle x) : Action ε τ _) ≠ .done r := nofun

theorem settle_rejected_ne_done (r : Except JobError JobId) : (settle x .rejected : Action ε τ _) ≠ .done r := nofun

variable {next : Except JobError JobId → Action ε τ Unit} {k : Nat}

/-- What becomes of a bid that is still in the pool: the code that is left of it stays. -/
theorem Bid.goOn_waiting {phase : Pool.Phase (World ε) (Job τ)} {m : Action ε τ (Except JobError JobId)}
    (hl : c.left = m) (hm : ∀ r, m ≠ .done r) (ha : advance p phase m = m) :
    (c.goOn p phase).left = m ∧ c.busy? = some c.thread ∧ (c.goOn p phase).busy? = some c.thread := by
  have hleft : (c.goOn p phase).left = m := (congrArg (advance p phase) hl).trans ha
  exact ⟨hleft, busy?_of_left hl hm, busy?_of_left hleft hm⟩

theorem Taken.holding (h : Taken x work p c false)
    (hat : c.At x p job next (.running (((Pool.submit job).bind (settle x)).bind next)))
    (hl : c.left = (Pool.submit job).bind (settle x)) (hn : c.steps = 1) (hs : c.seen = [])
    (hf : p.Formed) (hh : p.Housed) (hi : p.threads.get? c.thread = some t) (hq : p.step c.thread = some q) :
    ∃ own', Taken x work q (c.goOn p t.phase) own' := by
  have hp := hat.phase_eq hi
  have halone : q.isHosting c.thread = false :=
    Pool.not_isHosting_of_step hf hh hi hq fun _ _ he => nomatch hp.symm.trans he
  have hq := Pool.advance_of_step hq
  obtain ⟨hleft, hbusy, hbusy'⟩ := Bid.goOn_waiting hl (submit_ne_done job) (show advance p t.phase _ = _ by rw [hp]; rfl)
  have hseen : p.seen c.thread = [.submitted ⟨p.submissions, job⟩] := by
    simp only [Pool.seen, hi, hp]
    rfl
  have hsays : c.seen ++ p.seen c.thread = [.submitted ⟨p.submissions, job⟩] := by rw [hs, hseen, List.nil_append]
  rw [advance_running hi hp] at hq
  change p.stepCode c.thread _ (.ask (S := Pool.interface (Job τ)) (.submit job) fun a => (settle x a).bind next) = _
    at hq
  by_cases hc : p.isClosed = true
  · simp only [Pool.stepCode, if_pos hc] at hq
    cases hq
    exact ⟨_, h.put id hbusy rfl rfl (fun e he => .inl he) rfl
      (.told .rejected (hat.goOn rfl halone) hleft (by show c.steps + 1 ≤ 4; omega) hsays) (.inl hbusy')⟩
  · simp only [Pool.stepCode, if_neg hc] at hq
    cases hq
    exact ⟨_, h.put id hbusy rfl rfl (fun e he => .inl he) rfl
      (.offering (hat.goOn rfl halone) hleft (by show c.steps + 1 = 2; omega) hsays) (.inl hbusy')⟩

theorem Taken.offering (h : Taken x work p c false)
    (hat : c.At x p job next (.offering ⟨k, job⟩ fun a => (settle x a).bind next))
    (hl : c.left = (Pool.submit job).bind (settle x)) (hn : c.steps = 2) (hs : c.seen = [.submitted ⟨k, job⟩])
    (hf : p.Formed) (hh : p.Housed) (hi : p.threads.get? c.thread = some t) (hq : p.step c.thread = some q) :
    ∃ own', Taken x work q (c.goOn p t.phase) own' := by
  have hp := hat.phase_eq hi
  have halone : q.isHosting c.thread = false :=
    Pool.not_isHosting_of_step hf hh hi hq fun _ _ he => nomatch hp.symm.trans he
  have hq := Pool.advance_of_step hq
  obtain ⟨hleft, hbusy, hbusy'⟩ := Bid.goOn_waiting hl (submit_ne_done job) (show advance p t.phase _ = _ by rw [hp]; rfl)
  have hseen : p.seen c.thread = [] := by simp only [Pool.seen, hi, hp]
  have hsays : c.seen ++ p.seen c.thread = [.submitted ⟨k, job⟩] := by rw [hs, hseen, List.append_nil]
  simp only [Pool.advance, hi, hp, Option.bind_eq_bind, Option.bind_some, Option.some.injEq] at hq
  unfold Pool.offer at hq
  by_cases ho : p.isOpen = true
  · rw [if_pos ho] at hq
    by_cases hlen : p.queue.length < p.capacity
    · rw [if_pos hlen] at hq
      subst hq
      exact ⟨true, h.put (fun _ => rfl) hbusy rfl rfl (fun e he => .inr rfl) rfl
        (.told .queued (hat.goOn rfl halone) hleft (by show c.steps + 1 ≤ 4; omega) hsays) (.inl hbusy')⟩
    · rw [if_neg hlen] at hq
      subst hq
      exact ⟨_, h.put id hbusy rfl rfl (fun e he => .inl he) rfl
        (.spilling (hat.goOn rfl halone) hleft (by show c.steps + 1 = 3; omega) hsays) (.inl hbusy')⟩
  · rw [if_neg ho] at hq
    subst hq
    exact ⟨_, h.put id hbusy rfl rfl (fun e he => .inl he) rfl
      (.told .rejected (hat.goOn rfl halone) hleft (by show c.steps + 1 ≤ 4; omega) hsays) (.inl hbusy')⟩

theorem Taken.spilling (h : Taken x work p c false)
    (hat : c.At x p job next (.spilling ⟨k, job⟩ fun a => (settle x a).bind next))
    (hl : c.left = (Pool.submit job).bind (settle x)) (hn : c.steps = 3) (hs : c.seen = [.submitted ⟨k, job⟩])
    (hf : p.Formed) (hh : p.Housed) (hi : p.threads.get? c.thread = some t) (hq : p.step c.thread = some q) :
    ∃ own', Taken x work q (c.goOn p t.phase) own' := by
  have hp := hat.phase_eq hi
  have hs' := hq
  have hq := Pool.advance_of_step hq
  simp only [Pool.advance, hi, hp, Option.bind_eq_bind, Option.bind_some, Option.some.injEq] at hq
  by_cases hc : p.isClosed = true
  · have halone : q.isHosting c.thread = false := Pool.not_isHosting_of_step hf hh hi hs' fun _ _ _ => hc
    unfold Pool.spill at hq
    obtain ⟨hleft, hbusy, hbusy'⟩ := Bid.goOn_waiting hl (submit_ne_done job)
      (show advance p t.phase _ = _ by rw [hp]; exact if_pos hc)
    have hseen : p.seen c.thread = [] := by simp only [Pool.seen, hi, hp, if_pos hc]
    have hsays : c.seen ++ p.seen c.thread = [.submitted ⟨k, job⟩] := by rw [hs, hseen, List.append_nil]
    rw [if_pos hc] at hq
    subst hq
    exact ⟨_, h.put id hbusy rfl rfl (fun e he => .inl he) rfl
      (.told .rejected (hat.goOn rfl halone) hleft (by show c.steps + 1 ≤ 4; omega) hsays) (.inl hbusy')⟩
  -- the unit gets a thread of its own, or is to be run by this one, and it is settled how the bid is answered
  · have hseen : p.seen c.thread = [.answered k .overflow] := by simp only [Pool.seen, hi, hp, if_neg hc]
    have hsays : c.seen ++ p.seen c.thread = [.submitted ⟨k, job⟩, .answered k .overflow] := by rw [hs, hseen]; rfl
    have hleft : (c.goOn p t.phase).left = .done (.ok x) := by
      show advance p t.phase c.left = _
      rw [hp, hl]
      exact if_neg hc
    have hbusy' : (c.goOn p t.phase).busy? = none := Bid.busy?_of_answer hleft
    have hmade : Minded x work true c.busy? (p.put (.overflow p.counters.overflow)
        { ticket := some k, phase := .starting ⟨k, job⟩ }) :=
      (h.minded.mono fun _ => rfl).put rfl rfl (fun _ _ _ => rfl) (fun _ _ => rfl) fun _ _ hj => hj
    obtain ⟨r, hr, -⟩ := h.record
    obtain ⟨handles, lodgings, -, hspill⟩ :=
      Pool.spill_eq c.thread t ⟨k, job⟩ (fun a => (settle x a).bind next) (Bool.eq_false_iff.2 hc)
    rw [hspill] at hq
    subst hq
    refine ⟨true, .of_own (hmade.put rfl rfl (fun _ _ _ => rfl) (fun _ => hat.after) fun j hj _ => ?_)
      (.spawned hat.request hleft (by show c.steps + 1 ≤ 6; omega) hsays) hr⟩
    rw [Bid.busy?_of_left hl (submit_ne_done job)]
    exact fun he => hj (Option.some.inj he).symm

theorem Taken.told (a : Submission) (h : Taken x work p c (decide (a ≠ .rejected)))
    (hat : c.At x p job next (.answering k a fun a => (settle x a).bind next))
    (hl : c.left = (Pool.submit job).bind (settle x)) (hn : c.steps ≤ 4) (hs : c.seen = [.submitted ⟨k, job⟩])
    (hf : p.Formed) (hh : p.Housed) (hi : p.threads.get? c.thread = some t) (hq : p.step c.thread = some q) :
    ∃ own', Taken x work q (c.goOn p t.phase) own' := by
  have hp := hat.phase_eq hi
  have halone : q.isHosting c.thread = false :=
    Pool.not_isHosting_of_step hf hh hi hq fun _ _ he => nomatch hp.symm.trans he
  have hq := Pool.advance_of_step hq
  have hbusy : c.busy? = some c.thread := Bid.busy?_of_left hl (submit_ne_done job)
  have hseen : p.seen c.thread = [.answered k a] := by simp only [Pool.seen, hi, hp]
  have hsays : c.seen ++ p.seen c.thread = [.submitted ⟨k, job⟩, .answered k a] := by rw [hs, hseen]; rfl
  have hleft : (c.goOn p t.phase).left = settle x a := by
    show advance p t.phase c.left = _
    rw [hp, hl]
    rfl
  simp only [Pool.advance, hi, hp, Option.bind_eq_bind, Option.bind_some, Option.some.injEq] at hq
  subst hq
  cases a with
  | rejected =>
    exact ⟨_, h.put id hbusy rfl rfl (fun e he => .inl he) rfl
      (.refusing (hat.goOn rfl halone) hleft (by show c.steps + 1 ≤ 5; omega) hsays)
      (.inl (Bid.busy?_of_left hleft settle_rejected_ne_done))⟩
  | queued | overflow =>
    exact ⟨true, h.put (fun _ => rfl) hbusy rfl rfl (fun e he => .inl he) rfl
      (.spawned hat.request hleft (by show c.steps + 1 ≤ 6; omega) hsays)
      (.inr ⟨Bid.busy?_of_answer hleft, hat.after⟩)⟩

/-- The job is still as it was made, so its bid can write down that it was turned away. -/
theorem Taken.refusing (h : Taken x work p c false)
    (hat : c.At x p job next (.running ((settle x .rejected).bind next))) (hl : c.left = settle x .rejected)
    (hn : c.steps ≤ 5) (hs : c.seen = [.submitted ⟨k, job⟩, .answered k .rejected])
    (hf : p.Formed) (hh : p.Housed) (hi : p.threads.get? c.thread = some t) (hq : p.step c.thread = some q) :
    ∃ own', Taken x work q (c.goOn p t.phase) own' := by
  have hp := hat.phase_eq hi
  have halone : q.isHosting c.thread = false :=
    Pool.not_isHosting_of_step hf hh hi hq fun _ _ he => nomatch hp.symm.trans he
  have hq := Pool.advance_of_step hq
  obtain ⟨r, hr, hpending⟩ := h.record
  obtain ⟨r', hr'⟩ : ∃ r', (Change.fail rejectedMessage).apply (.ofNanos p.shared.clock.read) r = .ok r' := by
    refine ⟨_, JobRecord.apply_eq_ok _ (by rw [hpending rfl]; rfl) fun s hs => ?_⟩
    cases hs
    rw [hpending rfl]
    rfl
  have hok := congrArg Prod.fst (Registry.change_of_ok hr hr')
  have hseen : p.seen c.thread = [] := by
    simp only [Pool.seen, hi, hp]
    rfl
  have hsays : c.seen ++ p.seen c.thread = [.submitted ⟨k, job⟩, .answered k .rejected] := by
    rw [hs, hseen, List.append_nil]
  have hleft : (c.goOn p t.phase).left = .done (.ok x) := by
    show advance p t.phase c.left = _
    rw [hp, hl]
    show Routine.done ((p.shared.registry.change x (.fail rejectedMessage) (.ofNanos p.shared.clock.read)).1.map _) = _
    rw [hok]
    rfl
  rw [advance_running hi hp] at hq
  cases hq
  refine ⟨true, .of_own ((h.minded.mono fun _ => rfl).put rfl rfl (fun _ _ _ => rfl) (fun _ => ?_) fun j hj _ => ?_)
    (.spawned hat.request hleft (by show c.steps + 1 ≤ 6; omega) hsays) (Registry.get?_change hr hr')⟩
  · show Respects x true (next ((p.shared.registry.change x (.fail rejectedMessage) _).1.map _))
    rw [hok]
    exact hat.after
  · rw [Bid.busy?_of_left hl settle_rejected_ne_done]
    exact fun he => hj (Option.some.inj he).symm

/-- **A step of the thread that is in the middle of the bid.** -/
theorem Taken.step (h : Taken x work p c own) (hb : c.answer? = none) (hf : p.Formed) (hh : p.Housed)
    (hi : p.threads.get? c.thread = some t) (hq : p.step c.thread = some q) :
    ∃ own', Taken x work q (c.goOn p t.phase) own' := by
  have hover : ∀ {r}, c.left ≠ .done r := by
    intro r hl
    unfold Bid.answer? at hb
    rw [hl] at hb
    cases hb
  have hleads := h.leads
  cases hleads with
  | created hr hl | spawned hr hl => exact absurd hl hover
  | holding hat hl hn hs => exact h.holding hat hl hn hs hf hh hi hq
  | offering hat hl hn hs => exact h.offering hat hl hn hs hf hh hi hq
  | spilling hat hl hn hs => exact h.spilling hat hl hn hs hf hh hi hq
  | told a hat hl hn hs => exact h.told a hat hl hn hs hf hh hi hq
  | refusing hat hl hn hs => exact h.refusing hat hl hn hs hf hh hi hq

/-! ## The others -/

/-- The thread of the bid stays where it is, and gets no lodger. -/
structure Bid.Spared (c : Bid ε τ) (p q : Pool (World ε) (Job τ)) : Prop where
  stays : ∀ u, p.threads.get? c.thread = some u → q.threads.get? c.thread = some u
  alone : p.isHosting c.thread = false → q.isHosting c.thread = false

theorem Bid.At.frame {phase : Pool.Phase (World ε) (Job τ)} (h : c.At x p job next phase)
    (ht : c.Spared p q) : c.At x q job next phase := by
  obtain ⟨ticket, hhere⟩ := h.here
  exact ⟨h.request, ⟨ticket, ht.stays _ hhere⟩, ht.alone h.alone, h.after⟩

theorem Leads.frame (h : Leads x p c own) (ht : c.busy? = some c.thread → c.Spared p q) : Leads x q c own := by
  cases h with
  | created hr hl hn hs => exact .created hr hl hn hs
  | spawned hr hl hn hs => exact .spawned hr hl hn hs
  | holding hat hl hn hs => exact .holding (hat.frame (ht (Bid.busy?_of_left hl (submit_ne_done _)))) hl hn hs
  | offering hat hl hn hs => exact .offering (hat.frame (ht (Bid.busy?_of_left hl (submit_ne_done _)))) hl hn hs
  | spilling hat hl hn hs => exact .spilling (hat.frame (ht (Bid.busy?_of_left hl (submit_ne_done _)))) hl hn hs
  | told a hat hl hn hs => exact .told a (hat.frame (ht (Bid.busy?_of_left hl (submit_ne_done _)))) hl hn hs
  | refusing hat hl hn hs => exact .refusing (hat.frame (ht (Bid.busy?_of_left hl settle_rejected_ne_done))) hl hn hs

theorem Taken.frame (h : Taken x work p c own) (hm : Minded x work own c.busy? q)
    (hs : Spares x own p.shared.registry q.shared.registry) (ht : c.busy? = some c.thread → c.Spared p q) :
    Taken x work q c own := by
  obtain ⟨r, hr, hp⟩ := h.record
  obtain ⟨r', hr'⟩ : ∃ r', q.shared.registry.get? x = some r' := by
    refine Option.ne_none_iff_exists'.1 fun hn => ?_
    rw [hs.registered.1 hn] at hr
    cases hr
  refine ⟨hm, h.leads.frame ht, r', hr', fun ho => ?_⟩
  have hstatus := hs.status.resolve_left (by simp [ho])
  rw [hr, hr', Option.map_some, Option.map_some, Option.some.injEq] at hstatus
  exact hstatus.trans (hp ho)

/-- A thread in the middle of a bid does not begin another one. -/
theorem Leads.not_begins {code : Action ε τ Unit} (h : Leads x p c own) (hb : c.busy? = some c.thread)
    (hi : p.threads.get? c.thread = some t) (hp : t.phase = .running code) : ¬ Begins x request code := by
  intro hbegins
  obtain ⟨metadata, f, hcode⟩ : ∃ metadata f, code = (World.create x metadata).bind f := by
    cases hbegins with
    | spawn hm => exact ⟨_, _, hm.trans (spawn_bind_eq ..)⟩
    | createJob hm => exact ⟨_, _, hm⟩
  cases h with
  | created hr hl | spawned hr hl =>
    rw [Bid.busy?_of_answer hl] at hb
    cases hb
  | holding hat =>
    cases hp.symm.trans (hat.phase_eq hi)
    cases hcode
  | offering hat | spilling hat | told _ hat => cases hp.symm.trans (hat.phase_eq hi)
  | refusing hat =>
    cases hp.symm.trans (hat.phase_eq hi)
    injection hcode with _ hact
    have hspares : ∀ w : World ε,
        Spares x true w.registry (World.onRegistry (Registry.create x metadata) w).2.registry := by
      intro w
      rw [← congrFun hact w]
      exact spares_change _ _ fun _ => rfl
    exact not_spares_create p.shared metadata hspares

/-- A bid that was turned down with the first step for it. -/
structure Lost (x : JobId) (c : Bid ε τ) : Prop where
  left : c.left = .done (.error (.alreadyExists x))
  steps : c.steps = 1
  seen : c.seen = []

theorem Bid.after_of_ne (h : c.busy? ≠ some i) : c.after p i = c := by
  unfold Bid.after
  cases p.threads.get? i with
  | none => rfl
  | some t => exact if_neg h

theorem Bid.after_of_busy (hi : p.threads.get? i = some t) (h : c.busy? = some i) : c.after p i = c.goOn p t.phase := by
  unfold Bid.after
  rw [hi]
  exact if_pos h

theorem map_after_of_lost (h : ∀ d ∈ rest, Lost x d) : rest.map (Bid.after p i) = rest := by
  refine (List.map_congr_left fun d hd => ?_).trans (List.map_id rest)
  refine Bid.after_of_ne ?_
  rw [Bid.busy?_of_answer (h d hd).left]
  exact nofun

theorem Registration.code_ne_done (request : Registration τ) (r : Except JobError JobId) :
    (request.code x : Action ε τ _) ≠ .done r := by
  cases request with
  | _ => nofun

/-! ## All bids -/

/-- The units of a job that were handed to the pool. -/
def handed (x : JobId) (es : List (Pool.Event (Job τ))) : List (Pool.Entry (Job τ)) :=
  lined x (es.filterMap Pool.Event.entry?)

theorem handed_append (es new : List (Pool.Event (Job τ))) : handed x (es ++ new) = handed x es ++ handed x new := by
  unfold handed lined
  rw [List.filterMap_append, List.filter_append]

theorem handed_eq_nil (h : ∀ e, .submitted e ∈ new → jobId e ≠ x) : handed x new = [] := by
  refine List.filter_eq_nil_iff.2 fun e he => ?_
  obtain ⟨ev, hev, hentry⟩ := List.mem_filterMap.1 he
  cases Pool.Event.eq_submitted hentry
  simpa using h e hev

theorem handed_eq_self (h : ∀ e, .submitted e ∈ new → jobId e = x) :
    handed x new = new.filterMap Pool.Event.entry? := by
  refine List.filter_eq_self.2 fun e he => ?_
  obtain ⟨ev, hev, hentry⟩ := List.mem_filterMap.1 he
  cases Pool.Event.eq_submitted hentry
  simpa using h e hev

/-- Only its own job is handed over for a bid. -/
theorem Leads.jobId_eq (h : Leads x p c own) {e : Pool.Entry (Job τ)} (he : .submitted e ∈ c.seen) : jobId e = x := by
  cases h with
  | created _ _ _ hs | holding _ _ _ hs =>
    rw [hs] at he
    cases he
  | offering hat _ _ hs | spilling hat _ _ hs | told _ hat _ _ hs | refusing hat _ _ hs =>
    rw [hs] at he
    obtain rfl : e = ⟨_, _⟩ := by simpa using he
    exact Registration.id_of_job? hat.request
  | spawned hr _ _ hs =>
    rw [hs] at he
    obtain rfl : e = ⟨_, _⟩ := by simpa using he
    exact Registration.id_of_job? hr

/-- The identifier is free as long as nobody has bid for it.  After that the first bid has it, and all others were turned
down; and no unit under the identifier was handed over but by the winner. -/
inductive Contest (x : JobId) (work : Work ε τ) (p : Pool (World ε) (Job τ)) (es : List (Pool.Event (Job τ))) :
    List (Bid ε τ) → Prop where
  | free (hm : Minded x work false none p) (hr : p.shared.registry.get? x = none) (hu : handed x es = []) :
    Contest x work p es []
  | decided {c : Bid ε τ} {rest : List (Bid ε τ)} {own : Bool} (h : Taken x work p c own)
    (hu : handed x es = c.seen.filterMap Pool.Event.entry?) (hrest : ∀ d ∈ rest, Lost x d) :
    Contest x work p es (c :: rest)

/-- The first bid registers the job. -/
theorem Minded.first (h : Minded x work false none p) (hf : p.Formed) (hh : p.Housed)
    (hr : p.shared.registry.get? x = none) {code : Action ε τ Unit} (hi : p.threads.get? i = some t)
    (hp : t.phase = .running code) (hb : Begins x request code) (hq : p.step i = some q) :
    p.seen i = [] ∧ ∃ own, Taken x work q
      (Bid.goOn p t.phase { thread := i, request, left := request.code x }) own := by
  have halone : q.isHosting i = false := Pool.not_isHosting_of_step hf hh hi hq fun _ _ he => nomatch hp.symm.trans he
  have hminds := h.threads i t hi nofun
  rw [hp] at hminds
  obtain ⟨metadata, after, rfl, hseen, hnext⟩ := hb.won hminds hr hi hp hq
  have hrecord : ∃ r, (World.onRegistry (Registry.create x metadata) p.shared).2.registry.get? x = some r ∧
      r.status = .pending := ⟨_, (Registry.get?_create ..).trans (if_pos ⟨rfl, hr⟩), rfl⟩
  obtain ⟨r, hr', hpending⟩ := hrecord
  refine ⟨hseen, ?_⟩
  rcases hnext with ⟨hjob, hleft, hafter⟩ | ⟨job, next, hjob, rfl, hleft, hnext⟩
  · exact ⟨true, .of_own ((h.mono nofun).put rfl rfl (fun _ _ _ => rfl) (fun _ => hafter) fun _ _ _ => nofun)
      (.created hjob hleft rfl hseen) hr'⟩
  · have hbusy : (Bid.goOn p t.phase { thread := i, request, left := request.code x }).busy? = some i :=
      Bid.busy?_of_left hleft nofun
    refine ⟨false, h.put rfl rfl h.queue (fun hne => absurd hbusy hne) (fun _ _ _ => nofun),
      .holding ⟨hjob, ⟨t.ticket, Table.get?_insert_self ..⟩, halone, hnext⟩ hleft rfl hseen, r, hr', fun _ => hpending⟩

theorem Contest.free_thread (hwork : ∀ task c, Respects x (decide (c.id = x)) (work task c))
    (hf : p.Formed) (hh : p.Housed) (hm : Minded x work false none p) (hr : p.shared.registry.get? x = none)
    (hu : handed x es = []) (ho : Opens x p i opened) (hq : p.step i = some q) :
    Contest x work q (es ++ p.seen i) (opened.map (Bid.after p i)) := by
  cases ho with
  | @bid t code request hi hp hb =>
    obtain ⟨hseen, own, htaken⟩ := hm.first hf hh hr hi hp hb hq
    have hafter := Bid.after_of_busy hi (Bid.busy?_of_left (c := { thread := i, request, left := request.code x }) rfl
      request.code_ne_done)
    rw [List.map_singleton, hafter, hseen, List.append_nil]
    refine .decided htaken ?_ (by simp)
    show _ = ([] ++ p.seen i).filterMap _
    rw [hu, hseen]
    rfl
  | none hno =>
    obtain ⟨t, hi, m⟩ := Pool.move_of_step hq
    obtain ⟨hm', hs, hn⟩ := minded_move hwork hm hi nofun (fun code request hp => hno t code request hi hp) m
    refine .free hm' (hs.registered.2 hr) ?_
    rw [handed_append, hu, handed_eq_nil hn, List.append_nil]

theorem Contest.decided_thread (hwork : ∀ task c, Respects x (decide (c.id = x)) (work task c)) (hf : p.Formed)
    (hh : p.Housed) (h : Taken x work p c own) (hu : handed x es = c.seen.filterMap Pool.Event.entry?)
    (hrest : ∀ d ∈ rest, Lost x d) (ho : Opens x p i opened) (hq : p.step i = some q) :
    Contest x work q (es ++ p.seen i) ((c :: rest ++ opened).map (Bid.after p i)) := by
  obtain ⟨t, hi, m⟩ := Pool.move_of_step hq
  rw [List.map_append, List.map_cons, map_after_of_lost hrest, List.cons_append]
  by_cases hb : c.busy? = some i
  -- the thread goes on with its bid
  · obtain ⟨hthread, hanswer⟩ : c.thread = i ∧ c.answer? = none := by
      unfold Bid.busy? at hb
      cases ha : c.answer? with
      | none =>
        rw [ha] at hb
        exact ⟨Option.some.inj hb, rfl⟩
      | some r =>
        rw [ha] at hb
        cases hb
    subst hthread
    obtain ⟨own', h'⟩ := h.step hanswer hf hh hi hq
    rw [Bid.after_of_busy hi hb]
    cases ho with
    | bid hi' hp hbegins => exact absurd hbegins (h.leads.not_begins hb hi' hp)
    | none =>
      rw [List.map_nil, List.append_nil]
      refine .decided h' ?_ hrest
      have hnew : handed x (p.seen c.thread) = (p.seen c.thread).filterMap Pool.Event.entry? :=
        handed_eq_self fun e he => h'.leads.jobId_eq (List.mem_append_right _ he)
      show _ = (c.seen ++ p.seen c.thread).filterMap _
      rw [handed_append, hu, hnew, List.filterMap_append]
  · have hother : c.busy? = some c.thread → c.Spared p q := by
      intro hc
      have hne : i ≠ c.thread := by
        rintro rfl
        exact hb hc
      refine ⟨fun u => m.other hf hne.symm, fun halone => ?_⟩
      rw [Bool.eq_false_iff]
      intro hw
      exact absurd (halone.symm.trans (m.isHosting hf hh hi hne hw)) Bool.false_ne_true
    rw [Bid.after_of_ne hb]
    cases ho with
    -- another thread bids, and is told that the identifier is taken
    | @bid t' code request hi' hp hbegins =>
      cases hi.symm.trans hi'
      obtain ⟨r, hr, -⟩ := h.record
      have hminds := h.minded.threads i t hi hb
      rw [hp] at hminds
      obtain ⟨after, hq, hseen, hleft, hafter⟩ := hbegins.lost hr hi hp hq
      have hnew := Bid.after_of_busy hi (Bid.busy?_of_left
        (c := { thread := i, request, left := request.code x }) rfl request.code_ne_done)
      have hlost : Lost x (Bid.goOn p t.phase { thread := i, request, left := request.code x }) :=
        ⟨hleft, rfl, hseen⟩
      rw [List.map_singleton, hnew, hseen, List.append_nil]
      refine .decided (h.frame ?_ ?_ hother) hu fun d hd => ?_
      · rw [hq]
        exact h.minded.put rfl rfl h.minded.queue (fun _ => hafter own hminds) fun _ _ hj => hj
      · rw [hq]
        exact .of_eq rfl
      · rcases List.mem_append.1 hd with hd | hd
        · exact hrest d hd
        · cases List.mem_singleton.1 hd
          exact hlost
    | none hno =>
      obtain ⟨hm, hs, hn⟩ := minded_move hwork h.minded hi hb (fun code request hp => hno t code request hi hp) m
      rw [List.map_nil, List.append_nil]
      refine .decided (h.frame hm hs hother) ?_ hrest
      rw [handed_append, hu, handed_eq_nil hn, List.append_nil]

/-- **At any time the identifier is free or the first bid has it.** -/
theorem BidRun.contest (hwork : ∀ task c, Respects x (decide (c.id = x)) (work task c))
    (hfree : world.registry.get? x = none) (run : BidRun x work name workers world es bids p) :
    Contest x work p es bids := by
  induction run with
  | start =>
    refine .free ⟨?_, Pool.forall_start fun _ _ => trivial, ?_⟩ ?_ rfl
    all_goals
      unfold Pool.start
      rw [Pool.foldl_put]
    · intro e he
      cases he
    · exact hfree
  | thread i before ho hq ih =>
    cases ih with
    | free hm hr hu => exact Contest.free_thread hwork before.pool.formed before.pool.housed hm hr hu ho hq
    | decided h hu hrest => exact Contest.decided_thread hwork before.pool.formed before.pool.housed h hu hrest ho hq
  | passing _ hs ih =>
    cases ih with
    | free hm hr hu => exact .free ⟨hm.code, hm.threads, hm.queue⟩ (hs.registered.2 hr) hu
    | decided h hu hrest =>
      exact .decided (h.frame ⟨h.minded.code, h.minded.threads, h.minded.queue⟩ (hs.mono nofun)
        fun _ => ⟨fun _ hu => hu, id⟩) hu hrest
  | call before hc ih =>
    have hnew := before.pool.formed.caller_new
    cases ih with
    | free hm hr hu =>
      exact .free (hm.put rfl rfl hm.queue (fun _ => hc) fun _ _ hj => hj) hr hu
    | decided h hu hrest =>
      refine .decided (h.frame (h.minded.put rfl rfl h.minded.queue (fun _ => hc.mono nofun) fun _ _ hj => hj)
        (.of_eq rfl) fun _ => ⟨fun u hu => ?_, fun halone => ?_⟩) hu hrest
      · refine (Table.get?_insert_ne fun he => ?_).trans hu
        rw [← he, hnew] at hu
        cases hu
      · exact (before.pool.housed.isHosting_call before.pool.formed _ _).trans halone

/-- The thread of the bid works on it.  As soon as the answer is settled, it goes on with that; but if no thread could be
made for the unit that it handed over, it runs that one first. -/
def Bid.Busy (p : Pool (World ε) (Job τ)) (c : Bid ε τ) : Prop :=
  ∃ t next, p.threads.get? c.thread = some t ∧ Pursues next c.left t.phase ∧
    ∀ q r, p.step c.thread = some q → (c.goOn p t.phase).answer? = some r →
      (∃ t', q.threads.get? c.thread = some t' ∧ t'.phase = .running (next r)) ∧
      (q.isHosting c.thread = true → ∃ e, .submitted e ∈ c.seen ∧ q.RunsFirst c.thread e)

/-- A bid that has the identifier: that is settled, or else its thread can take its next step at once, and it takes no more
than six until then.  It hands nothing to the pool but its job, and that once. -/
structure Won (x : JobId) (p : Pool (World ε) (Job τ)) (c : Bid ε τ) : Prop where
  answer : c.answer? = some (.ok x) ∨ c.answer? = none ∧ c.Busy p ∧ (p.step c.thread).isSome ∧ c.steps < 6
  steps : c.steps ≤ 6
  handed : (c.seen.filterMap Pool.Event.entry?).map Pool.Entry.unit <+: (c.request.job? x).toList
  returned : c.answer? ≠ none →
    (c.seen.filterMap Pool.Event.entry?).map Pool.Entry.unit = (c.request.job? x).toList

theorem Bid.answer?_of_left {r : Except JobError JobId} (hl : c.left = .done r) : c.answer? = some r := by
  unfold Bid.answer?
  rw [hl]

theorem Bid.answer?_eq_none {m : Action ε τ (Except JobError JobId)} (hl : c.left = m) (hm : ∀ r, m ≠ .done r) :
    c.answer? = none := by
  subst hl
  unfold Bid.answer?
  cases hc : c.left with
  | done r => exact absurd hc (hm r)
  | _ => rfl

theorem Bid.left_of_answer? {r : Except JobError JobId} (h : c.answer? = some r) : c.left = .done r := by
  unfold Bid.answer? at h
  cases hl : c.left with
  | done r' =>
    rw [hl] at h
    cases h
    rfl
  | _ =>
    rw [hl] at h
    cases h

theorem Bid.At.works {phase : Pool.Phase (World ε) (Job τ)} (h : c.At x p job next phase) (hf : p.Formed) (hh : p.Housed)
    (hp : Pursues next c.left phase) (hm : (∀ r, c.left ≠ .done r) ∧ c.left ≠ .crash)
    (hs : ∀ e f, phase = .spilling e f → .submitted e ∈ c.seen) : c.Busy p := by
  obtain ⟨ticket, hi⟩ := h.here
  refine ⟨_, next, hi, hp, fun q r hq hr => ⟨?_, fun hw => ?_⟩⟩
  · obtain ⟨t', hi', hp'⟩ := Pursues.step (t := ⟨ticket, phase⟩) hp hm hi hq
    have hleft : advance p phase c.left = .done r := Bid.left_of_answer? hr
    rw [hleft] at hp'
    exact ⟨t', hi', hp'.of_done⟩
  · obtain ⟨t', hi', m⟩ := Pool.move_of_step hq
    cases hi.symm.trans hi'
    obtain ⟨e, f, hphase, -, hfirst⟩ := m.runsFirst hf hh hi h.alone hw
    exact ⟨e, hs e f hphase, hfirst⟩

theorem Bid.At.step_isSome {phase : Pool.Phase (World ε) (Job τ)} (h : c.At x p job next phase)
    (hs : (p.advance c.thread).isSome) : (p.step c.thread).isSome := by
  rwa [Pool.step_eq_advance h.alone]

theorem Leads.won (h : Leads x p c own) (hf : p.Formed) (hh : p.Housed) : Won x p c := by
  -- before the bid is answered, its job may have been handed over already
  have hopen : ∀ {m : Action ε τ (Except JobError JobId)} {job next phase}, c.left = m →
      (∀ r, m ≠ .done r) ∧ m ≠ .crash → c.At x p job next phase → Pursues next m phase →
      (p.advance c.thread).isSome → c.steps < 6 → (∀ e f, phase = .spilling e f → .submitted e ∈ c.seen) →
      (c.seen.filterMap Pool.Event.entry?).map Pool.Entry.unit <+: (c.request.job? x).toList → Won x p c := by
    intro m job next phase hl hm hat hp hstep hn hspill hs
    have hanswer := Bid.answer?_eq_none hl hm.1
    subst hl
    exact ⟨.inr ⟨hanswer, hat.works hf hh hp hm hspill, hat.step_isSome hstep, hn⟩, Nat.le_of_lt hn, hs,
      fun h => absurd hanswer h⟩
  have hover : c.left = .done (.ok x) → c.steps ≤ 6 →
      (c.seen.filterMap Pool.Event.entry?).map Pool.Entry.unit = (c.request.job? x).toList → Won x p c :=
    fun hl hn hs => ⟨.inl (Bid.answer?_of_left hl), hn, hs ▸ List.prefix_rfl, fun _ => hs⟩
  cases h with
  | created hr hl hn hs => exact hover hl (by omega) (by rw [hr, hs]; rfl)
  | spawned hr hl hn hs => exact hover hl hn (by rw [hr, hs]; rfl)
  | holding hat hl hn hs =>
    obtain ⟨ticket, hi⟩ := hat.here
    refine hopen hl ⟨nofun, nofun⟩ hat (.running _) ?_ (by omega) nofun (by rw [hs]; exact List.nil_prefix)
    rw [advance_running hi rfl]
    show (p.stepCode _ _ (.ask (S := Pool.interface (Job τ)) (.submit _) _)).isSome
    unfold Pool.stepCode
    by_cases hc : p.isClosed = true
    · simp [hc]
    · simp [hc]
  | @offering job next k hat hl hn hs =>
    obtain ⟨ticket, hi⟩ := hat.here
    refine hopen hl ⟨nofun, nofun⟩ hat (.offering (e := ⟨k, job⟩) (.inl rfl)) ?_ (by omega)
      nofun (by rw [hs, hat.request]; exact List.prefix_rfl)
    unfold Pool.advance
    rw [hi]
    rfl
  | @spilling job next k hat hl hn hs =>
    obtain ⟨ticket, hi⟩ := hat.here
    refine hopen hl ⟨nofun, nofun⟩ hat (.offering (e := ⟨k, job⟩) (.inr rfl)) ?_ (by omega)
      (fun e f he => ?_) (by rw [hs, hat.request]; exact List.prefix_rfl)
    · unfold Pool.advance
      rw [hi]
      rfl
    · cases he
      rw [hs]
      exact List.mem_singleton_self _
  | told a hat hl hn hs =>
    obtain ⟨ticket, hi⟩ := hat.here
    refine hopen hl ⟨nofun, nofun⟩ hat .told ?_ (by omega) nofun (by rw [hs, hat.request]; exact List.prefix_rfl)
    unfold Pool.advance
    rw [hi]
    rfl
  | refusing hat hl hn hs =>
    obtain ⟨ticket, hi⟩ := hat.here
    refine hopen hl ⟨nofun, nofun⟩ hat (.running _) ?_ (by omega) nofun
      (by rw [hs, hat.request]; exact List.prefix_rfl)
    rw [advance_running hi rfl]
    rfl

theorem Lost.answer? (h : Lost x c) : c.answer? = some (.error (.alreadyExists x)) := Bid.answer?_of_left h.left

/-- **One winner for each identifier.**  Nobody removes the job, and nobody writes into its record but its own work and
those who were told that the job is theirs; otherwise the threads do what they like, in any order.  Then whoever asks for
the identifier while there was no bid for it has it.  After that it is taken: the first bid has won, its thread need not
wait for anybody, and after at most six of its steps it is settled that the job is its own.  It is told so at once, or,
if no thread could be made for the unit of the job, when it has run that.  All other bids were turned down in one step
each, and whatever has become of the job meanwhile, a bid that comes too late changes nothing but the time.  What was
handed to the pool under the identifier was handed over by the winner, and no other unit begins under it.  So when all
bids are answered, exactly one has the job, and all others were told that it exists. -/
theorem one_winner (hwork : ∀ task c, Respects x (decide (c.id = x)) (work task c))
    (hfree : world.registry.get? x = none) (run : BidRun x work name workers world es bids p) :
    (bids = [] → p.shared.registry.get? x = none ∧ Grants x p ∧ handed x es = []) ∧
    (∀ c rest, bids = c :: rest → (∃ r, p.shared.registry.get? x = some r) ∧ Refuses x p ∧ Won x p c ∧
      (∀ d ∈ rest, Lost x d) ∧ handed x es = c.seen.filterMap Pool.Event.entry?) ∧
    (∀ e, .started e ∈ es → jobId e = x → e ∈ handed x es) ∧
    (bids ≠ [] → (∀ c ∈ bids, c.answer? ≠ none) →
      (bids.countP fun c => c.answer? = some (.ok x)) = 1 ∧
        (bids.countP fun c => c.answer? = some (.error (.alreadyExists x))) + 1 = bids.length) := by
  have hcontest := run.contest hwork hfree
  refine ⟨?_, ?_, fun e he hx => ?_, fun hne hanswered => ?_⟩
  · rintro rfl
    cases hcontest with
    | free _ hr hu => exact ⟨hr, grants_of_none hr, hu⟩
  · rintro c rest rfl
    cases hcontest with
    | decided h hu hrest =>
      obtain ⟨r, hr, -⟩ := h.record
      exact ⟨⟨r, hr⟩, refuses_of_some hr, h.leads.won run.pool.formed run.pool.housed, hrest, hu⟩
  · have hsubmitted := run.pool.known.begun e he
    exact List.mem_filter.2 ⟨List.mem_filterMap.2 ⟨_, hsubmitted, rfl⟩, decide_eq_true hx⟩
  · cases hcontest with
    | free => exact absurd rfl hne
    | @decided c rest own h hu hrest =>
      have hok : c.answer? = some (.ok x) :=
        (h.leads.won run.pool.formed run.pool.housed).answer.resolve_right fun h => hanswered c List.mem_cons_self h.1
      have hnone : (rest.countP fun d => d.answer? = some (.ok x)) = 0 :=
        List.countP_eq_zero.2 fun d hd => by simp [(hrest d hd).answer?]
      have hall : (rest.countP fun d => d.answer? = some (.error (.alreadyExists x))) = rest.length :=
        List.countP_eq_length.2 fun d hd => by simp [(hrest d hd).answer?]
      constructor
      · rw [List.countP_cons, hnone, hok]
        simp
      · rw [List.countP_cons, hall, hok]
        simp

/-- Spawns a job under an identifier that others want as well. -/
def sampleRival (task : Nat) : Action Unit Nat Unit := do
  let _ ← spawn {} (some ⟨"well"⟩) .empty task

/-- Registers a job without work under that identifier. -/
def sampleUpstart : Action Unit Nat Unit := do
  let _ ← createJob (some ⟨"well"⟩) .empty

theorem respects_sampleWork (task : Nat) (c : JobContext) :
    Respects ⟨"well"⟩ (decide (c.id = ⟨"well"⟩)) (sampleWork task c) := by
  have h := (proper_sampleWork task c).respects (x := ⟨"well"⟩) id
  simpa only [Option.some.injEq] using h

/-- Three callers want the same identifier; the work of the first one runs, and nothing else does. -/
theorem one_winner_three_rivals : ∃ es bids p,
    BidRun ⟨"well"⟩ sampleWork "sample" 1 { env := () } es bids p ∧ 3 ≤ bids.length ∧
      (bids.countP fun c => c.answer? = some (.ok ⟨"well"⟩)) = 1 ∧
      (bids.countP fun c => c.answer? = some (.error (.alreadyExists ⟨"well"⟩))) + 1 = bids.length ∧
      (handed ⟨"well"⟩ es).length = 1 ∧ p.stats.counters = ⟨1, 0, 0, 1, 0⟩ := by
  have hrival : ∀ task, Respects ⟨"well"⟩ false (sampleRival task) := fun task => (respects_spawn ..).bind fun _ => .done _
  have hupstart : Respects ⟨"well"⟩ false sampleUpstart := (respects_createJob ..).bind fun _ => .done _
  let made : Pool (World Unit) (Job Nat) :=
    (((Pool.start "sample" 1 (unit sampleWork) { env := () }).call (sampleRival 0)).call (sampleRival 1)).call sampleUpstart
  let one := (made.step (.caller 0)).get rfl
  let two := (one.step (.caller 1)).get rfl
  let three := (two.step (.caller 2)).get rfl
  have hmade : BidRun ⟨"well"⟩ sampleWork "sample" 1 { env := () } [] [] made :=
    ((BidRun.start.call (hrival 0)).call (hrival 1)).call hupstart
  have hone := hmade.thread (.caller 0) (q := one) (.bid rfl rfl (.spawn rfl)) (Option.some_get _).symm
  have htwo := hone.thread (.caller 1) (q := two) (.bid rfl rfl (.spawn rfl)) (Option.some_get _).symm
  obtain ⟨request, hbegins⟩ := exists_begins (x := ⟨"well"⟩) (m := sampleUpstart) rfl
  have hthree := htwo.thread (.caller 2) (q := three) (.bid rfl rfl hbegins) (Option.some_get _).symm
  let ids : List Pool.ThreadId := List.replicate 4 (.caller 0) ++ [.caller 1, .caller 2] ++ List.replicate 7 (.worker 0)
  have hends : ((Pool.follow ids three).any fun r => (r.2.threads.entries.all fun e => (r.2.step e.1).isNone) &&
      decide ((handed ⟨"well"⟩ r.1).length = 1) && decide (r.2.stats.counters = ⟨1, 0, 0, 1, 0⟩)) = true := by
    decide +kernel
  simp only [Option.any_eq_true, Bool.and_eq_true, decide_eq_true_eq, List.all_eq_true] at hends
  obtain ⟨⟨es, p⟩, hfollow, ⟨hstuck, hhanded⟩, hcounters⟩ := hends
  obtain ⟨bids, run, hlen⟩ := bidRun_of_follow hthree hfollow
  have run : BidRun ⟨"well"⟩ sampleWork "sample" 1 { env := () } es bids p := run
  have hlen : 3 ≤ bids.length := hlen
  obtain ⟨-, hdecided, -, hcount⟩ := one_winner respects_sampleWork rfl run
  have hanswered : ∀ c ∈ bids, c.answer? ≠ none := by
    cases bids with
    | nil => exact fun c hc => absurd hc List.not_mem_nil
    | cons c rest =>
      obtain ⟨-, -, hwon, hlost, -⟩ := hdecided c rest rfl
      refine List.forall_mem_cons.2 ⟨?_, fun d hd => by simp [(hlost d hd).answer?]⟩
      -- a winner without an answer could take a step, but no thread can
      rcases hwon.answer with hok | ⟨-, -, hstep, -⟩
      · simp [hok]
      · obtain ⟨q, hq⟩ := Option.isSome_iff_exists.1 hstep
        obtain ⟨t, hi, -⟩ := Pool.move_of_step hq
        have hnone := hstuck _ (Table.get?_eq_some_iff.1 hi)
        rw [hq] at hnone
        cases hnone
  obtain ⟨hok, hexists⟩ := hcount (List.ne_nil_of_length_pos (by omega)) hanswered
  exact ⟨es, bids, p, run, hlen, hok, hexists, hhanded, hcounters⟩

end Orchestrator
end JobRunner
