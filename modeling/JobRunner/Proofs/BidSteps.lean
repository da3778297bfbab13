import JobRunner.Proofs.Bids
import JobRunner.Proofs.JobTurns
/-!
# Steps around a bid

What becomes of a bid when threads take steps.  Its own thread goes on with what is left of it; all other threads leave
the identifier alone until they bid for it themselves; and the step in which a bid is made says whether it can win.
-/
namespace JobRunner
namespace Pool

variable {σ υ : Type} {p q : Pool σ υ} {i j : ThreadId} {t u : Thread σ υ} {new : List (Event υ)}

/-- A thread stays as it is while another one takes a step. -/
theorem Move.other (m : Move p i t new q) (hf : p.Formed) (hj : j ≠ i) (hu : p.threads.get? j = some u) :
    q.threads.get? j = some u := by
  cases m with
  | spawn ht hc =>
    have hmade : ThreadId.overflow p.counters.overflow ≠ j := hf.overflow_ne hu
    exact ((Table.get?_insert_ne hj.symm).trans (Table.get?_insert_ne hmade)).trans hu
  | _ => exact (Table.get?_insert_ne hj.symm).trans hu

end Pool

namespace Orchestrator

variable {ε τ α : Type} {x : JobId} {own own' : Bool} {work : Work ε τ} {new : List (Pool.Event (Job τ))}
  {p q : Pool (World ε) (Job τ)} {i j : Pool.ThreadId} {t : Pool.Thread (World ε) (Job τ)}
  {busy busy' : Option Pool.ThreadId} {request : Registration τ} {m : Action ε τ α} {goOn : α → Action ε τ Unit}
  {phase : Pool.Phase (World ε) (Job τ)}

/-! ## What is left of a piece of code -/

/-- A thread in this phase has `m` left to do, and goes on as `next` says when that has returned. -/
inductive Pursues (next : α → Action ε τ Unit) : Action ε τ α → Pool.Phase (World ε) (Job τ) → Prop where
  | running (m : Action ε τ α) : Pursues next m (.running (m.bind next))
  | offering {e : Pool.Entry (Job τ)} {f : Submission → Action ε τ α} {phase : Pool.Phase (World ε) (Job τ)}
    (hp : phase = .offering e (fun a => (f a).bind next) ∨ phase = .spilling e fun a => (f a).bind next) :
    Pursues next (.ask (S := Pool.interface (Job τ)) (.submit e.unit) f) phase
  | told {k : Nat} {a : Submission} {job : Job τ} {f : Submission → Action ε τ α} :
    Pursues next (.ask (S := Pool.interface (Job τ)) (.submit job) f) (.answering k a fun a => (f a).bind next)
  | closing {f : Unit → Action ε τ α} {phase : Pool.Phase (World ε) (Job τ)}
    (hp : closer? phase = some ((f ()).bind next)) :
    Pursues next (.ask (S := Pool.interface (Job τ)) .close f) phase

/-- All steps on the way out of the pool but the last one leave the code where it is. -/
theorem pursues_of_closer {f : Unit → Action ε τ α} (hi : p.threads.get? i = some t)
    (hp : closer? t.phase = some ((f ()).bind goOn)) (hq : p.advance i = some q) :
    ∃ t', q.threads.get? i = some t' ∧
      Pursues goOn (advance p t.phase (.ask (S := Pool.interface (Job τ)) .close f)) t'.phase := by
  obtain ⟨ticket, phase⟩ := t
  simp only [Pool.advance, hi, Option.bind_eq_bind, Option.bind_some] at hq
  cases phase with
  | hangingUp code | collecting code | collectingOverflow code =>
    cases hq
    exact ⟨_, Table.get?_insert_self .., .closing hp⟩
  | joining rest code =>
    cases rest with
    | nil =>
      cases hq
      exact ⟨_, Table.get?_insert_self .., .closing hp⟩
    | cons w rest =>
      simp only [Option.map_eq_some_iff] at hq
      obtain ⟨rest', -, rfl⟩ := hq
      exact ⟨_, Table.get?_insert_self .., .closing hp⟩
  | joiningOverflow rest code =>
    cases rest with
    | nil =>
      cases hq
      cases hp
      exact ⟨_, Table.get?_insert_self .., .running (f ())⟩
    | cons w rest =>
      simp only [Option.map_eq_some_iff] at hq
      obtain ⟨rest', -, rfl⟩ := hq
      exact ⟨_, Table.get?_insert_self .., .closing hp⟩
  | idle | starting | running | offering | spilling | answering | counting | gone => cases hp

/-- **What is left of a piece of code is what its thread still does**, until it has returned or crashed. -/
theorem Pursues.step (h : Pursues goOn m t.phase) (hm : (∀ a, m ≠ .done a) ∧ m ≠ .crash)
    (hi : p.threads.get? i = some t) (hq : p.step i = some q) :
    ∃ t', q.threads.get? i = some t' ∧ Pursues goOn (advance p t.phase m) t'.phase := by
  have hq := Pool.advance_of_step hq
  generalize hp : t.phase = phase at h
  cases h with
  | running m =>
    rw [advance_running hi hp] at hq
    cases m with
    | done a => exact absurd rfl (hm.1 a)
    | crash => exact absurd rfl hm.2
    | step ready act next =>
      change p.stepCode i t (.step ready act fun w => (next w).bind goOn) = some q at hq
      simp only [Pool.stepCode, Option.ite_none_right_eq_some, Option.some.injEq] at hq
      obtain ⟨-, rfl⟩ := hq
      exact ⟨_, Table.get?_insert_self .., .running (next p.shared)⟩
    | ask r next =>
      cases r with
      | submit job =>
        change p.stepCode i t (.ask (S := Pool.interface (Job τ)) (.submit job) fun a => (next a).bind goOn) = some q at hq
        by_cases hc : p.isClosed = true
        · simp only [Pool.stepCode, if_pos hc] at hq
          cases hq
          exact ⟨_, Table.get?_insert_self .., .told⟩
        · simp only [Pool.stepCode, if_neg hc] at hq
          cases hq
          exact ⟨_, Table.get?_insert_self .., .offering (e := ⟨p.submissions, job⟩) (.inl rfl)⟩
      | close =>
        change p.stepCode i t (.ask (S := Pool.interface (Job τ)) .close fun a => (next a).bind goOn) = some q at hq
        by_cases hc : p.isClosed = true
        · have ha : advance p (.running ((Routine.ask (S := Pool.interface (Job τ)) .close next).bind goOn))
              (.ask (S := Pool.interface (Job τ)) .close next) = next () := if_pos hc
          simp only [Pool.stepCode, if_pos hc] at hq
          cases hq
          rw [ha]
          exact ⟨_, Table.get?_insert_self .., .running (next ())⟩
        · have ha : advance p (.running ((Routine.ask (S := Pool.interface (Job τ)) .close next).bind goOn))
              (.ask (S := Pool.interface (Job τ)) .close next) = .ask .close next := if_neg hc
          simp only [Pool.stepCode, if_neg hc] at hq
          cases hq
          rw [ha]
          exact ⟨_, Table.get?_insert_self .., .closing rfl⟩
  | @offering e f _ hph =>
    rcases hph with rfl | rfl
    · simp only [Pool.advance, hi, hp, Option.bind_eq_bind, Option.bind_some, Option.some.injEq] at hq
      unfold Pool.offer at hq
      by_cases ho : p.isOpen = true
      · rw [if_pos ho] at hq
        by_cases hl : p.queue.length < p.capacity
        · rw [if_pos hl] at hq
          subst hq
          exact ⟨_, Table.get?_insert_self .., .told⟩
        · rw [if_neg hl] at hq
          subst hq
          exact ⟨_, Table.get?_insert_self .., .offering (.inr rfl)⟩
      · rw [if_neg ho] at hq
        subst hq
        exact ⟨_, Table.get?_insert_self .., .told⟩
    · simp only [Pool.advance, hi, hp, Option.bind_eq_bind, Option.bind_some, Option.some.injEq] at hq
      by_cases hc : p.isClosed = true
      · unfold Pool.spill at hq
        have ha : advance p (.spilling e fun a => (f a).bind goOn)
            (.ask (S := Pool.interface (Job τ)) (.submit e.unit) f) = .ask (.submit e.unit) f := if_pos hc
        rw [if_pos hc] at hq
        subst hq
        rw [ha]
        exact ⟨_, Table.get?_insert_self .., .told⟩
      · have ha : advance p (.spilling e fun a => (f a).bind goOn)
            (.ask (S := Pool.interface (Job τ)) (.submit e.unit) f) = f .overflow := if_neg hc
        obtain ⟨handles, lodgings, -, hspill⟩ := Pool.spill_eq i t e (fun a => (f a).bind goOn) (Bool.eq_false_iff.2 hc)
        rw [hspill] at hq
        subst hq
        rw [ha]
        exact ⟨_, Table.get?_insert_self .., .running _⟩
  | told =>
    simp only [Pool.advance, hi, hp, Option.bind_eq_bind, Option.bind_some, Option.some.injEq] at hq
    subst hq
    exact ⟨_, Table.get?_insert_self .., .running _⟩
  | closing hph =>
    subst hp
    exact pursues_of_closer hi hph hq

/-- When the code has returned, the thread goes on with the value. -/
theorem Pursues.of_done {a : α} (h : Pursues goOn (.done a) phase) : phase = .running (goOn a) := by
  cases h with
  | running => rfl

/-! ## Threads that leave the identifier alone -/

/-- Whatever the thread still does leaves the identifier alone.  The unit of the job counts as its own. -/
def Minds (x : JobId) (own : Bool) : Pool.Phase (World ε) (Job τ) → Prop
  | .running code | .hangingUp code | .collecting code | .joining _ code | .collectingOverflow code
  | .joiningOverflow _ code => Respects x own code
  | .offering e next | .spilling e next => jobId e ≠ x ∧ ∀ a, Respects x own (next a)
  | .answering _ _ next => ∀ a, Respects x own (next a)
  | .starting e => jobId e = x → own = true
  | .idle | .counting _ | .gone => True

/-- All threads leave the identifier alone but the one that is in the middle of a bid, and so do the units in the queue. -/
structure Minded (x : JobId) (work : Work ε τ) (own : Bool) (busy : Option Pool.ThreadId) (p : Pool (World ε) (Job τ)) :
    Prop where
  code : p.code = unit work
  threads : ∀ j t, p.threads.get? j = some t → busy ≠ some j → Minds x own t.phase
  queue : ∀ e ∈ p.queue, jobId e = x → own = true

theorem Minds.mono {phase : Pool.Phase (World ε) (Job τ)} (h : Minds x own phase) (ho : own = true → own' = true) :
    Minds x own' phase := by
  cases phase with
  | running | hangingUp | collecting | joining | collectingOverflow | joiningOverflow =>
    have h : Respects x own _ := h
    exact h.mono ho
  | offering | spilling => exact ⟨h.1, fun a => (h.2 a).mono ho⟩
  | answering => exact fun a => (h a).mono ho
  | starting => exact fun hx => ho (h hx)
  | idle | counting | gone => trivial

theorem Minded.mono (h : Minded x work own busy p) (ho : own = true → own' = true) : Minded x work own' busy p :=
  ⟨h.code, fun j t hj hb => (h.threads j t hj hb).mono ho, fun e he hx => ho (h.queue e he hx)⟩

theorem Minded.put {t' : Pool.Thread (World ε) (Job τ)} (h : Minded x work own busy p)
    (hq : q.threads = p.threads.insert i t') (hc : q.code = p.code)
    (hu : ∀ e ∈ q.queue, jobId e = x → own = true) (ht : busy' ≠ some i → Minds x own t'.phase)
    (hb : ∀ j, j ≠ i → busy' ≠ some j → busy ≠ some j) : Minded x work own busy' q := by
  refine ⟨hc.trans h.code, fun j v hj hbj => ?_, hu⟩
  rw [hq] at hj
  rcases Table.of_get?_insert hj with ⟨rfl, rfl⟩ | ⟨hji, hj⟩
  · exact ht hbj
  · exact h.threads j v hj (hb j hji hbj)

/-- A step of a thread that does not bid. -/
theorem minded_move (hwork : ∀ task c, Respects x (decide (c.id = x)) (work task c)) (h : Minded x work own busy p)
    (hi : p.threads.get? i = some t) (hb : busy ≠ some i)
    (hno : ∀ code request, t.phase = .running code → ¬ Begins x request code) (m : Pool.Move p i t new q) :
    Minded x work own busy q ∧ Spares x own p.shared.registry q.shared.registry ∧
      ∀ e, .submitted e ∈ new → jobId e ≠ x := by
  have hminds : Minds x own t.phase := h.threads i t hi hb
  have hother : ∀ j, j ≠ i → busy ≠ some j → busy ≠ some j := fun _ _ hj => hj
  have hsame : Spares x own p.shared.registry p.shared.registry := .of_eq rfl
  have hnone : ∀ e : Pool.Entry (Job τ), Pool.Event.submitted e ∈ ([] : List (Pool.Event (Job τ))) → jobId e ≠ x :=
    fun e he => absurd he List.not_mem_nil
  cases m with
  | @take e rest ht hq =>
    have hqueue := h.queue
    rw [hq] at hqueue
    exact ⟨h.put rfl rfl (fun e he => hqueue e (List.mem_cons_of_mem _ he)) (fun _ => hqueue e List.mem_cons_self) hother,
      hsame, hnone⟩
  | @start e ht =>
    refine ⟨h.put rfl rfl h.queue (fun _ => ?_) hother, hsame, by simp⟩
    rw [ht] at hminds
    show Respects x own (p.code e.unit)
    rw [h.code]
    exact (respects_unit hwork e.unit).mono fun hx => hminds (of_decide_eq_true hx)
  | @act ready act next ht hr =>
    rw [ht] at hminds
    have hminds : Respects x own (.step ready act next) := hminds
    cases hminds with
    | step hact hn => exact ⟨h.put rfl rfl h.queue (fun _ => hn _) hother, hact _, hnone⟩
    | spawn hm => exact absurd (.spawn hm) (hno _ _ ht)
    | createJob hm =>
      obtain ⟨request, hbegins⟩ := exists_begins hm
      exact absurd hbegins (hno _ _ ht)
  | @refuse unit next ht hc =>
    rw [ht] at hminds
    have hminds : Respects x own (.ask (S := Pool.interface (Job τ)) (.submit unit) next) := hminds
    cases hminds with
    | submit hj hn => exact ⟨h.put rfl rfl h.queue (fun _ => hn) hother, hsame, by simpa [jobId] using hj⟩
    | spawn hm | createJob hm => cases hm
  | @offer unit next ht hc =>
    rw [ht] at hminds
    have hminds : Respects x own (.ask (S := Pool.interface (Job τ)) (.submit unit) next) := hminds
    cases hminds with
    | submit hj hn => exact ⟨h.put rfl rfl h.queue (fun _ => ⟨hj, hn⟩) hother, hsame, by simpa [jobId] using hj⟩
    | spawn hm | createJob hm => cases hm
  | closeAgain ht hc | closeFirst ht hc =>
    rw [ht] at hminds
    have hminds : Respects x own (.ask (S := Pool.interface (Job τ)) .close _) := hminds
    cases hminds with
    | close hn => exact ⟨h.put rfl rfl h.queue (fun _ => hn) hother, hsame, hnone⟩
    | spawn hm | createJob hm => cases hm
  | @enqueue e next ht ho hl =>
    rw [ht] at hminds
    refine ⟨h.put rfl rfl (fun e' he' hx => ?_) (fun _ => hminds.2) hother, hsame, hnone⟩
    rcases List.mem_append.1 he' with he' | he'
    · exact h.queue e' he' hx
    · cases List.mem_singleton.1 he'
      exact absurd hx hminds.1
  | @tooLate e next ht =>
    have hminds : ∀ a, Respects x own (next a) := by
      rcases ht with ⟨ht, -⟩ | ⟨ht, -⟩
      · rw [ht] at hminds
        exact hminds.2
      · rw [ht] at hminds
        exact hminds.2
    exact ⟨h.put rfl rfl h.queue (fun _ => hminds) hother, hsame, hnone⟩
  | @spawn e next handles lodgings ht hc hm =>
    rw [ht] at hminds
    have hmade : Minded x work own busy (p.put (.overflow p.counters.overflow)
        { ticket := some e.ticket, phase := .starting e }) :=
      h.put rfl rfl h.queue (fun _ hx => absurd hx hminds.1) fun _ _ hj => hj
    exact ⟨hmade.put rfl rfl h.queue (fun _ => hminds.2 _) hother, hsame, by simp⟩
  | answer ht =>
    rw [ht] at hminds
    exact ⟨h.put rfl rfl h.queue (fun _ => hminds _) hother, hsame, by simp⟩
  | count ht =>
    refine ⟨h.put rfl rfl h.queue (fun _ => ?_) hother, hsame, fun e he => ?_⟩
    · cases i with
      | _ => trivial
    · cases t.ticket with
      | _ => simp at he
  | retire | leave | finish => exact ⟨h.put rfl rfl h.queue (fun _ => trivial) hother, hsame, hnone⟩
  | overflow ht | hangUp ht | collect ht | joined ht | join ht hh | collectOverflow ht | joinedOverflow ht
  | joinOverflow ht hh =>
    rw [ht] at hminds
    exact ⟨h.put rfl rfl h.queue (fun _ => hminds) hother, hsame, hnone⟩

/-! ## The step in which a bid is made -/

/-- The pool after a step in which a thread has come to some code, and in which the world may have changed. -/
def resumed (p : Pool (World ε) (Job τ)) (i : Pool.ThreadId) (t : Pool.Thread (World ε) (Job τ)) (code : Action ε τ Unit)
    (w : World ε) : Pool (World ε) (Job τ) :=
  { p.put i { t with phase := .running code } with shared := w }

/-- The identifier is free: whoever asks for it registers the job.  To spawn a job is then to hand it over. -/
structure Grants (x : JobId) (p : Pool (World ε) (Job τ)) : Prop where
  spawn : ∀ i t q config metadata task (next : Except JobError JobId → Action ε τ Unit), p.threads.get? i = some t →
    t.phase = .running ((Orchestrator.spawn config (some x) metadata task).bind next) → p.step i = some q →
    p.seen i = [] ∧ q = resumed p i t ((handOver config x task).bind next)
      (World.onRegistry (Registry.create x metadata) p.shared).2
  createJob : ∀ i t q metadata (next : Except JobError JobRecord → Action ε τ Unit), p.threads.get? i = some t →
    t.phase = .running ((Orchestrator.createJob (some x) metadata).bind next) → p.step i = some q →
    p.seen i = [] ∧ q = resumed p i t (next (.ok (.accepted x metadata (.ofNanos p.shared.clock.read))))
      (World.onRegistry (Registry.create x metadata) p.shared).2

/-- The identifier is taken: whoever asks for it is told so, and nothing changes but the time. -/
structure Refuses (x : JobId) (p : Pool (World ε) (Job τ)) : Prop where
  spawn : ∀ i t q config metadata task (next : Except JobError JobId → Action ε τ Unit), p.threads.get? i = some t →
    t.phase = .running ((Orchestrator.spawn config (some x) metadata task).bind next) → p.step i = some q →
    p.seen i = [] ∧ q = resumed p i t (next (.error (.alreadyExists x))) { p.shared with clock := p.shared.clock.tick }
  createJob : ∀ i t q metadata (next : Except JobError JobRecord → Action ε τ Unit), p.threads.get? i = some t →
    t.phase = .running ((Orchestrator.createJob (some x) metadata).bind next) → p.step i = some q →
    p.seen i = [] ∧ q = resumed p i t (next (.error (.alreadyExists x))) { p.shared with clock := p.shared.clock.tick }

theorem step_create {metadata : Labels} {f : Except JobError JobRecord → Action ε τ Unit}
    (hi : p.threads.get? i = some t) (hp : t.phase = .running ((World.create x metadata).bind f))
    (h : p.step i = some q) :
    p.seen i = [] ∧ q = resumed p i t (f (p.shared.registry.create x metadata (.ofNanos p.shared.clock.read)).1)
      (World.onRegistry (Registry.create x metadata) p.shared).2 := by
  constructor
  · simp only [Pool.seen, hi, hp]
    rfl
  · have h := Pool.advance_of_step h
    rw [advance_running hi hp] at h
    cases h
    rfl

theorem grants_of_none (hr : p.shared.registry.get? x = none) : Grants x p := by
  constructor
  · intro i t q config metadata task next hi hp h
    rw [spawn_bind_eq] at hp
    have hstep := step_create hi hp h
    rwa [Registry.create_of_none hr] at hstep
  · intro i t q metadata next hi hp h
    have hstep := step_create hi hp h
    rwa [Registry.create_of_none hr] at hstep

theorem refuses_of_some {record : JobRecord} (hr : p.shared.registry.get? x = some record) : Refuses x p := by
  have hshared : ∀ metadata, (World.onRegistry (Registry.create x metadata) p.shared).2 =
      { p.shared with clock := p.shared.clock.tick } := by
    intro metadata
    unfold World.onRegistry
    rw [Registry.create_of_some hr]
  constructor
  · intro i t q config metadata task next hi hp h
    rw [spawn_bind_eq] at hp
    have hstep := step_create hi hp h
    rwa [Registry.create_of_some hr, hshared] at hstep
  · intro i t q metadata next hi hp h
    have hstep := step_create hi hp h
    rwa [Registry.create_of_some hr, hshared] at hstep

/-- What is left of a bid after the step in which it is made. -/
theorem advance_code (request : Registration τ) (p : Pool (World ε) (Job τ)) (code : Action ε τ Unit) :
    advance p (.running code) (request.code x) =
      request.proceed x (p.shared.registry.create x request.metadata (.ofNanos p.shared.clock.read)).1 := by
  rw [request.code_eq]
  rfl

/-- A bid for an identifier that is taken ends at once, and nothing changes but the time. -/
theorem Begins.lost {code : Action ε τ Unit} {record : JobRecord} (hb : Begins x request code)
    (hr : p.shared.registry.get? x = some record) (hi : p.threads.get? i = some t) (hp : t.phase = .running code)
    (h : p.step i = some q) :
    ∃ after, q = resumed p i t after { p.shared with clock := p.shared.clock.tick } ∧ p.seen i = [] ∧
      advance p t.phase (request.code x) = .done (.error (.alreadyExists x)) ∧
      ∀ own, Respects x own code → Respects x own after := by
  have hfree : ({ p.shared with registry := {} } : World ε).registry.get? x = none := rfl
  have hleft := advance_code (x := x) request p code
  rw [← hp, Registry.create_of_some hr] at hleft
  have hrefuses := refuses_of_some hr
  cases hb with
  | spawn hm =>
    subst hm
    obtain ⟨hseen, hq⟩ := hrefuses.spawn _ _ _ _ _ _ _ hi hp h
    exact ⟨_, hq, hseen, hleft, fun own hc => (hc.of_spawn hfree).1⟩
  | createJob hm hno =>
    subst hm
    obtain ⟨hseen, hq⟩ := hrefuses.createJob _ _ _ _ _ hi hp h
    exact ⟨_, hq, hseen, hleft, fun own hc => (hc.of_createJob hno hfree).1⟩

/-- A bid for a free identifier registers the job.  Then it is over, or the job is to be handed over. -/
theorem Begins.won {code : Action ε τ Unit} (hb : Begins x request code) (hc : Respects x own code)
    (hr : p.shared.registry.get? x = none) (hi : p.threads.get? i = some t) (hp : t.phase = .running code)
    (h : p.step i = some q) :
    ∃ metadata after, q = resumed p i t after (World.onRegistry (Registry.create x metadata) p.shared).2 ∧
      p.seen i = [] ∧
      (request.job? x = none ∧ advance p t.phase (request.code x) = .done (.ok x) ∧ Respects x true after ∨
        ∃ job next, request.job? x = some job ∧ after = ((Pool.submit job).bind (settle x)).bind next ∧
          advance p t.phase (request.code x) = (Pool.submit job).bind (settle x) ∧ Respects x true (next (.ok x))) := by
  have hleft := advance_code (x := x) request p code
  rw [← hp, Registry.create_of_none hr] at hleft
  have hgrants := grants_of_none hr
  cases hb with
  | spawn hm =>
    subst hm
    obtain ⟨hseen, hq⟩ := hgrants.spawn _ _ _ _ _ _ _ hi hp h
    exact ⟨_, _, hq, hseen, .inr ⟨_, _, rfl, rfl, hleft, (hc.of_spawn hr).2⟩⟩
  | createJob hm hno =>
    subst hm
    obtain ⟨hseen, hq⟩ := hgrants.createJob _ _ _ _ _ hi hp h
    exact ⟨_, _, hq, hseen, .inl ⟨rfl, hleft, (hc.of_createJob hno hr).2⟩⟩

end Orchestrator
end JobRunner
