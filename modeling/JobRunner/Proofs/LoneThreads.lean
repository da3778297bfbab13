import JobRunner.Proofs.PoolLodgers
/-!
# A thread that runs alone

What comes of the code of one thread while all others stand still.  There is one way only: the code comes to its value, or
it crashes, or it stands before a step for which the state is not ready and which nobody else makes ready.

A thread of a pool that runs such code leaves everything in the pool as it was but the shared state and its own phase.  A
unit that it hands over is answered for before anybody else does anything; and the thread goes on at once, unless no
thread could be made for the unit, which it then runs first.
-/
namespace JobRunner

/-! ## Routines alone -/

namespace Routine

variable {σ : Type} {S : Interface} {α β : Type}

/-- How a routine that asks for nothing ends, and the state that it leaves. -/
inductive Performs : Routine σ S α → σ → Ending α → σ → Prop where
  | done (a : α) (s : σ) : Performs (.done a) s (.returned a) s
  | crash (s : σ) : Performs .crash s .crashed s
  | stuck {ready : σ → Bool} {act : σ → σ} {next : σ → Routine σ S α} {s : σ} (h : ready s = false) :
    Performs (.step ready act next) s .stuck s
  | step {ready : σ → Bool} {act : σ → σ} {next : σ → Routine σ S α} {s t : σ} {e : Ending α} (h : ready s = true)
    (hn : Performs (next s) (act s) e t) : Performs (.step ready act next) s e t

variable {m : Routine σ S α} {f : α → Routine σ S β} {s t u : σ}

theorem performs_atomically (g : σ → α × σ) (s : σ) :
    (atomically g : Routine σ S α).Performs s (.returned (g s).1) (g s).2 := .step rfl (.done ..)

theorem Performs.bind {a : α} {e : Ending β} (h : m.Performs s (.returned a) u) (hf : (f a).Performs u e t) :
    (m >>= f).Performs s e t := by
  show (m.bind f).Performs s e t
  generalize he : Ending.returned a = ending at h
  induction h with
  | done b s =>
    cases he
    exact hf
  | crash | stuck => cases he
  | step hr _ ih => exact .step hr (ih hf he)

theorem Performs.bind_stuck (h : m.Performs s .stuck t) : (m >>= f).Performs s .stuck t := by
  show (m.bind f).Performs s .stuck t
  generalize he : (Ending.stuck : Ending α) = ending at h
  induction h with
  | done | crash => cases he
  | stuck hr => exact .stuck hr
  | step hr _ ih => exact .step hr (ih he)

end Routine

/-! ## Threads alone -/

namespace Pool

variable {σ υ α : Type} {id : ThreadId} {p q r : Pool σ υ} {es es' : List (Event υ)}

/-- What is seen when one thread takes steps and nobody else does. -/
inductive Solo (id : ThreadId) : Pool σ υ → List (Event υ) → Pool σ υ → Prop where
  | refl (p : Pool σ υ) : Solo id p [] p
  | step {p q r : Pool σ υ} {es : List (Event υ)} (h : p.step id = some q) (rest : Solo id q es r) :
    Solo id p (p.seen id ++ es) r

theorem Solo.trans (h : Solo id p es q) (h' : Solo id q es' r) : Solo id p (es ++ es') r := by
  induction h with
  | refl => exact h'
  | step hs _ ih =>
    rw [List.append_assoc]
    exact .step hs (ih h')

theorem Solo.after (h : p.step id = some q) (hs : p.seen id = es) (rest : Solo id q es' r) : Solo id p (es ++ es') r := by
  rw [← hs]
  exact .step h rest

theorem Solo.run {passes : σ → σ → Prop} (h : Solo id p es q) : Run passes p es q := by
  induction h with
  | refl => exact .refl
  | step hs _ ih => exact (Run.refl.thread id hs).trans ih

/-- The pool in which a thread runs some code and the shared state is some other one. -/
def doing (p : Pool σ υ) (id : ThreadId) (ticket : Option Nat) (code : Code σ υ) (s : σ) : Pool σ υ :=
  { p.put id { ticket, phase := .running code } with shared := s }

variable {ticket : Option Nat} {code code' : Code σ υ} {s s' : σ}

theorem doing_doing : (p.doing id ticket code s).doing id ticket code' s' = p.doing id ticket code' s' := by
  unfold doing put
  rw [Table.insert_insert]

theorem doing_self (h : p.threads.get? id = some { ticket, phase := .running code }) :
    p.doing id ticket code p.shared = p := by
  unfold doing put
  rw [Table.insert_of_get? h]

theorem get?_doing : (p.doing id ticket code s).threads.get? id = some { ticket, phase := .running code } :=
  Table.get?_insert_self ..

/-- A thread that is there gets no lodger by a change of its own phase. -/
theorem isHosting_of_insert {t t' : Thread σ υ} (hno : p.isHosting id = false) (hid : p.threads.get? id = some t)
    (ht : t.phase ≠ .gone) (hq : q.threads = p.threads.insert id t') (hl : q.lodgings = p.lodgings) :
    q.isHosting id = false := by
  rw [Bool.eq_false_iff]
  intro hw
  obtain ⟨g, l, hg, hhost, hlive⟩ := isHosting_iff.1 hw
  rw [hl] at hg
  have hlive : p.isGone g = false := by
    by_cases he : id = g
    · subst he
      rw [Bool.eq_false_iff]
      exact fun hgone => ht (isGone_eq_true_iff.1 hgone t hid)
    · rwa [isGone_of_get?_eq (q := p) (p := q) (w := g) (by rw [hq, Table.get?_insert_ne he])]
  rw [isHosting_iff.2 ⟨g, l, hg, hhost, hlive⟩] at hno
  cases hno

theorem isHosting_doing (hno : p.isHosting id = false) (hid : p.threads.get? id = some { ticket, phase := .running code }) :
    (p.doing id ticket code' s).isHosting id = false :=
  isHosting_of_insert hno hid nofun rfl rfl

theorem step_running (hno : p.isHosting id = false) (h : p.threads.get? id = some { ticket, phase := .running code }) :
    p.step id = p.stepCode id { ticket, phase := .running code } code := by
  rw [step_eq_advance hno]
  unfold advance
  rw [h]
  rfl

theorem step_doing {ready : σ → Bool} {act : σ → σ} {next : σ → Code σ υ}
    (hno : (p.doing id ticket (.step ready act next) s).isHosting id = false) (h : ready s = true) :
    (p.doing id ticket (.step ready act next) s).step id = some (p.doing id ticket (next s) (act s)) := by
  rw [step_running hno get?_doing]
  show (if ready s = true then some _ else none) = _
  rw [if_pos h]
  exact congrArg some doing_doing

/-- The code with which a thread goes on after a routine; of one that is stuck it is what is left. -/
inductive GoesOn (f : α → Code σ υ) (s : σ) : Routine.Ending α → Code σ υ → Prop where
  | returned (a : α) : GoesOn f s (.returned a) (f a)
  | crashed : GoesOn f s .crashed .crash
  | stuck {ready : σ → Bool} (act : σ → σ) (next : σ → Code σ υ) (h : ready s = false) :
    GoesOn f s .stuck (.step ready act next)

theorem solo_doing {m : Routine σ (interface υ) α} {f : α → Code σ υ} {ending : Routine.Ending α}
    (hno : (p.doing id ticket (m.bind f) s).isHosting id = false) (h : m.Performs s ending s') :
    ∃ code, GoesOn f s' ending code ∧
      Solo id (p.doing id ticket (m.bind f) s) [] (p.doing id ticket code s') := by
  induction h with
  | done a s => exact ⟨_, .returned a, .refl _⟩
  | crash s => exact ⟨_, .crashed, .refl _⟩
  | stuck hr => exact ⟨_, .stuck _ _ hr, .refl _⟩
  | @step ready act next s t e hr _ ih =>
    have hno' : (p.doing id ticket ((next s).bind f) (act s)).isHosting id = false := by
      rw [← doing_doing]
      exact isHosting_doing hno get?_doing
    obtain ⟨code, hcode, hsolo⟩ := ih hno'
    refine ⟨code, hcode, ?_⟩
    have hstep : (p.doing id ticket ((Routine.step ready act next).bind f) s).step id =
        some (p.doing id ticket ((next s).bind f) (act s)) := step_doing hno hr
    have hseen : (p.doing id ticket ((Routine.step ready act next).bind f) s).seen id = [] := by
      unfold seen
      rw [get?_doing]
      rfl
    exact .after hstep hseen hsolo

/-- **A thread that performs a routine** leaves all of the pool as it was, but the shared state and its own phase. -/
theorem solo_of_performs {m : Routine σ (interface υ) α} {f : α → Code σ υ} {ending : Routine.Ending α}
    (hno : p.isHosting id = false) (hid : p.threads.get? id = some { ticket, phase := .running (m.bind f) })
    (h : m.Performs p.shared ending s') :
    ∃ code, GoesOn f s' ending code ∧ Solo id p [] (p.doing id ticket code s') := by
  rw [← doing_self hid] at hno
  obtain ⟨code, hcode, hsolo⟩ := solo_doing hno h
  rw [doing_self hid] at hsolo
  exact ⟨code, hcode, hsolo⟩

theorem solo_of_returned {m : Routine σ (interface υ) α} {f : α → Code σ υ} {a : α} (hno : p.isHosting id = false)
    (hid : p.threads.get? id = some { ticket, phase := .running (m.bind f) })
    (h : m.Performs p.shared (.returned a) s') : Solo id p [] (p.doing id ticket (f a) s') := by
  obtain ⟨code, ⟨⟩, hsolo⟩ := solo_of_performs hno hid h
  exact hsolo

/-- A thread has run a routine alone, and goes on with what came of it: at once, unless no thread could be made for a unit
that it handed over. -/
structure Carried (p : Pool σ υ) (id : ThreadId) (ticket : Option Nat) (next : α → Code σ υ) (ending : Routine.Ending α)
    (es : List (Event υ)) (q : Pool σ υ) : Prop where
  run : Solo id p es q
  thread : ∃ code, GoesOn next q.shared ending code ∧ q.threads.get? id = some { ticket, phase := .running code }
  lodger : p.Formed → p.Housed → q.isHosting id = true →
    ∃ e, .submitted e ∈ es ∧ .answered e.ticket .overflow ∈ es ∧ q.RunsFirst id e

theorem Carried.of_alone {next : α → Code σ υ} {ending : Routine.Ending α} (run : Solo id p es q)
    (thread : ∃ code, GoesOn next q.shared ending code ∧ q.threads.get? id = some { ticket, phase := .running code })
    (hno : q.isHosting id = false) : Carried p id ticket next ending es q :=
  ⟨run, thread, fun _ _ hw => absurd (hno.symm.trans hw) Bool.false_ne_true⟩

theorem Carried.after {u : Pool σ υ} {next : α → Code σ υ} {ending : Routine.Ending α} (hsolo : Solo id p [] u)
    (h : Carried u id ticket next ending es q) : Carried p id ticket next ending es q := by
  refine ⟨hsolo.trans h.run, h.thread, fun hf hh => ?_⟩
  have run : Run (fun _ _ => False) p [] u := hsolo.run
  exact h.lodger (hf.run run) (hh.run hf run)

/-! ## A submission alone -/

/-- The submission of a unit was answered, and its thread goes on: at once, unless no thread could be made for the unit. -/
structure Answered (p : Pool σ υ) (id : ThreadId) (ticket : Option Nat) (next : Submission → Code σ υ) (e : Entry υ)
    (a : Submission) (q : Pool σ υ) : Prop where
  thread : q.threads.get? id = some { ticket, phase := .running (next a) }
  shared : q.shared = p.shared
  alone : a ≠ .overflow → q.isHosting id = false
  lodger : p.Formed → p.Housed → q.isHosting id = true → q.RunsFirst id e

variable {next : Submission → Code σ υ} {k : Nat} {a : Submission} {e : Entry υ} {unit : υ}

/-- What comes of a submission from its second step on. -/
theorem Answered.of_step {u : Pool σ υ} (hs : p.step id = some u) (hu : u.shared = p.shared)
    (h : Answered u id ticket next e a q) : Answered p id ticket next e a q := by
  refine ⟨h.thread, h.shared.trans hu, h.alone, fun hf hh => ?_⟩
  obtain ⟨t, hid, m⟩ := move_of_step hs
  exact h.lodger (formed_move hf hid m) (housed_move hf hh hid (isHosting_of_step hs) m)

theorem solo_answering (hno : p.isHosting id = false)
    (h : p.threads.get? id = some { ticket, phase := .answering k a next }) :
    ∃ q, Solo id p [.answered k a] q ∧ Answered p id ticket next e a q := by
  let q : Pool σ υ := { p.put id { ticket, phase := .running (next a) } with counters := p.counters.answer a }
  have hstep : p.step id = some q := by
    rw [step_eq_advance hno]
    unfold advance
    rw [h]
    rfl
  have hseen : p.seen id = [.answered k a] := by
    unfold seen
    rw [h]
  have halone : q.isHosting id = false := isHosting_of_insert hno h nofun rfl rfl
  exact ⟨q, .after hstep hseen (.refl _), Table.get?_insert_self .., rfl, fun _ => halone,
    fun _ _ hw => absurd (halone.symm.trans hw) Bool.false_ne_true⟩

theorem solo_spilling (hno : p.isHosting id = false)
    (h : p.threads.get? id = some { ticket, phase := .spilling e next }) :
    ∃ a q, Solo id p [.answered e.ticket a] q ∧ Answered p id ticket next e a q ∧
      (p.isClosed = false → a ≠ .rejected) := by
  have hstep : p.step id = some (p.spill id { ticket, phase := .spilling e next } e next) := by
    rw [step_eq_advance hno]
    unfold advance
    rw [h]
    rfl
  by_cases hc : p.isClosed = true
  · unfold spill at hstep
    rw [if_pos hc] at hstep
    have halone : (p.put id { ticket, phase := .answering e.ticket .rejected next }).isHosting id = false :=
      isHosting_of_insert hno h nofun rfl rfl
    obtain ⟨q, hsolo, hanswered⟩ := solo_answering (e := e) halone (Table.get?_insert_self ..)
    have hseen : p.seen id = [] := by
      unfold seen
      rw [h]
      exact if_pos hc
    refine ⟨.rejected, q, .after hstep hseen hsolo, hanswered.of_step hstep rfl, fun ho => ?_⟩
    rw [hc] at ho
    cases ho
  · have hseen : p.seen id = [.answered e.ticket .overflow] := by
      unfold seen
      rw [h]
      exact if_neg hc
    obtain ⟨t, hid, m⟩ := move_of_step hstep
    obtain ⟨handles, lodgings, -, hspill⟩ :=
      spill_eq id { ticket, phase := .spilling e next } e next (Bool.eq_false_iff.2 hc)
    refine ⟨.overflow, _, .after hstep hseen (.refl _), ⟨?_, ?_, fun ha => absurd rfl ha, fun hf hh hw => ?_⟩,
      fun _ => nofun⟩
    · rw [hspill]
      exact Table.get?_insert_self ..
    · rw [hspill]
      rfl
    · obtain rfl : _ = t := Option.some.inj (h.symm.trans hid)
      obtain ⟨e', next', hphase, -, hfirst⟩ := m.runsFirst hf hh h hno hw
      cases hphase
      exact hfirst

theorem solo_offering (hno : p.isHosting id = false)
    (h : p.threads.get? id = some { ticket, phase := .offering e next }) :
    ∃ a q, Solo id p [.answered e.ticket a] q ∧ Answered p id ticket next e a q ∧
      (p.isOpen = true → p.isClosed = false → a ≠ .rejected) := by
  have hstep : p.step id = some (p.offer id { ticket, phase := .offering e next } e next) := by
    rw [step_eq_advance hno]
    unfold advance
    rw [h]
    rfl
  have hseen : p.seen id = [] := by
    unfold seen
    rw [h]
  have halone : ∀ {t' u}, Pool.threads u = p.threads.insert id t' → u.lodgings = p.lodgings → u.isHosting id = false :=
    isHosting_of_insert hno h nofun
  unfold offer at hstep
  by_cases ho : p.isOpen = true
  · rw [if_pos ho] at hstep
    by_cases hl : p.queue.length < p.capacity
    · rw [if_pos hl] at hstep
      obtain ⟨q, hsolo, hanswered⟩ := solo_answering (e := e)
        (p := { p.put id { ticket, phase := .answering e.ticket .queued next } with queue := p.queue ++ [e] })
        (halone rfl rfl) (Table.get?_insert_self ..)
      exact ⟨.queued, q, .after hstep hseen hsolo, hanswered.of_step hstep rfl, fun _ _ => nofun⟩
    · rw [if_neg hl] at hstep
      obtain ⟨a, q, hsolo, hanswered, ha⟩ := solo_spilling (p := p.put id { ticket, phase := .spilling e next })
        (halone rfl rfl) (Table.get?_insert_self ..)
      exact ⟨a, q, .after hstep hseen hsolo, hanswered.of_step hstep rfl, fun _ hc => ha hc⟩
  · rw [if_neg ho] at hstep
    obtain ⟨q, hsolo, hanswered⟩ := solo_answering (e := e)
      (p := p.put id { ticket, phase := .answering e.ticket .rejected next }) (halone rfl rfl)
      (Table.get?_insert_self ..)
    exact ⟨.rejected, q, .after hstep hseen hsolo, hanswered.of_step hstep rfl, fun hopen => absurd hopen ho⟩

/-- **A submission is answered at once** if nobody else does anything: with a rejection if the pool is closed, and without
one if it is open. -/
theorem solo_submit (hno : p.isHosting id = false)
    (h : p.threads.get? id = some { ticket, phase := .running (.ask (.submit unit) next) }) :
    ∃ a q, Solo id p [.submitted ⟨p.submissions, unit⟩, .answered p.submissions a] q ∧
      Answered p id ticket next ⟨p.submissions, unit⟩ a q ∧ (p.isClosed = true → a = .rejected) ∧
      (p.isOpen = true → p.isClosed = false → a ≠ .rejected) := by
  have hseen : p.seen id = [.submitted ⟨p.submissions, unit⟩] := by
    unfold seen
    rw [h]
  by_cases hc : p.isClosed = true
  · let told : Pool σ υ := { p.put id { ticket, phase := .answering p.submissions .rejected next } with
      submissions := p.submissions + 1 }
    have hstep : p.step id = some told := (step_running hno h).trans (if_pos hc)
    have halone : told.isHosting id = false := isHosting_of_insert hno h nofun rfl rfl
    obtain ⟨q, hsolo, hanswered⟩ := solo_answering (e := ⟨p.submissions, unit⟩) halone (Table.get?_insert_self ..)
    refine ⟨.rejected, q, .after hstep hseen hsolo, hanswered.of_step hstep rfl, fun _ => rfl, fun _ ho => ?_⟩
    rw [hc] at ho
    cases ho
  · let offered : Pool σ υ := { p.put id { ticket, phase := .offering ⟨p.submissions, unit⟩ next } with
      submissions := p.submissions + 1 }
    have hstep : p.step id = some offered := (step_running hno h).trans (if_neg hc)
    have halone : offered.isHosting id = false := isHosting_of_insert hno h nofun rfl rfl
    obtain ⟨a, q, hsolo, hanswered, ha⟩ := solo_offering halone (Table.get?_insert_self ..)
    exact ⟨a, q, .after hstep hseen hsolo, hanswered.of_step hstep rfl, fun hclosed => absurd hclosed hc, ha⟩

end Pool
end JobRunner
