import JobRunner.Proofs.Interference
import JobRunner.Proofs.JobBoundary
/-!
# What the others do around a job

Some part of the environment may concern one job alone.  In a discreet run all others keep to some rule, such as not to
touch that part: code from outside, the passing of time, and the work of other jobs.  Then what the work of the job
ensures under the rule holds when the job has ended, whatever else the other threads did in between.
-/
namespace JobRunner
namespace Pool

variable {σ υ : Type} {R : σ → σ → Prop} {p q : Pool σ υ} {id : ThreadId} {t : Thread σ υ} {new : List (Event υ)}
  {k : Nat}

/-- The code that a thread is in the middle of keeps to the rule. -/
def Phase.Keeps (R : σ → σ → Prop) : Phase σ υ → Prop
  | running code | hangingUp code | collecting code | joining _ code | collectingOverflow code
  | joiningOverflow _ code => code.Keeps R
  | offering _ next | spilling _ next | answering _ _ next => ∀ a, (next a).Keeps R
  | idle | starting _ | counting _ | gone => True

/-- All threads but the one with a certain ticket keep to the rule. -/
def Secluded (R : σ → σ → Prop) (k : Nat) (p : Pool σ υ) : Prop :=
  ∀ id t, p.threads.get? id = some t → t.ticket ≠ some k → t.phase.Keeps R

theorem Secluded.put {t' : Thread σ υ} (h : Secluded R k p) (hq : q.threads = p.threads.insert id t')
    (ht : t'.ticket ≠ some k → t'.phase.Keeps R) : Secluded R k q := by
  intro j u hj
  rw [hq] at hj
  rcases Table.of_get?_insert hj with ⟨-, rfl⟩ | ⟨-, hj⟩
  · exact ht
  · exact h j u hj

theorem secluded_move (hrefl : ∀ s, R s s) (h : Secluded R k p) (hid : p.threads.get? id = some t)
    (m : Move p id t new q) (hcode : ∀ e, t.phase = .starting e → t.ticket ≠ some k → (p.code e.unit).Keeps R) :
    Secluded R k q ∧ (t.ticket ≠ some k → R p.shared q.shared) := by
  have hs : t.ticket ≠ some k → t.phase.Keeps R := h id t hid
  cases m with
  | take ht hq => exact ⟨h.put rfl fun _ => trivial, fun _ => hrefl _⟩
  | retire ht hq ho => exact ⟨h.put rfl fun _ => trivial, fun _ => hrefl _⟩
  | start ht => exact ⟨h.put rfl fun hk => hcode _ ht hk, fun _ => hrefl _⟩
  | leave ht hc hi => exact ⟨h.put rfl fun _ => trivial, fun _ => hrefl _⟩
  | finish ht hi => exact ⟨h.put rfl fun _ => trivial, fun _ => hrefl _⟩
  | act ht hr =>
    rw [ht] at hs
    refine ⟨h.put rfl fun hk => ?_, fun hk => ?_⟩
    · cases hs hk with
      | step _ hn => exact hn _
    · cases hs hk with
      | step hact _ => exact hact _
  | refuse ht hc | offer ht hc =>
    rw [ht] at hs
    refine ⟨h.put rfl fun hk => ?_, fun _ => hrefl _⟩
    cases hs hk with
    | ask _ hn => exact hn
  | closeAgain ht hc | closeFirst ht hc =>
    rw [ht] at hs
    refine ⟨h.put rfl fun hk => ?_, fun _ => hrefl _⟩
    cases hs hk with
    | ask _ hn => exact hn ()
  | enqueue ht ho hl | overflow ht ho hl =>
    rw [ht] at hs
    exact ⟨h.put rfl hs, fun _ => hrefl _⟩
  | @tooLate e next ht =>
    have hnext : t.ticket ≠ some k → ∀ a, (next a).Keeps R := by
      intro hk
      rcases ht with ⟨ht, -⟩ | ⟨ht, -⟩
      · rw [ht] at hs
        exact hs hk
      · rw [ht] at hs
        exact hs hk
    exact ⟨h.put rfl hnext, fun _ => hrefl _⟩
  | @spawn e next handles lodgings ht hc hm =>
    rw [ht] at hs
    have hmade : Secluded R k (p.put (.overflow p.counters.overflow)
        { ticket := some e.ticket, phase := .starting e }) := h.put rfl fun _ => trivial
    exact ⟨hmade.put rfl fun hk => hs hk _, fun _ => hrefl _⟩
  | answer ht =>
    rw [ht] at hs
    exact ⟨h.put rfl fun hk => hs hk _, fun _ => hrefl _⟩
  | hangUp ht | collect ht | joined ht | join ht hh | collectOverflow ht | joinedOverflow ht | joinOverflow ht hh =>
    rw [ht] at hs
    exact ⟨h.put rfl hs, fun _ => hrefl _⟩
  | count ht =>
    refine ⟨h.put rfl fun _ => ?_, fun _ => hrefl _⟩
    cases id with
    | _ => trivial

end Pool

namespace Orchestrator

variable {ε τ : Type} {D : JobId → Prop} {R R' : World ε → World ε → Prop} {work : Work ε τ} {name : String}
  {workers : Nat} {world : World ε} {es : List (Pool.Event (Job τ))} {left : Nat → Option (Action ε τ JobContext.Outcome)}
  {p q : Pool (World ε) (Job τ)} {i : Pool.ThreadId} {t : Pool.Thread (World ε) (Job τ)} {e : Pool.Entry (Job τ)}
  {x : JobId}

/-- Runs in which whatever is not done by the work of jobs keeps to a rule. -/
inductive DiscreetRun (D : JobId → Prop) (R : World ε → World ε → Prop) (work : Work ε τ) (name : String) (workers : Nat)
    (world : World ε) : List (Pool.Event (Job τ)) → (Nat → Option (Action ε τ JobContext.Outcome)) →
      Pool (World ε) (Job τ) → Prop where
  | start {grants : Nat → Bool} :
    DiscreetRun D R work name workers world [] (fun _ => none) (.start name workers (unit work) world grants)
  | thread {es : List (Pool.Event (Job τ))} {left : Nat → Option (Action ε τ JobContext.Outcome)}
    {p q : Pool (World ε) (Job τ)} (i : Pool.ThreadId) (before : DiscreetRun D R work name workers world es left p)
    (h : p.step i = some q) : DiscreetRun D R work name workers world (es ++ p.seen i) (leftAfter work p i left) q
  | passing {es : List (Pool.Event (Job τ))} {left : Nat → Option (Action ε τ JobContext.Outcome)}
    {p : Pool (World ε) (Job τ)} {w : World ε} (before : DiscreetRun D R work name workers world es left p)
    (h : w.registry = p.shared.registry) (hv : R p.shared w) :
    DiscreetRun D R work name workers world es left { p with shared := w }
  | call {es : List (Pool.Event (Job τ))} {left : Nat → Option (Action ε τ JobContext.Outcome)}
    {p : Pool (World ε) (Job τ)} {code : Action ε τ Unit}
    (before : DiscreetRun D R work name workers world es left p) (h : Proper D none code)
    (hv : code.Keeps R) : DiscreetRun D R work name workers world es left (p.call code)

theorem DiscreetRun.run (run : DiscreetRun D R work name workers world es left p) :
    Run D work name workers world es left p := by
  induction run with
  | start => exact .start
  | thread i _ h ih => exact ih.thread i h
  | passing _ h _ ih => exact ih.passing h
  | call _ h _ ih => exact ih.call h

theorem DiscreetRun.mono (run : DiscreetRun D R work name workers world es left p) (h : ∀ w w', R w w' → R' w w') :
    DiscreetRun D R' work name workers world es left p := by
  induction run with
  | start => exact .start
  | thread i _ hq ih => exact ih.thread i hq
  | passing _ hw hv ih => exact ih.passing hw (h _ _ hv)
  | call _ hc hv ih => exact ih.call hc (hv.mono h)

theorem discreetRun_of_follow : ∀ {ids : List Pool.ThreadId} {es es' : List (Pool.Event (Job τ))}
    {left : Nat → Option (Action ε τ JobContext.Outcome)} {p q : Pool (World ε) (Job τ)},
    DiscreetRun D R work name workers world es left p → Pool.follow ids p = some (es', q) →
      ∃ left', DiscreetRun D R work name workers world (es ++ es') left' q
  | [], es, es', left, p, q, run, hf => by
    cases hf
    rw [List.append_nil]
    exact ⟨left, run⟩
  | i :: ids, es, es', left, p, q, run, hf => by
    simp only [Pool.follow, Option.bind_eq_bind, Option.bind_eq_some_iff] at hf
    obtain ⟨p', hp, r, hr, he⟩ := hf
    cases he
    rw [← List.append_assoc]
    exact discreetRun_of_follow (run.thread i hp) hr

theorem Run.code_eq (hwork : ∀ task c, Proper D (some c.id) (work task c))
    (run : Run D work name workers world es left p) : p.code = unit work := by
  obtain ⟨b, -, -, hshows⟩ := run.deeds hwork
  exact hshows.code

theorem Run.keeps_of_starting {k : Nat} (hwork : ∀ task c, Proper D (some c.id) (work task c))
    (run : Run D work name workers world es left p)
    (hothers : ∀ e, .submitted e ∈ es → e.ticket ≠ k → (unit work e.unit).Keeps R)
    (hi : p.threads.get? i = some t) (hp : t.phase = .starting e) (hk : t.ticket ≠ some k) :
    (p.code e.unit).Keeps R := by
  have hfits := run.pool.formed.fits i t hi
  unfold Pool.Thread.Fits at hfits
  rw [hp] at hfits
  rw [run.code_eq hwork]
  refine hothers e (run.pool.known.threads i t hi e (by rw [hp]; rfl)) fun he => hk ?_
  rw [hfits.1, he]

/-- All threads that have not the ticket keep to the rule, if the other units do. -/
theorem DiscreetRun.secluded {k : Nat} (hR : World.Rule R) (hwork : ∀ task c, Proper D (some c.id) (work task c))
    (run : DiscreetRun D R work name workers world es left p)
    (hothers : ∀ e, .submitted e ∈ es → e.ticket ≠ k → (unit work e.unit).Keeps R) : p.Secluded R k := by
  induction run with
  | start => exact Pool.forall_start fun n _ => trivial
  | @thread es left p q i before h ih =>
    have hothers := fun e he => hothers e (List.mem_append_left _ he)
    obtain ⟨t, hi, m⟩ := Pool.move_of_step h
    exact (Pool.secluded_move hR.refl (ih hothers) hi m fun e =>
      before.run.keeps_of_starting hwork hothers hi).1
  | passing _ h hv ih => exact ih hothers
  | call _ h hv ih => exact (ih hothers).put rfl fun _ => hv

theorem leftAfter_self {k : Nat} {m : Action ε τ JobContext.Outcome} (hi : p.threads.get? i = some t)
    (hk : t.ticket = some k) (hs : ∀ e, t.phase ≠ .starting e) (hl : left k = some m) :
    leftAfter work p i left k = some (advance p t.phase m) := by
  obtain ⟨ticket, phase⟩ := t
  cases hk
  unfold leftAfter
  rw [hi]
  cases phase with
  | starting e => exact absurd rfl (hs e)
  | _ =>
    show Function.update left k ((left k).map _) k = _
    rw [Function.update_self, hl]
    rfl

/-- The work of a unit has not begun and the rule was kept so far, or what is left of the work ensures what the whole
did, from a state since which the rule was kept. -/
structure UnderWay (R : World ε → World ε → Prop) (P : Option JobContext.Outcome → World ε → Prop) (world : World ε)
    (k : Nat) (left : Nat → Option (Action ε τ JobContext.Outcome)) (w : World ε) : Prop where
  waiting : left k = none → R world w
  working : ∀ m, left k = some m → ∃ v, m.Ensures R P v ∧ R v w

variable {P : Option JobContext.Outcome → World ε → Prop} {k : Nat} {m : Action ε τ JobContext.Outcome} {c : JobContext}

theorem UnderWay.of_some {v w : World ε} (hl : left k = some m) (h : m.Ensures R P v) (hv : R v w) :
    UnderWay R P world k left w := by
  constructor
  · rw [hl]
    exact nofun
  · rw [hl]
    rintro _ ⟨⟩
    exact ⟨v, h, hv⟩

theorem UnderWay.running (hR : World.Rule R) (h : UnderWay R P world k left p.shared)
    (hi : p.threads.get? i = some t) (hk : t.ticket = some k) (hl : left k = some m)
    (hp : t.phase = .running (remainder c m)) (hq : p.advance i = some q) :
    UnderWay R P world k (leftAfter work p i left) q.shared := by
  obtain ⟨v, hm, hv⟩ := h.working m hl
  have hleft : leftAfter work p i left k = some (advance p t.phase m) :=
    leftAfter_self hi hk (fun e => by rw [hp]; exact nofun) hl
  rw [hp] at hleft
  rw [advance_running hi hp] at hq
  cases m with
  -- the step writes the last word into the record, which no rule forbids
  | done | crash =>
    cases hq
    exact .of_some hleft hm (hR.trans hv (hR.change ..))
  | step ready act next =>
    have hstep : p.stepCode i t (.step ready act fun w => remainder c (next w)) = some q := hq
    simp only [Pool.stepCode, Option.ite_none_right_eq_some] at hstep
    obtain ⟨hready, hstep⟩ := hstep
    cases hstep
    exact .of_some hleft (hm p.shared hv hready) (hR.refl _)
  | ask r next => exact hm.elim

theorem UnderWay.over {o : JobContext.Outcome} (h : UnderWay R P world k left p.shared)
    (hi : p.threads.get? i = some t) (hk : t.ticket = some k) (hl : left k = some m) (hm : Ends m o)
    (hp : t.phase = .running (.done ()) ∨ t.phase = .counting false) (hq : p.advance i = some q) :
    UnderWay R P world k (leftAfter work p i left) q.shared := by
  have hleft : leftAfter work p i left k = some (advance p t.phase m) := by
    refine leftAfter_self hi hk (fun e => ?_) hl
    rcases hp with hp | hp
    · rw [hp]
      exact nofun
    · rw [hp]
      exact nofun
  rw [advance_of_ends hm] at hleft
  have hshared : q.shared = p.shared := by
    rcases hp with hp | hp
    · rw [advance_running hi hp] at hq
      cases hq
      rfl
    · simp only [Pool.advance, hi, hp, Option.bind_eq_bind, Option.bind_some, Option.some.injEq] at hq
      subst hq
      rfl
  obtain ⟨v, hensures, hv⟩ := h.working m hl
  rw [hshared]
  exact .of_some hleft hensures hv

theorem UnderWay.begin (h : UnderWay R P world e.ticket left p.shared) (hi : p.threads.get? i = some t)
    (hp : t.phase = .starting e) (hl : left e.ticket = none) (hnew : (wholeWork work e.unit).Ensures R P world)
    (hq : p.advance i = some q) : UnderWay R P world e.ticket (leftAfter work p i left) q.shared := by
  have hleft : leftAfter work p i left e.ticket = some (wholeWork work e.unit) := by
    simp only [leftAfter, hi, hp, Function.update_self]
  simp only [Pool.advance, hi, hp, Option.bind_eq_bind, Option.bind_some, Option.some.injEq] at hq
  subst hq
  exact .of_some hleft hnew (h.waiting hl)

/-- The thread that has the unit takes a step. -/
theorem UnderWay.turn {b : Board ε τ} (hR : World.Rule R) (hb : b.Shows D work p) (hi : p.threads.get? i = some t)
    (hk : t.ticket = some k) (hf : t.Fits i)
    (hnew : ∀ e, b.roles i = .assigned e → e.ticket = k →
      b.left k = none ∧ (wholeWork work e.unit).Ensures R P world)
    (h : UnderWay R P world k b.left p.shared) (hq : p.advance i = some q) :
    UnderWay R P world k (leftAfter work p i b.left) q.shared := by
  have hplays := hb.plays i t hi
  generalize hr : b.roles i = role at hplays hnew
  cases hplays with
  | idle hp =>
    unfold Pool.Thread.Fits at hf
    rcases hp with hp | hp
    · rw [hp] at hf
      cases hk.symm.trans hf.1
    · rw [hp] at hf
      cases hk.symm.trans hf
  | @assigned e hk' hp =>
    obtain rfl : e.ticket = k := Option.some.inj (hk'.symm.trans hk)
    obtain ⟨hl, hensures⟩ := hnew e rfl rfl
    exact h.begin hi hp hl hensures hq
  | @begun e hk' hl hp =>
    obtain rfl : e.ticket = k := Option.some.inj (hk'.symm.trans hk)
    exact h.running hR hi hk hl hp hq
  | @closed e m o hk' hl ho hp =>
    obtain rfl : e.ticket = k := Option.some.inj (hk'.symm.trans hk)
    exact h.over hi hk hl ho hp hq
  | @inside u place m hk' hl hd =>
    cases u with
    | none => cases hk.symm.trans hk'
    | some e =>
      obtain rfl : e.ticket = k := Option.some.inj (hk'.symm.trans hk)
      have hl := hl e rfl
      generalize hp : t.phase = phase at hd
      cases hd with
      | running hs => exact h.running hR hi hk hl hp hq
      -- work that ensures something asks the pool for nothing
      | offering | told | closing => exact (h.working _ hl).choose_spec.1.elim

theorem Deeds.entry_eq {b : Board ε τ} {registry : Registry} {e e' : Pool.Entry (Job τ)}
    (h : Deeds D work registry es b) (hd : Distinct es) (hx : ¬ D (jobId e)) (he : .submitted e ∈ es)
    (he' : .submitted e' ∈ es) (hid : jobId e' = jobId e) : e' = e := by
  obtain ⟨s, hs⟩ := h.kept hd hx
  have hentry := (hs.submitted e).2 ⟨he, rfl⟩
  have hentry' := (hs.submitted e').2 ⟨he', hid⟩
  rw [hentry] at hentry'
  exact (Option.some.inj hentry').symm

theorem DiscreetRun.underWay (hR : World.Rule R) (hwork : ∀ task c, Proper D (some c.id) (work task c))
    (run : DiscreetRun D R work name workers world es left p)
    (hothers : ∀ e, .submitted e ∈ es → e.ticket ≠ k → (unit work e.unit).Keeps R)
    (hmine : ∀ e, .submitted e ∈ es → e.ticket = k →
      ¬ D (jobId e) ∧ (wholeWork work e.unit).Ensures R P world) :
    UnderWay R P world k left p.shared := by
  -- only steps of the thread with the ticket take the work on; all others keep to the rule
  induction run with
  | start =>
    refine ⟨fun _ => ?_, nofun⟩
    unfold Pool.start
    rw [Pool.foldl_put]
    exact hR.refl world
  | @thread es left p q i before h ih =>
    have hothers := fun e he => hothers e (List.mem_append_left _ he)
    have hmine := fun e he => hmine e (List.mem_append_left _ he)
    have hbefore := ih hothers hmine
    obtain ⟨t, hi, m⟩ := Pool.move_of_step h
    have hfits := before.run.pool.formed.fits i t hi
    by_cases hk : t.ticket = some k
    · obtain ⟨b, hdeeds, rfl, hshows⟩ := before.run.deeds hwork
      refine hbefore.turn hR hshows hi hk hfits (fun e hr he => ?_) (Pool.advance_of_step h)
      obtain ⟨hx, hensures⟩ := hmine e (hdeeds.known.has e (.inr ⟨i, by rw [hr]; rfl⟩)) he
      obtain ⟨s, hs⟩ := hdeeds.kept before.run.distinct hx
      have hfate := hs.fits
      rw [hs.agree hr rfl] at hfate
      rw [← he]
      exact ⟨hfate.1, hensures⟩
    · have hsame := (Pool.secluded_move hR.refl (before.secluded hR hwork hothers) hi m fun e =>
        before.run.keeps_of_starting hwork hothers hi).2 hk
      have hleft : leftAfter work p i left k = left k := leftAfter_of_ne hi hfits hk
      constructor
      · rw [hleft]
        exact fun hl => hR.trans (hbefore.waiting hl) hsame
      · rw [hleft]
        intro m hl
        obtain ⟨v, hensures, hv⟩ := hbefore.working m hl
        exact ⟨v, hensures, hR.trans hv hsame⟩
  | passing _ _ hv ih =>
    have hbefore := ih hothers hmine
    constructor
    · exact fun hl => hR.trans (hbefore.waiting hl) hv
    · intro m hl
      obtain ⟨v, hensures, hv'⟩ := hbefore.working m hl
      exact ⟨v, hensures, hR.trans hv' hv⟩
  | call _ _ _ ih =>
    have hbefore := ih hothers hmine
    exact ⟨hbefore.waiting, hbefore.working⟩

/-- **What the work of a job ensures holds when the job has ended**, in every discreet run: of a state since which the
rule was kept.  The job may not be removed, and the other jobs keep to the rule. -/
theorem DiscreetRun.ended {crashed : Bool} (hR : World.Rule R)
    (hwork : ∀ task c, Proper D (some c.id) (work task c))
    (run : DiscreetRun D R work name workers world es left p) (he : .submitted e ∈ es) (hx : ¬ D (jobId e))
    (hothers : ∀ e', .submitted e' ∈ es → jobId e' ≠ jobId e → (unit work e'.unit).Keeps R)
    (hmine : (wholeWork work e.unit).Ensures R P world) (hend : .ended e.ticket crashed ∈ es) :
    ∃ o r v, p.shared.registry.get? (jobId e) = some r ∧ r.Tells o ∧ R v p.shared ∧
      (P (some o) v ∨ P none v ∧ o = .error crashFailure) := by
  have hdistinct := run.run.distinct
  obtain ⟨b, hdeeds, rfl, hshows⟩ := run.run.deeds hwork
  obtain ⟨s, hs⟩ := hdeeds.kept hdistinct hx
  have hentry := (hs.submitted e).2 ⟨he, rfl⟩
  have hfate := hs.fits
  rw [(hs.ended e crashed hentry hend).2] at hfate
  obtain ⟨m, o, r, hl, ho, hr, ht⟩ := hfate
  rw [hshows.registry] at hr
  have hunder : UnderWay R P world e.ticket b.left p.shared := by
    refine run.underWay hR hwork (fun e' he' hne => hothers e' he' fun hid => hne ?_) fun e' he' hk => ?_
    · rw [hdeeds.entry_eq hdistinct hx he he' hid]
    · rw [hdistinct.inj he' he hk]
      exact ⟨hx, hmine⟩
  obtain ⟨v, hensures, hv⟩ := hunder.working m hl
  refine ⟨o, r, v, hr, ht, hv, ?_⟩
  rcases ho with rfl | ⟨rfl, rfl⟩
  · exact .inl hensures
  · exact .inr ⟨hensures, rfl⟩

end Orchestrator
end JobRunner
