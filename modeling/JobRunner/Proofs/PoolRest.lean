import JobRunner.Proofs.PoolLodgers
/-!
# Pools at rest

A pool is at rest when no thread of it has anything left to do but to wait for units.  A thread without a step waits for
its lodger, or it closes the pool and waits for another thread.  Lodgers came later than their hosts, and one thread at
most closes the pool, so all of these waits come to an end: the threads of a pool at rest are idle or gone, and its queue
is empty.
-/
namespace JobRunner
namespace Pool

variable {σ υ : Type} {p : Pool σ υ} {id : ThreadId} {t : Thread σ υ}

/-- The code of a thread waits for something that has not come yet. -/
def Awaits (p : Pool σ υ) (id : ThreadId) : Prop :=
  ∃ t ready act next, p.threads.get? id = some t ∧ t.phase = .running (.step ready act next) ∧ ready p.shared = false

/-- No thread of the pool has anything left to do: none has a step, and none is in the middle of a unit that will go on
as soon as something comes from outside. -/
def AtRest (p : Pool σ υ) : Prop := ∀ id, id.isPool = true → p.step id = none ∧ ¬ p.Awaits id

/-- The thread is about to hand over a unit. -/
def Phase.isSubmitting : Phase σ υ → Bool
  | offering _ _ | spilling _ _ | answering _ _ _ => true
  | _ => false

/-- All submissions have returned. -/
def AllReturned (p : Pool σ υ) : Prop :=
  ∀ id t, p.threads.get? id = some t → t.phase.isSubmitting = false ∧ p.isHosting id = false

/-- A thread without a step has no unit, or waits for something from outside, or for another thread. -/
theorem eq_of_step_eq_none (ht : p.threads.get? id = some t) (hh : p.isHosting id = false) (hs : p.step id = none) :
    t.phase = .idle ∧ p.queue = [] ∧ p.isOpen = true ∨ t.phase = .gone ∨ p.Awaits id ∨
      ∃ w ∈ t.phase.waitsFor, w ≠ p.runner id ∧ p.isGone w = false := by
  rw [step_eq_advance hh] at hs
  simp only [advance, ht, Option.bind_eq_bind, Option.bind_some] at hs
  obtain ⟨ticket, phase⟩ := t
  cases phase with
  | idle =>
    cases hq : p.queue with
    | cons entry rest => simp [hq] at hs
    | nil =>
      cases ho : p.isOpen with
      | true => exact .inl ⟨rfl, rfl, rfl⟩
      | false => simp [hq, ho] at hs
  | gone => exact .inr (.inl rfl)
  | running code =>
    cases code with
    | step ready act next =>
      refine .inr (.inr (.inl ⟨_, ready, act, next, ht, rfl, ?_⟩))
      cases hr : ready p.shared with
      | false => rfl
      | true => simp [stepCode, hr] at hs
    | ask r next =>
      cases r with
      | submit unit => dsimp only [stepCode] at hs; split at hs <;> cases hs
      | close => dsimp only [stepCode] at hs; split at hs <;> cases hs
    | done a => cases hs
    | crash => cases hs
  | joining rest next | joiningOverflow rest next =>
    cases rest with
    | nil => cases hs
    | cons w rest =>
      simp only [join, Option.map_eq_none_iff, ite_eq_right_iff, reduceCtorEq, imp_false, not_or] at hs
      exact .inr (.inr (.inr ⟨w, List.mem_cons_self, hs.1, Bool.eq_false_iff.2 hs.2⟩))
  | _ => cases hs

theorem hasHungUp_of_mem_waitsFor {phase : Phase σ υ} {w : ThreadId} (h : w ∈ phase.waitsFor) :
    phase.hasHungUp = true ∧ phase.isClosing = true := by
  cases phase with
  | joining | joiningOverflow => exact ⟨rfl, rfl⟩
  | _ => cases h

/-- Who is idle has no lodger. -/
theorem Housed.isHosting_eq_false (h : p.Housed) (hid : p.threads.get? id = some t) (ht : t.phase.isBusy = false) :
    p.isHosting id = false := by
  cases hx : p.isHosting id with
  | false => rfl
  | true => exact absurd (ht.symm.trans (h.busy id t hid hx)) Bool.false_ne_true

theorem rank_le_of_came {callers overflows : Nat} (h : id.Came callers overflows) : id.rank ≤ overflows := by
  cases id with
  | overflow n => exact h
  | caller n | worker n => exact Nat.zero_le _

/-- In a pool at rest, whatever is neither idle nor gone comes down to a thread that waits for another one: a host waits for
its lodger, which came later, and so on up to one that has no lodger. -/
theorem exists_waiting_of_atRest (hf : p.Formed) (h : p.Housed) (hr : p.AtRest) (hid : p.threads.get? id = some t)
    (hp : id.isPool = true) (hidle : t.phase ≠ .idle) (hgone : t.phase ≠ .gone) :
    ∃ c u w, p.threads.get? c = some u ∧ w ∈ u.phase.waitsFor ∧ w ≠ p.runner c ∧ p.isGone w = false ∧
      p.runner c = p.runner id := by
  induction hn : p.counters.overflow - id.rank using Nat.strong_induction_on generalizing id t with
  | _ n ih =>
    cases hh : p.isHosting id with
    | false =>
      rcases eq_of_step_eq_none hid hh (hr id hp).1 with ⟨hi, -, -⟩ | hg | ha | ⟨w, hw, hne, hlive⟩
      · exact absurd hi hidle
      · exact absurd hg hgone
      · exact absurd ha (hr id hp).2
      · exact ⟨id, t, w, hid, hw, hne, hlive, rfl⟩
    | true =>
      obtain ⟨g, l, hg, rfl, hlive⟩ := isHosting_iff.1 hh
      obtain ⟨hlater, -, -, hrunner, -⟩ := h.lodged g l hg
      obtain ⟨u, hu, hug⟩ := exists_of_isGone_eq_false hlive
      have hle := rank_le_of_came (hf.came g u hu)
      cases g with
      | caller m | worker m => exact absurd hlater (Nat.not_lt_zero _)
      | overflow m =>
        -- only workers are idle
        have hui : u.phase ≠ .idle := by
          intro hi
          have hfits := hf.fits _ u hu
          rw [Thread.Fits, hi] at hfits
          cases hfits.2
        obtain ⟨c, v, w, hc, hw, hne, hwlive, hsame⟩ := ih _ (by omega) hu rfl hui hug rfl
        exact ⟨c, v, w, hc, hw, hne, hwlive, by rw [hsame, runner_of_get? hg, hrunner]⟩

/-- **In a pool at rest every thread of the pool is idle or gone.**  Only one thread closes the pool, so the thread that
it waits for does not wait in turn, nor does it host who closes the pool, since nobody waits for the thread that runs it. -/
theorem idle_or_gone_of_atRest (hf : p.Formed) (h : p.Closing) (hh : p.Housed) (hr : p.AtRest)
    (hid : p.threads.get? id = some t) (hp : id.isPool = true) : t.phase = .idle ∨ t.phase = .gone := by
  refine Classical.byContradiction fun hno => ?_
  rw [not_or] at hno
  obtain ⟨c, v, w, hc, hw, hne, hlive, -⟩ := exists_waiting_of_atRest hf hh hr hid hp hno.1 hno.2
  obtain ⟨hup, hclosing⟩ := hasHungUp_of_mem_waitsFor hw
  have hopen : p.isOpen = false := (h.orderly c v hc).1 hup
  have hwp : w.isPool = true := (h.orderly c v hc).2.1 w hw
  obtain ⟨u, hu, hug⟩ := exists_of_isGone_eq_false hlive
  -- `w` is no idle worker, since the queue is closed and somebody would have a step
  have hui : u.phase ≠ .idle := by
    intro hi
    have hhost := hh.isHosting_eq_false hu (by rw [hi]; rfl)
    rcases eq_of_step_eq_none hu hhost (hr w hwp).1 with ⟨-, -, ho⟩ | hg | ha | ⟨w', hw', -, -⟩
    · rw [hopen] at ho
      cases ho
    · exact hug hg
    · exact (hr w hwp).2 ha
    · rw [hi] at hw'
      cases hw'
  obtain ⟨c', v', w', hc', hw', hne', -, hsame⟩ := exists_waiting_of_atRest hf hh hr hu hwp hui hug
  have hcc : c = c' := h.eq_of_isClosing hc hclosing hc' (hasHungUp_of_mem_waitsFor hw').2
  rw [← hcc, runner_of_get?_eq_none (hh.listed w (.inr (.inr ⟨c, v, hc, hw⟩))).1] at hsame
  exact hne hsame.symm

/-- **A pool at rest has an empty queue**: there is a worker, which would take a unit from it. -/
theorem queue_eq_nil_of_atRest (hf : p.Formed) (h : p.Closing) (hh : p.Housed) (hr : p.AtRest) : p.queue = [] := by
  obtain ⟨t, ht⟩ := h.staffed
  rcases idle_or_gone_of_atRest hf h hh hr ht rfl with hi | hg
  · have hhost := hh.isHosting_eq_false ht (by rw [hi]; rfl)
    rcases eq_of_step_eq_none ht hhost (hr _ rfl).1 with ⟨-, hq, -⟩ | hg | ha | ⟨w, hw, -, -⟩
    · exact hq
    · rw [hi] at hg
      cases hg
    · exact absurd ha (hr _ rfl).2
    · rw [hi] at hw
      cases hw
  -- a worker is gone only from an empty queue
  · exact ((h.orderly _ t ht).2.2 (by rw [hg]; rfl) rfl).2

end Pool
end JobRunner
