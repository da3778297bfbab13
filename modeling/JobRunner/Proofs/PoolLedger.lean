import JobRunner.Proofs.PoolRest
/-!
# What becomes of units

Every ticket that was given out is somewhere: its unit is on the way into the pool, or it waits, or it is being run, or
it ended, or it was turned away.  The ledger below adds these up for any selection of tickets, for one ticket or for all
of them.  A step of a thread moves a unit from one place to the next, and so the sum stays.
-/
namespace JobRunner
namespace Pool

variable {σ υ : Type} {passes : σ → σ → Prop} {p q : Pool σ υ} {id : ThreadId} {t : Thread σ υ} {sel : Nat → Bool}
  {es new : List (Event υ)}

/-! ## What events and threads say about selected tickets -/

@[simp] def Event.starts (sel : Nat → Bool) : Event υ → Bool
  | started entry => sel entry.ticket
  | _ => false

@[simp] def Event.ends (sel : Nat → Bool) : Event υ → Bool
  | ended ticket _ => sel ticket
  | _ => false

@[simp] def Event.answers (sel : Nat → Bool) : Event υ → Bool
  | answered ticket _ => sel ticket
  | _ => false

@[simp] def Event.rejects (sel : Nat → Bool) : Event υ → Bool
  | answered ticket .rejected => sel ticket
  | _ => false

@[simp] def Event.accepts (sel : Nat → Bool) : Event υ → Bool
  | answered ticket .queued => sel ticket
  | answered ticket .overflow => sel ticket
  | _ => false

/-- The weight of a ticket that a thread has. -/
def owned (sel : Nat → Bool) : Option Nat → Nat
  | some k => (sel k).toNat
  | none => 0

@[simp] theorem owned_some (k : Nat) : owned sel (some k) = (sel k).toNat := rfl
@[simp] theorem owned_none : owned sel none = 0 := rfl

/-- The thread has the unit, begun or not. -/
@[simp] def Thread.owns (sel : Nat → Bool) (t : Thread σ υ) : Nat := owned sel t.ticket

/-- The thread has begun the unit. -/
@[simp] def Thread.runs (sel : Nat → Bool) (t : Thread σ υ) : Nat :=
  match t.phase with
  | .starting _ => 0
  | _ => t.owns sel

/-- The thread has the unit but has not begun it. -/
@[simp] def Thread.delays (sel : Nat → Bool) (t : Thread σ υ) : Nat :=
  match t.phase with
  | .starting _ => t.owns sel
  | _ => 0

/-- The thread is on its way into the pool with the unit. -/
@[simp] def Thread.offers (sel : Nat → Bool) (t : Thread σ υ) : Nat :=
  match t.phase with
  | .offering entry _ => (sel entry.ticket).toNat
  | .spilling entry _ => (sel entry.ticket).toNat
  | _ => 0

/-- The thread is about to be told what became of the unit. -/
@[simp] def Thread.expects (sel : Nat → Bool) (t : Thread σ υ) : Nat :=
  match t.phase with
  | .answering k _ _ => (sel k).toNat
  | _ => 0

/-- The thread is about to be told that the unit was turned away. -/
@[simp] def Thread.drops (sel : Nat → Bool) (t : Thread σ υ) : Nat :=
  match t.phase with
  | .answering k .rejected _ => (sel k).toNat
  | _ => 0

/-- The selected tickets among the first ones. -/
def issued (sel : Nat → Bool) (submissions : Nat) : Nat := (List.range submissions).countP sel

/-- The selected units that have not begun. -/
def waiting (sel : Nat → Bool) (p : Pool σ υ) : Nat :=
  p.queue.countP (fun e => sel e.ticket) + p.threads.sum fun _ t => t.delays sel

/-- The selected units that have begun and are not counted yet. -/
def running (sel : Nat → Bool) (p : Pool σ υ) : Nat := p.threads.sum fun _ t => t.runs sel

/-! ## The ledger -/

/-- Every selected ticket is in one place; what began runs or ended; every submission is under way or answered. -/
structure Ledger (sel : Nat → Bool) (es : List (Event υ)) (p : Pool σ υ) : Prop where
  placed : p.queue.countP (fun e => sel e.ticket) +
    (p.threads.sum fun _ t => t.owns sel + t.offers sel + t.drops sel) + es.countP (Event.ends sel) +
    es.countP (Event.rejects sel) = issued sel p.submissions
  begun : es.countP (Event.starts sel) = p.running sel + es.countP (Event.ends sel)
  answered : (p.threads.sum fun _ t => t.offers sel + t.expects sel) + es.countP (Event.answers sel) =
    issued sel p.submissions

theorem Ledger.put {t' : Thread σ υ} (h : Ledger sel es p) (hid : p.threads.get? id = some t)
    (hq : q.threads = p.threads.insert id t')
    (hp : q.queue.countP (fun e => sel e.ticket) + (t'.owns sel + t'.offers sel + t'.drops sel) +
      new.countP (Event.ends sel) + new.countP (Event.rejects sel) + issued sel p.submissions =
        p.queue.countP (fun e => sel e.ticket) + (t.owns sel + t.offers sel + t.drops sel) + issued sel q.submissions)
    (hb : new.countP (Event.starts sel) + t.runs sel = t'.runs sel + new.countP (Event.ends sel))
    (ha : (t'.offers sel + t'.expects sel) + new.countP (Event.answers sel) + issued sel p.submissions =
      (t.offers sel + t.expects sel) + issued sel q.submissions) : Ledger sel (es ++ new) q := by
  have hs : ∀ f : ThreadId → Thread σ υ → Nat, q.threads.sum f + f id t = p.threads.sum f + f id t' := by
    intro f
    rw [hq]
    exact sum_put hid f t'
  have hplaced := h.placed
  have hbegun := h.begun
  have hanswered := h.answered
  unfold running at hbegun
  refine ⟨?_, ?_, ?_⟩
  · have := hs fun _ t => t.owns sel + t.offers sel + t.drops sel
    simp only [List.countP_append]
    omega
  · have := hs fun _ t => t.runs sel
    simp only [List.countP_append, running]
    omega
  · have := hs fun _ t => t.offers sel + t.expects sel
    simp only [List.countP_append]
    omega

/-- The thread has nothing to do with a submission, nor is it about to begin a unit. -/
def Phase.isPlain : Phase σ υ → Bool
  | starting _ | offering _ _ | spilling _ _ | answering _ _ _ => false
  | _ => true

theorem weights_of_isPlain (sel : Nat → Bool) (h : t.phase.isPlain = true) :
    t.runs sel = t.owns sel ∧ t.offers sel = 0 ∧ t.expects sel = 0 ∧ t.drops sel = 0 := by
  obtain ⟨ticket, phase⟩ := t
  cases phase with
  | starting | offering | spilling | answering => cases h
  | _ => exact ⟨rfl, rfl, rfl, rfl⟩

/-- A step that moves no unit. -/
theorem Ledger.keep {phase : Phase σ υ} (h : Ledger sel es p) (hid : p.threads.get? id = some t)
    (hp : t.phase.isPlain = true) (hp' : phase.isPlain = true) (hnew : new = [])
    (hq : q.threads = p.threads.insert id { t with phase }) (hl : q.queue = p.queue)
    (hn : q.submissions = p.submissions) : Ledger sel (es ++ new) q := by
  obtain ⟨hr, ho, he, hd⟩ := weights_of_isPlain sel hp
  have hp' : Phase.isPlain (Thread.phase { t with phase }) = true := hp'
  obtain ⟨hr', ho', he', hd'⟩ := weights_of_isPlain sel hp'
  have howns : Thread.owns sel { t with phase } = t.owns sel := rfl
  have hi : issued sel q.submissions = issued sel p.submissions := by rw [hn]
  refine h.put hid hq ?_ ?_ ?_
  · rw [hnew, hl, hi, ho, ho', hd, hd', howns]
    rfl
  · rw [hnew, hr, hr', howns]
    exact Nat.add_comm ..
  · rw [hnew, hi, ho, ho', he, he']
    rfl

theorem countP_cons_toNat {α : Type} (f : α → Bool) (a : α) (l : List α) :
    (a :: l).countP f = l.countP f + (f a).toNat := by
  rw [List.countP_cons]
  cases f a <;> rfl

theorem issued_succ (sel : Nat → Bool) (n : Nat) : issued sel (n + 1) = issued sel n + (sel n).toNat := by
  rw [issued, List.range_succ, List.countP_append, countP_cons_toNat, List.countP_nil, Nat.zero_add, issued]

theorem Formed.sum_spawn (h : p.Formed) (hid : p.threads.get? id = some t) (made t' : Thread σ υ)
    (f : ThreadId → Thread σ υ → Nat) :
    ((p.put (.overflow p.counters.overflow) made).put id t').threads.sum f + f id t =
      p.threads.sum f + f (.overflow p.counters.overflow) made + f id t' := by
  have hkept : (p.put (.overflow p.counters.overflow) made).threads.get? id = some t :=
    (get?_put_ne (h.overflow_ne hid)).trans hid
  rw [sum_put hkept, sum_put_new h.overflow_new]

theorem ledger_move (hf : p.Formed) (h : Ledger sel es p) (hid : p.threads.get? id = some t)
    (m : Move p id t new q) : Ledger sel (es ++ new) q := by
  have hfits := hf.fits id t hid
  obtain ⟨ticket, phase⟩ := t
  cases m with
  | take ht hq =>
    cases ht
    obtain rfl : ticket = none := hfits.1
    refine h.put hid rfl ?_ ?_ ?_
    · simp [hq, countP_cons_toNat, Pool.put]
    · simp
    · simp [Pool.put]
  | start ht =>
    cases ht
    obtain rfl := hfits.1
    refine h.put hid rfl ?_ ?_ ?_
    · simp [Pool.put]
    · simp [countP_cons_toNat]
    · simp [Pool.put]
  | refuse ht hc | offer ht hc =>
    cases ht
    refine h.put hid rfl ?_ ?_ ?_
    · simp [issued_succ, Pool.put]
      omega
    · simp
    · simp [issued_succ]
      omega
  | enqueue ht ho hl =>
    cases ht
    refine h.put hid rfl ?_ ?_ ?_
    · simp [countP_cons_toNat, Pool.put]
      omega
    · simp
    · simp [Pool.put]
  | overflow ht ho hl =>
    cases ht
    refine h.put hid rfl ?_ ?_ ?_
    · simp [Pool.put]
    · simp
    · simp [Pool.put]
  | tooLate ht =>
    have ht : phase = .offering _ _ ∨ phase = .spilling _ _ := ht.imp (·.1) (·.1)
    rcases ht with ht | ht
    · cases ht
      refine h.put hid rfl ?_ ?_ ?_
      · simp [Pool.put]
      · simp
      · simp [Pool.put]
    · cases ht
      refine h.put hid rfl ?_ ?_ ?_
      · simp [Pool.put]
      · simp
      · simp [Pool.put]
  | @spawn entry next handles lodgings ht hc hm =>
    cases ht
    have hs := hf.sum_spawn hid { ticket := some entry.ticket, phase := .starting entry }
      { ticket, phase := .running (next .overflow) }
    -- two threads change at once, so the balance is drawn up by hand
    have hplaced := h.placed
    have hbegun := h.begun
    have hanswered := h.answered
    refine ⟨?_, ?_, ?_⟩
    · have := hs fun _ t => t.owns sel + t.offers sel + t.drops sel
      simp [Pool.put] at hplaced this ⊢
      omega
    · have := hs fun _ t => t.runs sel
      simp [running, Pool.put] at hbegun this ⊢
      omega
    · have := hs fun _ t => t.offers sel + t.expects sel
      simp [countP_cons_toNat, Pool.put] at hanswered this ⊢
      omega
  | @answer k a next ht =>
    cases ht
    refine h.put hid rfl ?_ ?_ ?_
    · cases a <;> simp [countP_cons_toNat, Pool.put]
      omega
    · simp
    · simp [countP_cons_toNat, Pool.put]
  | count ht =>
    cases ht
    obtain ⟨k, rfl⟩ := Option.isSome_iff_exists.1 hfits.1
    refine h.put hid rfl ?_ ?_ ?_
    · cases id <;> simp [countP_cons_toNat, Pool.put]
    · cases id <;> simp [countP_cons_toNat]
    · cases id <;> simp [Pool.put]
  | leave ht | finish ht | retire ht | act ht | closeAgain ht | closeFirst ht | hangUp ht | collect ht | joined ht
  | join ht | collectOverflow ht | joinedOverflow ht | joinOverflow ht =>
    exact h.keep hid (by rw [ht]; rfl) rfl rfl rfl rfl rfl

theorem sum_start {name : String} {workers : Nat} {code : υ → Code σ υ} {shared : σ} {grants : Nat → Bool}
    {f : ThreadId → Thread σ υ → Nat}
    (h : ∀ n, f (.worker n) { phase := .idle } = 0) : (start name workers code shared grants).threads.sum f = 0 :=
  Table.sum_eq_zero (forall_start h)

theorem ledger_start (name : String) (workers : Nat) (code : υ → Code σ υ) (shared : σ) (grants : Nat → Bool) :
    Ledger sel [] (start name workers code shared grants) := by
  have hq : (start name workers code shared grants).queue = [] ∧
      (start name workers code shared grants).submissions = 0 := by
    unfold start
    rw [foldl_put]
    exact ⟨rfl, rfl⟩
  refine ⟨?_, ?_, ?_⟩
  · rw [hq.1, hq.2, sum_start fun n => rfl]
    rfl
  · rw [running, sum_start fun n => rfl]
    rfl
  · rw [hq.2, sum_start fun n => rfl]
    rfl

theorem ledger_call (hf : p.Formed) (h : Ledger sel es p) (code : Code σ υ) : Ledger sel es (p.call code) := by
  have hs : ∀ f : Thread σ υ → Nat, f { phase := .running code } = 0 →
      ((p.call code).threads.sum fun _ t => f t) = p.threads.sum fun _ t => f t := by
    intro f hz
    show ((p.put (.caller p.callers) { phase := .running code }).threads.sum fun _ t => f t) = _
    rw [sum_put_new hf.caller_new, hz, Nat.add_zero]
  refine ⟨?_, ?_, ?_⟩
  · rw [hs (fun t => t.owns sel + t.offers sel + t.drops sel) rfl]
    exact h.placed
  · rw [running, hs (fun t => t.runs sel) rfl]
    exact h.begun
  · rw [hs (fun t => t.offers sel + t.expects sel) rfl]
    exact h.answered

/-- **The ledger balances in every run.** -/
theorem Run.ledger {name : String} {workers : Nat} {code : υ → Code σ υ} {shared : σ} {grants : Nat → Bool}
    (run : Run passes (start name workers code shared grants) es p) (sel : Nat → Bool) : Ledger sel es p := by
  induction run with
  | refl => exact ledger_start ..
  | thread id before h ih =>
    obtain ⟨t, ht, m⟩ := move_of_step h
    exact ledger_move before.formed ih ht m
  | passing _ _ ih => exact ⟨ih.placed, ih.begun, ih.answered⟩
  | call code before ih => exact ledger_call before.formed ih code

/-! ## What the ledger says -/

theorem sum_threads_add (p : Pool σ υ) (f g : Thread σ υ → Nat) :
    (p.threads.sum fun _ t => f t + g t) = (p.threads.sum fun _ t => f t) + p.threads.sum fun _ t => g t :=
  Table.sum_add ..

/-- A unit that was handed over waits, runs, ended, was turned away, or is on its way to one of these. -/
theorem Ledger.balance (h : Ledger sel es p) : p.waiting sel + p.running sel + es.countP (Event.ends sel) +
    es.countP (Event.rejects sel) + (p.threads.sum fun _ t => t.offers sel) + (p.threads.sum fun _ t => t.drops sel) =
      issued sel p.submissions := by
  have howns : (p.threads.sum fun _ t => t.owns sel) =
      (p.threads.sum fun _ t => t.runs sel) + p.threads.sum fun _ t => t.delays sel := by
    rw [← sum_threads_add]
    congr 1
    funext _ t
    obtain ⟨ticket, phase⟩ := t
    cases phase <;> simp
  have hplaced := h.placed
  rw [sum_threads_add, sum_threads_add, howns] at hplaced
  unfold waiting running
  omega

theorem countP_answers (es : List (Event υ)) :
    es.countP (Event.answers sel) = es.countP (Event.accepts sel) + es.countP (Event.rejects sel) := by
  induction es with
  | nil => rfl
  | cons e es ih =>
    rw [countP_cons_toNat, countP_cons_toNat, countP_cons_toNat, ih]
    cases e with
    | answered ticket answer => cases answer <;> simp <;> omega
    | _ => simp

theorem issued_le_one (k n : Nat) : issued (· == k) n ≤ 1 := List.nodup_iff_count.1 List.nodup_range k

/-- **No unit begins twice.** -/
theorem Ledger.starts_le_one {k : Nat} (h : Ledger (· == k) es p) : es.countP (Event.starts (· == k)) ≤ 1 := by
  have hone := issued_le_one k p.submissions
  have hbalance := h.balance
  have hbegun := h.begun
  omega

/-- **A unit that was turned away never begins.** -/
theorem Ledger.starts_eq_zero {k : Nat} (h : Ledger (· == k) es p) (hr : Event.answered k .rejected ∈ es) :
    es.countP (Event.starts (· == k)) = 0 := by
  have hpos : 0 < es.countP (Event.rejects (· == k)) := List.countP_pos_iff.2 ⟨_, hr, by simp⟩
  have hone := issued_le_one k p.submissions
  have hbalance := h.balance
  have hbegun := h.begun
  omega

/-- **A unit that was taken on waits, runs or ended**, and only one of these. -/
theorem Ledger.accepted {k : Nat} {a : Submission} (h : Ledger (· == k) es p) (ha : Event.answered k a ∈ es)
    (hne : a ≠ .rejected) : p.waiting (· == k) + p.running (· == k) + es.countP (Event.ends (· == k)) = 1 := by
  have hpos : 0 < es.countP (Event.accepts (· == k)) := by
    refine List.countP_pos_iff.2 ⟨_, ha, ?_⟩
    cases a with
    | rejected => exact absurd rfl hne
    | queued | overflow => simp
  -- the one ticket is answered, so no thread offers it and none is about to be told of it
  have hone := issued_le_one k p.submissions
  have hbalance := h.balance
  have hanswered := h.answered
  rw [sum_threads_add, countP_answers] at hanswered
  have hdrops : (p.threads.sum fun _ t => t.drops (· == k)) ≤ p.threads.sum fun _ t => t.expects (· == k) := by
    refine Table.sum_le_sum fun _ t _ => ?_
    obtain ⟨ticket, phase⟩ := t
    cases phase with
    | answering k' a next => cases a <;> simp
    | _ => exact Nat.le_refl _
  omega

/-- **No two threads have the same ticket.** -/
theorem Run.ticket_inj {name : String} {workers : Nat} {code : υ → Code σ υ} {shared : σ} {grants : Nat → Bool}
    {id' : ThreadId}
    {u : Thread σ υ} {k : Nat} (run : Run passes (start name workers code shared grants) es p)
    (hid : p.threads.get? id = some t) (hid' : p.threads.get? id' = some u) (ht : t.ticket = some k)
    (hu : u.ticket = some k) : id = id' := by
  by_contra hne
  have htwo := Table.add_le_sum (f := fun _ t => t.owns (· == k) + t.offers (· == k) + t.drops (· == k)) hne hid hid'
  have hplaced := (run.ledger (· == k)).placed
  have hone := issued_le_one k p.submissions
  have hown : t.owns (· == k) = 1 ∧ u.owns (· == k) = 1 := by simp [ht, hu]
  omega

/-- **In a pool at rest, what was taken on ended**, once all submissions have returned; and all were answered. -/
theorem Ledger.atRest (hf : p.Formed) (hc : p.Closing) (hh : p.Housed) (h : Ledger sel es p) (hret : p.AllReturned)
    (hrest : p.AtRest) : es.countP (Event.ends sel) = es.countP (Event.accepts sel) ∧
      es.countP (Event.answers sel) = issued sel p.submissions := by
  -- threads of the pool are idle or gone and have no tickets; those outside never have one
  have hzero : ∀ id t, p.threads.get? id = some t →
      t.owns sel = 0 ∧ t.offers sel = 0 ∧ t.expects sel = 0 ∧ t.drops sel = 0 := by
    intro id t ht
    have hfits := hf.fits id t ht
    have hquiet := (hret id t ht).1
    have hdone := fun hid => idle_or_gone_of_atRest hf hc hh hrest ht hid
    obtain ⟨ticket, phase⟩ := t
    have hticket : ticket = none := by
      cases hp : id.isPool with
      | true =>
        rcases hdone hp with hi | hg
        · cases hi
          exact hfits.1
        · cases hg
          exact hfits
      | false =>
        cases phase <;> simp_all [Thread.Fits]
    subst hticket
    cases phase with
    | offering | spilling | answering => cases hquiet
    | _ => exact ⟨rfl, rfl, rfl, rfl⟩
  have hanswered := h.answered
  have hplaced := h.placed
  have hqueue := queue_eq_nil_of_atRest hf hc hh hrest
  have hs₁ : (p.threads.sum fun _ t => t.offers sel + t.expects sel) = 0 := by
    refine Table.sum_eq_zero fun id t ht => ?_
    obtain ⟨-, ho, he, -⟩ := hzero id t ht
    rw [ho, he]
  have hs₂ : (p.threads.sum fun _ t => t.owns sel + t.offers sel + t.drops sel) = 0 := by
    refine Table.sum_eq_zero fun id t ht => ?_
    obtain ⟨hw, ho, -, hd⟩ := hzero id t ht
    rw [hw, ho, hd]
  rw [hs₁, countP_answers] at hanswered
  rw [hs₂, hqueue, List.countP_nil] at hplaced
  rw [countP_answers]
  omega

end Pool
end JobRunner
