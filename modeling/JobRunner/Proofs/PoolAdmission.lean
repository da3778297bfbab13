import JobRunner.Proofs.PoolBarrier
/-!
# How a pool takes units on

What a submission answers is settled at one step of its thread and told at a later one, while workers empty the queue and
somebody may close the pool.  A trace keeps the steps of a run, each with the pool before it, so that what is told can be
compared with what was found.

A unit visits the queue once at most.  A thread of its own is wanted for it only if the queue was full at that visit, and
therefore it never enters the queue, whether the thread can be made or not; it is turned away only when somebody has begun
to close the pool; and units leave the queue in the order in which they entered it.
-/
namespace JobRunner
namespace Pool

variable {σ υ : Type} {passes : σ → σ → Prop} {p q p₀ : Pool σ υ} {id : ThreadId} {t t' : Thread σ υ} {e : Entry υ}
  {new : List (Event υ)} {steps pre post : List (ThreadId × Pool σ υ)} {k n : Nat}
  {name : String} {workers : Nat} {code : υ → Code σ υ} {shared : σ} {grants : Nat → Bool}

/-! ## Traces -/

/-- Runs, with the steps that were taken: which thread took each of them, and the pool before it. -/
inductive Trace (passes : σ → σ → Prop) (p₀ : Pool σ υ) : List (ThreadId × Pool σ υ) → Pool σ υ → Prop where
  | refl : Trace passes p₀ [] p₀
  | thread {steps : List (ThreadId × Pool σ υ)} {p q : Pool σ υ} (id : ThreadId) (before : Trace passes p₀ steps p)
    (h : p.step id = some q) : Trace passes p₀ (steps ++ [(id, p)]) q
  | passing {steps : List (ThreadId × Pool σ υ)} {p : Pool σ υ} {s : σ} (before : Trace passes p₀ steps p)
    (h : passes p.shared s) : Trace passes p₀ steps { p with shared := s }
  | call {steps : List (ThreadId × Pool σ υ)} {p : Pool σ υ} (code : Code σ υ) (before : Trace passes p₀ steps p) :
    Trace passes p₀ steps (p.call code)

theorem Trace.run (h : Trace passes p₀ steps p) : Run passes p₀ (steps.flatMap fun s => s.2.seen s.1) p := by
  induction h with
  | refl => exact .refl
  | thread id _ h ih =>
    rw [List.flatMap_append, List.flatMap_singleton]
    exact ih.thread id h
  | passing _ h ih => exact ih.passing h
  | call code _ ih => exact ih.call code

/-- Every run has a trace. -/
theorem Run.exists_trace {es : List (Event υ)} (run : Run passes p₀ es p) :
    ∃ steps, Trace passes p₀ steps p ∧ es = steps.flatMap fun s => s.2.seen s.1 := by
  induction run with
  | refl => exact ⟨[], .refl, rfl⟩
  | @thread es q r id _ h ih =>
    obtain ⟨steps, ht, rfl⟩ := ih
    refine ⟨_, ht.thread id h, ?_⟩
    rw [List.flatMap_append, List.flatMap_singleton]
  | passing _ h ih =>
    obtain ⟨steps, ht, he⟩ := ih
    exact ⟨steps, ht.passing h, he⟩
  | call code _ ih =>
    obtain ⟨steps, ht, he⟩ := ih
    exact ⟨steps, ht.call code, he⟩

/-- The steps before a step are the trace of the pool that it was taken in. -/
theorem Trace.before {s : ThreadId × Pool σ υ} (h : Trace passes p₀ steps p) (hs : steps = pre ++ s :: post) :
    Trace passes p₀ pre s.2 ∧ ∃ q, s.2.step s.1 = some q := by
  induction h generalizing post with
  | refl => simp at hs
  | @thread steps p q id before h ih =>
    rcases List.eq_nil_or_concat post with rfl | ⟨post, last, rfl⟩
    · obtain ⟨rfl, he⟩ := List.append_inj' hs rfl
      cases he
      exact ⟨before, q, h⟩
    · rw [List.concat_eq_append, ← List.cons_append, ← List.append_assoc] at hs
      exact ih (List.append_inj' hs rfl).1
  | passing _ _ ih => exact ih hs
  | call _ _ ih => exact ih hs

/-- Lets the listed threads take a step each, if they can. -/
def walk : List ThreadId → Pool σ υ → Option (List (ThreadId × Pool σ υ) × Pool σ υ)
  | [], p => some ([], p)
  | id :: ids, p => do
    let q ← p.step id
    let r ← walk ids q
    some ((id, p) :: r.1, r.2)

theorem trace_of_walk : ∀ {ids : List ThreadId} {steps steps' : List (ThreadId × Pool σ υ)} {p q : Pool σ υ},
    Trace passes p₀ steps p → walk ids p = some (steps', q) → Trace passes p₀ (steps ++ steps') q
  | [], steps, steps', p, q, h, hw => by
    cases hw
    rw [List.append_nil]
    exact h
  | id :: ids, steps, steps', p, q, h, hw => by
    simp only [walk, Option.bind_eq_bind, Option.bind_eq_some_iff] at hw
    obtain ⟨p', hp, r, hr, he⟩ := hw
    cases he
    rw [List.append_cons]
    exact trace_of_walk (h.thread id hp) hr

/-! ## Visits to the queue -/

/-- The unit that a thread in this phase brings to the queue. -/
@[simp] def Phase.offered? : Phase σ υ → Option (Entry υ)
  | offering entry _ => some entry
  | _ => none

/-- The unit that found no place in the queue. -/
@[simp] def Phase.spilled? : Phase σ υ → Option (Entry υ)
  | spilling entry _ => some entry
  | _ => none

def Phase.isIdle : Phase σ υ → Bool
  | idle => true
  | _ => false

/-- The thread is about to tell that a unit was turned away. -/
def Phase.turnsAway : Phase σ υ → Bool
  | answering _ .rejected _ => true
  | _ => false

/-- The thread is about to close the pool, if nobody has. -/
def Phase.wantsClosed : Phase σ υ → Bool
  | running (.ask .close _) => true
  | _ => false

/-- The phase of the thread that takes a step. -/
def phaseAt? (s : ThreadId × Pool σ υ) : Option (Phase σ υ) := (s.2.threads.get? s.1).map Thread.phase

/-- The unit that is brought to the queue in a step. -/
def offered? (s : ThreadId × Pool σ υ) : Option (Entry υ) := (phaseAt? s).bind Phase.offered?

/-- The queue takes a unit at once. -/
def hasRoom (p : Pool σ υ) : Bool := p.isOpen && decide (p.queue.length < p.capacity)

/-- The unit that enters the queue in a step. -/
def enqueued? (s : ThreadId × Pool σ υ) : Option (Entry υ) := if s.2.hasRoom then offered? s else none

/-- The unit that leaves the queue in a step. -/
def dequeued? (s : ThreadId × Pool σ υ) : Option (Entry υ) :=
  if (phaseAt? s).any Phase.isIdle then s.2.queue.head? else none

/-- The step brings the unit with the ticket to the queue. -/
def visits (k : Nat) (s : ThreadId × Pool σ υ) : Bool := (offered? s).any fun e => e.ticket == k

/-- The step is the first of closing the pool. -/
def beginsClosing (s : ThreadId × Pool σ υ) : Bool := (phaseAt? s).any Phase.wantsClosed && !s.2.isClosed

theorem phaseAt?_eq (hid : p.threads.get? id = some t) : phaseAt? (id, p) = some t.phase := by
  rw [phaseAt?, hid, Option.map_some]

theorem offered?_eq (hid : p.threads.get? id = some t) : offered? (id, p) = t.phase.offered? := by
  rw [offered?, phaseAt?_eq hid, Option.bind_some]

/-! ### The order of the queue -/

/-- **A unit enters the queue at its end and leaves it from its front.** -/
theorem order_move (hid : p.threads.get? id = some t) (m : Move p id t new q) :
    p.queue ++ (enqueued? (id, p)).toList = (dequeued? (id, p)).toList ++ q.queue := by
  rw [enqueued?, offered?_eq hid, dequeued?, phaseAt?_eq hid, hasRoom]
  cases m with
  | take ht hq => simp [ht, hq, Phase.isIdle]
  | retire ht hq ho => simp [ht, hq, Phase.isIdle, Pool.put]
  | enqueue ht ho hl => simp [ht, ho, hl, Phase.isIdle]
  | overflow ht ho hl => simp [ht, Nat.not_lt.2 hl, Phase.isIdle, Pool.put]
  | tooLate ht =>
    rcases ht with ⟨ht, ho⟩ | ⟨ht, ho⟩
    · simp [ht, ho, Phase.isIdle, Pool.put]
    · simp [ht, Phase.isIdle, Pool.put]
  | start ht | leave ht | finish ht | act ht | refuse ht | offer ht | closeAgain ht | closeFirst ht | spawn ht | answer ht
  | hangUp ht | collect ht | joined ht | join ht | collectOverflow ht | joinedOverflow ht | joinOverflow ht | count ht =>
    simp [ht, Phase.isIdle, Pool.put]

theorem queue_start : (start name workers code shared grants).queue = [] := by
  unfold start
  rw [foldl_put]

theorem filterMap_concat {α β : Type} (f : α → Option β) (l : List α) (a : α) :
    (l ++ [a]).filterMap f = l.filterMap f ++ (f a).toList := by
  rw [List.filterMap_append, List.filterMap_cons]
  cases f a <;> rfl

/-- **The queue is first in, first out.** -/
theorem Trace.order (h : Trace passes (start name workers code shared grants) steps p) :
    steps.filterMap enqueued? = steps.filterMap dequeued? ++ p.queue := by
  induction h with
  | refl =>
    rw [queue_start]
    rfl
  | @thread steps p q id before h ih =>
    obtain ⟨t, hid, m⟩ := move_of_step h
    rw [filterMap_concat, filterMap_concat, ih, List.append_assoc, List.append_assoc, order_move hid m]
  | passing _ _ ih => exact ih
  | call _ _ ih => exact ih

/-! ### One visit for each unit -/

/-- Whether a thread brings the unit with the ticket to the queue, as a number. -/
def Thread.brings (k : Nat) (t : Thread σ υ) : Nat := (t.phase.offered?.any fun e => e.ticket == k).toNat

/-- The visits with a ticket so far, and those to come, are no more than the tickets that were given out. -/
def OneVisit (k : Nat) (steps : List (ThreadId × Pool σ υ)) (p : Pool σ υ) : Prop :=
  steps.countP (visits k) + (p.threads.sum fun _ t => t.brings k) ≤ issued (· == k) p.submissions

theorem toNat_visits (hid : p.threads.get? id = some t) : (visits k (id, p)).toNat = t.brings k := by
  rw [visits, offered?_eq hid, Thread.brings]

theorem OneVisit.put (h : OneVisit k steps p) (hid : p.threads.get? id = some t)
    (hq : q.threads = p.threads.insert id t')
    (ht : t'.brings k + issued (· == k) p.submissions ≤ issued (· == k) q.submissions) :
    OneVisit k (steps ++ [(id, p)]) q := by
  have hs : (q.threads.sum fun _ t => t.brings k) + t.brings k = (p.threads.sum fun _ t => t.brings k) + t'.brings k := by
    rw [hq]
    exact sum_put hid (fun _ t => t.brings k) t'
  unfold OneVisit at h ⊢
  rw [List.countP_append, countP_cons_toNat, List.countP_nil, toNat_visits hid]
  omega

theorem oneVisit_move (hf : p.Formed) (h : OneVisit k steps p) (hid : p.threads.get? id = some t)
    (m : Move p id t new q) : OneVisit k (steps ++ [(id, p)]) q := by
  cases m with
  | offer ht hc =>
    refine h.put hid rfl ?_
    show (p.submissions == k).toNat + _ ≤ issued _ (p.submissions + 1)
    rw [issued_succ, Nat.add_comm]
  | @spawn entry next handles lodgings ht hc hm =>
    have hs := hf.sum_spawn hid { ticket := some entry.ticket, phase := .starting entry }
      { t with phase := .running (next .overflow) } fun _ t => t.brings k
    unfold OneVisit at h ⊢
    rw [List.countP_append, countP_cons_toNat, List.countP_nil, toNat_visits hid]
    simp [Thread.brings, Pool.put] at hs h ⊢
    omega
  | refuse ht hc =>
    refine h.put hid rfl ?_
    show 0 + _ ≤ issued _ (p.submissions + 1)
    rw [issued_succ, Nat.zero_add]
    exact Nat.le_add_right ..
  | count ht =>
    refine h.put hid rfl (Nat.le_of_eq ?_)
    cases id with
    | _ => exact Nat.zero_add _
  | take ht | retire ht | enqueue ht | overflow ht | tooLate ht | start ht | leave ht | finish ht | act ht
  | closeAgain ht | closeFirst ht | answer ht | hangUp ht | collect ht | joined ht | join ht | collectOverflow ht
  | joinedOverflow ht | joinOverflow ht => exact h.put hid rfl (Nat.le_of_eq (Nat.zero_add _))

/-- **No unit is brought to the queue twice.** -/
theorem Trace.oneVisit (h : Trace passes (start name workers code shared grants) steps p) (k : Nat) :
    OneVisit k steps p := by
  induction h with
  | refl =>
    unfold OneVisit
    rw [submissions_start, sum_start fun n => rfl]
    exact Nat.le_refl _
  | thread id before h ih =>
    obtain ⟨t, hid, m⟩ := move_of_step h
    exact oneVisit_move before.run.formed ih hid m
  | passing _ _ ih => exact ih
  | @call steps p code before ih =>
    have hs : ((p.call code).threads.sum fun _ t => t.brings k) = p.threads.sum fun _ t => t.brings k :=
      sum_put_new before.run.formed.caller_new (fun _ t => t.brings k) { phase := .running code }
    unfold OneVisit at ih ⊢
    rw [hs]
    exact ih

theorem Trace.countP_visits_le_one (h : Trace passes (start name workers code shared grants) steps p) (k : Nat) :
    steps.countP (visits k) ≤ 1 := by
  have hone := h.oneVisit k
  have hissued := issued_le_one k p.submissions
  unfold OneVisit at hone
  omega

/-! ## Full queues -/

/-- A unit that found no place in the queue found an open queue with all places taken. -/
def Crowded (steps : List (ThreadId × Pool σ υ)) (id : ThreadId) (t : Thread σ υ) : Prop :=
  ∀ e, t.phase.spilled? = some e →
    ∃ s ∈ steps, s.1 = id ∧ offered? s = some e ∧ s.2.isOpen = true ∧ s.2.capacity ≤ s.2.queue.length

theorem Crowded.mono (h : Crowded steps id t) (post : List (ThreadId × Pool σ υ)) : Crowded (steps ++ post) id t := by
  intro e he
  obtain ⟨s, hs, hcrowd⟩ := h e he
  exact ⟨s, List.mem_append_left _ hs, hcrowd⟩

theorem crowded_of_spilled?_eq_none (h : t.phase.spilled? = none) : Crowded steps id t := by
  intro e he
  rw [h] at he
  cases he

theorem crowded_move (h : ∀ i u, p.threads.get? i = some u → Crowded steps i u) (hid : p.threads.get? id = some t)
    (m : Move p id t new q) : ∀ i u, q.threads.get? i = some u → Crowded (steps ++ [(id, p)]) i u := by
  have hold : ∀ i u, p.threads.get? i = some u → Crowded (steps ++ [(id, p)]) i u := fun i u hu => (h i u hu).mono _
  cases m with
  | @overflow entry next ht ho hl =>
    refine Table.forall_insert hold fun e he => ?_
    cases he
    refine ⟨(id, p), List.mem_append_right _ (List.mem_singleton_self _), rfl, ?_, ho, hl⟩
    rw [offered?_eq hid, ht]
    rfl
  | spawn ht hc =>
    exact Table.forall_insert (Table.forall_insert hold (crowded_of_spilled?_eq_none rfl)) (crowded_of_spilled?_eq_none rfl)
  | count ht =>
    refine Table.forall_insert hold (crowded_of_spilled?_eq_none ?_)
    cases id with
    | _ => rfl
  | take | retire | start | leave | finish | act | refuse | offer | closeAgain | closeFirst | enqueue | tooLate | answer
  | hangUp | collect | joined | join | collectOverflow | joinedOverflow | joinOverflow =>
    exact Table.forall_insert hold (crowded_of_spilled?_eq_none rfl)

theorem Trace.crowded (h : Trace passes (start name workers code shared grants) steps p) :
    ∀ i u, p.threads.get? i = some u → Crowded steps i u := by
  induction h with
  | refl => exact forall_start fun n => crowded_of_spilled?_eq_none rfl
  | thread id _ h ih =>
    obtain ⟨t, hid, m⟩ := move_of_step h
    exact crowded_move ih hid m
  | passing _ _ ih => exact ih
  | call _ _ ih => exact Table.forall_insert ih (crowded_of_spilled?_eq_none rfl)

/-! ## Closed pools -/

/-- The queue is open as long as the pool is not closed, and units are turned away from closed pools only. -/
structure Gated (p : Pool σ υ) : Prop where
  queue : p.isOpen = false → p.isClosed = true
  rejected : ∀ i u, p.threads.get? i = some u → u.phase.turnsAway = true → p.isClosed = true

theorem Gated.put (h : p.Gated) (hq : q.threads = p.threads.insert id t') (hc : q.isClosed = p.isClosed)
    (ho : q.isOpen = false → p.isOpen = false) (ht : t'.phase.turnsAway = true → p.isClosed = true) : q.Gated := by
  refine ⟨fun hopen => ?_, ?_⟩
  · rw [hc]
    exact h.queue (ho hopen)
  · rw [hq, hc]
    exact Table.forall_insert h.rejected ht

theorem gated_move (hclosing : p.Closing) (h : p.Gated) (hid : p.threads.get? id = some t) (m : Move p id t new q) :
    q.Gated := by
  cases m with
  | closeFirst ht hc => exact ⟨fun _ => rfl, fun _ _ _ _ => rfl⟩
  | hangUp ht =>
    have hclosed : p.isClosed = true := hclosing.isClosed hid (by rw [ht]; rfl)
    exact ⟨fun _ => hclosed, fun _ _ _ _ => hclosed⟩
  | refuse ht hc => exact h.put rfl rfl (fun ho => ho) fun _ => hc
  | tooLate ht =>
    refine h.put rfl rfl (fun ho => ho) fun _ => ?_
    rcases ht with ⟨-, ho⟩ | ⟨-, hc⟩
    · exact h.queue ho
    · exact hc
  | @spawn entry next handles lodgings ht hc hm =>
    have hmade : (p.put (.overflow p.counters.overflow) { ticket := some entry.ticket, phase := .starting entry }).Gated :=
      h.put rfl rfl (fun ho => ho) nofun
    exact hmade.put rfl rfl (fun ho => ho) nofun
  | count ht =>
    refine h.put rfl rfl (fun ho => ho) ?_
    cases id with
    | _ => exact nofun
  | take | retire | start | leave | finish | act | offer | closeAgain | enqueue | overflow | answer | collect | joined | join
  | collectOverflow | joinedOverflow | joinOverflow => exact h.put rfl rfl (fun ho => ho) nofun

theorem isClosed_start : (start name workers code shared grants).isClosed = false := by
  unfold start
  rw [foldl_put]

theorem Trace.gated (h : Trace passes (start name workers code shared grants) steps p) : p.Gated := by
  induction h with
  | refl =>
    refine ⟨fun ho => ?_, forall_start fun n => nofun⟩
    unfold start at ho
    rw [foldl_put] at ho
    cases ho
  | thread id before h ih =>
    obtain ⟨t, hid, m⟩ := move_of_step h
    exact gated_move before.run.closing ih hid m
  | passing _ _ ih => exact ⟨ih.queue, ih.rejected⟩
  | call code _ ih => exact ih.put rfl rfl (fun ho => ho) nofun

/-- A step closes the pool only if its thread was about to do so. -/
theorem Move.begins_of_isClosed (hid : p.threads.get? id = some t) (m : Move p id t new q) (hq : q.isClosed = true) :
    p.isClosed = true ∨ beginsClosing (id, p) = true := by
  cases m with
  | closeFirst ht hc =>
    refine .inr ?_
    rw [beginsClosing, phaseAt?_eq hid, hc, ht]
    rfl
  | _ => exact .inl hq

/-- **A pool is closed only by somebody.** -/
theorem Trace.closed (h : Trace passes (start name workers code shared grants) steps p) (hc : p.isClosed = true) :
    ∃ s ∈ steps, beginsClosing s = true := by
  induction h with
  | refl =>
    rw [isClosed_start] at hc
    cases hc
  | @thread steps p q id _ h ih =>
    obtain ⟨t, hid, m⟩ := move_of_step h
    rcases m.begins_of_isClosed hid hc with hclosed | hbegins
    · obtain ⟨s, hs, hbegins⟩ := ih hclosed
      exact ⟨s, List.mem_append_left _ hs, hbegins⟩
    · exact ⟨_, List.mem_append_right _ (List.mem_singleton_self _), hbegins⟩
  | passing _ _ ih => exact ih hc
  | call _ _ ih => exact ih hc

/-! ## Bounds -/

/-- The workers that have a unit. -/
def working (p : Pool σ υ) : Nat := p.threads.entries.countP fun e => e.1.isWorker && e.2.ticket.isSome

/-- The units that workers execute, their own and those that they run in the place of threads that could not be made; a unit
that waits for a lodger is not executed meanwhile. -/
def executing (p : Pool σ υ) : Nat :=
  p.threads.entries.countP fun e => (p.runner e.1).isWorker && e.2.ticket.isSome && !p.isHosting e.1

/-- There are so many workers and places for twice as many units. -/
structure Bounded (n : Nat) (p : Pool σ υ) : Prop where
  workers : p.workers = n
  queue : p.queue.length ≤ p.capacity
  staff : ∀ i u, p.threads.get? i = some u → ∀ m, i = .worker m → m < n

theorem Bounded.put (h : Bounded n p) (hid : p.threads.get? id = some t) (hq : q.threads = p.threads.insert id t')
    (hw : q.workers = p.workers) (hl : q.queue.length ≤ p.capacity) : Bounded n q := by
  refine ⟨hw.trans h.workers, ?_, ?_⟩
  · rw [capacity, hw]
    exact hl
  · rw [hq]
    exact Table.forall_insert h.staff (h.staff id t hid)

theorem bounded_move (h : Bounded n p) (hid : p.threads.get? id = some t) (m : Move p id t new q) :
    Bounded n q := by
  cases m with
  | take ht hq =>
    refine h.put hid rfl rfl (Nat.le_trans ?_ h.queue)
    rw [hq]
    exact Nat.le_succ _
  | enqueue ht ho hl =>
    refine h.put hid rfl rfl ?_
    rw [List.length_append]
    exact hl
  | spawn ht hc =>
    refine ⟨h.workers, h.queue, Table.forall_insert (Table.forall_insert h.staff nofun) (h.staff id t hid)⟩
  | retire | start | leave | finish | act | refuse | offer | closeAgain | closeFirst | overflow | tooLate | answer | hangUp
  | collect | joined | join | collectOverflow | joinedOverflow | joinOverflow | count => exact h.put hid rfl rfl h.queue

theorem Trace.bounded (h : Trace passes (start name workers code shared grants) steps p) : Bounded (max workers 1) p := by
  induction h with
  | refl =>
    refine ⟨?_, ?_, fun i u hu m hm => ?_⟩
    · unfold start
      rw [foldl_put]
    · rw [queue_start]
      exact Nat.zero_le _
    · rw [get?_start, Option.ite_none_right_eq_some] at hu
      obtain ⟨m', hm', rfl⟩ := List.mem_map.1 hu.1
      cases hm
      exact List.mem_range.1 hm'
  | thread id _ h ih =>
    obtain ⟨t, hid, m⟩ := move_of_step h
    exact bounded_move ih hid m
  | passing _ _ ih => exact ⟨ih.workers, ih.queue, ih.staff⟩
  | call _ _ ih => exact ⟨ih.workers, ih.queue, Table.forall_insert ih.staff nofun⟩

/-- Threads that stand each for a worker of its own are no more than there are workers. -/
theorem Bounded.length_le (h : Bounded n p) {l : List (ThreadId × Thread σ υ)} {f : ThreadId × Thread σ υ → ThreadId}
    (hf : ∀ e ∈ l, (f e).isWorker = true ∧ ∃ u, p.threads.get? (f e) = some u) (hnodup : (l.map f).Nodup) :
    l.length ≤ n := by
  have hsub : l.map f ⊆ (List.range n).map ThreadId.worker := by
    intro i hi
    obtain ⟨e, he, rfl⟩ := List.mem_map.1 hi
    obtain ⟨hworker, u, hu⟩ := hf e he
    cases hr : f e with
    | worker m => exact List.mem_map_of_mem (List.mem_range.2 (h.staff _ u hu m hr))
    | caller | overflow => rw [hr] at hworker; cases hworker
  have hle := (List.subperm_of_subset hnodup hsub).length_le
  rwa [List.length_map, List.length_map, List.length_range] at hle

theorem Bounded.working_le (h : Bounded n p) : p.working ≤ n := by
  rw [working, List.countP_eq_length_filter]
  refine h.length_le (f := Prod.fst) (fun e he => ?_) (p.threads.nodup.sublist (List.filter_sublist.map Prod.fst))
  obtain ⟨he, hw⟩ := List.mem_filter.1 he
  exact ⟨(Bool.and_eq_true_iff.1 hw).1, e.2, Table.get?_eq_some_iff.2 he⟩

/-- **A worker executes one unit at a time.** -/
theorem Bounded.executing_le (h : Bounded n p) (hf : p.Formed) (hh : p.Housed) : p.executing ≤ n := by
  let busy := p.threads.entries.filter fun e => (p.runner e.1).isWorker && e.2.ticket.isSome && !p.isHosting e.1
  have hmem : ∀ {e}, e ∈ busy → p.threads.get? e.1 = some e.2 ∧ (p.runner e.1).isWorker = true ∧
      p.isGone e.1 = false ∧ p.isHosting e.1 = false := by
    intro e he
    obtain ⟨he, hw⟩ := List.mem_filter.1 he
    rw [Bool.and_eq_true, Bool.and_eq_true, Bool.not_eq_true'] at hw
    obtain ⟨⟨hrunner, hticket⟩, hhost⟩ := hw
    have hget : p.threads.get? e.1 = some e.2 := Table.get?_eq_some_iff.2 he
    refine ⟨hget, hrunner, ?_, hhost⟩
    rw [Bool.eq_false_iff]
    intro hg
    rw [← ticketOf_eq hget, hf.ticketOf_eq_none hg] at hticket
    cases hticket
  -- two threads that one worker runs would both be at work, but the one hosts the other
  have hnodup : (busy.map fun e => p.runner e.1).Nodup := by
    refine List.Nodup.map_on (fun e he e' he' hr => ?_) (p.threads.nodup.of_map.filter _)
    obtain ⟨hget, -, hlive, hhost⟩ := hmem he
    obtain ⟨hget', -, hlive', hhost'⟩ := hmem he'
    have hid : e.1 = e'.1 := by
      refine Classical.byContradiction fun hne => ?_
      rcases hh.apart _ _ hlive hlive' hne hr with hx | hx
      · exact absurd (hhost.symm.trans hx) Bool.false_ne_true
      · exact absurd (hhost'.symm.trans hx) Bool.false_ne_true
    rw [← hid, hget] at hget'
    exact Prod.ext hid (Option.some.inj hget')
  rw [executing, List.countP_eq_length_filter]
  refine h.length_le (fun e he => ?_) hnodup
  obtain ⟨hget, hrunner, -, -⟩ := hmem he
  exact ⟨hrunner, (hh.isMade_runner ⟨_, hget⟩).2⟩

/-! ## Answers -/

theorem Move.of_overflow (m : Move p id t new q) (hc : t.phase.isCountable = true)
    (h : Event.answered k .overflow ∈ new) : ∃ e next, t.phase = .spilling e next ∧ e.ticket = k ∧ p.isClosed = false := by
  cases m with
  | spawn ht ho =>
    cases List.mem_singleton.1 h
    exact ⟨_, _, ht, rfl, ho⟩
  | answer ht =>
    cases List.mem_singleton.1 h
    rw [ht] at hc
    cases hc
  | count ht => cases hk : t.ticket <;> simp [hk] at h
  | start | refuse | offer => cases List.mem_singleton.1 h
  | _ => cases h

theorem Move.of_rejected (m : Move p id t new q) (h : Event.answered k .rejected ∈ new) : t.phase.turnsAway = true := by
  cases m with
  | spawn ht ho => cases List.mem_singleton.1 h
  | answer ht =>
    cases List.mem_singleton.1 h
    rw [ht]
    rfl
  | count ht => cases hk : t.ticket <;> simp [hk] at h
  | start | refuse | offer => cases List.mem_singleton.1 h
  | _ => cases h

/-- The unit of a submission that was answered with a thread of its own found the queue full at its only visit, and never
entered it; the pool was not closed when the thread was to be made. -/
structure Overflowed (n : Nat) (steps pre : List (ThreadId × Pool σ υ)) (id : ThreadId) (p : Pool σ υ) (k : Nat) :
    Prop where
  notClosed : p.isClosed = false
  visit : ∃ s ∈ pre, s.1 = id ∧ visits k s = true ∧ s.2.isOpen = true ∧ s.2.queue.length = 2 * n
  once : steps.countP (visits k) = 1
  outside : ∀ e ∈ steps.filterMap enqueued?, e.ticket ≠ k

/-- Of two things that a test finds where there is one at most, each is the other. -/
theorem eq_of_countP_le_one {α : Type} {f : α → Bool} {l : List α} {a b : α} (h : l.countP f ≤ 1) (ha : a ∈ l) (hb : b ∈ l)
    (hfa : f a = true) (hfb : f b = true) : a = b := by
  have hma : a ∈ l.filter f := List.mem_filter.2 ⟨ha, hfa⟩
  have hmb : b ∈ l.filter f := List.mem_filter.2 ⟨hb, hfb⟩
  rw [List.countP_eq_length_filter] at h
  match hl : l.filter f with
  | [] =>
    rw [hl] at hma
    cases hma
  | [x] =>
    rw [hl] at hma hmb
    rw [List.mem_singleton.1 hma, List.mem_singleton.1 hmb]
  | _ :: _ :: _ =>
    rw [hl] at h
    simp at h

theorem of_enqueued?_eq_some {s : ThreadId × Pool σ υ} (h : enqueued? s = some e) :
    visits e.ticket s = true ∧ s.2.queue.length < s.2.capacity := by
  rw [enqueued?, Option.ite_none_right_eq_some, hasRoom, Bool.and_eq_true, decide_eq_true_eq] at h
  obtain ⟨⟨-, hroom⟩, hoffered⟩ := h
  refine ⟨?_, hroom⟩
  rw [visits, hoffered, Option.any_some, beq_self_eq_true]

theorem Trace.overflowed (h : Trace passes (start name workers code shared grants) steps p) {s : ThreadId × Pool σ υ}
    (hs : steps = pre ++ s :: post) (hk : Event.answered k .overflow ∈ s.2.seen s.1) :
    Overflowed (max workers 1) steps pre s.1 s.2 k := by
  obtain ⟨id, q⟩ := s
  obtain ⟨before, r, hr⟩ := h.before hs
  obtain ⟨t, hid, m⟩ := move_of_step hr
  obtain ⟨e, next, ht, rfl, hclosed⟩ := m.of_overflow (before.run.countable id t hid) hk
  obtain ⟨s, hmem, hi, hoffered, hopen, hfull⟩ := before.crowded id t hid e (by rw [ht]; rfl)
  have hvisit : visits e.ticket s = true := by rw [visits, hoffered, Option.any_some, beq_self_eq_true]
  have hsteps : s ∈ steps := by
    rw [hs]
    exact List.mem_append_left _ hmem
  have hone := h.countP_visits_le_one e.ticket
  refine ⟨hclosed, ⟨s, hmem, hi, hvisit, hopen, ?_⟩, ?_, fun e' he' hk => ?_⟩
  · obtain ⟨pre', post', hpre⟩ := List.append_of_mem hmem
    have hbounded := (before.before hpre).1.bounded
    have hle := hbounded.queue
    rw [capacity, hbounded.workers] at hle hfull
    exact Nat.le_antisymm hle hfull
  · have hpos : 0 < steps.countP (visits e.ticket) := List.countP_pos_iff.2 ⟨s, hsteps, hvisit⟩
    exact Nat.le_antisymm hone hpos
  · obtain ⟨s', hmem', henqueued⟩ := List.mem_filterMap.1 he'
    obtain ⟨hvisit', hroom⟩ := of_enqueued?_eq_some henqueued
    rw [hk] at hvisit'
    -- the visit at which the unit entered would be the one that found the queue full
    obtain rfl := eq_of_countP_le_one hone hmem' hsteps hvisit' hvisit
    exact absurd hroom (Nat.not_lt.2 hfull)

/-- A submission is turned away only from a pool that is closed, and that somebody had begun to close before. -/
theorem Trace.rejected (h : Trace passes (start name workers code shared grants) steps p) {s : ThreadId × Pool σ υ}
    (hs : steps = pre ++ s :: post) (hk : Event.answered k .rejected ∈ s.2.seen s.1) :
    s.2.isClosed = true ∧ ∃ s' ∈ pre, beginsClosing s' = true := by
  obtain ⟨before, q, hq⟩ := h.before hs
  obtain ⟨t, hid, m⟩ := move_of_step hq
  have hclosed := before.gated.rejected _ t hid (m.of_rejected hk)
  exact ⟨hclosed, before.closed hclosed⟩

/-- How a pool of so many workers takes units on. -/
structure Admission (n : Nat) (steps : List (ThreadId × Pool σ υ)) (p : Pool σ υ) : Prop where
  waiting : p.queue.length ≤ 2 * n
  working : p.working ≤ n
  executing : p.executing ≤ n
  overflow : ∀ pre s post k, steps = pre ++ s :: post → Event.answered k .overflow ∈ s.2.seen s.1 →
    Overflowed n steps pre s.1 s.2 k
  rejected : ∀ pre s post k, steps = pre ++ s :: post → Event.answered k .rejected ∈ s.2.seen s.1 →
    s.2.isClosed = true ∧ ∃ s' ∈ pre, beginsClosing s' = true
  order : steps.filterMap enqueued? = steps.filterMap dequeued? ++ p.queue

/-- **How a pool takes units on.**  Whatever the threads do and in whatever order, a pool of `n` workers, or of one if
there should be none, has at most `2 * n` units in its queue and `n` on its workers, which never execute more than `n` at
a time, even if they have to run some for which no thread can be made.  A submission is answered with a thread of its own
only if its only visit to the queue found `2 * n` units there and the pool was not closed yet when the thread was to be
made, and such a unit never enters the queue; it is turned away only after somebody began to close the pool; and the units
that have left the queue are the first ones that entered it, in the same order. -/
theorem admission (trace : Trace passes (start name workers code shared grants) steps p) :
    Admission (max workers 1) steps p where
  waiting := by
    have hle := trace.bounded.queue
    rwa [capacity, trace.bounded.workers] at hle
  working := trace.bounded.working_le
  executing := trace.bounded.executing_le trace.run.formed trace.run.housed
  overflow _ _ _ _ hs hk := trace.overflowed hs hk
  rejected _ _ _ _ hs hk := trace.rejected hs hk
  order := trace.order

/-- Nobody empties the queue of a pool with one worker: the third unit gets a thread of its own, and the fourth, which comes
when the pool is being closed, is turned away. -/
theorem admission_sample : ∃ steps p, Trace (fun _ _ => False) (start "sample" 0 (fun _ : Nat => (.done () : Code Unit Nat)) ())
    steps p ∧ p.queue.map Entry.ticket = [0, 1] ∧ (steps.filterMap enqueued?).map Entry.ticket = [0, 1] ∧
    (∃ pre s post, steps = pre ++ s :: post ∧ Event.answered 2 .overflow ∈ s.2.seen s.1 ∧ s.2.isClosed = false ∧
      ∃ s' ∈ pre, visits 2 s' = true ∧ s'.2.queue.length = 2) ∧
    ∃ pre s post, steps = pre ++ s :: post ∧ Event.answered 3 .rejected ∈ s.2.seen s.1 ∧
      ∃ s' ∈ pre, beginsClosing s' = true := by
  let outside : Code Unit Nat := (submit 7).bind fun _ => (submit 7).bind fun _ => (submit 7).bind fun _ =>
    (submit 7).bind fun _ => .done ()
  let ids : List ThreadId := List.replicate 9 (.caller 0) ++ [.caller 1, .caller 0, .caller 0]
  let made : Pool Unit Nat := ((start "sample" 0 (fun _ => .done ()) ()).call outside).call close
  have hends : ((walk ids made).any fun r => decide (r.2.queue.map Entry.ticket = [0, 1]) &&
      decide (r.1.filterMap dequeued? = []) &&
      (r.1.any fun s => decide (Event.answered 2 .overflow ∈ s.2.seen s.1)) &&
      r.1.any fun s => decide (Event.answered 3 .rejected ∈ s.2.seen s.1)) = true := by decide +kernel
  simp only [Option.any_eq_true, Bool.and_eq_true, decide_eq_true_eq, List.any_eq_true] at hends
  obtain ⟨⟨steps, p⟩, hwalk, ⟨⟨hqueue, hnone⟩, s, hs, hover⟩, s', hs', hturned⟩ := hends
  have trace : Trace (fun _ _ => False) (start "sample" 0 (fun _ => .done ()) ()) ([] ++ steps) p :=
    trace_of_walk ((Trace.refl.call outside).call close) hwalk
  have hadmission := admission trace
  obtain ⟨pre, post, hsplit⟩ := List.append_of_mem hs
  obtain ⟨pre', post', hsplit'⟩ := List.append_of_mem hs'
  have hover' := hadmission.overflow pre s post 2 hsplit hover
  obtain ⟨s₀, hs₀, -, hvisit, -, hlength⟩ := hover'.visit
  refine ⟨steps, p, trace, hqueue, ?_, ⟨pre, s, post, hsplit, hover, hover'.notClosed, s₀, hs₀, hvisit, hlength⟩,
    pre', s', post', hsplit', hturned, (hadmission.rejected pre' s' post' 3 hsplit' hturned).2⟩
  have horder : steps.filterMap enqueued? = steps.filterMap dequeued? ++ p.queue := hadmission.order
  rw [horder, hnone, List.nil_append, hqueue]

end Pool
end JobRunner
