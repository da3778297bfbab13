import JobRunner.Proofs.PoolRun
/-!
# The shape of a pool

What is true of the threads of a pool in every run: which of them have a ticket and which numbers they bear; that no
more than one of them closes the pool, and for whom that one waits; and that a worker is gone only after the queue was
closed and emptied.
-/
namespace JobRunner
namespace Pool

variable {σ υ : Type} {passes : σ → σ → Prop} {p q : Pool σ υ} {id : ThreadId} {t : Thread σ υ} {new : List (Event υ)}

/-! ## Tickets and numbers -/

def ThreadId.isWorker : ThreadId → Bool
  | worker _ => true
  | _ => false

def ThreadId.isOverflow : ThreadId → Bool
  | overflow _ => true
  | _ => false

theorem ThreadId.isOverflow_of_isPool {w : ThreadId} (h : w.isPool = false) : w.isOverflow = false := by
  cases w with
  | caller n => rfl
  | worker n | overflow n => cases h

theorem ThreadId.isPool_iff {w : ThreadId} : w.isPool = true ↔ w.isWorker = true ∨ w.isOverflow = true := by
  cases w <;> simp [isPool, isWorker, isOverflow]

theorem ThreadId.isPool_of_isWorker {w : ThreadId} (h : w.isWorker = true) : w.isPool = true := by
  cases w with
  | worker n => rfl
  | caller n | overflow n => cases h

/-- A thread of the pool has the ticket of its unit from the moment when it gets it until the unit is counted; threads
outside never have one. -/
def Thread.Fits (id : ThreadId) (t : Thread σ υ) : Prop :=
  match t.phase with
  | .idle => t.ticket = none ∧ id.isWorker = true
  | .starting entry => t.ticket = some entry.ticket ∧ id.isPool = true
  | .counting _ => t.ticket.isSome = true ∧ id.isPool = true
  | .gone => t.ticket = none
  | _ => t.ticket.isSome = id.isPool

/-- The thread is on its way through some code. -/
def Phase.isBusy : Phase σ υ → Bool
  | idle | starting _ | counting _ | gone => false
  | _ => true

theorem fits_iff_of_isBusy (h : t.phase.isBusy = true) : t.Fits id ↔ t.ticket.isSome = id.isPool := by
  obtain ⟨ticket, phase⟩ := t
  cases phase <;> simp_all [Phase.isBusy, Thread.Fits]

/-- So many callers and overflow threads have been there, and this is none that comes later. -/
def ThreadId.Came (callers overflows : Nat) : ThreadId → Prop
  | caller n => n < callers
  | overflow n => n < overflows
  | worker _ => True

/-- Every thread fits, and none has a number that is still to be given out. -/
structure Formed (p : Pool σ υ) : Prop where
  fits : ∀ id t, p.threads.get? id = some t → t.Fits id
  came : ∀ id t, p.threads.get? id = some t → id.Came p.callers p.counters.overflow

theorem Formed.put {t' : Thread σ υ} (h : p.Formed) (hid : p.threads.get? id = some t) (ht : t'.Fits id)
    (hq : q.threads = p.threads.insert id t') (hc : q.callers = p.callers)
    (ho : q.counters.overflow = p.counters.overflow) : q.Formed := by
  refine ⟨?_, ?_⟩
  · rw [hq]
    exact Table.forall_insert h.fits ht
  · rw [hq, hc, ho]
    exact Table.forall_insert h.came (h.came id t hid)

/-- A thread that stays on its way keeps its ticket. -/
theorem Formed.keep {phase : Phase σ υ} (h : p.Formed) (hid : p.threads.get? id = some t)
    (hb : t.phase.isBusy = true) (hb' : phase.isBusy = true)
    (hq : q.threads = p.threads.insert id { t with phase }) (hc : q.callers = p.callers)
    (ho : q.counters.overflow = p.counters.overflow) : q.Formed := by
  have hf : Thread.Fits id { t with phase } :=
    (fits_iff_of_isBusy hb').2 ((fits_iff_of_isBusy hb).1 (h.fits id t hid))
  exact h.put hid hf hq hc ho

theorem Formed.overflow_new (h : p.Formed) : p.threads.get? (.overflow p.counters.overflow) = none := by
  cases hn : p.threads.get? (.overflow p.counters.overflow) with
  | none => rfl
  | some t => exact absurd (h.came _ t hn) (Nat.lt_irrefl _)

theorem Formed.caller_new (h : p.Formed) : p.threads.get? (.caller p.callers) = none := by
  cases hn : p.threads.get? (.caller p.callers) with
  | none => rfl
  | some t => exact absurd (h.came _ t hn) (Nat.lt_irrefl _)

theorem Formed.overflow_ne (h : p.Formed) (hid : p.threads.get? id = some t) :
    ThreadId.overflow p.counters.overflow ≠ id := by
  rintro rfl
  rw [h.overflow_new] at hid
  cases hid

theorem overflow_answer (c : Counters) (a : Submission) : (c.answer a).overflow = c.overflow := by
  cases a <;> rfl

theorem overflow_unit (c : Counters) (crashed : Bool) : (c.unit crashed).overflow = c.overflow := by
  cases crashed <;> rfl

/-- Callers, idle workers and threads that are gone have no unit. -/
theorem Formed.ticket_eq_none {w : ThreadId} (h : p.Formed) (hw : p.threads.get? w = some t)
    (ht : w.isPool = false ∨ t.phase = .idle ∨ t.phase = .gone) : t.ticket = none := by
  have hfits := h.fits w t hw
  obtain ⟨ticket, phase⟩ := t
  rcases ht with hp | hi | hg
  · cases w <;> cases phase <;> simp_all [Thread.Fits, ThreadId.isPool, ThreadId.isWorker]
  · cases hi
    exact hfits.1
  · cases hg
    exact hfits

theorem Formed.add_overflow {t' : Thread σ υ} (h : p.Formed) (ht : t'.Fits (.overflow p.counters.overflow)) :
    Formed { p.put (.overflow p.counters.overflow) t' with
      counters := { p.counters with overflow := p.counters.overflow + 1 } } := by
  refine ⟨Table.forall_insert h.fits ht, Table.forall_insert (fun id u hu => ?_) (Nat.lt_succ_self _)⟩
  have hn := h.came id u hu
  cases id with
  | caller n => exact hn
  | worker n => trivial
  | overflow n => exact Nat.lt_succ_of_lt hn

theorem formed_call (h : p.Formed) (code : Code σ υ) : (p.call code).Formed := by
  refine ⟨Table.forall_insert h.fits rfl, Table.forall_insert (fun id u hu => ?_) (Nat.lt_succ_self _)⟩
  have hn := h.came id u hu
  cases id with
  | caller n => exact Nat.lt_succ_of_lt hn
  | worker n => trivial
  | overflow n => exact hn

theorem forall_start {name : String} {workers : Nat} {code : υ → Code σ υ} {shared : σ} {grants : Nat → Bool}
    {P : ThreadId → Thread σ υ → Prop} (h : ∀ n, P (.worker n) { phase := .idle }) :
    ∀ id t, (start name workers code shared grants).threads.get? id = some t → P id t := by
  intro id t ht
  rw [get?_start, Option.ite_none_right_eq_some] at ht
  obtain ⟨hm, ht⟩ := ht
  cases ht
  obtain ⟨n, -, rfl⟩ := List.mem_map.1 hm
  exact h n

theorem formed_move (h : p.Formed) (hid : p.threads.get? id = some t) (m : Move p id t new q) : q.Formed := by
  have hf := h.fits id t hid
  cases m with
  | take ht hq =>
    rw [Thread.Fits, ht] at hf
    refine h.put hid ?_ rfl rfl rfl
    exact ⟨rfl, ThreadId.isPool_of_isWorker hf.2⟩
  | retire ht hq ho =>
    rw [Thread.Fits, ht] at hf
    refine h.put hid ?_ rfl rfl rfl
    exact hf.1
  | start ht =>
    rw [Thread.Fits, ht] at hf
    refine h.put hid ?_ rfl rfl rfl
    show t.ticket.isSome = id.isPool
    rw [hf.1, hf.2, Option.isSome_some]
  | leave ht hc hi =>
    rw [fits_iff_of_isBusy (by rw [ht]; rfl), hi] at hf
    refine h.put hid ?_ rfl rfl rfl
    exact Option.not_isSome_iff_eq_none.1 (Bool.eq_false_iff.1 hf)
  | finish ht hi =>
    rw [fits_iff_of_isBusy (by rw [ht]; rfl), hi] at hf
    refine h.put hid ?_ rfl rfl rfl
    exact ⟨hf, hi⟩
  | tooLate ht =>
    have hb : t.phase.isBusy = true := by
      rcases ht with ⟨ht, -⟩ | ⟨ht, -⟩ <;> rw [ht] <;> rfl
    exact h.keep hid hb rfl rfl rfl rfl
  | @spawn entry next handles lodgings ht hc hm =>
    have hnew : Thread.Fits (.overflow p.counters.overflow)
      { ticket := some entry.ticket, phase := (.starting entry : Phase σ υ) } := ⟨rfl, rfl⟩
    exact (h.add_overflow hnew).keep ((get?_put_ne (h.overflow_ne hid)).trans hid) (by rw [ht]; rfl) rfl rfl rfl rfl
  | answer ht => exact h.keep hid (by rw [ht]; rfl) rfl rfl rfl (overflow_answer ..)
  | count ht =>
    refine h.put hid ?_ rfl rfl (overflow_unit ..)
    rw [Thread.Fits, ht] at hf
    cases id with
    | caller n => exact absurd hf.2 Bool.false_ne_true
    | worker n => exact ⟨rfl, rfl⟩
    | overflow n => rfl
  | act ht | refuse ht | offer ht | closeAgain ht | closeFirst ht | enqueue ht | overflow ht | hangUp ht | collect ht
  | joined ht | join ht | collectOverflow ht | joinedOverflow ht | joinOverflow ht =>
    exact h.keep hid (by rw [ht]; rfl) rfl rfl rfl rfl

theorem formed_start (name : String) (workers : Nat) (code : υ → Code σ υ) (shared : σ) (grants : Nat → Bool) :
    (start name workers code shared grants).Formed := by
  refine ⟨forall_start fun n => ?_, forall_start fun n => ?_⟩
  · exact ⟨rfl, rfl⟩
  · trivial

theorem Formed.run {es : List (Event υ)} (h : p.Formed) (run : Run passes p es q) : q.Formed := by
  induction run with
  | refl => exact h
  | thread id _ hs ih =>
    obtain ⟨t, ht, m⟩ := move_of_step hs
    exact formed_move ih ht m
  | passing _ _ ih => exact ⟨ih.fits, ih.came⟩
  | call code _ ih => exact formed_call ih code

theorem Run.formed {name : String} {workers : Nat} {code : υ → Code σ υ} {shared : σ} {grants : Nat → Bool}
    {es : List (Event υ)} (run : Run passes (start name workers code shared grants) es p) : p.Formed :=
  (formed_start ..).run run

/-! ## Threads that are gone -/

theorem isGone_eq_true_iff {w : ThreadId} :
    p.isGone w = true ↔ ∀ u, p.threads.get? w = some u → u.phase = .gone := by
  unfold isGone
  cases hw : p.threads.get? w with
  | none => simp
  | some u =>
    obtain ⟨ticket, phase⟩ := u
    cases phase <;> simp [Phase.isGone]

theorem exists_of_isGone_eq_false {w : ThreadId} (h : p.isGone w = false) :
    ∃ u, p.threads.get? w = some u ∧ u.phase ≠ .gone := by
  unfold isGone at h
  cases hw : p.threads.get? w with
  | none => rw [hw] at h; cases h
  | some u =>
    refine ⟨u, rfl, fun hg => ?_⟩
    rw [hw, Option.map_some, hg] at h
    cases h

theorem isGone_of_get?_eq {w : ThreadId} (h : q.threads.get? w = p.threads.get? w) : q.isGone w = p.isGone w := by
  unfold isGone
  rw [h]

theorem Move.phase_ne_gone (m : Move p id t new q) : t.phase ≠ .gone := by
  intro hg
  cases m with
  | tooLate ht => rcases ht with ⟨ht, -⟩ | ⟨ht, -⟩ <;> rw [ht] at hg <;> cases hg
  | take ht | retire ht | start ht | leave ht | finish ht | act ht | refuse ht | offer ht | closeAgain ht
  | closeFirst ht | enqueue ht | overflow ht | spawn ht | answer ht | hangUp ht | collect ht | joined ht | join ht
  | collectOverflow ht | joinedOverflow ht | joinOverflow ht | count ht => rw [ht] at hg; cases hg

/-- A step changes nothing for other threads that are there. -/
theorem Move.get?_of_ne {w : ThreadId} (m : Move p id t new q) (hne : id ≠ w)
    (hnew : ThreadId.overflow p.counters.overflow ≠ w) : q.threads.get? w = p.threads.get? w := by
  cases m with
  | spawn => exact (get?_put_ne hne).trans (get?_put_ne hnew)
  | _ => exact get?_put_ne hne

/-- **Who is gone stays gone**, but that a thread may come for a unit while the pool is not closed. -/
theorem Move.isGone {w : ThreadId} (m : Move p id t new q) (hid : p.threads.get? id = some t) (hw : p.isGone w = true) :
    q.isGone w = true ∨ p.isClosed = false ∧ w = .overflow p.counters.overflow := by
  have hne : id ≠ w := by
    rintro rfl
    exact m.phase_ne_gone (isGone_eq_true_iff.1 hw t hid)
  by_cases hnew : ThreadId.overflow p.counters.overflow = w
  · cases m with
    | spawn ht hc => exact .inr ⟨hc, hnew.symm⟩
    | _ => exact .inl ((isGone_of_get?_eq (get?_put_ne hne)).trans hw)
  · exact .inl ((isGone_of_get?_eq (m.get?_of_ne hne hnew)).trans hw)

/-! ## Closing -/

/-- The thread closes the pool. -/
def Phase.isClosing : Phase σ υ → Bool
  | hangingUp _ | collecting _ | joining _ _ | collectingOverflow _ | joiningOverflow _ _ => true
  | _ => false

/-- The thread closes the pool and has closed the queue. -/
def Phase.hasHungUp : Phase σ υ → Bool
  | collecting _ | joining _ _ | collectingOverflow _ | joiningOverflow _ _ => true
  | _ => false

/-- The threads for which a thread waits. -/
def Phase.waitsFor : Phase σ υ → List ThreadId
  | joining rest _ | joiningOverflow rest _ => rest
  | _ => []

/-- Who closes the pool waits for threads of the pool only, behind a closed queue; a worker is gone only when nothing
can come any more. -/
def Thread.Orderly (p : Pool σ υ) (id : ThreadId) (t : Thread σ υ) : Prop :=
  (t.phase.hasHungUp = true → p.isOpen = false) ∧ (∀ w ∈ t.phase.waitsFor, w.isPool = true) ∧
    (t.phase.isGone = true → id.isWorker = true → p.isOpen = false ∧ p.queue = [])

theorem orderly_of_isClosing_eq_false (hc : t.phase.isClosing = false)
    (hg : t.phase.isGone = true → id.isWorker = false) : t.Orderly p id := by
  have h : t.phase.hasHungUp = false ∧ t.phase.waitsFor = [] := by
    obtain ⟨ticket, phase⟩ := t
    cases phase <;> simp_all [Phase.isClosing, Phase.hasHungUp, Phase.waitsFor]
  refine ⟨fun hh => ?_, fun w hw => ?_, fun hh hw => ?_⟩
  · rw [h.1] at hh
    cases hh
  · rw [h.2] at hw
    cases hw
  · rw [hg hh] at hw
    cases hw

theorem Thread.Orderly.mono (h : t.Orderly p id)
    (ho : p.isOpen = false → q.isOpen = false ∧ (p.queue = [] → q.queue = [])) : t.Orderly q id := by
  refine ⟨fun hh => (ho (h.1 hh)).1, h.2.1, fun hg hw => ?_⟩
  obtain ⟨hopen, hq⟩ := h.2.2 hg hw
  exact ⟨(ho hopen).1, (ho hopen).2 hq⟩

/-- All is in order, one thread at most closes the pool, and none before it is marked as closed; the lists of threads to
wait for are right; and there is a worker. -/
structure Closing (p : Pool σ υ) : Prop where
  one : (p.threads.sum fun _ t => t.phase.isClosing.toNat) + (!p.isClosed).toNat ≤ 1
  orderly : ∀ id t, p.threads.get? id = some t → t.Orderly p id
  listed : (∀ w ∈ p.handles, w.isPool = true) ∧ ∀ w ∈ p.overflowHandles, w.isPool = true
  staffed : ∃ t, p.threads.get? (.worker 0) = some t

theorem staffed_insert {ts : Table ThreadId (Thread σ υ)} (h : ∃ t, ts.get? (.worker 0) = some t) :
    ∃ u, (ts.insert id t).get? (.worker 0) = some u := by
  obtain ⟨u, hu⟩ := h
  by_cases he : id = .worker 0
  · exact ⟨t, by rw [he, Table.get?_insert_self]⟩
  · exact ⟨u, by rw [Table.get?_insert_ne he, hu]⟩

theorem Closing.put {t' : Thread σ υ} (h : p.Closing) (hid : p.threads.get? id = some t)
    (hq : q.threads = p.threads.insert id t')
    (hone : t'.phase.isClosing.toNat + (!q.isClosed).toNat ≤ t.phase.isClosing.toNat + (!p.isClosed).toNat)
    (ho : p.isOpen = false → q.isOpen = false ∧ (p.queue = [] → q.queue = [])) (ht : t'.Orderly q id)
    (hl : (∀ w ∈ q.handles, w.isPool = true) ∧ ∀ w ∈ q.overflowHandles, w.isPool = true) : q.Closing := by
  refine ⟨?_, ?_, hl, ?_⟩
  · have hs := sum_put hid (fun _ t => t.phase.isClosing.toNat) t'
    have hp := h.one
    unfold Pool.put at hs
    dsimp only at hs
    rw [hq]
    omega
  · rw [hq]
    exact Table.forall_insert (fun id u hu => (h.orderly id u hu).mono ho) ht
  · rw [hq]
    exact staffed_insert h.staffed

/-- A step that changes neither the marks nor the queue, of a thread that does not begin to close the pool. -/
theorem Closing.keep {t' : Thread σ υ} (h : p.Closing) (hid : p.threads.get? id = some t)
    (hq : q.threads = p.threads.insert id t') (hc : q.isClosed = p.isClosed) (ho : q.isOpen = p.isOpen)
    (hu : q.queue = p.queue) (hp : t'.phase.isClosing = true → t.phase.isClosing = true) (ht : t'.Orderly q id)
    (hl : (∀ w ∈ q.handles, w.isPool = true) ∧ ∀ w ∈ q.overflowHandles, w.isPool = true) : q.Closing := by
  refine h.put hid hq ?_ ?_ ht hl
  · rw [hc]
    cases hx : t'.phase.isClosing with
    | false => exact Nat.add_le_add_right (Nat.zero_le _) _
    | true => exact Nat.le_of_eq (by rw [hp hx])
  · rw [ho, hu]
    exact fun h => ⟨h, fun he => he⟩

theorem Closing.add {t' : Thread σ υ} (h : p.Closing) (hn : p.threads.get? id = none)
    (hq : q.threads = p.threads.insert id t') (hc : q.isClosed = p.isClosed) (ho : q.isOpen = p.isOpen)
    (hu : q.queue = p.queue) (hp : t'.phase.isClosing = false) (hg : t'.phase.isGone = false)
    (hl : (∀ w ∈ q.handles, w.isPool = true) ∧ ∀ w ∈ q.overflowHandles, w.isPool = true) : q.Closing := by
  refine ⟨?_, ?_, hl, ?_⟩
  · have hs := sum_put_new hn (fun _ t => t.phase.isClosing.toNat) t'
    have hone := h.one
    unfold Pool.put at hs
    dsimp only at hs
    rw [hp, Bool.toNat_false] at hs
    rw [hq, hc]
    omega
  · rw [hq]
    refine Table.forall_insert (fun id u hu' => (h.orderly id u hu').mono ?_) (orderly_of_isClosing_eq_false hp ?_)
    · rw [ho, hu]
      exact fun h => ⟨h, fun he => he⟩
    · rw [hg]
      exact fun hf => absurd hf Bool.false_ne_true
  · rw [hq]
    exact staffed_insert h.staffed

theorem closing_call (hf : p.Formed) (h : p.Closing) (code : Code σ υ) : (p.call code).Closing :=
  h.add hf.caller_new rfl rfl rfl rfl rfl rfl h.listed

theorem closing_start (name : String) (workers : Nat) (code : υ → Code σ υ) (shared : σ) (grants : Nat → Bool) :
    (start name workers code shared grants).Closing := by
  refine ⟨?_, forall_start fun n => ?_, ?_, ?_⟩
  · have hz : ((start name workers code shared grants).threads.sum fun _ t => t.phase.isClosing.toNat) = 0 :=
      Table.sum_eq_zero (forall_start fun n => rfl)
    rw [hz, Nat.zero_add]
    exact Bool.toNat_le _
  · exact orderly_of_isClosing_eq_false rfl fun hf => absurd hf Bool.false_ne_true
  · unfold start
    rw [foldl_put]
    refine ⟨fun w hw => ?_, fun w hw => absurd hw List.not_mem_nil⟩
    obtain ⟨n, -, rfl⟩ := List.mem_map.1 hw
    rfl
  · refine ⟨{ phase := .idle }, ?_⟩
    rw [get?_start, if_pos]
    exact List.mem_map.2 ⟨0, List.mem_range.2 (by omega), rfl⟩

/-- The list of overflow threads gains the new thread at most. -/
theorem Entered.mem {handles : List ThreadId} {lodgings : Table ThreadId Lodging} {w : ThreadId}
    (h : Entered p id handles lodgings) (hw : w ∈ handles) :
    w ∈ p.overflowHandles ∨ w = .overflow p.counters.overflow := by
  cases h with
  | made hg =>
    rcases List.mem_append.1 hw with hw | hw
    · exact .inl (List.mem_filter.1 hw).1
    · exact .inr (List.mem_singleton.1 hw)
  | refused hg => exact .inl hw

theorem closing_move (hf : p.Formed) (h : p.Closing) (hid : p.threads.get? id = some t) (m : Move p id t new q) :
    q.Closing := by
  have hne : ∀ {P : Prop}, false = true → P := fun hf => absurd hf Bool.false_ne_true
  have hord := h.orderly id t hid
  unfold Thread.Orderly at hord
  cases m with
  | @take entry rest ht hq =>
    refine h.put hid rfl ?_ ?_ (orderly_of_isClosing_eq_false rfl hne) h.listed
    · rw [ht]
      exact Nat.le_refl _
    · rw [hq]
      exact fun ho => ⟨ho, fun he => absurd he (List.cons_ne_nil entry rest)⟩
  | retire ht hq ho =>
    refine h.keep hid rfl rfl rfl rfl hne ?_ h.listed
    exact ⟨fun _ => ho, fun w hw => absurd hw List.not_mem_nil, fun _ _ => ⟨ho, hq⟩⟩
  | leave ht hc hi =>
    refine h.keep hid rfl rfl rfl rfl hne (orderly_of_isClosing_eq_false rfl fun _ => ?_) h.listed
    cases id with
    | worker n => cases hi
    | caller n | overflow n => rfl
  | count ht =>
    cases id with
    | worker n => exact h.keep hid rfl rfl rfl rfl hne (orderly_of_isClosing_eq_false rfl hne) h.listed
    | caller n | overflow n =>
      exact h.keep hid rfl rfl rfl rfl hne (orderly_of_isClosing_eq_false rfl fun _ => rfl) h.listed
  | closeFirst ht hc =>
    refine h.put hid rfl ?_ (fun ho => ⟨ho, fun he => he⟩) ?_ h.listed
    · rw [hc]
      exact Nat.le_add_left ..
    · exact ⟨hne, fun w hw => absurd hw List.not_mem_nil, hne⟩
  | enqueue ht ho hl =>
    refine h.put hid rfl ?_ ?_ (orderly_of_isClosing_eq_false rfl hne) h.listed
    · rw [ht]
      exact Nat.le_refl _
    · rw [ho]
      exact fun hf => absurd hf.symm Bool.false_ne_true
  | @spawn entry next handles lodgings ht hc hm =>
    -- first comes the new thread, then the one that made it goes on
    let made : Pool σ υ := { p.put (.overflow p.counters.overflow)
        { ticket := some entry.ticket, phase := .starting entry } with overflowHandles := handles }
    have hmade : made.Closing := by
      refine h.add hf.overflow_new rfl rfl rfl rfl rfl rfl ⟨h.listed.1, fun w hw => ?_⟩
      rcases hm.mem hw with hw | rfl
      · exact h.listed.2 w hw
      · rfl
    have hkept : made.threads.get? id = some t := (get?_put_ne (hf.overflow_ne hid)).trans hid
    exact hmade.keep hkept rfl rfl rfl rfl hne (orderly_of_isClosing_eq_false rfl hne) hmade.listed
  | hangUp ht =>
    refine h.put hid rfl ?_ (fun _ => ⟨rfl, fun he => he⟩) ?_ h.listed
    · rw [ht]
      exact Nat.le_refl _
    · exact ⟨fun _ => rfl, fun w hw => absurd hw List.not_mem_nil, hne⟩
  | collect ht =>
    rw [ht] at hord
    refine h.keep hid rfl rfl rfl rfl (fun _ => by rw [ht]; rfl) ?_ ⟨fun w hw => absurd hw List.not_mem_nil, h.listed.2⟩
    exact ⟨hord.1, h.listed.1, hne⟩
  | joined ht =>
    rw [ht] at hord
    refine h.keep hid rfl rfl rfl rfl (fun _ => by rw [ht]; rfl) ?_ h.listed
    exact ⟨hord.1, fun w hw => absurd hw List.not_mem_nil, hne⟩
  | join ht hh | joinOverflow ht hh =>
    rw [ht] at hord
    refine h.keep hid rfl rfl rfl rfl (fun _ => by rw [ht]; rfl) ?_ h.listed
    exact ⟨hord.1, fun w hw => hord.2.1 w (List.mem_cons_of_mem _ hw), hne⟩
  | collectOverflow ht =>
    rw [ht] at hord
    refine h.keep hid rfl rfl rfl rfl (fun _ => by rw [ht]; rfl) ?_ ⟨h.listed.1, fun w hw => absurd hw List.not_mem_nil⟩
    exact ⟨hord.1, h.listed.2, hne⟩
  | start ht | finish ht | act ht | refuse ht | offer ht | closeAgain ht | overflow ht | tooLate ht | answer ht
  | joinedOverflow ht =>
    exact h.keep hid rfl rfl rfl rfl hne (orderly_of_isClosing_eq_false rfl hne) h.listed

theorem Run.closing {name : String} {workers : Nat} {code : υ → Code σ υ} {shared : σ} {grants : Nat → Bool}
    {es : List (Event υ)}
    (run : Run passes (start name workers code shared grants) es p) : p.Closing := by
  induction run with
  | refl => exact closing_start ..
  | thread id before h ih =>
    obtain ⟨t, ht, m⟩ := move_of_step h
    exact closing_move before.formed ih ht m
  | passing _ _ ih => exact ⟨ih.one, ih.orderly, ih.listed, ih.staffed⟩
  | call code before ih => exact closing_call before.formed ih code

theorem Closing.isClosed (h : p.Closing) (hid : p.threads.get? id = some t) (hc : t.phase.isClosing = true) :
    p.isClosed = true := by
  have hle := Table.le_sum (f := fun _ t => t.phase.isClosing.toNat) hid
  have hone := h.one
  rw [hc, Bool.toNat_true] at hle
  cases ho : p.isClosed with
  | true => rfl
  | false =>
    rw [ho, Bool.not_false, Bool.toNat_true] at hone
    omega

theorem Closing.eq_of_isClosing {w : ThreadId} {u : Thread σ υ} (h : p.Closing) (hid : p.threads.get? id = some t)
    (hc : t.phase.isClosing = true) (hw : p.threads.get? w = some u) (hcw : u.phase.isClosing = true) : id = w := by
  refine Classical.byContradiction fun hne => ?_
  have hle := Table.add_le_sum (f := fun _ t => t.phase.isClosing.toNat) hne hid hw
  have hone := h.one
  rw [hc, hcw, Bool.toNat_true] at hle
  omega

end Pool
end JobRunner
