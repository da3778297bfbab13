import JobRunner.Proofs.PoolDraining
import JobRunner.Proofs.PoolGuards
import JobRunner.Proofs.PoolUnits
/-!
# Closing a pool is a barrier

The call that closes a pool returns only when every other thread that was made for the pool is gone, for it has waited
for each of them.  A worker is gone only from an empty queue, so nothing is left behind, unless the caller is the only
worker there is.  But nobody waits for a unit whose thread could not be made: the call may return before it has ended, or
even begun.
-/
namespace JobRunner
namespace Pool

variable {σ υ : Type} {passes : σ → σ → Prop} {p q r : Pool σ υ} {id w : ThreadId} {t : Thread σ υ}
  {es es' new : List (Event υ)} {name : String} {workers : Nat} {code : υ → Code σ υ} {shared : σ} {grants : Nat → Bool}
  {out : List Nat} {left : List (Entry υ)} {i : ThreadId} {k : Nat}

/-! ## The return of the closing call -/

/-- The next step of the thread is the last one of the call that closed the pool. -/
def Phase.endsClosing : Phase σ υ → Bool
  | joiningOverflow [] _ => true
  | _ => false

/-- An overflow thread that is not gone has a unit. -/
theorem Formed.exists_ticketOf (h : p.Formed) (hw : w.isOverflow = true) (hlive : p.isGone w = false) :
    ∃ k, p.ticketOf w = some k := by
  obtain ⟨u, hu, hug⟩ := exists_of_isGone_eq_false hlive
  have hfits := h.fits w u hu
  rw [ticketOf_eq hu]
  obtain ⟨ticket, phase⟩ := u
  cases w with
  | caller n | worker n => cases hw
  | overflow n =>
    cases phase with
    | idle => cases hfits.2
    | gone => exact absurd rfl hug
    | starting entry => exact ⟨_, hfits.1⟩
    | counting => exact Option.isSome_iff_exists.1 hfits.1
    | _ => exact Option.isSome_iff_exists.1 hfits

theorem running_eq_zero {sel : Nat → Bool} (h : ∀ w t, p.threads.get? w = some t → owned sel t.ticket = 0) :
    p.running sel = 0 := by
  refine Table.sum_eq_zero fun w t hw => ?_
  have hz := h w t hw
  obtain ⟨ticket, phase⟩ := t
  cases phase with
  | starting => rfl
  | _ => exact hz

theorem Run.staffed (run : Run passes (start name workers code shared grants) es p) {n : Nat}
    (hn : n < max workers 1) : ∃ t, p.threads.get? (.worker n) = some t := by
  induction run with
  | refl => exact ⟨_, by rw [get?_start, if_pos (List.mem_map.2 ⟨n, List.mem_range.2 hn, rfl⟩)]⟩
  | thread id _ h ih =>
    obtain ⟨t, -, m⟩ := move_of_step h
    exact m.exists_get? ih
  | passing _ _ ih => exact ih
  | call code _ ih => exact exists_insert ih

/-- Who waits in the queue is not run at the same time. -/
theorem Run.ticket_notMem_lodgers (run : Run passes (start name workers code shared grants) es p) {e : Entry υ}
    (he : e ∈ p.queue) : e.ticket ∉ p.lodgers := by
  intro hk
  obtain ⟨g, -, -, hticket⟩ := mem_lodgers_iff.1 hk
  obtain ⟨u, hu, hticket⟩ := Option.bind_eq_some_iff.1 hticket
  have hplaced := (run.ledger (· == e.ticket)).placed
  have hone := issued_le_one e.ticket p.submissions
  have hqueue : 0 < p.queue.countP fun e' => e'.ticket == e.ticket := List.countP_pos_iff.2 ⟨e, he, beq_self_eq_true _⟩
  have hle := Table.le_sum (f := fun _ t => t.owns (· == e.ticket) + t.offers (· == e.ticket) + t.drops (· == e.ticket)) hu
  have howns : u.owns (· == e.ticket) = 1 := by simp [hticket]
  omega

variable {next : Code σ υ}

/-- **When the closing call returns, every other thread that was made for the pool is gone.** -/
theorem Run.gone_of_endsClosing (run : Run passes (start name workers code shared grants) es p)
    (hid : p.threads.get? id = some t) (ht : t.phase = .joiningOverflow [] next) (hw : w.isPool = true)
    (hmade : p.lodgings.get? w = none) (hne : w ≠ p.runner id) : p.isGone w = true := by
  obtain ⟨hworkers, hoverflows⟩ := run.guarded.closer id t hid (by rw [ht]; rfl)
  rw [ht] at hworkers hoverflows
  have hout : some w ≠ some (p.runner id) := fun he => hne (Option.some.inj he)
  rcases ThreadId.isPool_iff.1 hw with hk | hk
  · exact (hworkers w hk hmade hout).resolve_left List.not_mem_nil
  · exact (hoverflows w hk hmade hout).resolve_left List.not_mem_nil

/-- **When the closing call returns, the queue is empty**, unless the caller is the only worker. -/
theorem Run.queue_of_endsClosing (run : Run passes (start name workers code shared grants) es p)
    (hid : p.threads.get? id = some t) (ht : t.phase = .joiningOverflow [] next)
    (hs : ¬ ((p.runner id).isWorker = true ∧ workers ≤ 1)) : p.queue = [] := by
  -- some other worker is gone, which happens to an empty queue only
  have hother : ∃ n, n < max workers 1 ∧ ThreadId.worker n ≠ p.runner id := by
    by_cases h0 : ThreadId.worker 0 = p.runner id
    · have hmany : ¬ workers ≤ 1 := fun hle => hs ⟨by rw [← h0]; rfl, hle⟩
      exact ⟨1, by omega, by rw [← h0]; simp⟩
    · exact ⟨0, by omega, h0⟩
  obtain ⟨n, hn, hne⟩ := hother
  obtain ⟨u, hu⟩ := run.staffed hn
  have hgone := isGone_eq_true_iff.1 (run.gone_of_endsClosing hid ht rfl (run.housed.lodgings_eq_none rfl) hne) u hu
  exact ((run.closing.orderly _ u hu).2.2 (by rw [hgone]; rfl) rfl).2

/-- At the return of the closing call, the thread that runs the caller is in the middle of some code. -/
theorem Run.held_runner (run : Run passes (start name workers code shared grants) es p)
    (hid : p.threads.get? id = some t) (ht : t.phase = .running next) : p.held (p.runner id) = [] := by
  by_cases he : p.runner id = id
  · rw [he, held_of_get? hid, ht]
    rfl
  · have hlive : p.isGone id = false := by
      rw [Bool.eq_false_iff]
      intro hg
      have hgone := isGone_eq_true_iff.1 hg t hid
      rw [ht] at hgone
      cases hgone
    have hhost := run.housed.isHosting_runner hlive he
    obtain ⟨u, hu⟩ := (run.housed.isMade_runner ⟨t, hid⟩).2
    have hbusy := run.housed.busy _ u hu hhost
    rw [held_of_get? hu]
    cases hp : u.phase with
    | starting => rw [hp] at hbusy; cases hbusy
    | _ => rfl

theorem Run.draining_of_endsClosing (run : Run passes (start name workers code shared grants) es p)
    (hid : p.threads.get? id = some t) (ht : t.phase = .joiningOverflow [] next) (m : Move p id t [] q)
    (after : Run passes (start name workers code shared grants) es q)
    (hq : q = p.put id { t with phase := .running next }) : q.Draining (q.runner id) q.lodgers q.queue [] := by
  have hrunner : q.runner id = p.runner id := m.runner run.formed ⟨t, hid⟩
  have hclosing : t.phase.isClosing = true := by rw [ht]; rfl
  have hclosed : q.isClosed = true := m.isClosed (run.closing.isClosed hid hclosing)
  have hopen : q.isOpen = false := by
    rw [hq]
    exact (run.closing.orderly id t hid).1 (by rw [ht]; rfl)
  refine ⟨hclosed, hopen, fun w hw hne => ?_, ?_, fun e he => after.ticket_notMem_lodgers he⟩
  · cases hl : q.lodgings.get? w with
    | none =>
      rw [hrunner] at hne
      have hgone := run.gone_of_endsClosing hid ht hw (m.lodgings_eq_none hl) hne
      rcases m.isGone hid hgone with hg | ⟨hc, -⟩
      · exact .inl hg
      · rw [run.closing.isClosed hid hclosing] at hc
        cases hc
    | some l =>
      cases hg : q.isGone w with
      | true => exact .inl rfl
      | false =>
        have hover := after.housed.isOverflow_of_get? hl
        obtain ⟨k, hk⟩ := after.formed.exists_ticketOf hover hg
        exact .inr ⟨⟨l, hl⟩, k, mem_lodgers_iff.2 ⟨w, l, hl, hk⟩, hk⟩
  · have hself : q.threads.get? id = some { t with phase := .running next } := by
      rw [hq]
      exact Table.get?_insert_self ..
    rw [after.held_runner hself rfl]
    rfl

/-! ## What was taken on before -/

variable {sel : Nat → Bool} {a : Submission}

theorem Draining.mem_left {e : Entry υ} (h : Draining id out left es p) (hk : e.ticket ∉ out) :
    (.started e ∈ es ∨ e ∈ p.held id ∨ e ∈ p.queue) → e ∈ left := by
  rw [h.order, List.mem_append, List.mem_append]
  rintro (he | he | he)
  · exact .inl (.inl (mem_begunBeside he hk))
  · exact .inl (.inr he)
  · exact .inr he

theorem Draining.waiting_eq_zero (hf : p.Formed) (h : Draining id out left es p)
    (hl : ∀ e ∈ left, sel e.ticket = false) (ho : ∀ k ∈ out, sel k = false) : p.waiting sel = 0 := by
  have hqueue : p.queue.countP (fun e => sel e.ticket) = 0 := by
    rw [List.countP_eq_zero]
    intro e he
    by_cases hk : e.ticket ∈ out
    · rw [ho _ hk]
      exact Bool.false_ne_true
    · rw [hl e (h.mem_left hk (.inr (.inr he)))]
      exact Bool.false_ne_true
  have hdelays : (p.threads.sum fun _ t => t.delays sel) = 0 := by
    refine Table.sum_eq_zero fun w t hw => ?_
    have hfits := hf.fits w t hw
    obtain ⟨ticket, phase⟩ := t
    cases phase with
    | starting entry =>
      obtain rfl : ticket = some entry.ticket := hfits.1
      have hsel : sel entry.ticket = false := by
        by_cases hk : entry.ticket ∈ out
        · exact ho _ hk
        by_cases he : w = id
        · refine hl entry (h.mem_left hk (.inr (.inl ?_)))
          rw [← he, held_of_get? hw]
          exact List.mem_singleton.2 rfl
        · rcases h.gone w hfits.2 he with hg | ⟨-, j, hj, hticket⟩
          · exact nomatch isGone_eq_true_iff.1 hg _ hw
          · rw [ticketOf_eq hw, Option.some.injEq] at hticket
            exact absurd (hticket ▸ hj) hk
      simp [hsel]
    | _ => rfl
  rw [waiting, hqueue, hdelays]

theorem Draining.starts_eq_zero (h : Draining id out left es p) (hl : ∀ e ∈ left, sel e.ticket = false)
    (ho : ∀ k ∈ out, sel k = false) : es.countP (Event.starts sel) = 0 := by
  rw [List.countP_eq_zero]
  intro e he
  cases e with
  | started entry =>
    have hsel : sel entry.ticket = false := by
      by_cases hk : entry.ticket ∈ out
      · exact ho _ hk
      · exact hl entry (h.mem_left hk (.inl he))
    rw [Event.starts, hsel]
    exact Bool.false_ne_true
  | _ => exact Bool.false_ne_true

/-- A unit that is not run besides is run by the thread that is left, or by none. -/
theorem Draining.not_running (hf : p.Formed) (h : Draining id out left es p) (ho : k ∉ out)
    (hk : p.ticketOf id ≠ some k) : p.running (· == k) = 0 := by
  refine running_eq_zero fun w u hw => ?_
  have hne : u.ticket ≠ some k := by
    intro hu
    rw [← ticketOf_eq hw] at hu
    by_cases he : w = id
    · exact hk (he ▸ hu)
    cases hp : w.isPool with
    | false =>
      rw [ticketOf_eq hw, hf.ticket_eq_none hw (.inl hp)] at hu
      cases hu
    | true =>
      rcases h.gone w hp he with hg | ⟨-, j, hj, hticket⟩
      · rw [hf.ticketOf_eq_none hg] at hu
        cases hu
      · rw [hticket, Option.some.injEq] at hu
        exact ho (hu ▸ hj)
  cases hticket : u.ticket with
  | none => rfl
  | some j =>
    have hj : (j == k) = false := beq_eq_false_iff_ne.2 fun hjk => hne (by rw [hticket, hjk])
    rw [owned_some, hj]
    rfl

/-- **What nobody runs and what is not left has ended**, if it is ever taken on. -/
theorem Draining.ended (before : Run passes (start name workers code shared grants) es q)
    (h : Draining id out left [] q) (later : Run passes q es' r) (hl : ∀ e ∈ left, e.ticket ≠ k) (ho : k ∉ out)
    (hz : q.running (· == k) = 0) (ha : Event.answered k a ∈ es ++ es') (hne : a ≠ .rejected) :
    es.countP (Event.ends (· == k)) = 1 := by
  have run := before.trans later
  have hdrain := Run.draining before h later
  have hl : ∀ e ∈ left, (e.ticket == k) = false := fun e he => beq_eq_false_iff_ne.2 (hl e he)
  have ho : ∀ j ∈ out, (j == k) = false := fun j hj => beq_eq_false_iff_ne.2 fun he => ho (he ▸ hj)
  -- it is taken on once; it neither waits nor begins any more, so it began before, and it does not run
  have hone := (run.ledger (· == k)).accepted ha hne
  have hafter := (run.ledger (· == k)).begun
  have hbefore := (before.ledger (· == k)).begun
  have hwaiting : r.waiting (· == k) = 0 := hdrain.waiting_eq_zero run.formed hl ho
  have hstarts : es'.countP (Event.starts (· == k)) = 0 := hdrain.starts_eq_zero hl ho
  rw [List.countP_append, hstarts] at hafter
  omega

/-- In a pool at rest nothing is run. -/
theorem Run.running_of_atRest (run : Run passes (start name workers code shared grants) es p) (hr : p.AtRest) :
    p.running sel = 0 := by
  refine running_eq_zero fun w t hw => ?_
  have hticket : t.ticket = none := by
    refine run.formed.ticket_eq_none hw ?_
    cases hp : w.isPool with
    | true => exact .inr (idle_or_gone_of_atRest run.formed run.closing run.housed hr hw hp)
    | false => exact .inl rfl
  rw [hticket, owned_none]

/-- In a pool at rest nothing waits. -/
theorem Run.waiting_of_atRest (run : Run passes (start name workers code shared grants) es p) (hr : p.AtRest) :
    p.waiting sel = 0 := by
  have hdelays : (p.threads.sum fun _ t => t.delays sel) = 0 := by
    refine Table.sum_eq_zero fun w t hw => ?_
    have hfits := run.formed.fits w t hw
    have hdone := fun hp => idle_or_gone_of_atRest run.formed run.closing run.housed hr hw hp
    obtain ⟨ticket, phase⟩ := t
    cases phase with
    | starting entry => rcases hdone hfits.2 with hi | hg <;> contradiction
    | _ => rfl
  rw [waiting, queue_eq_nil_of_atRest run.formed run.closing run.housed hr, hdelays]
  rfl

/-- **What is left is run**, unless the pool never comes to rest. -/
theorem Draining.run_at_rest (before : Run passes (start name workers code shared grants) es q)
    (h : Draining id out left [] q) (later : Run passes q es' r) (hr : r.AtRest) :
    begunBeside out es' = left ∧ ∀ e ∈ left, (es ++ es').countP (Event.ends (· == e.ticket)) = 1 := by
  have run := before.trans later
  have hdrain := Run.draining before h later
  have hheld : r.held id = [] := by
    unfold held
    cases hw : r.threads.get? id with
    | none => rfl
    | some t =>
      have hfits := run.formed.fits id t hw
      have hdone := fun hp => idle_or_gone_of_atRest run.formed run.closing run.housed hr hw hp
      obtain ⟨ticket, phase⟩ := t
      cases phase with
      | starting entry => rcases hdone hfits.2 with hi | hg <;> contradiction
      | _ => rfl
  have horder := hdrain.order
  rw [hheld, queue_eq_nil_of_atRest run.formed run.closing run.housed hr, List.append_nil, List.append_nil] at horder
  refine ⟨horder.symm, fun e he => ?_⟩
  have hzero : r.running (· == e.ticket) = 0 := run.running_of_atRest hr
  have hstarted : Event.started e ∈ es ++ es' := by
    rw [horder] at he
    obtain ⟨ev, hev, hb⟩ := List.mem_filterMap.1 (List.mem_filter.1 he).1
    cases ev with
    | started entry =>
      cases hb
      exact List.mem_append_right _ hev
    | _ => cases hb
  have hpos : 0 < (es ++ es').countP (Event.starts (· == e.ticket)) :=
    List.countP_pos_iff.2 ⟨_, hstarted, beq_self_eq_true _⟩
  have hone := (run.ledger (· == e.ticket)).starts_le_one
  have hbegun := (run.ledger (· == e.ticket)).begun
  omega

/-- **The return of the closing call**: it is not seen, and the caller still has its unit. -/
theorem Run.end_closing (run : Run passes (start name workers code shared grants) es p)
    (hid : p.threads.get? id = some t) (ht : t.phase.endsClosing = true) (hs : p.step id = some q) :
    Run passes (start name workers code shared grants) es q ∧ q.Draining (q.runner id) q.lodgers q.queue [] ∧
      q.runner id = p.runner id ∧ q.ticketOf id = t.ticket ∧
      (¬ ((q.runner id).isWorker = true ∧ workers ≤ 1) → q.queue = []) := by
  obtain ⟨next, hp⟩ : ∃ next, t.phase = .joiningOverflow [] next := by
    obtain ⟨ticket, phase⟩ := t
    cases phase with
    | joiningOverflow rest next =>
      cases rest with
      | nil => exact ⟨next, rfl⟩
      | cons => cases ht
    | _ => cases ht
  obtain ⟨hseen, hq⟩ : p.seen id = [] ∧ q = p.put id { t with phase := .running next } := by
    have hs := advance_of_step hs
    obtain ⟨ticket, phase⟩ := t
    cases hp
    simp only [advance, seen, hid, Option.bind_eq_bind, Option.bind_some] at hs ⊢
    exact ⟨trivial, (Option.some.inj hs).symm⟩
  have before := run.thread id hs
  rw [hseen, List.append_nil] at before
  obtain ⟨t', hid', m⟩ := move_of_step hs
  obtain rfl : t = t' := Option.some.inj (hid.symm.trans hid')
  rw [hseen] at m
  have hrunner : q.runner id = p.runner id := m.runner run.formed ⟨t, hid⟩
  refine ⟨before, run.draining_of_endsClosing hid hp m before hq, hrunner, ?_, fun hmany => ?_⟩
  · have hself : q.threads.get? id = some { t with phase := .running next } := by
      rw [hq]
      exact Table.get?_insert_self ..
    rw [ticketOf_eq hself]
  · rw [hrunner] at hmany
    rw [hq]
    exact run.queue_of_endsClosing hid hp hmany

/-- **Closing a pool is a barrier, but for units whose threads could not be made.**  The call that closed the pool
returns to a thread outside it, or to a unit of work.  At that moment the lodgers' units may still be run, or even wait
to begin, each by the thread that handed it over.  Every other unit that was taken on, or will be said to have been, has
ended, and no other one begins any more.  When the call returns to a unit of work, this holds but for the unit that the
thread of the call was about in the first place, and for those that wait in the queue of a pool whose only worker made
the call: these begin in their order.  When the pool has come to rest, all that was taken on has ended.  There are no
lodgers if a thread can be made whenever one is wanted. -/
theorem close_is_barrier (run : Run passes (start name workers code shared grants) es p) (hid : p.threads.get? id = some t)
    (ht : t.phase.endsClosing = true) (hs : p.step id = some q) (later : Run passes q es' r) :
    (id.isPool = false →
      (∀ k a, .answered k a ∈ es ++ es' → a ≠ .rejected → k ∉ q.lodgers → es.countP (Event.ends (· == k)) = 1) ∧
      ∀ e, .started e ∈ es' → e.ticket ∈ q.lodgers) ∧
    (id.isPool = true → ¬ ((q.runner id).isWorker = true ∧ workers ≤ 1) →
      (∀ k a, .answered k a ∈ es ++ es' → a ≠ .rejected → k ∉ q.lodgers → q.ticketOf (q.runner id) ≠ some k →
        es.countP (Event.ends (· == k)) = 1) ∧
      ∀ e, .started e ∈ es' → e.ticket ∈ q.lodgers) ∧
    ((q.runner id).isWorker = true → workers ≤ 1 →
      (∀ k a, .answered k a ∈ es ++ es' → a ≠ .rejected → k ∉ q.lodgers → q.ticketOf (q.runner id) ≠ some k →
        (∀ e ∈ q.queue, e.ticket ≠ k) → es.countP (Event.ends (· == k)) = 1) ∧
      begunBeside q.lodgers es' <+: q.queue ∧
      (r.AtRest → begunBeside q.lodgers es' = q.queue ∧
        ∀ e ∈ q.queue, (es ++ es').countP (Event.ends (· == e.ticket)) = 1)) ∧
    (r.AtRest → ∀ k a, .answered k a ∈ es ++ es' → a ≠ .rejected → (es ++ es').countP (Event.ends (· == k)) = 1) ∧
    ((∀ n, grants n = true) → q.lodgers = [] ∧ q.runner id = id ∧ q.ticketOf id = t.ticket) := by
  obtain ⟨before, hdrain, hrunner, hticket, hqueue⟩ := run.end_closing hid ht hs
  have hlater := Run.draining before hdrain later
  have hended : ∀ k a, .answered k a ∈ es ++ es' → a ≠ .rejected → k ∉ q.lodgers →
      q.ticketOf (q.runner id) ≠ some k → (∀ e ∈ q.queue, e.ticket ≠ k) → es.countP (Event.ends (· == k)) = 1 :=
    fun k a ha hne ho hk hl => hdrain.ended before later hl ho (hdrain.not_running before.formed ho hk) ha hne
  have hempty : q.queue = [] →
      (∀ k a, .answered k a ∈ es ++ es' → a ≠ .rejected → k ∉ q.lodgers → q.ticketOf (q.runner id) ≠ some k →
        es.countP (Event.ends (· == k)) = 1) ∧ ∀ e, .started e ∈ es' → e.ticket ∈ q.lodgers := by
    intro hnil
    refine ⟨fun k a ha hne ho hk => hended k a ha hne ho hk fun e he => ?_, fun e he => ?_⟩
    · rw [hnil] at he
      cases he
    · refine Classical.byContradiction fun ho => ?_
      have hmem := hlater.mem_left ho (.inl he)
      rw [hnil] at hmem
      cases hmem
  refine ⟨fun hout => ?_, fun _ hmany => hempty (hqueue hmany), fun _ _ => ⟨hended, ?_, ?_⟩, fun hr k a ha hne => ?_,
    fun hg => ?_⟩
  · -- a caller is run by itself, and it has no unit
    have hself : q.runner id = id := before.housed.runner_eq_self (ThreadId.isOverflow_of_isPool hout)
    have hnone : q.ticketOf (q.runner id) = none := by
      rw [hself, hticket]
      exact run.formed.ticket_eq_none hid (.inl hout)
    have hnil := hqueue fun hone => by
      rw [hself] at hone
      exact absurd (hout.symm.trans (ThreadId.isPool_of_isWorker hone.1)) Bool.false_ne_true
    obtain ⟨hall, hnever⟩ := hempty hnil
    exact ⟨fun k a ha hne ho => hall k a ha hne ho (by rw [hnone]; simp), hnever⟩
  · rw [hlater.order, List.append_assoc]
    exact List.prefix_append ..
  · exact hdrain.run_at_rest before later
  · have hone := ((before.trans later).ledger (· == k)).accepted ha hne
    rw [(before.trans later).waiting_of_atRest hr, (before.trans later).running_of_atRest hr] at hone
    omega
  · have hnone := before.lodgings_eq_empty hg
    refine ⟨?_, runner_of_get?_eq_none (by rw [hnone]; rfl), hticket⟩
    rw [lodgers, hnone]
    rfl

/-- The only worker closes the pool from the first unit, while the second one waits in the queue; that one crashes
afterwards. -/
theorem close_is_barrier_from_inside : ∃ es p q es' r,
    Run (fun _ _ => False) (start "sample" 1 sampleCode ()) es p ∧ p.step (.worker 0) = some q ∧
      Run (fun _ _ => False) q es' r ∧ r.AtRest ∧ q.queue = [⟨1, 0⟩] ∧ begunBeside [] es' = [⟨1, 0⟩] ∧
      (es ++ es').countP (Event.ends (· == 1)) = 1 := by
  let outside : Code Unit Nat := (submit 2).bind fun _ => (submit 0).bind fun _ => .done ()
  let ids : List ThreadId := List.replicate 7 (.caller 0) ++ List.replicate 8 (.worker 0)
  let made : Pool Unit Nat := (start "sample" 1 sampleCode ()).call outside
  have hends : ((follow ids made).any fun b => ((b.2.threads.get? (.worker 0)).any (·.phase.endsClosing)) &&
      ((b.2.step (.worker 0)).any fun q => decide (q.queue = [⟨1, 0⟩]) &&
        ((follow (List.replicate 7 (.worker 0)) q).any fun a =>
          a.2.threads.entries.all fun e => e.2.phase.isGone))) = true := by decide +kernel
  simp only [Option.any_eq_true, Bool.and_eq_true, decide_eq_true_eq] at hends
  obtain ⟨⟨es, p⟩, hbefore, ⟨t, hid, ht⟩, q, hs, hqueue, ⟨es', r⟩, hlater, hgone⟩ := hends
  have run : Run (fun _ _ => False) (start "sample" 1 sampleCode ()) ([] ++ es) p :=
    run_of_follow (Run.refl.call outside) hbefore
  rw [List.nil_append] at run
  have later : Run (fun _ _ => False) q ([] ++ es') r := run_of_follow .refl hlater
  rw [List.nil_append] at later
  have hrest := (atRest_of_gone (forall_of_all hgone)).2
  obtain ⟨-, -, hinside, -, hgranted⟩ := close_is_barrier run hid ht hs later
  obtain ⟨hnobody, hself, -⟩ := hgranted fun _ => rfl
  rw [hself, hnobody] at hinside
  obtain ⟨hbegun, hended⟩ := (hinside rfl (Nat.le_refl 1)).2.2 hrest
  rw [hqueue] at hbegun hended
  exact ⟨es, p, q, es', r, run, hs, later, hrest, hqueue, hbegun, hended _ List.mem_cons_self⟩

/-- **The closing call may return before a unit begins that was taken on.**  The queue is full and no thread can be made
for the third unit of the first caller, who is to run it.  Before that happens, the second caller has closed the pool
and its call is over. -/
theorem close_overtakes_lodger : ∃ es p t q es' r,
    Run (fun _ _ => False) (start "sample" 1 (fun _ : Nat => (.done () : Code Unit Nat)) () fun _ => false) es p ∧
      p.threads.get? (.caller 1) = some t ∧ t.phase.endsClosing = true ∧ p.step (.caller 1) = some q ∧
      Run (fun _ _ => False) q es' r ∧ .answered 2 .overflow ∈ es ∧ es.countP (Event.ends (· == 2)) = 0 ∧
      .started ⟨2, 7⟩ ∈ es' := by
  let outside : Code Unit Nat := (submit 7).bind fun _ => (submit 7).bind fun _ => (submit 7).bind fun _ => .done ()
  let ids : List ThreadId := List.replicate 9 (.caller 0) ++ List.replicate 3 (.caller 1) ++
    List.replicate 9 (.worker 0) ++ List.replicate 3 (.caller 1)
  let made : Pool Unit Nat := ((start "sample" 1 (fun _ => .done ()) () fun _ => false).call outside).call close
  have hends : ((follow ids made).any fun b => ((b.2.threads.get? (.caller 1)).any (·.phase.endsClosing)) &&
      decide (Event.answered 2 .overflow ∈ b.1) && decide (b.1.countP (Event.ends (· == 2)) = 0) &&
      ((b.2.step (.caller 1)).any fun q => (follow [.overflow 0] q).any fun a =>
        decide (Event.started ⟨2, 7⟩ ∈ a.1))) = true := by decide +kernel
  simp only [Option.any_eq_true, Bool.and_eq_true, decide_eq_true_eq] at hends
  obtain ⟨⟨es, p⟩, hbefore, ⟨⟨⟨t, hid, ht⟩, hanswered⟩, hnever⟩, q, hs, ⟨es', r⟩, hlater, hstarted⟩ := hends
  have run : Run (fun _ _ => False) (start "sample" 1 (fun _ => .done ()) () fun _ => false) ([] ++ es) p :=
    run_of_follow ((Run.refl.call outside).call close) hbefore
  rw [List.nil_append] at run
  have later : Run (fun _ _ => False) q ([] ++ es') r := run_of_follow .refl hlater
  rw [List.nil_append] at later
  exact ⟨es, p, t, q, es', r, run, hid, ht, hs, later, hanswered, hnever, hstarted⟩

end Pool
end JobRunner
