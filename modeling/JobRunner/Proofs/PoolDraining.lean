import JobRunner.Proofs.PoolLodgers
/-!
# Pools that are drained

What is left to do in a pool that is closed and takes no more units.  Some units may be run in the place of threads that
could not be made; besides these, one thread may be left, and all that still begins is what it is about to start and what
is in the queue, in this order.
-/
namespace JobRunner
namespace Pool

variable {σ υ : Type} {passes : σ → σ → Prop} {p q r : Pool σ υ} {id w : ThreadId} {t : Thread σ υ}
  {es es' new : List (Event υ)} {name : String} {workers : Nat} {code : υ → Code σ υ} {shared : σ} {grants : Nat → Bool}

/-- The unit that a thread is about to start. -/
def Phase.next? : Phase σ υ → Option (Entry υ)
  | starting entry => some entry
  | _ => none

def Event.begun? : Event υ → Option (Entry υ)
  | started entry => some entry
  | _ => none

/-- The units that began, but for those with the given tickets. -/
def begunBeside (out : List Nat) (es : List (Event υ)) : List (Entry υ) :=
  (es.filterMap Event.begun?).filter fun e => e.ticket ∉ out

/-- The unit that the thread with the given number is about to start. -/
def held (p : Pool σ υ) (id : ThreadId) : List (Entry υ) := ((p.threads.get? id).bind (·.phase.next?)).toList

/-- The thread is a lodger, and its unit has one of the given tickets. -/
structure LodgesWith (p : Pool σ υ) (out : List Nat) (w : ThreadId) : Prop where
  lodges : ∃ l, p.lodgings.get? w = some l
  unit : ∃ k ∈ out, p.ticketOf w = some k

/-- The pool takes no more units.  Lodgers may still run those with the given tickets; besides, at most one thread of the
pool is left, which goes on with the units that were in the queue, in their order. -/
structure Draining (id : ThreadId) (out : List Nat) (left : List (Entry υ)) (es : List (Event υ)) (p : Pool σ υ) :
    Prop where
  closed : p.isClosed = true
  hungUp : p.isOpen = false
  gone : ∀ w, w.isPool = true → w ≠ id → p.isGone w = true ∨ p.LodgesWith out w
  order : left = begunBeside out es ++ p.held id ++ p.queue
  apart : ∀ e ∈ left, e.ticket ∉ out

variable {out : List Nat} {left : List (Entry υ)} {i : ThreadId} {k : Nat}

theorem begunBeside_append (out : List Nat) (es new : List (Event υ)) :
    begunBeside out (es ++ new) = begunBeside out es ++ begunBeside out new := by
  rw [begunBeside, List.filterMap_append, List.filter_append]
  rfl

theorem mem_begunBeside {e : Entry υ} (he : Event.started e ∈ es) (hk : e.ticket ∉ out) : e ∈ begunBeside out es :=
  List.mem_filter.2 ⟨List.mem_filterMap.2 ⟨_, he, rfl⟩, decide_eq_true hk⟩

theorem held_of_get? (h : p.threads.get? id = some t) : p.held id = t.phase.next?.toList := by
  rw [held, h, Option.bind_some]

theorem held_insert {t' : Thread σ υ} (hq : q.threads = p.threads.insert i t') (hi : p.threads.get? i = some t)
    (ht : t.phase.next? = none) (ht' : t'.phase.next? = none) : q.held id = p.held id := by
  by_cases he : i = id
  · subst he
    rw [held_of_get? hi, held, hq, Table.get?_insert_self, Option.bind_some, ht, ht']
  · rw [held, held, hq, Table.get?_insert_ne he]

theorem Draining.keep {t' : Thread σ υ} (h : Draining id out left es p) (hi : p.threads.get? i = some t)
    (hc : q.isClosed = true) (ho : q.isOpen = false)
    (hg : ∀ w, w.isPool = true → w ≠ id → q.isGone w = true ∨ q.LodgesWith out w)
    (hq : q.threads = p.threads.insert i t') (ht : t.phase.next? = none) (ht' : t'.phase.next? = none)
    (hn : new.filterMap Event.begun? = []) (hl : q.queue = p.queue) : Draining id out left (es ++ new) q := by
  refine ⟨hc, ho, hg, ?_, h.apart⟩
  have hnew : begunBeside out new = [] := by
    rw [begunBeside, hn]
    rfl
  rw [begunBeside_append, hnew, List.append_nil, held_insert hq hi ht ht', hl]
  exact h.order

theorem LodgesWith.isWorker {w : ThreadId} (h : p.LodgesWith out w) (hh : p.Housed) : w.isWorker = false := by
  obtain ⟨⟨l, hl⟩, -⟩ := h
  have hover := hh.isOverflow_of_get? hl
  cases w with
  | overflow n => rfl
  | caller n | worker n => cases hover

theorem LodgesWith.move {w : ThreadId} (h : p.LodgesWith out w) (hf : p.Formed) (hh : p.Housed)
    (hi : p.threads.get? i = some t) (m : Move p i t new q) : q.isGone w = true ∨ q.LodgesWith out w := by
  have hw := h.isWorker hh
  obtain ⟨⟨l, hl⟩, k, hk, hticket⟩ := h
  have hlodges : ∃ l, q.lodgings.get? w = some l := ⟨l, (m.lodgings_get? hf (hh.lodged w l hl).guest).trans hl⟩
  by_cases he : i = w
  · subst he
    rw [ticketOf_eq hi] at hticket
    exact (m.ends_or_keeps hf hi hw).imp (·.1) fun hq => ⟨hlodges, k, hk, hq.trans hticket⟩
  · obtain ⟨u, hu, hticket⟩ := Option.bind_eq_some_iff.1 hticket
    have hsame := m.get?_of_ne he (hf.overflow_ne hu)
    exact .inr ⟨hlodges, k, hk, (ticketOf_eq (hsame.trans hu)).trans hticket⟩

theorem Draining.gone_move (h : Draining id out left es p) (hf : p.Formed) (hh : p.Housed) (hi : p.threads.get? i = some t)
    (m : Move p i t new q) (w : ThreadId) (hw : w.isPool = true) (hne : w ≠ id) :
    q.isGone w = true ∨ q.LodgesWith out w := by
  rcases h.gone w hw hne with hgone | hlodges
  · rcases m.isGone hi hgone with hg | ⟨hc, -⟩
    · exact .inl hg
    · rw [h.closed] at hc
      cases hc
  · exact hlodges.move hf hh hi m

theorem draining_move (hf : p.Formed) (hh : p.Housed) (h : Draining id out left es p) (hi : p.threads.get? i = some t)
    (m : Move p i t new q) : Draining id out left (es ++ new) q := by
  have hfits := hf.fits i t hi
  have hclosed := h.closed
  have hhung := h.hungUp
  have horder := h.order
  have hgone := h.gone_move hf hh hi m
  cases m with
  | @take entry rest ht hq =>
    -- only workers are idle
    rw [Thread.Fits, ht] at hfits
    have he : i = id := by
      refine Classical.byContradiction fun hne => ?_
      rcases h.gone i (ThreadId.isPool_of_isWorker hfits.2) hne with hg | hlodges
      · have hgone := isGone_eq_true_iff.1 hg t hi
        rw [ht] at hgone
        cases hgone
      · exact absurd ((hlodges.isWorker hh).symm.trans hfits.2) Bool.false_ne_true
    subst he
    refine ⟨hclosed, hhung, hgone, ?_, h.apart⟩
    rw [horder, held_of_get? hi, ht, hq, held_of_get? (Table.get?_insert_self ..)]
    simp [Phase.next?]
  | @start entry ht =>
    rw [Thread.Fits, ht] at hfits
    by_cases he : i = id
    · subst he
      have hmem : entry ∈ left := by
        rw [horder, held_of_get? hi, ht]
        simp [Phase.next?]
      have hnew : begunBeside out [Event.started entry] = [entry] := by
        simp [begunBeside, Event.begun?, h.apart entry hmem]
      refine ⟨hclosed, hhung, hgone, ?_, h.apart⟩
      rw [horder, begunBeside_append, hnew, held_of_get? hi, ht, held_of_get? (Table.get?_insert_self ..)]
      simp [Phase.next?, Pool.put]
    · -- it is one of those that are run besides
      have hk : entry.ticket ∈ out := by
        rcases h.gone i hfits.2 he with hg | ⟨-, k, hk, hticket⟩
        · have hgone := isGone_eq_true_iff.1 hg t hi
          rw [ht] at hgone
          cases hgone
        · rw [ticketOf_eq hi, hfits.1, Option.some.injEq] at hticket
          rwa [hticket]
      have hnew : begunBeside out [Event.started entry] = [] := by simp [begunBeside, Event.begun?, hk]
      have hheld : (p.put i { t with phase := .running (p.code entry.unit) }).held id = p.held id := by
        rw [held, held, get?_put_ne he]
      refine ⟨hclosed, hhung, hgone, ?_, h.apart⟩
      rw [begunBeside_append, hnew, List.append_nil, hheld]
      exact horder
  | enqueue ht ho hl =>
    rw [hhung] at ho
    cases ho
  | spawn ht hc | closeFirst ht hc | offer ht hc =>
    rw [hclosed] at hc
    cases hc
  | tooLate ht =>
    have hn : t.phase.next? = none := by rcases ht with ⟨ht, -⟩ | ⟨ht, -⟩ <;> rw [ht] <;> rfl
    exact h.keep hi hclosed hhung hgone rfl hn rfl rfl rfl
  | @count crashed ht =>
    have hn : ((t.ticket.map fun k => Event.ended k crashed).toList.filterMap Event.begun? : List (Entry υ)) = [] := by
      cases t.ticket <;> rfl
    refine h.keep hi hclosed hhung hgone rfl (by rw [ht]; rfl) ?_ hn rfl
    cases i <;> rfl
  | hangUp ht => exact h.keep hi hclosed rfl hgone rfl (by rw [ht]; rfl) rfl rfl rfl
  | retire ht | leave ht | finish ht | act ht | refuse ht | closeAgain ht | overflow ht | answer ht | collect ht
  | joined ht | join ht | collectOverflow ht | joinedOverflow ht | joinOverflow ht =>
    exact h.keep hi hclosed hhung hgone rfl (by rw [ht]; rfl) rfl rfl rfl

theorem Run.draining (before : Run passes (start name workers code shared grants) es p)
    (h : Draining id out left [] p) (run : Run passes p es' q) : Draining id out left es' q := by
  induction run with
  | refl => exact h
  | thread i later hs ih =>
    obtain ⟨t, ht, m⟩ := move_of_step hs
    exact draining_move (before.trans later).formed (before.trans later).housed ih ht m
  | passing _ _ ih =>
    refine ⟨ih.closed, ih.hungUp, fun w hw hne => ?_, ih.order, ih.apart⟩
    exact (ih.gone w hw hne).imp_right fun hl => ⟨hl.lodges, hl.unit⟩
  | call code later ih =>
    rename_i q'
    have hnew := (before.trans later).formed.caller_new
    have hheld : (q'.call code).held id = q'.held id := by
      by_cases he : ThreadId.caller q'.callers = id
      · subst he
        rw [held_of_get? (Table.get?_insert_self ..), held, hnew]
        rfl
      · exact congrArg (fun o => (Option.bind o (·.phase.next?)).toList) (get?_put_ne he)
    refine ⟨ih.closed, ih.hungUp, fun w hw hne => ?_, ?_, ih.apart⟩
    · have hc : ThreadId.caller q'.callers ≠ w := by
        rintro rfl
        cases hw
      have hsame : (q'.call code).threads.get? w = q'.threads.get? w := get?_put_ne hc
      refine (ih.gone w hw hne).imp (isGone_of_get?_eq hsame).trans fun hl => ⟨hl.lodges, ?_⟩
      rw [ticketOf, hsame]
      exact hl.unit
    · rw [hheld]
      exact ih.order

end Pool
end JobRunner
