import JobRunner.Proofs.PoolLedger
import Mathlib.Data.List.Nodup
/-!
# Units are neither lost nor run twice

Tickets tell submissions apart, a unit that begins was handed over, and the counters count what was seen.  With the
ledger this says what becomes of each unit, and of all units once the pool is at rest.
-/
namespace JobRunner
namespace Pool

variable {σ υ : Type} {passes : σ → σ → Prop} {p q : Pool σ υ} {id : ThreadId} {t : Thread σ υ}
  {es new : List (Event υ)} {name : String} {workers : Nat} {code : υ → Code σ υ} {shared : σ} {grants : Nat → Bool}

/-! ## Tickets -/

@[simp] def Event.entry? : Event υ → Option (Entry υ)
  | submitted entry => some entry
  | _ => none

theorem Event.eq_submitted {ev : Event υ} {e : Entry υ} (h : ev.entry? = some e) : ev = .submitted e := by
  cases ev with
  | submitted e' =>
    cases h
    rfl
  | _ => cases h

theorem Event.exists_ended {ev : Event υ} {k : Nat} (h : ev.ends (· == k) = true) : ∃ crashed, ev = .ended k crashed := by
  cases ev with
  | ended j crashed =>
    obtain rfl : j = k := beq_iff_eq.1 h
    exact ⟨crashed, rfl⟩
  | _ => cases h

theorem tickets_move (m : Move p id t new q) :
    List.range q.submissions = List.range p.submissions ++ (new.filterMap Event.entry?).map Entry.ticket := by
  cases m with
  | count ht => cases t.ticket <;> simp [Pool.put]
  | refuse | offer => simp [List.range_succ]
  | _ => simp [Pool.put]

theorem submissions_start : (start name workers code shared grants).submissions = 0 := by
  unfold start
  rw [foldl_put]

/-- Submissions are numbered one after another. -/
theorem Run.tickets (run : Run passes (start name workers code shared grants) es p) :
    (es.filterMap Event.entry?).map Entry.ticket = List.range p.submissions := by
  induction run with
  | refl =>
    rw [submissions_start]
    rfl
  | thread id _ h ih =>
    obtain ⟨t, -, m⟩ := move_of_step h
    rw [List.filterMap_append, List.map_append, ih, tickets_move m]
  | passing _ _ ih => exact ih
  | call code _ ih => exact ih

theorem Run.entry_inj (run : Run passes (start name workers code shared grants) es p) {e e' : Entry υ}
    (he : Event.submitted e ∈ es) (he' : Event.submitted e' ∈ es) (h : e.ticket = e'.ticket) : e = e' := by
  have hmem : ∀ e, Event.submitted e ∈ es → e ∈ es.filterMap Event.entry? := by
    intro e he
    exact List.mem_filterMap.2 ⟨_, he, rfl⟩
  have hnodup : ((es.filterMap Event.entry?).map Entry.ticket).Nodup := by
    rw [run.tickets]
    exact List.nodup_range
  exact List.inj_on_of_nodup_map hnodup (hmem e he) (hmem e' he') h

/-! ## Units -/

/-- The unit that a thread has in hand and has not begun. -/
@[simp] def Phase.entry? : Phase σ υ → Option (Entry υ)
  | starting entry => some entry
  | offering entry _ => some entry
  | spilling entry _ => some entry
  | _ => none

/-- All units in the pool, and those that began, were handed over. -/
structure Known (es : List (Event υ)) (p : Pool σ υ) : Prop where
  queue : ∀ e ∈ p.queue, Event.submitted e ∈ es
  threads : ∀ id t, p.threads.get? id = some t → ∀ e, t.phase.entry? = some e → Event.submitted e ∈ es
  begun : ∀ e, Event.started e ∈ es → Event.submitted e ∈ es

theorem Known.put {t' : Thread σ υ} (h : Known es p) (hq : q.threads = p.threads.insert id t')
    (hl : ∀ e ∈ q.queue, Event.submitted e ∈ es ++ new)
    (ht : ∀ e, t'.phase.entry? = some e → Event.submitted e ∈ es ++ new)
    (hn : ∀ e, Event.started e ∈ new → Event.submitted e ∈ es) : Known (es ++ new) q := by
  refine ⟨hl, ?_, fun e he => ?_⟩
  · rw [hq]
    refine Table.forall_insert (fun id u hu e he => ?_) ht
    exact List.mem_append_left _ (h.threads id u hu e he)
  · rcases List.mem_append.1 he with he | he
    · exact List.mem_append_left _ (h.begun e he)
    · exact List.mem_append_left _ (hn e he)

theorem Known.drop {t' : Thread σ υ} (h : Known es p) (hq : q.threads = p.threads.insert id t')
    (hl : ∀ e ∈ q.queue, Event.submitted e ∈ es) (ht : t'.phase.entry? = none)
    (hn : ∀ e, Event.started e ∈ new → Event.submitted e ∈ es) : Known (es ++ new) q := by
  refine h.put hq (fun e he => List.mem_append_left _ (hl e he)) (fun e he => ?_) hn
  rw [ht] at he
  cases he

theorem known_move (h : Known es p) (hid : p.threads.get? id = some t) (m : Move p id t new q) :
    Known (es ++ new) q := by
  have hhand := h.threads id t hid
  have hnone : ∀ e : Entry υ, Event.started e ∈ ([] : List (Event υ)) → Event.submitted e ∈ es := by
    intro e he
    cases he
  cases m with
  | @take entry rest ht hq =>
    have hall := h.queue
    rw [hq] at hall
    refine h.put rfl (fun e he => ?_) (fun e he => ?_) hnone
    · exact List.mem_append_left _ (hall e (List.mem_cons_of_mem _ he))
    · cases he
      exact List.mem_append_left _ (hall entry List.mem_cons_self)
  | @start entry ht =>
    refine h.drop rfl h.queue rfl fun e he => ?_
    cases List.mem_singleton.1 he
    exact hhand entry (by rw [ht]; rfl)
  | offer ht hc =>
    refine h.put rfl (fun e he => List.mem_append_left _ (h.queue e he)) (fun e he => ?_) (by simp)
    cases he
    exact List.mem_append_right _ List.mem_cons_self
  | @enqueue entry next ht ho hl =>
    refine h.drop rfl (fun e he => ?_) rfl hnone
    rcases List.mem_append.1 he with he | he
    · exact h.queue e he
    · cases List.mem_singleton.1 he
      exact hhand entry (by rw [ht]; rfl)
  | @overflow entry next ht ho hl =>
    refine h.put rfl (fun e he => List.mem_append_left _ (h.queue e he)) (fun e he => ?_) hnone
    cases he
    exact List.mem_append_left _ (hhand entry (by rw [ht]; rfl))
  | @spawn entry next handles lodgings ht hc hm =>
    have hentry : Event.submitted entry ∈ es := hhand entry (by rw [ht]; rfl)
    have hmade : Known (es ++ []) (p.put (.overflow p.counters.overflow)
        { ticket := some entry.ticket, phase := .starting entry }) := by
      refine h.put rfl (fun e he => List.mem_append_left _ (h.queue e he)) (fun e he => ?_) hnone
      cases he
      exact List.mem_append_left _ hentry
    rw [List.append_nil] at hmade
    exact hmade.drop rfl h.queue rfl (by simp)
  | count ht =>
    refine h.drop rfl h.queue ?_ ?_
    · cases id <;> rfl
    · cases t.ticket <;> simp
  | refuse | answer => exact h.drop rfl h.queue rfl (by simp)
  | retire | leave | finish | act | closeAgain | closeFirst | tooLate | hangUp | collect | joined | join
  | collectOverflow | joinedOverflow | joinOverflow => exact h.drop rfl h.queue rfl hnone

theorem Run.known (run : Run passes (start name workers code shared grants) es p) : Known es p := by
  induction run with
  | refl =>
    refine ⟨?_, forall_start fun n e he => ?_, fun e he => ?_⟩
    · unfold Pool.start
      rw [foldl_put]
      intro e he
      cases he
    · cases he
    · cases he
  | thread id _ h ih =>
    obtain ⟨t, ht, m⟩ := move_of_step h
    exact known_move ih ht m
  | passing _ _ ih => exact ⟨ih.queue, ih.threads, ih.begun⟩
  | call code _ ih =>
    refine ⟨ih.queue, Table.forall_insert ih.threads fun e he => ?_, ih.begun⟩
    cases he

/-! ## Counters -/

@[simp] def Event.hasAnswer (answer : Submission) : Event υ → Bool
  | answered _ a => decide (a = answer)
  | _ => false

@[simp] def Event.hasEnd (crashed : Bool) : Event υ → Bool
  | ended _ c => decide (c = crashed)
  | _ => false

/-- What is counted, from what was seen. -/
def tally (es : List (Event υ)) : Counters where
  queued := es.countP (Event.hasAnswer .queued)
  overflow := es.countP (Event.hasAnswer .overflow)
  rejected := es.countP (Event.hasAnswer .rejected)
  completed := es.countP (Event.hasEnd false)
  crashed := es.countP (Event.hasEnd true)

/-- The answer that a thread brings is one that is still to be counted. -/
def Phase.isCountable : Phase σ υ → Bool
  | answering _ .overflow _ => false
  | _ => true

theorem countable_move (h : ∀ id t, p.threads.get? id = some t → t.phase.isCountable = true) (m : Move p id t new q) :
    ∀ id t, q.threads.get? id = some t → t.phase.isCountable = true := by
  cases m with
  | @spawn entry next handles lodgings ht hc hm =>
    have hmade := Table.forall_insert (k := .overflow p.counters.overflow)
      (v := { ticket := some entry.ticket, phase := .starting entry }) h rfl
    exact Table.forall_insert hmade rfl
  | count ht =>
    refine Table.forall_insert h ?_
    cases id <;> rfl
  | _ => exact Table.forall_insert h rfl

theorem Run.countable (run : Run passes (start name workers code shared grants) es p) :
    ∀ id t, p.threads.get? id = some t → t.phase.isCountable = true := by
  induction run with
  | refl => exact forall_start fun n => rfl
  | thread id _ h ih =>
    obtain ⟨t, -, m⟩ := move_of_step h
    exact countable_move ih m
  | passing _ _ ih => exact ih
  | call code _ ih => exact Table.forall_insert ih rfl

theorem counters_move (ht : t.Fits id) (hc : t.phase.isCountable = true) (h : p.counters = tally es)
    (m : Move p id t new q) : q.counters = tally (es ++ new) := by
  cases m with
  | start | refuse | offer =>
    show p.counters = _
    rw [h]
    simp [tally]
  | spawn =>
    rw [h]
    simp [tally]
  | @answer k a next hp =>
    rw [hp] at hc
    cases a with
    | overflow => cases hc
    | queued | rejected => simp [tally, Counters.answer, h]
  | @count crashed hp =>
    rw [Thread.Fits, hp] at ht
    obtain ⟨k, hk⟩ := Option.isSome_iff_exists.1 ht.1
    rw [hk]
    cases crashed with
    | _ => simp [tally, Counters.unit, h]
  | take | retire | leave | finish | act | closeAgain | closeFirst | enqueue | overflow | tooLate | hangUp | collect
  | joined | join | collectOverflow | joinedOverflow | joinOverflow =>
    rw [List.append_nil]
    exact h

/-- **The counters count what was seen.** -/
theorem Run.counters (run : Run passes (start name workers code shared grants) es p) : p.counters = tally es := by
  induction run with
  | refl =>
    unfold Pool.start
    rw [foldl_put]
    rfl
  | thread id before h ih =>
    obtain ⟨t, ht, m⟩ := move_of_step h
    exact counters_move (before.formed.fits id t ht) (before.countable id t ht) ih m
  | passing _ _ ih => exact ih
  | call _ _ ih => exact ih

theorem countP_accepts (es : List (Event υ)) :
    es.countP (Event.accepts fun _ => true) = (tally es).queued + (tally es).overflow := by
  unfold tally
  induction es with
  | nil => rfl
  | cons e es ih =>
    simp only [countP_cons_toNat] at ih ⊢
    cases e with
    | answered ticket answer => cases answer <;> simp <;> omega
    | _ => simpa using ih

theorem countP_rejects (es : List (Event υ)) : es.countP (Event.rejects fun _ => true) = (tally es).rejected := by
  unfold tally
  congr 1
  funext e
  cases e with
  | answered ticket answer => cases answer <;> rfl
  | _ => rfl

theorem countP_ends (es : List (Event υ)) :
    es.countP (Event.ends fun _ => true) = (tally es).completed + (tally es).crashed := by
  unfold tally
  induction es with
  | nil => rfl
  | cons e es ih =>
    simp only [countP_cons_toNat] at ih ⊢
    cases e with
    | ended ticket crashed => cases crashed <;> simp <;> omega
    | _ => simpa using ih

/-- In a pool at rest, every unit was turned away or ended, once all submissions have returned. -/
theorem Run.rejected_or_ended (run : Run passes (start name workers code shared grants) es p) (hret : p.AllReturned)
    (hrest : p.AtRest) {e : Entry υ} (he : Event.submitted e ∈ es) :
    Event.answered e.ticket .rejected ∈ es ∨ ∃ crashed, Event.ended e.ticket crashed ∈ es := by
  obtain ⟨hends, hanswers⟩ := (run.ledger (· == e.ticket)).atRest run.formed run.closing run.housed hret hrest
  have hlt : e.ticket ∈ List.range p.submissions := by
    rw [← run.tickets]
    exact List.mem_map_of_mem (List.mem_filterMap.2 ⟨_, he, rfl⟩)
  have hissued : 0 < issued (· == e.ticket) p.submissions := List.countP_pos_iff.2 ⟨_, hlt, beq_self_eq_true _⟩
  rw [countP_answers, ← hends] at hanswers
  by_cases hrejects : 0 < es.countP (Event.rejects (· == e.ticket))
  · obtain ⟨ev, hev, hk⟩ := List.countP_pos_iff.1 hrejects
    cases ev with
    | answered k a =>
      cases a with
      | rejected => exact .inl (beq_iff_eq.1 hk ▸ hev)
      | queued | overflow => cases hk
    | _ => cases hk
  · have hpos : 0 < es.countP (Event.ends (· == e.ticket)) := by omega
    obtain ⟨ev, hev, hk⟩ := List.countP_pos_iff.1 hpos
    cases ev with
    | ended k crashed => exact .inr ⟨crashed, beq_iff_eq.1 hk ▸ hev⟩
    | _ => cases hk

/-! ## The account of a run -/

/-- **Units are neither lost nor run twice.**  Whatever the threads do and in whatever order: a unit that begins is one
that was handed over, and it begins once; it never begins when it was turned away; when it was taken on, it waits, runs
or ended, and only one of these.  When all submissions have returned and no thread of the pool has anything left to do,
then every unit that was taken on has ended, and the counters agree with that. -/
theorem units_conserved (run : Run passes (start name workers code shared grants) es p) :
    (∀ e e', Event.submitted e ∈ es → Event.submitted e' ∈ es → e.ticket = e'.ticket → e = e') ∧
    (∀ e, Event.started e ∈ es → Event.submitted e ∈ es) ∧
    (∀ k, es.countP (Event.starts (· == k)) ≤ 1) ∧
    (∀ k, Event.answered k .rejected ∈ es → es.countP (Event.starts (· == k)) = 0) ∧
    (∀ k a, Event.answered k a ∈ es → a ≠ .rejected →
      p.waiting (· == k) + p.running (· == k) + es.countP (Event.ends (· == k)) = 1) ∧
    (p.AllReturned → p.AtRest →
      (∀ e, Event.submitted e ∈ es → ∃ a, Event.answered e.ticket a ∈ es) ∧
      (∀ k a, Event.answered k a ∈ es → a ≠ .rejected → es.countP (Event.ends (· == k)) = 1) ∧
      p.stats.counters.queued + p.stats.counters.overflow = p.stats.counters.completed + p.stats.counters.crashed ∧
      p.stats.counters.queued + p.stats.counters.overflow = es.countP (Event.accepts fun _ => true) ∧
      p.stats.counters.rejected = es.countP (Event.rejects fun _ => true)) := by
  refine ⟨fun e e' => run.entry_inj, run.known.begun, fun k => (run.ledger _).starts_le_one,
    fun k => (run.ledger _).starts_eq_zero, fun k a => (run.ledger _).accepted, fun hret hrest => ?_⟩
  have hrested := fun sel => (run.ledger sel).atRest run.formed run.closing run.housed hret hrest
  refine ⟨?_, ?_, ?_, ?_, ?_⟩
  · intro e he
    have hlt : e.ticket ∈ List.range p.submissions := by
      rw [← run.tickets]
      exact List.mem_map_of_mem (List.mem_filterMap.2 ⟨_, he, rfl⟩)
    have hissued : 0 < issued (· == e.ticket) p.submissions := List.countP_pos_iff.2 ⟨_, hlt, beq_self_eq_true _⟩
    rw [← (hrested _).2] at hissued
    obtain ⟨ev, hev, hk⟩ := List.countP_pos_iff.1 hissued
    cases ev with
    | answered ticket a =>
      rw [Event.answers, beq_iff_eq] at hk
      exact ⟨a, hk ▸ hev⟩
    | _ => cases hk
  · intro k a ha hne
    have hone := (run.ledger _).accepted ha hne
    have hends : es.countP (Event.ends (· == k)) = es.countP (Event.accepts (· == k)) := (hrested _).1
    have hpos : 0 < es.countP (Event.accepts (· == k)) := List.countP_pos_iff.2 ⟨_, ha, by cases a <;> simp_all⟩
    omega
  · show p.counters.queued + p.counters.overflow = p.counters.completed + p.counters.crashed
    rw [run.counters, ← countP_accepts, ← countP_ends]
    exact (hrested _).1.symm
  · show p.counters.queued + p.counters.overflow = _
    rw [run.counters, countP_accepts]
  · show p.counters.rejected = _
    rw [run.counters, countP_rejects]

/-- A unit that crashes, one that hands over another one, and one that closes the pool. -/
def sampleCode : Nat → Code Unit Nat
  | 0 => .crash
  | 1 => (submit 0).bind fun _ => .done ()
  | _ => close

theorem forall_of_all {P : Thread σ υ → Bool} (h : (p.threads.entries.all fun e => P e.2) = true) :
    ∀ id t, p.threads.get? id = some t → P t = true := by
  intro id t ht
  rw [List.all_eq_true] at h
  exact h (id, t) (Table.get?_eq_some_iff.1 ht)

/-- Where all threads are gone, nothing is left to do. -/
theorem atRest_of_gone (h : ∀ id t, p.threads.get? id = some t → t.phase.isGone = true) : p.AllReturned ∧ p.AtRest := by
  have hgone : ∀ id t, p.threads.get? id = some t → t.phase = .gone := by
    intro id t ht
    have hg := h id t ht
    cases hp : t.phase with
    | gone => rfl
    | _ => rw [hp] at hg; cases hg
  have hhost : ∀ id, p.isHosting id = false := by
    intro id
    rw [Bool.eq_false_iff]
    intro hx
    obtain ⟨g, -, -, -, hlive⟩ := isHosting_iff.1 hx
    obtain ⟨u, hu, hug⟩ := exists_of_isGone_eq_false hlive
    exact hug (hgone g u hu)
  refine ⟨fun id t ht => ⟨by rw [hgone id t ht]; rfl, hhost id⟩, fun id _ => ⟨?_, ?_⟩⟩
  · rw [step_eq_advance (hhost id)]
    unfold advance
    cases ht : p.threads.get? id with
    | none => rfl
    | some t =>
      have hg := hgone id t ht
      obtain ⟨ticket, phase⟩ := t
      cases hg
      rfl
  · rintro ⟨t, ready, act, next, ht, hp, -⟩
    rw [hgone id t ht] at hp
    cases hp

/-- One worker, four units from outside and one from a unit: two are queued; one gets no thread, so the caller runs it and
closes the pool from there; and two come too late. -/
theorem units_conserved_sample : ∃ es p,
    Run (fun _ _ => False) (start "sample" 1 sampleCode () fun _ => false) es p ∧ p.AllReturned ∧ p.AtRest ∧
      p.stats.counters = ⟨2, 1, 2, 2, 1⟩ ∧ es.countP (Event.accepts fun _ => true) = 3 ∧
      es.countP (Event.rejects fun _ => true) = 2 := by
  let outside : Code Unit Nat := (submit 1).bind fun _ => (submit 0).bind fun _ => (submit 2).bind fun _ =>
    (submit 0).bind fun _ => .done ()
  let ids : List ThreadId := List.replicate 9 (.caller 0) ++ List.replicate 4 (.overflow 0) ++
    List.replicate 11 (.worker 0) ++ List.replicate 6 (.overflow 0) ++ List.replicate 3 (.caller 0)
  let made : Pool Unit Nat := (start "sample" 1 sampleCode () fun _ => false).call outside
  have hends : ((follow ids made).any fun r => (r.2.threads.entries.all fun e => e.2.phase.isGone) &&
      decide (r.2.stats.counters = ⟨2, 1, 2, 2, 1⟩)) = true := by decide +kernel
  rw [Option.any_eq_true] at hends
  obtain ⟨⟨es, p⟩, hfollow, hend⟩ := hends
  rw [Bool.and_eq_true, decide_eq_true_eq] at hend
  obtain ⟨hgone, hcounters⟩ := hend
  have run : Run (fun _ _ => False) (start "sample" 1 sampleCode () fun _ => false) ([] ++ es) p :=
    run_of_follow (Run.refl.call outside) hfollow
  rw [List.nil_append] at run
  obtain ⟨hreturned, hrest⟩ := atRest_of_gone (forall_of_all hgone)
  obtain ⟨-, -, -, -, -, hall⟩ := units_conserved run
  obtain ⟨-, -, -, haccepted, hrejected⟩ := hall hreturned hrest
  refine ⟨es, p, run, hreturned, hrest, hcounters, ?_, ?_⟩
  · rw [← haccepted, hcounters]
    rfl
  · rw [← hrejected, hcounters]

end Pool
end JobRunner
