import JobRunner.Proofs.PoolLodgers
/-!
# Who is waited for

Until the call that closes a pool has fetched the lists of threads, each thread that was made for the pool is on one of
them or gone; from then on each one but the one that runs the caller is still waited for or gone.  None can come in
between, since threads are made only for a pool that is not marked as closed.  Lodgers are on no list.
-/
namespace JobRunner
namespace Pool

variable {σ υ : Type} {passes : σ → σ → Prop} {p q r : Pool σ υ} {id w : ThreadId} {t : Thread σ υ}
  {es es' new : List (Event υ)} {name : String} {workers : Nat} {code : υ → Code σ υ} {shared : σ} {grants : Nat → Bool}

/-- All threads of a kind that were made are on a list or gone, but for one that is left out. -/
def Accounts (p : Pool σ υ) (kind : ThreadId → Bool) (out : Option ThreadId) (l : List ThreadId) : Prop :=
  ∀ w, kind w = true → p.lodgings.get? w = none → some w ≠ out → w ∈ l ∨ p.isGone w = true

/-- The workers for which a thread that closes the pool has still to wait. -/
def Phase.workersLeft (p : Pool σ υ) : Phase σ υ → List ThreadId
  | hangingUp _ | collecting _ => p.handles
  | joining rest _ => rest
  | _ => []

/-- The overflow threads for which a thread that closes the pool has still to wait. -/
def Phase.overflowsLeft (p : Pool σ υ) : Phase σ υ → List ThreadId
  | joiningOverflow rest _ => rest
  | _ => p.overflowHandles

/-- A pool that is not closed has all its threads on its lists; who closes it still waits for all that are not gone, but
for the one that runs it. -/
structure Guarded (p : Pool σ υ) : Prop where
  lists : p.isClosed = false →
    p.Accounts ThreadId.isWorker none p.handles ∧ p.Accounts ThreadId.isOverflow none p.overflowHandles
  closer : ∀ id t, p.threads.get? id = some t → t.phase.isClosing = true →
    p.Accounts ThreadId.isWorker (some (p.runner id)) (t.phase.workersLeft p) ∧
      p.Accounts ThreadId.isOverflow (some (p.runner id)) (t.phase.overflowsLeft p)

theorem Accounts.mono {kind : ThreadId → Bool} {out : Option ThreadId} {l l' : List ThreadId}
    (h : p.Accounts kind out l) (hm : ∀ w, q.lodgings.get? w = none → p.lodgings.get? w = none)
    (hl : ∀ w ∈ l, some w ≠ out → w ∈ l' ∨ p.isGone w = true)
    (hg : ∀ w, kind w = true → q.lodgings.get? w = none → p.isGone w = true → w ∈ l' ∨ q.isGone w = true) :
    q.Accounts kind out l' := by
  intro w hk hn hw
  rcases h w hk (hm w hn) hw with hm | hgone
  · rcases hl w hm hw with hm | hgone
    · exact .inl hm
    · exact hg w hk hn hgone
  · exact hg w hk hn hgone

theorem Accounts.weaken {kind : ThreadId → Bool} {out : Option ThreadId} {l : List ThreadId}
    (h : p.Accounts kind none l) : p.Accounts kind out l := fun w hk hn _ => h w hk hn (Option.some_ne_none w)

/-- Lodgers stay lodgers. -/
theorem Move.lodgings_eq_none (m : Move p id t new q) (hw : q.lodgings.get? w = none) : p.lodgings.get? w = none := by
  rcases m.lodgings with hl | ⟨-, -, -, hl, -⟩
  · rwa [hl] at hw
  · rw [hl, Table.get?_insert] at hw
    split at hw
    · cases hw
    · exact hw

/-- Who is gone stays gone, or is made for a unit and comes on the list. -/
theorem Move.gone_or_listed (m : Move p id t new q) (hid : p.threads.get? id = some t) (hw : p.isGone w = true)
    (hn : q.lodgings.get? w = none) :
    q.isGone w = true ∨ p.isClosed = false ∧ w.isOverflow = true ∧ w ∈ q.overflowHandles := by
  have hne : id ≠ w := by
    rintro rfl
    exact m.phase_ne_gone (isGone_eq_true_iff.1 hw t hid)
  cases m with
  | spawn ht hc hm =>
    by_cases he : ThreadId.overflow p.counters.overflow = w
    · subst he
      cases hm with
      | made hg => exact .inr ⟨hc, rfl, List.mem_append_right _ List.mem_cons_self⟩
      | refused hg =>
        rw [Table.get?_insert_self] at hn
        cases hn
    · exact .inl ((isGone_of_get?_eq ((get?_put_ne hne).trans (get?_put_ne he))).trans hw)
  | _ => exact .inl ((isGone_of_get?_eq (get?_put_ne hne)).trans hw)

/-- What a thread that does not close the pool does to the lists. -/
theorem Move.lists (m : Move p id t new q) (hc : t.phase.isClosing = false) :
    q.handles = p.handles ∧ (∀ w ∈ p.overflowHandles, w ∈ q.overflowHandles ∨ p.isGone w = true) ∧
      (p.isClosed = true → q.overflowHandles = p.overflowHandles ∧ q.isClosed = true) := by
  cases m with
  | spawn ht ho hm =>
    refine ⟨rfl, fun w hw => ?_, fun hf => ?_⟩
    · cases hm with
      | refused hr => exact .inl hw
      | made hr =>
        cases hg : p.isGone w with
        | true => exact .inr rfl
        | false => exact .inl (List.mem_append_left _ (List.mem_filter.2 ⟨hw, by rw [hg]; rfl⟩))
    · rw [ho] at hf
      cases hf
  | closeFirst ht ho => exact ⟨rfl, fun w hw => .inl hw, fun _ => ⟨rfl, rfl⟩⟩
  | hangUp ht | collect ht | joined ht | join ht | collectOverflow ht | joinedOverflow ht | joinOverflow ht =>
    rw [ht] at hc
    cases hc
  | take | retire | start | leave | finish | act | refuse | offer | closeAgain | enqueue | overflow | tooLate | answer
  | count => exact ⟨rfl, fun w hw => .inl hw, fun ho => ⟨rfl, ho⟩⟩

theorem Move.isClosed (m : Move p id t new q) (h : p.isClosed = true) : q.isClosed = true := by
  cases m with
  | closeFirst => rfl
  | _ => exact h

/-- Another thread that closes the pool after a step did so before. -/
theorem Move.closing_ne {u : Thread σ υ} (m : Move p id t new q) (hne : w ≠ id) (hw : q.threads.get? w = some u)
    (hu : u.phase.isClosing = true) : p.threads.get? w = some u := by
  cases m with
  | spawn ht hc =>
    have hmade := (get?_put_ne (Ne.symm hne)).symm.trans hw
    rcases Table.of_get?_insert hmade with ⟨-, rfl⟩ | ⟨-, hold⟩
    · cases hu
    · exact hold
  | take | retire | start | leave | finish | act | refuse | offer | closeAgain | closeFirst | enqueue | overflow
  | tooLate | answer | hangUp | collect | joined | join | collectOverflow | joinedOverflow | joinOverflow | count =>
    exact (get?_put_ne (Ne.symm hne)).symm.trans hw

theorem Guarded.listed (h : p.Guarded) (ho : p.isClosed = false) (hid : p.threads.get? id = some t)
    (hcl : t.phase.isClosing = false) (m : Move p id t new q) :
    q.Accounts ThreadId.isWorker none q.handles ∧ q.Accounts ThreadId.isOverflow none q.overflowHandles := by
  obtain ⟨hworkers, hoverflows⟩ := h.lists ho
  obtain ⟨hhandles, hkept, -⟩ := m.lists hcl
  refine ⟨hworkers.mono (fun w => m.lodgings_eq_none) (fun w hw _ => ?_) fun w hk hn hw => ?_,
    hoverflows.mono (fun w => m.lodgings_eq_none) (fun w hw _ => hkept w hw) fun w _ hn hw => ?_⟩
  · rw [hhandles]
    exact .inl hw
  · rcases m.gone_or_listed hid hw hn with hg | ⟨-, hov, -⟩
    · exact .inr hg
    · cases w with
      | worker n => cases hov
      | caller n | overflow n => cases hk
  · rcases m.gone_or_listed hid hw hn with hg | ⟨-, -, hm⟩
    · exact .inr hg
    · exact .inl hm

theorem Guarded.closer_self {u : Thread σ υ} (h : p.Guarded) (hf : p.Formed) (hc : p.Closing)
    (hid : p.threads.get? id = some t) (m : Move p id t new q) (hq : q.threads.get? id = some u)
    (hu : u.phase.isClosing = true) :
    q.Accounts ThreadId.isWorker (some (q.runner id)) (u.phase.workersLeft q) ∧
      q.Accounts ThreadId.isOverflow (some (q.runner id)) (u.phase.overflowsLeft q) := by
  rw [m.runner hf ⟨t, hid⟩]
  -- who is gone stays gone in a closed pool, and a list loses only who runs the caller and threads that are gone
  have hkeep : ∀ {kind : ThreadId → Bool} {l l' : List ThreadId}, t.phase.isClosing = true →
      p.Accounts kind (some (p.runner id)) l → (∀ w ∈ l, w ≠ p.runner id → w ∈ l' ∨ p.isGone w = true) →
      q.Accounts kind (some (p.runner id)) l' := by
    intro kind l l' ht ha hl
    refine ha.mono (fun w => m.lodgings_eq_none) (fun w hw hne => hl w hw fun he => hne (congrArg some he))
      fun w _ _ hw => ?_
    rcases m.isGone hid hw with hg | ⟨ho, -⟩
    · exact .inr hg
    · rw [hc.isClosed hid ht] at ho
      cases ho
  have hsame : ∀ {l : List ThreadId}, ∀ w ∈ l, w ≠ p.runner id → w ∈ l ∨ p.isGone w = true := fun w hw _ => .inl hw
  have hjoin : ∀ {head : ThreadId} {rest : List ThreadId}, head = p.runner id ∨ p.isGone head = true →
      ∀ w ∈ head :: rest, w ≠ p.runner id → w ∈ rest ∨ p.isGone w = true := by
    intro head rest hh w hw hne
    rcases List.mem_cons.1 hw with rfl | hw
    · exact .inr (hh.resolve_left hne)
    · exact .inl hw
  have hold := h.closer id t hid
  have hself : ∀ {ts : Table ThreadId (Thread σ υ)} {t' : Thread σ υ}, (ts.insert id t').get? id = some u →
      u = t' := by
    intro ts t' hi
    rw [Table.get?_insert_self] at hi
    exact (Option.some.inj hi).symm
  cases m with
  | closeFirst ht ho =>
    cases hself hq
    obtain ⟨hworkers, hoverflows⟩ := h.listed ho hid (by rw [ht]; rfl) (.closeFirst ht ho)
    exact ⟨hworkers.weaken, hoverflows.weaken⟩
  | hangUp ht | collect ht | joined ht | collectOverflow ht =>
    cases hself hq
    rw [ht] at hold hkeep
    obtain ⟨hworkers, hoverflows⟩ := hold rfl
    exact ⟨hkeep rfl hworkers hsame, hkeep rfl hoverflows hsame⟩
  | join ht hh =>
    cases hself hq
    rw [ht] at hold hkeep
    obtain ⟨hworkers, hoverflows⟩ := hold rfl
    exact ⟨hkeep rfl hworkers (hjoin hh), hkeep rfl hoverflows hsame⟩
  | joinOverflow ht hh =>
    cases hself hq
    rw [ht] at hold hkeep
    obtain ⟨hworkers, hoverflows⟩ := hold rfl
    exact ⟨hkeep rfl hworkers hsame, hkeep rfl hoverflows (hjoin hh)⟩
  | spawn => cases hself hq; cases hu
  | @count crashed =>
    cases hself hq
    cases id <;> cases hu
  | take | retire | start | leave | finish | act | refuse | offer | closeAgain | enqueue | overflow | tooLate | answer
  | joinedOverflow => cases hself hq; cases hu

theorem guarded_move (hf : p.Formed) (hc : p.Closing) (h : p.Guarded) (hid : p.threads.get? id = some t)
    (m : Move p id t new q) :
    q.Guarded := by
  refine ⟨fun ho => ?_, fun w u hw hu => ?_⟩
  · have hopen : p.isClosed = false := by
      cases hp : p.isClosed with
      | true => rw [m.isClosed hp] at ho; cases ho
      | false => rfl
    have hcl : t.phase.isClosing = false := by
      cases ht : t.phase.isClosing with
      | true => rw [hc.isClosed hid ht] at hopen; cases hopen
      | false => rfl
    exact h.listed hopen hid hcl m
  · by_cases he : w = id
    · subst he
      exact h.closer_self hf hc hid m hw hu
    -- another thread closes the pool, so this step neither makes threads nor touches the lists
    · have hold := m.closing_ne he hw hu
      have hclosed := hc.isClosed hold hu
      have hcl : t.phase.isClosing = false := by
        cases ht : t.phase.isClosing with
        | true => exact absurd (hc.eq_of_isClosing hold hu hid ht) he
        | false => rfl
      obtain ⟨hhandles, -, hsame⟩ := m.lists hcl
      have hkeep : ∀ {kind : ThreadId → Bool} {l : List ThreadId}, p.Accounts kind (some (p.runner w)) l →
          q.Accounts kind (some (p.runner w)) l := by
        intro kind l ha
        refine ha.mono (fun v => m.lodgings_eq_none) (fun v hv _ => .inl hv) fun v _ _ hv => ?_
        rcases m.isGone hid hv with hg | ⟨hopen, -⟩
        · exact .inr hg
        · rw [hclosed] at hopen
          cases hopen
      have hworkers : u.phase.workersLeft q = u.phase.workersLeft p := by
        cases u.phase <;> simp [Phase.workersLeft, hhandles]
      have hoverflows : u.phase.overflowsLeft q = u.phase.overflowsLeft p := by
        cases u.phase <;> simp [Phase.overflowsLeft, (hsame hclosed).1]
      rw [hworkers, hoverflows, m.runner hf ⟨u, hold⟩]
      exact ⟨hkeep (h.closer w u hold hu).1, hkeep (h.closer w u hold hu).2⟩

theorem guarded_start (name : String) (workers : Nat) (code : υ → Code σ υ) (shared : σ) (grants : Nat → Bool) :
    (start name workers code shared grants).Guarded := by
  refine ⟨fun _ => ⟨fun w hk _ _ => ?_, fun w hk _ _ => ?_⟩, forall_start fun n hf => absurd hf Bool.false_ne_true⟩
  · by_cases hm : w ∈ (List.range (max workers 1)).map ThreadId.worker
    · rw [handles_start]
      exact .inl hm
    · refine .inr (isGone_eq_true_iff.2 fun u hu => ?_)
      rw [get?_start, if_neg hm] at hu
      cases hu
  · refine .inr (isGone_eq_true_iff.2 fun u hu => ?_)
    rw [get?_start, Option.ite_none_right_eq_some] at hu
    obtain ⟨n, -, rfl⟩ := List.mem_map.1 hu.1
    cases hk

theorem guarded_call (h : p.Guarded) (code : Code σ υ) : (p.call code).Guarded := by
  have hgone : ∀ {kind : ThreadId → Bool} {out : Option ThreadId} {l : List ThreadId}, (∀ n, kind (.caller n) = false) →
      p.Accounts kind out l → (p.call code).Accounts kind out l := by
    intro kind out l hk ha
    refine ha.mono (fun w hw => hw) (fun w hw _ => .inl hw) fun w hw _ hg => ?_
    have hne : ThreadId.caller p.callers ≠ w := by
      rintro rfl
      rw [hk] at hw
      cases hw
    have hsame : (p.call code).threads.get? w = p.threads.get? w := get?_put_ne hne
    exact .inr ((isGone_of_get?_eq hsame).trans hg)
  refine ⟨fun ho => ⟨hgone (fun _ => rfl) (h.lists ho).1, hgone (fun _ => rfl) (h.lists ho).2⟩, fun w u hw hu => ?_⟩
  rcases Table.of_get?_insert hw with ⟨-, rfl⟩ | ⟨-, hw⟩
  · cases hu
  · exact ⟨hgone (fun _ => rfl) (h.closer w u hw hu).1, hgone (fun _ => rfl) (h.closer w u hw hu).2⟩

/-- **Nobody escapes who closes the pool.** -/
theorem Run.guarded (run : Run passes (start name workers code shared grants) es p) : p.Guarded := by
  induction run with
  | refl => exact guarded_start ..
  | thread id before h ih =>
    obtain ⟨t, ht, m⟩ := move_of_step h
    exact guarded_move before.formed before.closing ih ht m
  | passing _ _ ih => exact ⟨ih.lists, ih.closer⟩
  | call code _ ih => exact guarded_call ih code

end Pool
end JobRunner
