import JobRunner.Proofs.PoolShape
/-!
# Threads that lodge with others

When no thread can be made for a unit, who handed it over runs it, and that one may be a lodger itself.  All of it comes
down to one thread that was made, and the lodgers of a host came after it, so there is always one at the top of the pile
that can go on.  Whoever closes the pool waits for no lodger; its host stays where it is until its unit has ended.
-/
namespace JobRunner
namespace Pool

variable {σ υ : Type} {passes : σ → σ → Prop} {p q : Pool σ υ} {id : ThreadId} {t : Thread σ υ} {new : List (Event υ)}

/-! ## Lodgers -/

/-- The thread was made, and there it is. -/
def IsMade (p : Pool σ υ) (w : ThreadId) : Prop := p.lodgings.get? w = none ∧ ∃ u, p.threads.get? w = some u

/-- The thread is on a list of those to wait for. -/
def Listed (p : Pool σ υ) (w : ThreadId) : Prop :=
  w ∈ p.handles ∨ w ∈ p.overflowHandles ∨ ∃ id t, p.threads.get? id = some t ∧ w ∈ t.phase.waitsFor

/-- The higher, the later the thread came; all but overflow threads count as the first. -/
def ThreadId.rank : ThreadId → Nat
  | overflow n => n + 1
  | _ => 0

/-- A lodger came later than its host, and both are run by the same thread, which was made. -/
structure Lodged (p : Pool σ υ) (g : ThreadId) (l : Lodging) : Prop where
  later : l.host.rank < g.rank
  guest : ∃ u, p.threads.get? g = some u
  host : ∃ u, p.threads.get? l.host = some u
  runner : l.runner = p.runner l.host
  made : p.IsMade l.runner

/-- Lodgers are in their places, and nobody waits for them; their hosts are in the middle of some code; and of two that are
run by the same thread, one waits for a lodger of its own. -/
structure Housed (p : Pool σ υ) : Prop where
  lodged : ∀ g l, p.lodgings.get? g = some l → p.Lodged g l
  busy : ∀ w u, p.threads.get? w = some u → p.isHosting w = true → u.phase.isBusy = true
  apart : ∀ v w, p.isGone v = false → p.isGone w = false → v ≠ w → p.runner v = p.runner w →
    p.isHosting v = true ∨ p.isHosting w = true
  listed : ∀ w, p.Listed w → p.IsMade w

theorem runner_of_get? {g : ThreadId} {l : Lodging} (h : p.lodgings.get? g = some l) : p.runner g = l.runner := by
  rw [runner, h]
  rfl

theorem runner_of_get?_eq_none {w : ThreadId} (h : p.lodgings.get? w = none) : p.runner w = w := by
  rw [runner, h]
  rfl

/-- Whoever is there is run by a thread that was made. -/
theorem Housed.isMade_runner (h : p.Housed) (hid : ∃ u, p.threads.get? id = some u) : p.IsMade (p.runner id) := by
  cases hl : p.lodgings.get? id with
  | none =>
    rw [runner_of_get?_eq_none hl]
    exact ⟨hl, hid⟩
  | some l =>
    rw [runner_of_get? hl]
    exact (h.lodged id l hl).made

/-- Only overflow threads lodge. -/
theorem Housed.isOverflow_of_get? (h : p.Housed) {l : Lodging} (hl : p.lodgings.get? id = some l) :
    id.isOverflow = true := by
  have hlater := (h.lodged id l hl).later
  cases id with
  | overflow n => rfl
  | caller n | worker n => exact absurd hlater (Nat.not_lt_zero _)

theorem Housed.lodgings_eq_none (h : p.Housed) (hid : id.isOverflow = false) : p.lodgings.get? id = none := by
  cases hl : p.lodgings.get? id with
  | none => rfl
  | some l => exact absurd (hid.symm.trans (h.isOverflow_of_get? hl)) Bool.false_ne_true

/-- Only a thread that was made for one unit may lodge with another one. -/
theorem Housed.runner_eq_self (h : p.Housed) (hid : id.isOverflow = false) : p.runner id = id :=
  runner_of_get?_eq_none (h.lodgings_eq_none hid)

/-- A thread that is run by another one has a lodger there, unless it is gone. -/
theorem Housed.isHosting_runner (h : p.Housed) (hlive : p.isGone id = false) (hne : p.runner id ≠ id) :
    p.isHosting (p.runner id) = true := by
  induction hn : id.rank using Nat.strong_induction_on generalizing id with
  | _ n ih =>
    cases hl : p.lodgings.get? id with
    | none => exact absurd (runner_of_get?_eq_none hl) hne
    | some l =>
      obtain ⟨hlater, -, ⟨u, hu⟩, hrunner, -⟩ := h.lodged id l hl
      have hhost : p.isHosting l.host = true := isHosting_iff.2 ⟨id, l, hl, rfl, hlive⟩
      rw [runner_of_get? hl, hrunner]
      by_cases he : p.runner l.host = l.host
      · rw [he]
        exact hhost
      · refine ih _ (hn ▸ hlater) ?_ he rfl
        -- a host is in the middle of some code
        have hbusy := h.busy _ u hu hhost
        rw [Bool.eq_false_iff]
        intro hg
        rw [isGone_eq_true_iff.1 hg u hu] at hbusy
        cases hbusy

theorem exists_get?_of_isGone_eq_false {w : ThreadId} (h : p.isGone w = false) : ∃ u, p.threads.get? w = some u := by
  obtain ⟨u, hu, -⟩ := exists_of_isGone_eq_false h
  exact ⟨u, hu⟩

theorem exists_insert {ts : Table ThreadId (Thread σ υ)} {w i : ThreadId} (h : ∃ u, ts.get? w = some u) :
    ∃ u, (ts.insert i t).get? w = some u := by
  obtain ⟨u, hu⟩ := h
  by_cases he : i = w
  · exact ⟨t, by rw [he, Table.get?_insert_self]⟩
  · exact ⟨u, by rw [Table.get?_insert_ne he, hu]⟩

theorem Move.exists_get? {w : ThreadId} (m : Move p id t new q) (h : ∃ u, p.threads.get? w = some u) :
    ∃ u, q.threads.get? w = some u := by
  cases m with
  | spawn => exact exists_insert (exists_insert h)
  | _ => exact exists_insert h

/-- Lodgers come when a pool that is not closed cannot make a thread. -/
theorem Move.lodgings (m : Move p id t new q) : q.lodgings = p.lodgings ∨
    p.isClosed = false ∧ p.grants p.counters.overflow = false ∧ q.overflowHandles = p.overflowHandles ∧
      q.lodgings = p.lodgings.insert (.overflow p.counters.overflow) ⟨id, p.runner id⟩ ∧
      (id ≠ .overflow p.counters.overflow → q.isGone (.overflow p.counters.overflow) = false) ∧
      ∀ u, q.threads.get? id = some u → u.phase.isBusy = true := by
  cases m with
  | @spawn entry next handles lodgings ht hc hm =>
    cases hm with
    | made hg => exact .inl rfl
    | refused hg =>
      refine .inr ⟨hc, hg, rfl, rfl, fun hne => ?_, fun u hu => ?_⟩
      · rw [Pool.isGone]
        dsimp only
        rw [get?_put_ne hne, put, Table.get?_insert_self]
        rfl
      obtain rfl : { t with phase := .running (next .overflow) } = u :=
        Option.some.inj ((Table.get?_insert_self ..).symm.trans hu)
      rfl
  | _ => exact .inl rfl

theorem Move.grants (m : Move p id t new q) : q.grants = p.grants := by
  cases m with
  | _ => rfl

theorem Run.grants {es : List (Event υ)} (run : Run passes p es q) : q.grants = p.grants := by
  induction run with
  | refl => rfl
  | thread id _ h ih =>
    obtain ⟨t, -, m⟩ := move_of_step h
    exact m.grants.trans ih
  | passing _ _ ih => exact ih
  | call _ _ ih => exact ih

/-- A thread that is there stays where it lodges, or stays made. -/
theorem Move.lodgings_get? {w : ThreadId} (m : Move p id t new q) (hf : p.Formed)
    (hw : ∃ u, p.threads.get? w = some u) : q.lodgings.get? w = p.lodgings.get? w := by
  rcases m.lodgings with hl | ⟨-, -, -, hl, -⟩
  · rw [hl]
  · obtain ⟨u, hu⟩ := hw
    rw [hl, Table.get?_insert_ne (hf.overflow_ne hu)]

theorem Move.runner {w : ThreadId} (m : Move p id t new q) (hf : p.Formed) (hw : ∃ u, p.threads.get? w = some u) :
    q.runner w = p.runner w := by
  rw [Pool.runner, Pool.runner, m.lodgings_get? hf hw]

theorem Move.isMade {w : ThreadId} (m : Move p id t new q) (hf : p.Formed) (hw : p.IsMade w) : q.IsMade w :=
  ⟨(m.lodgings_get? hf hw.2).trans hw.1, m.exists_get? hw.2⟩

theorem Lodged.move {g : ThreadId} {l : Lodging} (h : p.Lodged g l) (hf : p.Formed) (m : Move p id t new q) :
    q.Lodged g l where
  later := h.later
  guest := m.exists_get? h.guest
  host := m.exists_get? h.host
  runner := h.runner.trans (m.runner hf h.host).symm
  made := m.isMade hf h.made

theorem listed_insert {ts : Table ThreadId (Thread σ υ)} {w : ThreadId} {P : Prop}
    (hold : ∀ i u, ts.get? i = some u → w ∈ u.phase.waitsFor → P) (hnew : w ∈ t.phase.waitsFor → P) :
    (∃ i u, (ts.insert id t).get? i = some u ∧ w ∈ u.phase.waitsFor) → P := by
  rintro ⟨i, u, hu, hw⟩
  rcases Table.of_get?_insert hu with ⟨-, rfl⟩ | ⟨-, hu⟩
  · exact hnew hw
  · exact hold i u hu hw

/-- A thread comes on a list only when it is made. -/
theorem Move.listed {w : ThreadId} (m : Move p id t new q) (hid : p.threads.get? id = some t) (hw : q.Listed w) :
    p.Listed w ∨ w = .overflow p.counters.overflow ∧ q.lodgings = p.lodgings ∧ ∃ u, q.threads.get? w = some u := by
  have hold : ∀ i u, p.threads.get? i = some u → w ∈ u.phase.waitsFor → p.Listed w :=
    fun i u hu hw => .inr (.inr ⟨i, u, hu, hw⟩)
  cases m with
  | spawn ht hc hm =>
    rcases hw with hw | hw | hw
    · exact .inl (.inl hw)
    · cases hm with
      | refused hg => exact .inl (.inr (.inl hw))
      | made hg =>
        rcases List.mem_append.1 hw with hw | hw
        · exact .inl (.inr (.inl (List.mem_filter.1 hw).1))
        · cases List.mem_singleton.1 hw
          exact .inr ⟨rfl, rfl, exists_insert ⟨_, Table.get?_insert_self ..⟩⟩
    · refine .inl (listed_insert (fun i u hu hw => ?_) (fun hw => absurd hw List.not_mem_nil) hw)
      rcases Table.of_get?_insert hu with ⟨-, rfl⟩ | ⟨-, hu⟩
      · exact absurd hw List.not_mem_nil
      · exact hold i u hu hw
  | collect ht =>
    rcases hw with hw | hw | hw
    · exact absurd hw List.not_mem_nil
    · exact .inl (.inr (.inl hw))
    · refine .inl (listed_insert hold ?_ hw)
      exact fun hw => .inl hw
  | collectOverflow ht =>
    rcases hw with hw | hw | hw
    · exact .inl (.inl hw)
    · exact absurd hw List.not_mem_nil
    · refine .inl (listed_insert hold ?_ hw)
      exact fun hw => .inr (.inl hw)
  | @join h rest next ht hh | @joinOverflow h rest next ht hh =>
    rcases hw with hw | hw | hw
    · exact .inl (.inl hw)
    · exact .inl (.inr (.inl hw))
    · refine .inl (listed_insert hold (fun hw => hold id t hid ?_) hw)
      rw [ht]
      exact List.mem_cons_of_mem h hw
  | @count crashed ht =>
    rcases hw with hw | hw | hw
    · exact .inl (.inl hw)
    · exact .inl (.inr (.inl hw))
    · refine .inl (listed_insert hold (fun hw => ?_) hw)
      cases id <;> exact absurd hw List.not_mem_nil
  | take | retire | start | leave | finish | act | refuse | offer | closeAgain | closeFirst | enqueue | overflow
  | tooLate | answer | hangUp | joined | joinedOverflow =>
    rcases hw with hw | hw | hw
    · exact .inl (.inl hw)
    · exact .inl (.inr (.inl hw))
    · exact .inl (listed_insert hold (fun hw => absurd hw List.not_mem_nil) hw)

/-- A thread that hosts after the step of another one did so before. -/
theorem Move.isHosting {w : ThreadId} (m : Move p id t new q) (hf : p.Formed) (h : p.Housed)
    (hid : p.threads.get? id = some t) (hne : id ≠ w) (hw : q.isHosting w = true) : p.isHosting w = true := by
  obtain ⟨g, l, hg, rfl, hlive⟩ := isHosting_iff.1 hw
  have hold : p.lodgings.get? g = some l := by
    rcases m.lodgings with hl | ⟨-, -, -, hl, -⟩
    · rwa [hl] at hg
    · rw [hl] at hg
      rcases Table.of_get?_insert hg with ⟨-, rfl⟩ | ⟨-, hg⟩
      · exact absurd rfl hne
      · exact hg
  refine isHosting_iff.2 ⟨g, l, hold, rfl, ?_⟩
  cases hgone : p.isGone g with
  | false => rfl
  | true =>
    rcases m.isGone hid hgone with hq | ⟨-, hnew⟩
    · rw [hq] at hlive
      cases hlive
    · obtain ⟨u, hu⟩ := (h.lodged g l hold).guest
      exact absurd hnew.symm (hf.overflow_ne hu)

/-- A thread takes a step only while it hosts nobody, so after it a host has got a lodger. -/
theorem Move.not_isHosting (m : Move p id t new q) (hf : p.Formed) (h : p.Housed) (hid : p.threads.get? id = some t)
    (hno : p.isHosting id = false) (hl : q.lodgings = p.lodgings) : q.isHosting id = false := by
  rw [Bool.eq_false_iff]
  intro hw
  obtain ⟨g, l, hg, rfl, hlive⟩ := isHosting_iff.1 hw
  rw [hl] at hg
  have hgone : p.isGone g = true := by
    cases hx : p.isGone g with
    | true => rfl
    | false => exact absurd (hno.symm.trans (isHosting_iff.2 ⟨g, l, hg, rfl, hx⟩)) Bool.false_ne_true
  rcases m.isGone hid hgone with hq | ⟨-, hnew⟩
  · rw [hq] at hlive
    cases hlive
  · obtain ⟨v, hv⟩ := (h.lodged g l hg).guest
    exact absurd hnew.symm (hf.overflow_ne hv)

theorem Housed.busy_move (h : p.Housed) (hf : p.Formed) (hid : p.threads.get? id = some t)
    (hno : p.isHosting id = false) (m : Move p id t new q) {w : ThreadId} {u : Thread σ υ}
    (hu : q.threads.get? w = some u) (hw : q.isHosting w = true) : u.phase.isBusy = true := by
  by_cases he : id = w
  · subst he
    rcases m.lodgings with hl | ⟨-, -, -, -, -, hbusy⟩
    · exact absurd (hw.symm.trans (m.not_isHosting hf h hid hno hl)) Bool.false_ne_true.symm
    · exact hbusy u hu
  · have hhost := m.isHosting hf h hid he hw
    obtain ⟨g, l, hg, rfl, -⟩ := isHosting_iff.1 hhost
    obtain ⟨v, hv⟩ := (h.lodged g l hg).host
    exact h.busy _ u ((m.get?_of_ne he (hf.overflow_ne hv)).symm.trans hu) hhost

/-- Who is left after a step was there before, unless it came with the step. -/
theorem Move.live (m : Move p id t new q) (hid : p.threads.get? id = some t) {w : ThreadId} (hw : q.isGone w = false)
    (hne : w ≠ .overflow p.counters.overflow) : p.isGone w = false := by
  cases hg : p.isGone w with
  | false => rfl
  | true =>
    rcases m.isGone hid hg with hq | ⟨-, hnew⟩
    · rw [hq] at hw
      cases hw
    · exact absurd hnew hne

/-- A host stays one, unless the step was the last one of its lodger. -/
theorem Move.keeps_isHosting (m : Move p id t new q) (hf : p.Formed) (h : p.Housed) {w : ThreadId}
    (hw : p.isHosting w = true) :
    q.isHosting w = true ∨ ∃ l, p.lodgings.get? id = some l ∧ l.host = w ∧ q.isGone id = true := by
  obtain ⟨g, l, hg, rfl, hlive⟩ := isHosting_iff.1 hw
  obtain ⟨u, hu⟩ := (h.lodged g l hg).guest
  have hkept : q.lodgings.get? g = some l := (m.lodgings_get? hf ⟨u, hu⟩).trans hg
  by_cases he : id = g
  · subst he
    cases hq : q.isGone id with
    | true => exact .inr ⟨l, hg, rfl, rfl⟩
    | false => exact .inl (isHosting_iff.2 ⟨id, l, hkept, rfl, hq⟩)
  · have hsame := isGone_of_get?_eq (m.get?_of_ne he (hf.overflow_ne hu))
    exact .inl (isHosting_iff.2 ⟨g, l, hkept, rfl, hsame.trans hlive⟩)

/-- When the lodger of one of two threads has ended, the other one still has its own. -/
theorem Housed.apart_keep (h : p.Housed) (hf : p.Formed) (hid : p.threads.get? id = some t)
    (hno : p.isHosting id = false) (m : Move p id t new q) {v w : ThreadId} (hw : p.isGone w = false)
    (hlive : q.isGone w = false) (hne : v ≠ w) (hr : p.runner v = p.runner w) (hv : p.isHosting v = true) :
    q.isHosting v = true ∨ q.isHosting w = true := by
  rcases m.keeps_isHosting hf h hv with hq | ⟨l, hl, rfl, hgone⟩
  · exact .inl hq
  have hidw : id ≠ w := by
    rintro rfl
    rw [hgone] at hlive
    cases hlive
  have hidlive : p.isGone id = false := by
    rw [Bool.eq_false_iff]
    exact fun hg => m.phase_ne_gone (isGone_eq_true_iff.1 hg t hid)
  have hsame : p.runner id = p.runner w := by rw [runner_of_get? hl, (h.lodged id l hl).runner, hr]
  rcases h.apart id w hidlive hw hidw hsame with hhost | hhost
  · rw [hno] at hhost
    cases hhost
  · rcases m.keeps_isHosting hf h hhost with hq | ⟨l', hl', hhostw, -⟩
    · exact .inr hq
    · obtain rfl : l = l' := Option.some.inj (hl.symm.trans hl')
      exact absurd hhostw hne

theorem Housed.apart_move (h : p.Housed) (hf : p.Formed) (hid : p.threads.get? id = some t)
    (hno : p.isHosting id = false) (m : Move p id t new q) (v w : ThreadId) (hv : q.isGone v = false)
    (hw : q.isGone w = false) (hne : v ≠ w) (hr : q.runner v = q.runner w) :
    q.isHosting v = true ∨ q.isHosting w = true := by
  -- a new thread is run by itself, or lodges with the one that took the step
  have hnew : ∀ {x : ThreadId}, q.isGone x = false → x ≠ .overflow p.counters.overflow →
      q.runner (.overflow p.counters.overflow) = q.runner x → q.isHosting x = true := by
    intro x hx hxn hxr
    have hxp := m.live hid hx hxn
    obtain ⟨u, hu⟩ := exists_get?_of_isGone_eq_false hxp
    rw [m.runner hf ⟨u, hu⟩] at hxr
    rcases m.lodgings with hl | ⟨-, -, -, hl, hthere, hbusy⟩
    · have hnone : q.lodgings.get? (.overflow p.counters.overflow) = none := by
        rw [hl]
        cases hg : p.lodgings.get? (.overflow p.counters.overflow) with
        | none => rfl
        | some l =>
          obtain ⟨v, hv⟩ := (h.lodged _ l hg).guest
          rw [hf.overflow_new] at hv
          cases hv
      rw [runner_of_get?_eq_none hnone] at hxr
      obtain ⟨v, hv⟩ := (h.isMade_runner ⟨u, hu⟩).2
      exact absurd hxr (hf.overflow_ne hv)
    · have hnewlive := hthere (hf.overflow_ne hid).symm
      have hlodges : q.lodgings.get? (.overflow p.counters.overflow) = some ⟨id, p.runner id⟩ := by
        rw [hl, Table.get?_insert_self]
      rw [runner_of_get? hlodges] at hxr
      by_cases he : id = x
      · exact isHosting_iff.2 ⟨_, _, hlodges, he, hnewlive⟩
      have hidlive : p.isGone id = false := by
        rw [Bool.eq_false_iff]
        exact fun hg => m.phase_ne_gone (isGone_eq_true_iff.1 hg t hid)
      rcases h.apart id x hidlive hxp he hxr with hhost | hhost
      · rw [hno] at hhost
        cases hhost
      · refine (m.keeps_isHosting hf h hhost).resolve_right ?_
        rintro ⟨-, -, -, hgone⟩
        obtain ⟨v, hv⟩ := m.exists_get? ⟨t, hid⟩
        have hbusy := hbusy v hv
        rw [isGone_eq_true_iff.1 hgone v hv] at hbusy
        cases hbusy
  by_cases hvn : v = .overflow p.counters.overflow
  · subst hvn
    exact .inr (hnew hw (Ne.symm hne) hr)
  by_cases hwn : w = .overflow p.counters.overflow
  · subst hwn
    exact .inl (hnew hv hne hr.symm)
  have hvp := m.live hid hv hvn
  have hwp := m.live hid hw hwn
  rw [m.runner hf (exists_get?_of_isGone_eq_false hvp), m.runner hf (exists_get?_of_isGone_eq_false hwp)] at hr
  rcases h.apart v w hvp hwp hne hr with hhost | hhost
  · exact h.apart_keep hf hid hno m hwp hw hne hr hhost
  · exact (h.apart_keep hf hid hno m hvp hv (Ne.symm hne) hr.symm hhost).symm

theorem housed_move (hf : p.Formed) (h : p.Housed) (hid : p.threads.get? id = some t)
    (hno : p.isHosting id = false) (m : Move p id t new q) : q.Housed := by
  refine ⟨fun g l hg => ?_, fun w u hu hw => h.busy_move hf hid hno m hu hw, h.apart_move hf hid hno m, fun w hw => ?_⟩
  · rcases m.lodgings with hl | ⟨-, -, -, hl, hnew, -⟩
    · rw [hl] at hg
      exact (h.lodged g l hg).move hf m
    · rw [hl] at hg
      rcases Table.of_get?_insert hg with ⟨rfl, rfl⟩ | ⟨-, hg⟩
      · refine ⟨?_, exists_get?_of_isGone_eq_false (hnew (hf.overflow_ne hid).symm), m.exists_get? ⟨t, hid⟩,
          (m.runner hf ⟨t, hid⟩).symm, ?_⟩
        · have hcame := hf.came id t hid
          cases id with
          | overflow n => exact Nat.succ_lt_succ hcame
          | caller n | worker n => exact Nat.succ_pos _
        · exact m.isMade hf (h.isMade_runner ⟨t, hid⟩)
      · exact (h.lodged g l hg).move hf m
  · rcases m.listed hid hw with hw | ⟨rfl, hl, hthere⟩
    · exact m.isMade hf (h.listed w hw)
    · refine ⟨?_, hthere⟩
      rw [hl]
      cases hg : p.lodgings.get? (.overflow p.counters.overflow) with
      | none => rfl
      | some l =>
        obtain ⟨u, hu⟩ := (h.lodged _ l hg).guest
        rw [hf.overflow_new] at hu
        cases hu

theorem handles_start (name : String) (workers : Nat) (code : υ → Code σ υ) (shared : σ) (grants : Nat → Bool) :
    (start name workers code shared grants).handles = (List.range (max workers 1)).map ThreadId.worker := by
  unfold start
  rw [foldl_put]

theorem lodgings_start (name : String) (workers : Nat) (code : υ → Code σ υ) (shared : σ) (grants : Nat → Bool) :
    (start name workers code shared grants).lodgings = .empty := by
  unfold start
  rw [foldl_put]

theorem grants_start (name : String) (workers : Nat) (code : υ → Code σ υ) (shared : σ) (grants : Nat → Bool) :
    (start name workers code shared grants).grants = grants := by
  unfold start
  rw [foldl_put]

theorem housed_start (name : String) (workers : Nat) (code : υ → Code σ υ) (shared : σ) (grants : Nat → Bool) :
    (start name workers code shared grants).Housed := by
  have hnone : ∀ g l, (start name workers code shared grants).lodgings.get? g ≠ some l := by
    rw [lodgings_start]
    exact nofun
  have hself : ∀ w, (start name workers code shared grants).runner w = w := by
    intro w
    rw [runner, lodgings_start]
    rfl
  refine ⟨fun g l hg => absurd hg (hnone g l), fun w u _ hw => ?_, fun v w _ _ hne hr => ?_,
    fun w hw => ⟨by rw [lodgings_start]; rfl, ?_⟩⟩
  · obtain ⟨g, l, hg, -, -⟩ := isHosting_iff.1 hw
    exact absurd hg (hnone g l)
  · rw [hself, hself] at hr
    exact absurd hr hne
  · rcases hw with hw | hw | ⟨i, u, hu, hw⟩
    · rw [handles_start] at hw
      exact ⟨_, by rw [get?_start, if_pos hw]⟩
    · unfold start at hw
      rw [foldl_put] at hw
      exact absurd hw List.not_mem_nil
    · exact absurd hw (forall_start (P := fun _ u => w ∉ u.phase.waitsFor) (fun n => List.not_mem_nil) i u hu)

/-- A new caller does not bear on who hosts. -/
theorem Housed.isHosting_call (h : p.Housed) (hf : p.Formed) (code : Code σ υ) (w : ThreadId) :
    (p.call code).isHosting w = p.isHosting w := by
  have hgone : ∀ {g l}, p.lodgings.get? g = some l → (p.call code).isGone g = p.isGone g := by
    intro g l hg
    obtain ⟨u, hu⟩ := (h.lodged g l hg).guest
    refine isGone_of_get?_eq (get?_put_ne ?_)
    rintro rfl
    rw [hf.caller_new] at hu
    cases hu
  rw [Bool.eq_iff_iff, isHosting_iff, isHosting_iff]
  constructor
  · rintro ⟨g, l, hg, hl, hlive⟩
    exact ⟨g, l, hg, hl, (hgone hg).symm.trans hlive⟩
  · rintro ⟨g, l, hg, hl, hlive⟩
    exact ⟨g, l, hg, hl, (hgone hg).trans hlive⟩

theorem housed_call (hf : p.Formed) (h : p.Housed) (code : Code σ υ) : (p.call code).Housed := by
  have hmade : ∀ {w}, p.IsMade w → (p.call code).IsMade w := fun hw => ⟨hw.1, exists_insert hw.2⟩
  have hnew : ∀ {w}, (∃ u, p.threads.get? w = some u) → ThreadId.caller p.callers ≠ w := by
    rintro w ⟨u, hu⟩ rfl
    rw [hf.caller_new] at hu
    cases hu
  have hhost := h.isHosting_call hf code
  -- the new thread is run by itself
  have hself : ∀ {w}, (p.call code).isGone w = false → p.runner w = p.runner (.caller p.callers) →
      w = .caller p.callers := by
    intro w hw hr
    refine Classical.byContradiction fun hne => ?_
    have hthere : ∃ u, p.threads.get? w = some u := by
      obtain ⟨u, hu⟩ := exists_get?_of_isGone_eq_false hw
      exact ⟨u, (get?_put_ne (Ne.symm hne)).symm.trans hu⟩
    have hcaller : p.runner (.caller p.callers) = .caller p.callers := h.runner_eq_self rfl
    rw [hcaller] at hr
    exact hnew (h.isMade_runner hthere).2 hr.symm
  refine ⟨fun g l hg => ?_, fun w u hu hw => ?_, fun v w hv hw hne hr => ?_, fun w hw => hmade (h.listed w ?_)⟩
  · obtain ⟨later, guest, host, runner, made⟩ := h.lodged g l hg
    exact ⟨later, exists_insert guest, exists_insert host, runner, hmade made⟩
  · rw [hhost] at hw
    obtain ⟨g, l, hg, rfl, -⟩ := isHosting_iff.1 hw
    exact h.busy _ u ((get?_put_ne (hnew (h.lodged g l hg).host)).symm.trans hu) hw
  · have hold : ∀ {x}, (p.call code).isGone x = false → x ≠ .caller p.callers → p.isGone x = false :=
      fun hx hxn => (isGone_of_get?_eq (get?_put_ne (Ne.symm hxn))).symm.trans hx
    by_cases hvn : v = .caller p.callers
    · subst hvn
      exact absurd (hself hw hr.symm).symm hne
    by_cases hwn : w = .caller p.callers
    · subst hwn
      exact absurd (hself hv hr) hne
    rw [hhost, hhost]
    exact h.apart v w (hold hv hvn) (hold hw hwn) hne hr
  · rcases hw with hw | hw | hw
    · exact .inl hw
    · exact .inr (.inl hw)
    · exact listed_insert (fun i u hu hw => .inr (.inr ⟨i, u, hu, hw⟩)) (fun hw => absurd hw List.not_mem_nil) hw

theorem Housed.run {es : List (Event υ)} (h : p.Housed) (hf : p.Formed) (run : Run passes p es q) : q.Housed := by
  induction run with
  | refl => exact h
  | thread id before hs ih =>
    obtain ⟨t, ht, m⟩ := move_of_step hs
    exact housed_move (hf.run before) ih ht (isHosting_of_step hs) m
  | passing _ _ ih =>
    refine ⟨fun g l hg => ?_, ih.busy, ih.apart, ih.listed⟩
    obtain ⟨later, guest, host, runner, made⟩ := ih.lodged g l hg
    exact ⟨later, guest, host, runner, made⟩
  | call code before ih => exact housed_call (hf.run before) ih code

/-- **Lodgers have a thread that was made to run them**, and nobody waits for them. -/
theorem Run.housed {name : String} {workers : Nat} {code : υ → Code σ υ} {shared : σ} {grants : Nat → Bool}
    {es : List (Event υ)} (run : Run passes (start name workers code shared grants) es p) : p.Housed :=
  (housed_start ..).run (formed_start ..) run

/-- Without a refusal there are no lodgers. -/
theorem Run.lodgings_eq_empty {name : String} {workers : Nat} {code : υ → Code σ υ} {shared : σ} {grants : Nat → Bool}
    {es : List (Event υ)} (run : Run passes (start name workers code shared grants) es p)
    (hg : ∀ n, grants n = true) : p.lodgings = .empty := by
  induction run with
  | refl => exact lodgings_start ..
  | thread id before h ih =>
    obtain ⟨t, -, m⟩ := move_of_step h
    rcases m.lodgings with hl | ⟨-, hno, -⟩
    · exact hl.trans ih
    · rw [before.grants, grants_start, hg] at hno
      cases hno
  | passing _ _ ih => exact ih
  | call _ _ ih => exact ih

/-- The ticket of the unit that a thread works on. -/
def ticketOf (p : Pool σ υ) (w : ThreadId) : Option Nat := (p.threads.get? w).bind Thread.ticket

/-- The tickets of the units that are run in the place of threads that could not be made. -/
def lodgers (p : Pool σ υ) : List Nat := p.lodgings.keys.filterMap p.ticketOf

theorem ticketOf_eq (hid : p.threads.get? id = some t) : p.ticketOf id = t.ticket := by
  rw [ticketOf, hid, Option.bind_some]

/-- A thread that is gone has no unit. -/
theorem Formed.ticketOf_eq_none (h : p.Formed) (hg : p.isGone w = true) : p.ticketOf w = none := by
  cases hw : p.threads.get? w with
  | none => rw [ticketOf, hw, Option.bind_none]
  | some u => rw [ticketOf_eq hw, h.ticket_eq_none hw (.inr (.inr (isGone_eq_true_iff.1 hg u hw)))]

theorem mem_lodgers_iff {k : Nat} :
    k ∈ p.lodgers ↔ ∃ g l, p.lodgings.get? g = some l ∧ p.ticketOf g = some k := by
  rw [lodgers, List.mem_filterMap]
  refine ⟨?_, ?_⟩
  · rintro ⟨g, hg, hk⟩
    obtain ⟨⟨g, l⟩, he, rfl⟩ := List.mem_map.1 hg
    exact ⟨g, l, Table.get?_eq_some_iff.2 he, hk⟩
  · rintro ⟨g, l, hg, hk⟩
    exact ⟨g, List.mem_map.2 ⟨(g, l), Table.get?_eq_some_iff.1 hg, rfl⟩, hk⟩

/-- A thread that is no worker has its unit until that has ended, and then it is gone. -/
theorem Move.ends_or_keeps (m : Move p id t new q) (hf : p.Formed) (hthere : p.threads.get? id = some t)
    (hw : id.isWorker = false) :
    (q.isGone id = true ∧ ∃ crashed, new = (t.ticket.map fun k => Event.ended k crashed).toList) ∨
      q.ticketOf id = t.ticket := by
  have hfits := hf.fits id t hthere
  have hgone : ∀ {ts : Table ThreadId (Thread σ υ)} {t' : Thread σ υ}, q.threads = ts.insert id t' →
      t'.phase = .gone → q.isGone id = true := by
    intro ts t' hq hp
    refine isGone_eq_true_iff.2 fun u hu => ?_
    rw [hq, Table.get?_insert_self, Option.some.injEq] at hu
    rw [← hu, hp]
  have hkept : ∀ {ts : Table ThreadId (Thread σ υ)} {t' : Thread σ υ}, q.threads = ts.insert id t' →
      t'.ticket = t.ticket → q.ticketOf id = t.ticket := by
    intro ts t' hq ht
    rw [ticketOf, hq, Table.get?_insert_self, Option.bind_some, ht]
  cases m with
  | take ht hq =>
    rw [Thread.Fits, ht] at hfits
    rw [hw] at hfits
    cases hfits.2
  | retire ht =>
    rw [Thread.Fits, ht] at hfits
    rw [hw] at hfits
    cases hfits.2
  | leave ht hc hid =>
    refine .inl ⟨hgone rfl rfl, false, ?_⟩
    rw [hf.ticket_eq_none hthere (.inl hid)]
    rfl
  | @count crashed ht =>
    refine .inl ⟨hgone rfl ?_, crashed, rfl⟩
    cases id with
    | worker n => cases hw
    | caller n | overflow n => rfl
  | start | finish | act | refuse | offer | closeAgain | closeFirst | enqueue | overflow | tooLate | spawn | answer | hangUp
  | collect | joined | join | collectOverflow | joinedOverflow | joinOverflow =>
    exact .inr (hkept rfl rfl)

/-- The step of a pool at which the host of a lodger goes on, or the lodger gives its unit up, is the one at which the unit
ends. -/
theorem Housed.step_waits (h : p.Housed) (hf : p.Formed) {l : Lodging} {k : Nat} {i : ThreadId} (hs : p.step i = some q)
    (hl : p.lodgings.get? w = some l) (hk : p.ticketOf w = some k) :
    q.threads.get? l.host = p.threads.get? l.host ∧ q.ticketOf w = some k ∨ ∃ crashed, .ended k crashed ∈ p.seen i := by
  obtain ⟨t, hi, m⟩ := move_of_step hs
  obtain ⟨u, hu, hticket⟩ := Option.bind_eq_some_iff.1 hk
  obtain ⟨v, hv⟩ := (h.lodged w l hl).host
  -- the lodger has its unit, so it is still there, and the host has no step
  have hne : i ≠ l.host := by
    rintro rfl
    have hlive : p.isGone w = false := by
      rw [Bool.eq_false_iff]
      intro hgone
      rw [hf.ticketOf_eq_none hgone] at hk
      cases hk
    have hhosting := isHosting_iff.2 ⟨w, l, hl, rfl, hlive⟩
    rw [isHosting_of_step hs] at hhosting
    cases hhosting
  have hsame : q.threads.get? l.host = p.threads.get? l.host := m.get?_of_ne hne (hf.overflow_ne hv)
  by_cases he : i = w
  · subst he
    obtain rfl : t = u := Option.some.inj (hi.symm.trans hu)
    have hworker : i.isWorker = false := by
      have hover := h.isOverflow_of_get? hl
      cases i with
      | overflow n => rfl
      | caller n | worker n => cases hover
    rcases m.ends_or_keeps hf hi hworker with ⟨-, crashed, hnew⟩ | hkept
    · refine .inr ⟨crashed, ?_⟩
      rw [hnew, hticket]
      exact List.mem_singleton_self _
    · exact .inl ⟨hsame, hkept.trans hticket⟩
  · refine .inl ⟨hsame, ?_⟩
    rw [ticketOf, m.get?_of_ne he (hf.overflow_ne hu)]
    exact hk

/-- A host stays where it is until the unit of its lodger has ended. -/
theorem Run.waits_for_lodger {es : List (Event υ)} {w : ThreadId} {l : Lodging} {k : Nat} (run : Run passes p es q)
    (hf : p.Formed) (h : p.Housed) (hw : p.lodgings.get? w = some l) (hk : p.ticketOf w = some k) :
    q.lodgings.get? w = some l ∧
      (q.threads.get? l.host = p.threads.get? l.host ∧ q.ticketOf w = some k ∨ ∃ crashed, .ended k crashed ∈ es) := by
  induction run with
  | refl => exact ⟨hw, .inl ⟨rfl, hk⟩⟩
  | passing _ _ ih => exact ih
  | @call es q' code before ih =>
    have hnew : ∀ {v}, (∃ u, q'.threads.get? v = some u) → (q'.call code).threads.get? v = q'.threads.get? v := by
      rintro v ⟨u, hu⟩
      refine get?_put_ne fun he => ?_
      rw [← he, (hf.run before).caller_new] at hu
      cases hu
    obtain ⟨hl, hstays⟩ := ih
    have hlodged := (h.run hf before).lodged w l hl
    refine ⟨hl, hstays.imp_left fun ⟨hhost, hticket⟩ => ⟨(hnew hlodged.host).trans hhost, ?_⟩⟩
    rw [ticketOf, hnew hlodged.guest]
    exact hticket
  | @thread es q' r i before hs ih =>
    obtain ⟨hl, hstays⟩ := ih
    have hf' := hf.run before
    have h' := h.run hf before
    obtain ⟨t, hi, m⟩ := move_of_step hs
    refine ⟨(m.lodgings_get? hf' (h'.lodged w l hl).guest).trans hl, ?_⟩
    rcases hstays with ⟨hhost, hticket⟩ | ⟨crashed, hended⟩
    · rcases h'.step_waits hf' hs hl hticket with ⟨hsame, hkept⟩ | ⟨crashed, hended⟩
      · exact .inl ⟨hsame.trans hhost, hkept⟩
      · exact .inr ⟨crashed, List.mem_append_right _ hended⟩
    · exact .inr ⟨crashed, List.mem_append_left _ hended⟩

/-- The thread has this unit to run before it goes on, and has not begun yet.  Until it has ended, the thread stays where it
is, whatever else happens. -/
structure RunsFirst (p : Pool σ υ) (id : ThreadId) (entry : Entry υ) : Prop where
  guest : ∃ w l, p.lodgings.get? w = some l ∧ l.host = id ∧
    p.threads.get? w = some { ticket := some entry.ticket, phase := .starting entry }
  waits : ∀ {passes : σ → σ → Prop} {es : List (Event υ)} {q : Pool σ υ}, Run passes p es q →
    q.threads.get? id = p.threads.get? id ∨ ∃ crashed, .ended entry.ticket crashed ∈ es

/-- **A thread gets a lodger when no thread can be made for a unit** that it hands over. -/
theorem Move.runsFirst (m : Move p id t new q) (hf : p.Formed) (h : p.Housed) (hid : p.threads.get? id = some t)
    (hno : p.isHosting id = false) (hw : q.isHosting id = true) :
    ∃ entry next, t.phase = .spilling entry next ∧ p.isClosed = false ∧ q.RunsFirst id entry := by
  have hchanged : q.lodgings ≠ p.lodgings := by
    intro hl
    rw [m.not_isHosting hf h hid hno hl] at hw
    cases hw
  have hf' : q.Formed := formed_move hf hid m
  have h' : q.Housed := housed_move hf h hid hno m
  cases m with
  | @spawn entry next handles lodgings ht hc hm =>
    cases hm with
    | made hg => exact absurd rfl hchanged
    | refused hg =>
      let made := p.put (.overflow p.counters.overflow) { ticket := some entry.ticket, phase := .starting entry }
      have hguest : (made.put id { t with phase := .running (next .overflow) }).threads.get?
          (.overflow p.counters.overflow) = some { ticket := some entry.ticket, phase := .starting entry } :=
        (get?_put_ne (hf.overflow_ne hid).symm).trans (Table.get?_insert_self ..)
      refine ⟨entry, next, ht, hc, ⟨_, _, Table.get?_insert_self .., rfl, hguest⟩, fun run => ?_⟩
      exact (run.waits_for_lodger hf' h' (Table.get?_insert_self ..) (ticketOf_eq hguest)).2.imp_left (·.1)
  | _ => exact absurd rfl hchanged

theorem not_isHosting_of_step (hf : p.Formed) (h : p.Housed) (hid : p.threads.get? id = some t)
    (hs : p.step id = some q) (hn : ∀ entry next, t.phase = .spilling entry next → p.isClosed = true) :
    q.isHosting id = false := by
  obtain ⟨t', hid', m⟩ := move_of_step hs
  obtain rfl : t = t' := Option.some.inj (hid.symm.trans hid')
  rw [Bool.eq_false_iff]
  intro hw
  obtain ⟨entry, next, ht, hc, -⟩ := m.runsFirst hf h hid (isHosting_of_step hs) hw
  rw [hn entry next ht] at hc
  cases hc

end Pool
end JobRunner
