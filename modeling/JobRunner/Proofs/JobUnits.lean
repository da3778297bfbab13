import JobRunner.Proofs.JobDeeds
/-!
# What is known of units

Every unit that is around was handed over, and handed over once; work is left of those that have begun, and of no
others; and nothing is seen of a unit that was never handed over.
-/
namespace JobRunner
namespace Orchestrator

variable {ε τ : Type} {D : JobId → Prop} {work : Work ε τ} {es new : List (Pool.Event (Job τ))} {b b' : Board ε τ}
  {i j : Pool.ThreadId} {e : Pool.Entry (Job τ)} {role : Role τ} {u : Option (Pool.Entry (Job τ))} {place : Place τ}
  {m : Action ε τ JobContext.Outcome} {registry : Registry}

/-! ## Units that are around -/

def Place.Has (e : Pool.Entry (Job τ)) : Place τ → Prop
  | code _ => False
  | offering e' | told e' _ => e' = e

/-- The thread has something to do with the unit. -/
def Role.Has (e : Pool.Entry (Job τ)) : Role τ → Prop
  | idle => False
  | assigned e' | begun e' | closed e' => e' = e
  | inside u place => u = some e ∨ place.Has e

def Role.Runs (e : Pool.Entry (Job τ)) : Role τ → Prop
  | begun e' | closed e' => e' = e
  | inside u _ => u = some e
  | idle | assigned _ => False

def Board.Has (b : Board ε τ) (e : Pool.Entry (Job τ)) : Prop := e ∈ b.queue ∨ ∃ i, (b.roles i).Has e

/-- All units that are around were handed over, work is left of those that have begun, and nothing is said of others. -/
structure Known (es : List (Pool.Event (Job τ))) (b : Board ε τ) : Prop where
  has : ∀ e, b.Has e → .submitted e ∈ es
  runs : ∀ i e, (b.roles i).Runs e → .started e ∈ es
  begun : ∀ e, .started e ∈ es → .submitted e ∈ es
  left : ∀ k, b.left k ≠ none ↔ ∃ e, .started e ∈ es ∧ e.ticket = k
  answered : ∀ k a, .answered k a ∈ es → ∃ e, .submitted e ∈ es ∧ e.ticket = k
  ended : ∀ k c, .ended k c ∈ es → ∃ e, .submitted e ∈ es ∧ e.ticket = k

/-- What is said of a unit that is around. -/
def Says (b : Board ε τ) : Pool.Event (Job τ) → Prop
  | .submitted _ => True
  | .started e => b.Has e
  | .answered k _ | .ended k _ => ∃ e, b.Has e ∧ e.ticket = k

theorem Known.step (h : Known es b) (hr : b'.roles = Function.update b.roles i role)
    (hl : ∀ k, b'.left k ≠ none ↔ b.left k ≠ none ∨ ∃ e, .started e ∈ new ∧ e.ticket = k)
    (hq : ∀ e ∈ b'.queue, b.Has e) (hh : ∀ e, role.Has e → b.Has e ∨ .submitted e ∈ new)
    (hu : ∀ e, role.Runs e → (b.roles i).Runs e ∨ .started e ∈ new) (hn : ∀ ev ∈ new, Says b ev) :
    Known (es ++ new) b' := by
  have hold : ∀ e, b.Has e → .submitted e ∈ es ++ new := fun e he => List.mem_append_left _ (h.has e he)
  have hsub : ∀ k, (∃ e, .submitted e ∈ es ∧ e.ticket = k) → ∃ e, .submitted e ∈ es ++ new ∧ e.ticket = k := by
    rintro k ⟨e, he, hk⟩
    exact ⟨e, List.mem_append_left _ he, hk⟩
  have hsays : ∀ k, (∃ e, b.Has e ∧ e.ticket = k) → ∃ e, .submitted e ∈ es ++ new ∧ e.ticket = k := by
    rintro k ⟨e, he, hk⟩
    exact ⟨e, hold e he, hk⟩
  refine ⟨?_, fun j e hj => ?_, fun e he => ?_, fun k => ?_, fun k a hk => ?_, fun k c hk => ?_⟩
  · rintro e (he | ⟨j, hj⟩)
    · exact hold e (hq e he)
    · rw [hr] at hj
      by_cases hji : j = i
      · rw [hji, Function.update_self] at hj
        exact (hh e hj).elim (hold e) (List.mem_append_right _)
      · rw [Function.update_of_ne hji] at hj
        exact hold e (.inr ⟨j, hj⟩)
  · rw [hr] at hj
    by_cases hji : j = i
    · rw [hji, Function.update_self] at hj
      exact (hu e hj).elim (fun hb => List.mem_append_left _ (h.runs i e hb)) (List.mem_append_right _)
    · rw [Function.update_of_ne hji] at hj
      exact List.mem_append_left _ (h.runs j e hj)
  · rcases List.mem_append.1 he with he | he
    · exact List.mem_append_left _ (h.begun e he)
    · exact hold e (hn _ he)
  · rw [hl, h.left]
    constructor
    · rintro (⟨e, he, hk⟩ | ⟨e, he, hk⟩)
      · exact ⟨e, List.mem_append_left _ he, hk⟩
      · exact ⟨e, List.mem_append_right _ he, hk⟩
    · rintro ⟨e, he, hk⟩
      exact (List.mem_append.1 he).imp (fun he => ⟨e, he, hk⟩) fun he => ⟨e, he, hk⟩
  · exact (List.mem_append.1 hk).elim (fun hk => hsub k (h.answered k a hk)) fun hk => hsays k (hn _ hk)
  · exact (List.mem_append.1 hk).elim (fun hk => hsub k (h.ended k c hk)) fun hk => hsays k (hn _ hk)

theorem Known.goOn (h : Known es b) (hr : ∀ e, u = some e → (b.roles i).Runs e) (m : Action ε τ JobContext.Outcome) :
    Known es (b.goOn u m) := by
  refine ⟨h.has, h.runs, h.begun, fun k => ?_, h.answered, h.ended⟩
  rw [← h.left k]
  cases u with
  | none => rfl
  | some e =>
    show Function.update b.left e.ticket (some m) k ≠ none ↔ _
    by_cases hk : k = e.ticket
    · have hstarted := h.runs i e (hr e rfl)
      subst hk
      rw [Function.update_self]
      exact ⟨fun _ => (h.left _).2 ⟨e, hstarted, rfl⟩, fun _ => by simp⟩
    · rw [Function.update_of_ne hk]

theorem Known.turn (h : Known es b) (hr : b'.roles = Function.update b.roles i role) (hl : b'.left = b.left)
    (hq : ∀ e ∈ b'.queue, b.Has e) (hh : ∀ e, role.Has e → b.Has e) (hu : ∀ e, role.Runs e → (b.roles i).Runs e) :
    Known es b' := by
  have hstep : Known (es ++ []) b' := h.step hr (fun k => by simp [hl]) hq (fun e he => .inl (hh e he))
    (fun e he => .inl (hu e he)) (by simp)
  rwa [List.append_nil] at hstep

theorem Known.move {place' : Place τ} (h : Known es b) (hi : b.roles i = .inside u place)
    (hr : b'.roles = Function.update b.roles i (.inside u place')) (hl : b'.left = b.left)
    (hq : ∀ e ∈ b'.queue, b.Has e) (hp : ∀ e, place'.Has e → place.Has e ∨ .submitted e ∈ new)
    (hn : ∀ ev ∈ new, Says b ev ∧ ∀ e, ev ≠ .started e) : Known (es ++ new) b' := by
  have hhas : ∀ e, (Role.inside u place).Has e → b.Has e := fun e he => .inr ⟨i, by rw [hi]; exact he⟩
  refine h.step hr (fun k => ?_) hq ?_ (fun e he => .inl ?_) fun ev hev => (hn ev hev).1
  · rw [hl]
    exact ⟨.inl, fun hk => hk.elim id fun ⟨e, he, _⟩ => absurd rfl ((hn _ he).2 e)⟩
  · rintro e (he | he)
    · exact .inl (hhas e (.inl he))
    · exact (hp e he).imp (fun he => hhas e (.inr he)) id
  · rw [hi]
    exact he

theorem known_deed (h : Known es b) (deed : Deed D work b i new b') : Known (es ++ new) b' := by
  have hqueue : ∀ e ∈ b.queue, b.Has e := fun e he => .inl he
  have hrole : ∀ i e, (b.roles i).Has e → b.Has e := fun i e he => .inr ⟨i, he⟩
  cases deed with
  | none =>
    rw [List.append_nil]
    exact h
  | call hi =>
    rw [List.append_nil]
    refine h.turn rfl rfl hqueue (fun e he => ?_) fun e he => ?_
    · rcases he with he | he <;> cases he
    · cases he
  | leave hi =>
    rw [List.append_nil]
    refine h.turn rfl rfl hqueue (fun e he => ?_) fun e he => ?_
    · cases he
    · cases he
  | @take e rest hi hq =>
    have hmem : ∀ e' ∈ e :: rest, b.Has e' := fun e' he' => hqueue e' (hq ▸ he')
    rw [List.append_nil]
    refine h.turn rfl rfl (fun e' he' => hmem e' (List.mem_cons_of_mem _ he')) (fun e' he' => ?_) fun e' he' => ?_
    · cases he'
      exact hmem e List.mem_cons_self
    · cases he'
  | @start e hi =>
    have hhas : b.Has e := hrole i e (by rw [hi]; rfl)
    refine h.step rfl (fun k => ?_) hqueue (fun e' he' => ?_) (fun e' he' => ?_) fun ev hev => ?_
    · show Function.update b.left e.ticket (some _) k ≠ none ↔ _
      by_cases hk : k = e.ticket
      · subst hk
        simp
      · rw [Function.update_of_ne hk]
        simp [Ne.symm hk]
    · cases he'
      exact .inl hhas
    · cases he'
      exact .inr List.mem_cons_self
    · cases List.mem_singleton.1 hev
      exact hhas
  | @announce e now hi =>
    have hgo := h.goOn (u := some e) (i := i) (by rw [hi]; exact fun e' he' => Option.some.inj he')
      (work e.unit.task e.unit.context)
    rw [List.append_nil]
    refine hgo.turn rfl rfl hqueue (fun e' he' => ?_) fun e' he' => ?_
    · rcases he' with he' | he'
      · cases he'
        exact hrole i e (by rw [hi]; rfl)
      · cases he'
    · show (b.roles i).Runs e'
      rw [hi]
      exact Option.some.inj he'
  | @act u s s' r m hi he =>
    have hgo := h.goOn (u := u) (i := i) (by rw [hi]; exact fun e' he' => he') m
    exact hgo.move hi rfl rfl hqueue (fun e he => he.elim) fun ev hev => absurd hev List.not_mem_nil
  | @submit u e place hi hp =>
    refine h.move hi rfl rfl hqueue (fun e' he' => .inr ?_) fun ev hev => ?_
    · have he : e = e' := by
        rcases hp with rfl | rfl
        · exact he'
        · exact he'
      subst he
      exact List.mem_cons_self
    · cases List.mem_singleton.1 hev
      exact ⟨trivial, by simp⟩
  | drop hi => exact h.move hi rfl rfl hqueue (fun e he => .inl he) fun ev hev => absurd hev List.not_mem_nil
  | @enqueue u e hi =>
    refine h.move hi rfl rfl (fun e' he' => ?_) (fun e he => .inl he) fun ev hev => absurd hev List.not_mem_nil
    rcases List.mem_append.1 he' with he' | he'
    · exact hqueue e' he'
    · cases List.mem_singleton.1 he'
      exact hrole i e (by rw [hi]; exact .inr rfl)
  | @overflow j u e m hi hj =>
    have hgo := h.goOn (u := u) (i := i) (by rw [hi]; exact fun e' he' => he') m
    have hhas : b.Has e := hrole i e (by rw [hi]; exact .inr rfl)
    have hmade : Known es ((b.goOn u m).play j (.assigned e)) := by
      refine hgo.turn rfl rfl hqueue (fun e' he' => ?_) fun e' he' => ?_
      · cases he'
        exact hhas
      · cases he'
    have hne : i ≠ j := by
      rintro rfl
      rw [hi] at hj
      cases hj
    have hi' : ((b.goOn u m).play j (.assigned e)).roles i = .inside u (.offering e) :=
      (Function.update_of_ne hne ..).trans hi
    refine hmade.move hi' rfl rfl (fun e he => .inl he) (fun e he => he.elim) fun ev hev => ?_
    cases List.mem_singleton.1 hev
    exact ⟨⟨e, .inr ⟨i, by rw [hi']; exact .inr rfl⟩, rfl⟩, by simp⟩
  | @answer u e a m hi =>
    have hgo := h.goOn (u := u) (i := i) (by rw [hi]; exact fun e' he' => he') m
    refine hgo.move hi rfl rfl hqueue (fun e he => he.elim) fun ev hev => ?_
    cases List.mem_singleton.1 hev
    exact ⟨⟨e, hrole i e (by rw [hi]; exact .inr rfl), rfl⟩, by simp⟩
  | @close e m o now hi hm ho =>
    rw [List.append_nil]
    refine h.turn rfl rfl hqueue (fun e' he' => ?_) fun e' he' => ?_
    · cases he'
      exact hrole i e (by rw [hi]; exact .inl rfl)
    · cases he'
      rw [hi]
      rfl
  | @count e hi =>
    refine h.step rfl (fun k => ?_) hqueue (fun e' he' => he'.elim) (fun e' he' => he'.elim) fun ev hev => ?_
    · show b.left k ≠ none ↔ _
      simp
    · cases List.mem_singleton.1 hev
      exact ⟨e, hrole i e (by rw [hi]; rfl), rfl⟩

theorem Deeds.known (h : Deeds D work registry es b) : Known es b := by
  induction h with
  | start =>
    have hnone : ∀ {P : Prop} {ev : Pool.Event (Job τ)}, ev ∈ [] → P := fun h => absurd h List.not_mem_nil
    refine ⟨?_, fun i e he => he.elim, fun e he => hnone he, fun k => ?_, fun k a hk => hnone hk, fun k c hk => hnone hk⟩
    · rintro e (he | ⟨i, hi⟩)
      · exact absurd he List.not_mem_nil
      · exact hi.elim
    · exact ⟨fun hk => absurd rfl hk, fun ⟨e, he, _⟩ => hnone he⟩
  | deed _ _ h ih => exact known_deed ih h

/-! ## Tickets -/

/-- No two units that were handed over have the same ticket. -/
def Distinct (es : List (Pool.Event (Job τ))) : Prop := ((es.filterMap Pool.Event.entry?).map Pool.Entry.ticket).Nodup

theorem Distinct.inj {e e' : Pool.Entry (Job τ)} (h : Distinct es) (he : .submitted e ∈ es) (he' : .submitted e' ∈ es)
    (hk : e.ticket = e'.ticket) : e = e' :=
  List.inj_on_of_nodup_map h (List.mem_filterMap.2 ⟨_, he, rfl⟩) (List.mem_filterMap.2 ⟨_, he', rfl⟩) hk

theorem Distinct.left (h : Distinct (es ++ new)) : Distinct es := by
  unfold Distinct at h
  rw [List.filterMap_append, List.map_append] at h
  exact (List.nodup_append.1 h).1

theorem Distinct.fresh {e e' : Pool.Entry (Job τ)} (h : Distinct (es ++ [.submitted e])) (he : .submitted e' ∈ es) :
    e'.ticket ≠ e.ticket := by
  unfold Distinct at h
  rw [List.filterMap_append, List.map_append] at h
  exact (List.nodup_append.1 h).2.2 _ (List.mem_map_of_mem (List.mem_filterMap.2 ⟨_, he, rfl⟩)) _ List.mem_cons_self

end Orchestrator
end JobRunner
