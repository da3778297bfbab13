import JobRunner.Proofs.Interference
import JobRunner.Proofs.JobFates
/-!
# Runs of a routine

A run of a routine among other threads: where it begins, the value it comes to (none if it crashes), and the state after
its last step.  All runs are finite, so what may keep a routine from its value is only a crash, or a step for which the
state never gets ready.
-/
namespace JobRunner
namespace Routine

variable {σ : Type} {S : Interface} {α β : Type}

/-- Before each step the others do to the state what `R` says; whatever is asked for, any reply may come. -/
inductive Runs (R : σ → σ → Prop) : Routine σ S α → σ → Option α → σ → Prop where
  | done (a : α) (s : σ) : Runs R (.done a) s (some a) s
  | crash (s : σ) : Runs R .crash s none s
  | step {ready : σ → Bool} {act : σ → σ} {next : σ → Routine σ S α} {s u t : σ} {o : Option α} (hu : R s u)
    (hready : ready u = true) (hn : Runs R (next u) (act u) o t) : Runs R (.step ready act next) s o t
  | ask {r : S.Request} {next : S.Reply r → Routine σ S α} {s u t : σ} {o : Option α} (hu : R s u) (reply : S.Reply r)
    (hn : Runs R (next reply) u o t) : Runs R (.ask r next) s o t

/-- Wherever the others have brought it, the routine can go on, and it does not crash. -/
def Completes (R : σ → σ → Prop) : Routine σ S α → σ → Prop
  | done _, _ => True
  | crash, _ => False
  | step ready act next, s =>
    ∀ u, R s u → (∃ v, R u v ∧ ready v = true) ∧ (ready u = true → (next u).Completes R (act u))
  | ask r next, s => ∀ u, R s u → Nonempty (S.Reply r) ∧ ∀ reply, (next reply).Completes R u

variable {R : σ → σ → Prop} {s t : σ}

theorem runs_pure {a : α} {o : Option α} : (pure a : Routine σ S α).Runs R s o t ↔ o = some a ∧ t = s := by
  constructor
  · intro h
    cases h
    exact ⟨rfl, rfl⟩
  · rintro ⟨rfl, rfl⟩
    exact .done a t

theorem runs_crash {o : Option α} : (crash : Routine σ S α).Runs R s o t ↔ o = none ∧ t = s := by
  constructor
  · intro h
    cases h
    exact ⟨rfl, rfl⟩
  · rintro ⟨rfl, rfl⟩
    exact .crash t

theorem runs_step {ready : σ → Bool} {act : σ → σ} {next : σ → Routine σ S α} {o : Option α} :
    (step ready act next).Runs R s o t ↔ ∃ u, R s u ∧ ready u = true ∧ (next u).Runs R (act u) o t := by
  constructor
  · intro h
    cases h with
    | step hu hready hn => exact ⟨_, hu, hready, hn⟩
  · rintro ⟨u, hu, hready, hn⟩
    exact .step hu hready hn

theorem runs_ask {r : S.Request} {next : S.Reply r → Routine σ S α} {o : Option α} :
    (ask r next).Runs R s o t ↔ ∃ u reply, R s u ∧ (next reply).Runs R u o t := by
  constructor
  · intro h
    cases h with
    | ask hu reply hn => exact ⟨_, reply, hu, hn⟩
  · rintro ⟨u, reply, hu, hn⟩
    exact .ask hu reply hn

/-- What never comes is not waited for to an end. -/
theorem not_runs_hang {o : Option α} : ¬ (hang : Routine σ S α).Runs R s o t := by
  intro h
  obtain ⟨u, -, hready, -⟩ := runs_step.1 h
  cases hready

theorem runs_atomically {f : σ → α × σ} {o : Option α} :
    (atomically f : Routine σ S α).Runs R s o t ↔ ∃ u, R s u ∧ o = some (f u).1 ∧ t = (f u).2 := by
  unfold atomically
  rw [runs_step]
  exact exists_congr fun u => and_congr_right fun _ => (and_iff_right rfl).trans runs_pure

/-- The second routine runs from where the first one came to its value; after a crash it does not run. -/
theorem runs_bind {m : Routine σ S α} {f : α → Routine σ S β} {o : Option β} :
    (m >>= f).Runs R s o t ↔
      (∃ a u, m.Runs R s (some a) u ∧ (f a).Runs R u o t) ∨ (o = none ∧ m.Runs R s none t) := by
  show (m.bind f).Runs R s o t ↔ _
  induction m generalizing s with
  | done a =>
    constructor
    · exact fun h => .inl ⟨a, s, .done a s, h⟩
    · rintro (⟨_, _, hm, h⟩ | ⟨-, hm⟩)
      · cases hm
        exact h
      · cases hm
  | crash =>
    constructor
    · intro h
      obtain ⟨ho, rfl⟩ := runs_crash.1 h
      exact .inr ⟨ho, .crash t⟩
    · rintro (⟨_, _, hm, -⟩ | ⟨ho, hm⟩)
      · cases hm
      · exact runs_crash.2 ⟨ho, (runs_crash.1 hm).2⟩
  | step ready act next ih =>
    constructor
    · intro h
      obtain ⟨u, hu, hready, hn⟩ := runs_step.1 h
      obtain ⟨a, v, hv, h⟩ | ⟨ho, hc⟩ := (ih u).1 hn
      · exact .inl ⟨a, v, .step hu hready hv, h⟩
      · exact .inr ⟨ho, .step hu hready hc⟩
    · rintro (⟨a, v, hv, h⟩ | ⟨ho, hc⟩)
      · obtain ⟨u, hu, hready, hn⟩ := runs_step.1 hv
        exact .step hu hready ((ih u).2 (.inl ⟨a, v, hn, h⟩))
      · obtain ⟨u, hu, hready, hn⟩ := runs_step.1 hc
        exact .step hu hready ((ih u).2 (.inr ⟨ho, hn⟩))
  | ask r next ih =>
    constructor
    · intro h
      obtain ⟨u, reply, hu, hn⟩ := runs_ask.1 h
      obtain ⟨a, v, hv, h⟩ | ⟨ho, hc⟩ := (ih reply).1 hn
      · exact .inl ⟨a, v, .ask hu reply hv, h⟩
      · exact .inr ⟨ho, .ask hu reply hc⟩
    · rintro (⟨a, v, hv, h⟩ | ⟨ho, hc⟩)
      · obtain ⟨u, reply, hu, hn⟩ := runs_ask.1 hv
        exact .ask hu reply ((ih reply).2 (.inl ⟨a, v, hn, h⟩))
      · obtain ⟨u, reply, hu, hn⟩ := runs_ask.1 hc
        exact .ask hu reply ((ih reply).2 (.inr ⟨ho, hn⟩))

/-- A run does what each of its steps does, if the others do no more. -/
theorem Runs.of_does {P : σ → σ → Prop} {Q : S.Request → Prop} {m : Routine σ S α} {o : Option α} (h : m.Runs R s o t)
    (hm : m.Does P Q) (hrefl : ∀ s, P s s) (htrans : ∀ {s u t}, P s u → P u t → P s t) (hR : ∀ s u, R s u → P s u) :
    P s t := by
  induction h with
  | done | crash => exact hrefl _
  | step hu _ _ ih =>
    cases hm with
    | step hact hn => exact htrans (hR _ _ hu) (htrans (hact _) (ih (hn _)))
  | ask hu reply _ ih =>
    cases hm with
    | ask _ hn => exact htrans (hR _ _ hu) (ih (hn reply))

/-- The others do nothing, but the state may change by itself. -/
def Alone (pass : σ → Option σ) (s s' : σ) : Prop := s' = s ∨ pass s = some s'

/-- What is performed alone is a run. -/
theorem runs_of_perform {pass : σ → Option σ} {m : Routine σ .none α} {a : α}
    (h : m.perform pass s = (.returned a, t)) : m.Runs (Alone pass) s (some a) t := by
  induction m generalizing s with
  | done b =>
    cases h
    exact .done a t
  | crash => cases h
  | step ready act next ih =>
    unfold perform at h
    have halone : Alone pass s (if ready s then s else (pass s).getD s) := by
      split
      · exact .inl rfl
      · cases hp : pass s with
        | none => exact .inl rfl
        | some s' => exact .inr hp
    dsimp only at h
    generalize (if ready s = true then s else (pass s).getD s) = u at h halone
    split at h
    case isTrue hready => exact .step halone hready (ih u h)
    case isFalse => cases h
  | ask r next ih => cases r

/-! ## Coming to a value -/

theorem completes_bind {m : Routine σ S α} {f : α → Routine σ S β} :
    (m >>= f).Completes R s ↔ m.Completes R s ∧ ∀ a t, m.Runs R s (some a) t → (f a).Completes R t := by
  show (m.bind f).Completes R s ↔ _
  induction m generalizing s with
  | done a =>
    constructor
    · refine fun h => ⟨trivial, fun b t hm => ?_⟩
      cases hm
      exact h
    · exact fun h => h.2 a s (.done a s)
  | crash => exact ⟨False.elim, fun h => h.1⟩
  | step ready act next ih =>
    constructor
    · intro h
      refine ⟨fun u hu => ⟨(h u hu).1, fun hready => ((ih u).1 ((h u hu).2 hready)).1⟩, fun a t hm => ?_⟩
      obtain ⟨u, hu, hready, hn⟩ := runs_step.1 hm
      exact ((ih u).1 ((h u hu).2 hready)).2 a t hn
    · rintro ⟨hm, hf⟩ u hu
      exact ⟨(hm u hu).1, fun hready => (ih u).2 ⟨(hm u hu).2 hready, fun a t hn => hf a t (.step hu hready hn)⟩⟩
  | ask r next ih =>
    constructor
    · intro h
      refine ⟨fun u hu => ⟨(h u hu).1, fun reply => ((ih reply).1 ((h u hu).2 reply)).1⟩, fun a t hm => ?_⟩
      obtain ⟨u, reply, hu, hn⟩ := runs_ask.1 hm
      exact ((ih reply).1 ((h u hu).2 reply)).2 a t hn
    · rintro ⟨hm, hf⟩ u hu
      exact ⟨(hm u hu).1, fun reply => (ih reply).2 ⟨(hm u hu).2 reply, fun a t hn => hf a t (.ask hu reply hn)⟩⟩

/-- **A routine that completes** has a run, and all its runs come to a value. -/
theorem Completes.runs {m : Routine σ S α} (hrefl : ∀ s, R s s) (h : m.Completes R s) :
    (∃ a t, m.Runs R s (some a) t) ∧ ∀ t, ¬ m.Runs R s none t := by
  induction m generalizing s with
  | done a => exact ⟨⟨a, s, .done a s⟩, nofun⟩
  | crash => exact h.elim
  | step ready act next ih =>
    constructor
    · obtain ⟨u, hu, hready⟩ := (h s (hrefl s)).1
      obtain ⟨a, t, hn⟩ := (ih u ((h u hu).2 hready)).1
      exact ⟨a, t, .step hu hready hn⟩
    · intro t hm
      obtain ⟨u, hu, hready, hn⟩ := runs_step.1 hm
      exact (ih u ((h u hu).2 hready)).2 t hn
  | ask r next ih =>
    constructor
    · obtain ⟨⟨reply⟩, hnext⟩ := h s (hrefl s)
      obtain ⟨a, t, hn⟩ := (ih reply (hnext reply)).1
      exact ⟨a, t, .ask (hrefl s) reply hn⟩
    · intro t hm
      obtain ⟨u, reply, hu, hn⟩ := runs_ask.1 hm
      exact (ih reply ((h u hu).2 reply)).2 t hn

theorem completes_atomically (hrefl : ∀ s, R s s) (f : σ → α × σ) (s : σ) :
    (atomically f : Routine σ S α).Completes R s :=
  fun u _ => ⟨⟨u, hrefl u, rfl⟩, fun _ => trivial⟩

end Routine

/-! ## Runs of operations on the world -/

namespace World

variable {ε : Type} {S : Interface} {R : World ε → World ε → Prop} {w v : World ε} {id : JobId}

theorem runs_now {o : Option Nat} : (now : Action ε S Nat).Runs R w o v ↔
    ∃ u, R w u ∧ o = some u.clock.read ∧ v = { u with clock := u.clock.tick } :=
  Routine.runs_atomically

theorem runs_report {c : Change} {o : Option Unit} : (report id c : Action ε S Unit).Runs R w o v ↔
    ∃ u, R w u ∧ o = some () ∧ v = (onRegistry (Registry.change id c) u).2 := by
  unfold report change
  simp only [Routine.runs_bind, Routine.runs_atomically, Routine.runs_pure]
  constructor
  · rintro (⟨_, _, ⟨u, hu, -, rfl⟩, ho, hv⟩ | ⟨-, u, hu, ⟨⟩, -⟩)
    exact ⟨u, hu, ho, hv⟩
  · rintro ⟨u, hu, ho, hv⟩
    exact .inl ⟨_, _, ⟨u, hu, rfl, rfl⟩, ho, hv⟩

theorem runs_sleep {d : Duration} {o : Option Unit} : (sleep d : Action ε S Unit).Runs R w o v ↔
    ∃ u u', R w u ∧ R (setAlarm d u).2 u' ∧ u.clock.now + d.nanos ≤ u'.clock.now ∧ o = some () ∧
      v = { u' with clock := u'.clock.dropAlarm (u.clock.now + d.nanos) } := by
  unfold sleep
  constructor
  · intro h
    obtain ⟨time, x, hset, hwait⟩ | ⟨-, hset⟩ := Routine.runs_bind.1 h
    · obtain ⟨u, hu, htime, rfl⟩ := Routine.runs_atomically.1 hset
      cases htime
      obtain ⟨u', hu', hready, hdone⟩ := Routine.runs_step.1 hwait
      obtain ⟨ho, hv⟩ := Routine.runs_pure.1 hdone
      exact ⟨u, u', hu, hu', of_decide_eq_true hready, ho, hv⟩
    · obtain ⟨u, -, htime, -⟩ := Routine.runs_atomically.1 hset
      cases htime
  · rintro ⟨u, u', hu, hu', hle, rfl, rfl⟩
    exact Routine.runs_bind.2 (.inl ⟨_, _, Routine.runs_atomically.2 ⟨u, hu, rfl, rfl⟩,
      .step hu' (decide_eq_true hle) (.done _ _)⟩)

/-- Others need not do anything, and there is always more time to come. -/
structure Patient (R : World ε → World ε → Prop) : Prop where
  refl : ∀ w, R w w
  wait : ∀ w time, ∃ v, R w v ∧ time ≤ v.clock.now

/-- Nothing happens but that time passes. -/
def Idle (u v : World ε) : Prop := ∃ nanos, v = { u with clock := u.clock.advance nanos }

theorem patient_idle : Patient (@Idle ε) where
  refl _ := ⟨0, rfl⟩
  wait _ time := ⟨_, ⟨time, rfl⟩, Nat.le_add_left ..⟩

theorem Patient.completes_now (h : Patient R) (w : World ε) : (now : Action ε S Nat).Completes R w :=
  Routine.completes_atomically h.refl _ w

theorem Patient.completes_report (h : Patient R) (id : JobId) (c : Change) (w : World ε) :
    (report id c : Action ε S Unit).Completes R w :=
  Routine.completes_bind.2 ⟨Routine.completes_atomically h.refl _ w, fun _ _ _ => trivial⟩

theorem Patient.completes_reportAll (h : Patient R) (id : JobId) : ∀ (lines : List String) (w : World ε),
    (reportAll id lines : Action ε S Unit).Completes R w
  | [], _ => trivial
  | line :: lines, w =>
    Routine.completes_bind.2 ⟨h.completes_report id (.log line) w, fun _ u _ => h.completes_reportAll id lines u⟩

theorem Patient.completes_sleep (h : Patient R) (d : Duration) (w : World ε) :
    (sleep d : Action ε S Unit).Completes R w := by
  refine Routine.completes_bind.2 ⟨Routine.completes_atomically h.refl _ w, fun time u _ v hv => ⟨?_, fun _ => trivial⟩⟩
  obtain ⟨v', hv', hle⟩ := h.wait v time
  exact ⟨v', hv', decide_eq_true hle⟩

end World
end JobRunner
