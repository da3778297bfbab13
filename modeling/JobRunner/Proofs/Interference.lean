import JobRunner.Proofs.JobCode
/-!
# Routines among other threads

A routine is stopped between its steps, and other threads change the state meanwhile.  What can be said of it all the
same is what each of its steps does to the state it finds (`Does`); and, if the others keep to a rule, in which states it
may end (`Ensures`).
-/
namespace JobRunner
namespace Routine

variable {σ : Type} {S : Interface} {α β : Type}

/-- Every step changes the state as `R` says, and nothing is asked for but what `Q` says. -/
inductive Does (R : σ → σ → Prop) (Q : S.Request → Prop) : Routine σ S α → Prop where
  | done (a : α) : Does R Q (.done a)
  | crash : Does R Q .crash
  | step {ready : σ → Bool} {act : σ → σ} {next : σ → Routine σ S α} (h : ∀ s, R s (act s))
    (hn : ∀ s, Does R Q (next s)) : Does R Q (.step ready act next)
  | ask {r : S.Request} {next : S.Reply r → Routine σ S α} (hr : Q r) (hn : ∀ reply, Does R Q (next reply)) :
    Does R Q (.ask r next)

/-- Every step changes the state as `R` says, whatever is asked for. -/
def Keeps (R : σ → σ → Prop) (m : Routine σ S α) : Prop := m.Does R fun _ => True

variable {R R' : σ → σ → Prop} {Q Q' : S.Request → Prop}

theorem Does.mono {m : Routine σ S α} (h : m.Does R Q) (hR : ∀ s s', R s s' → R' s s') (hQ : ∀ r, Q r → Q' r) :
    m.Does R' Q' := by
  induction h with
  | done a => exact .done a
  | crash => exact .crash
  | step h _ ih => exact .step (fun s => hR _ _ (h s)) ih
  | ask hr _ ih => exact .ask (hQ _ hr) ih

theorem Does.bind {m : Routine σ S α} {f : α → Routine σ S β} (h : m.Does R Q) (hf : ∀ a, (f a).Does R Q) :
    (m >>= f).Does R Q := by
  show (m.bind f).Does R Q
  induction h with
  | done a => exact hf a
  | crash => exact .crash
  | step h _ ih => exact .step h ih
  | ask hr _ ih => exact .ask hr ih

theorem Does.attempt {m : Routine σ S α} (h : m.Does R Q) : m.attempt.Does R Q := by
  induction h with
  | done a => exact .done _
  | crash => exact .done _
  | step h _ ih => exact .step h ih
  | ask hr _ ih => exact .ask hr ih

theorem does_atomically {f : σ → α × σ} (h : ∀ s, R s (f s).2) : (atomically f : Routine σ S α).Does R Q :=
  .step h fun s => .done (f s).1

theorem Keeps.mono {m : Routine σ S α} (h : m.Keeps R) (hR : ∀ s s', R s s' → R' s s') : m.Keeps R' :=
  Does.mono h hR fun _ hr => hr

/-! ## Where a routine ends -/

/-- If the others do to the state only what `R` says, then the value of the routine (or none if it crashed) and the
state after its last step satisfy `P`.  It asks for nothing. -/
def Ensures (R : σ → σ → Prop) (P : Option α → σ → Prop) : Routine σ S α → σ → Prop
  | done a, s => P (some a) s
  | crash, s => P none s
  | step ready act next, s => ∀ s', R s s' → ready s' = true → (next s').Ensures R P (act s')
  | ask _ _, _ => False

variable {P : Option α → σ → Prop} {s : σ}

/-- The second routine begins where the first one has ended; after a crash it does not begin. -/
theorem ensures_bind {m : Routine σ S β} {f : β → Routine σ S α} :
    (m >>= f).Ensures R P s ↔
      m.Ensures R (fun o s => (o.map fun b => (f b).Ensures R P s).getD (P none s)) s := by
  show (m.bind f).Ensures R P s ↔ _
  induction m generalizing s with
  | done a => exact Iff.rfl
  | crash => exact Iff.rfl
  | step ready act next ih => exact forall_congr' fun s' => forall_congr' fun _ => forall_congr' fun _ => ih s'
  | ask r next => exact Iff.rfl

theorem ensures_atomically {f : σ → α × σ} (h : ∀ s', R s s' → P (some (f s').1) (f s').2) :
    (atomically f : Routine σ S α).Ensures R P s := fun s' hs _ => h s' hs

end Routine

/-! ## Operations on the world -/

namespace World

open Routine (Does Ensures)

variable {ε ν ξ α β : Type} {S : Interface} {R : World ε → World ε → Prop} {Q : S.Request → Prop} {id : JobId}

/-- A job may read clocks, sleep, and report on itself. -/
structure Allows (R : World ε → World ε → Prop) (id : JobId) : Prop where
  clock : ∀ w clock, w.clock.now ≤ clock.now → R w { w with clock }
  report : ∀ w c, c.isReport = true → R w (onRegistry (Registry.change id c) w).2

theorem Allows.does_report (h : Allows R id) {c : Change} (hc : c.isReport = true) :
    (World.report id c : Action ε S Unit).Does R Q :=
  (Routine.does_atomically fun w => h.report w c hc).bind fun _ => .done ()

theorem Allows.does_reportAll (h : Allows R id) : ∀ lines : List String,
    (reportAll id lines : Action ε S Unit).Does R Q
  | [] => .done ()
  | line :: lines => (h.does_report (c := .log line) rfl).bind fun _ => h.does_reportAll lines

theorem Allows.does_now (h : Allows R id) : (now : Action ε S Nat).Does R Q :=
  Routine.does_atomically fun w => h.clock w _ w.clock.now_le_read

theorem Allows.does_sleep (h : Allows R id) (d : Duration) : (sleep d : Action ε S Unit).Does R Q :=
  (Routine.does_atomically fun w => h.clock w (w.clock.setAlarm _) (Nat.le_refl _)).bind fun time =>
    .step (fun w => h.clock w (w.clock.dropAlarm time) (Nat.le_refl _)) fun _ => .done ()

/-- What may be a rule for threads: they may do nothing, or one thing after another, and write into any record. -/
structure Rule (R : World ε → World ε → Prop) : Prop where
  refl : ∀ w, R w w
  trans : ∀ {u v w}, R u v → R v w → R u w
  change : ∀ id c w, R w (onRegistry (Registry.change id c) w).2

/-- The clock does not go back, and what is seen of the environment stays. -/
structure Calm (view : ε → ν) (w w' : World ε) : Prop where
  seen : view w'.env = view w.env
  later : w.clock.now ≤ w'.clock.now

variable {view : ε → ν} {u v w w' : World ε}

theorem Calm.refl (w : World ε) : Calm view w w := ⟨rfl, Nat.le_refl _⟩

theorem Calm.trans (h : Calm view u v) (h' : Calm view v w) : Calm view u w :=
  ⟨h'.seen.trans h.seen, Nat.le_trans h.later h'.later⟩

theorem Calm.map {μ : Type} (h : Calm view u v) (f : ν → μ) : Calm (fun env => f (view env)) u v :=
  ⟨congrArg f h.seen, h.later⟩

theorem calm_onRegistry (f : Timestamp → Registry → α × Registry) (w : World ε) : Calm view w (onRegistry f w).2 :=
  ⟨rfl, w.clock.now_le_read⟩

theorem rule_calm : Rule (Calm view) where
  refl := .refl
  trans := .trans
  change id c w := calm_onRegistry (Registry.change id c) w

variable {P : Option α → World ε → Prop} {f : β → Action ε S α}

theorem ensures_report {f : Unit → Action ε S α} {c : Change}
    (h : ∀ w', Calm view w w' → (f ()).Ensures (Calm view) P w') :
    (report id c >>= f).Ensures (Calm view) P w :=
  fun w' hw _ => h _ (hw.trans (calm_onRegistry (Registry.change id c) w'))

theorem ensures_reportAll {f : Unit → Action ε S α} : ∀ {lines : List String} {w : World ε},
    (∀ w', Calm view w w' → (f ()).Ensures (Calm view) P w') → (reportAll id lines >>= f).Ensures (Calm view) P w
  | [], w, h => h w (.refl w)
  | line :: lines, w, h => by
    show (((report id (.log line)) >>= fun _ => reportAll id lines) >>= f).Ensures (Calm view) P w
    rw [bind_assoc]
    exact ensures_report fun v hv => ensures_reportAll fun w' hw => h w' (hv.trans hw)

theorem ensures_now {f : Nat → Action ε S α}
    (h : ∀ w', Calm view w w' → (f w'.clock.now).Ensures (Calm view) P w') :
    (now >>= f).Ensures (Calm view) P w :=
  fun w' hw _ => h { w' with clock := w'.clock.tick } (hw.trans ⟨rfl, w'.clock.now_le_read⟩)

theorem ensures_sleep {f : Unit → Action ε S α} (d : Duration)
    (h : ∀ w', Calm view w w' → w.clock.now + d.nanos ≤ w'.clock.now → (f ()).Ensures (Calm view) P w') :
    (sleep d >>= f).Ensures (Calm view) P w := by
  intro u hu _ v hv halarm
  -- the alarm was set from `u`, and the clock has not gone back since `w`
  rw [decide_eq_true_eq] at halarm
  have hset : Calm view w (setAlarm d u).2 := hu.trans ⟨rfl, Nat.le_refl _⟩
  have hdrop : Calm view w { v with clock := v.clock.dropAlarm (setAlarm d u).1 } :=
    hset.trans (hv.trans ⟨rfl, Nat.le_refl _⟩)
  exact h _ hdrop (Nat.le_trans (Nat.add_le_add_right hu.later _) halarm)

/-- The clock does not go back, and what is seen of the environment is a list that grows by something. -/
structure Told (view : ε → List ξ) (more : List ξ) (w w' : World ε) : Prop where
  seen : view w'.env = view w.env ++ more
  later : w.clock.now ≤ w'.clock.now

variable {view : ε → List ξ} {l l' : List ξ}

theorem Calm.told (h : Calm view u v) : Told view [] u v := by
  refine ⟨?_, h.later⟩
  rw [h.seen, List.append_nil]

theorem Told.trans (h : Told view l u v) (h' : Told view l' v w) : Told view (l ++ l') u w := by
  refine ⟨?_, Nat.le_trans h.later h'.later⟩
  rw [h'.seen, h.seen, List.append_assoc]

theorem Told.calm (h : Told view l u v) (h' : Calm view v w) : Told view l u w :=
  ⟨h'.seen.trans h.seen, Nat.le_trans h.later h'.later⟩

theorem Calm.trans_told (h : Calm view u v) (h' : Told view l v w) : Told view l u w := h.told.trans h'

/-- The operation tells what it answers. -/
def Tells (view : ε → List ξ) (say : α → ξ) (operation : Action ε S α) : Prop :=
  ∀ (P : Option α → World ε → Prop) w, (∀ a w', Told view [say a] w w' → P (some a) w') →
    operation.Ensures (Calm view) P w

end World

namespace Orchestrator

open Routine (Keeps)
open World (Calm calm_onRegistry)

variable {ε τ ν : Type} {view : ε → ν}

/-- A unit keeps what its work keeps, if that does not lie in the registry. -/
theorem keeps_unit {work : Work ε τ} {job : Job τ} (h : (work job.task job.context).Keeps (Calm view)) :
    (unit work job).Keeps (Calm view) := by
  have hreport : ∀ c, (World.report job.context.id c : Action ε τ Unit).Keeps (Calm view) := by
    intro c
    have hchange : (World.change job.context.id c : Action ε τ _).Keeps (Calm view) :=
      Routine.does_atomically fun w => calm_onRegistry _ w
    exact hchange.bind fun _ => .done ()
  exact (hreport _).bind fun _ => h.attempt.bind fun ended => hreport _

theorem keeps_spawn (config : OrchestratorConfig) (id? : Option JobId) (metadata : Labels) (task : τ) :
    (spawn config id? metadata task : Action ε τ _).Keeps (Calm view) := by
  have hidentify : (identify id? : Action ε τ JobId).Keeps (Calm view) := by
    cases id? with
    | some id => exact .done id
    | none => exact Routine.does_atomically fun w => ⟨rfl, w.clock.now_le_read⟩
  refine hidentify.bind fun id => ?_
  have hcreate : (World.create id metadata : Action ε τ _).Keeps (Calm view) :=
    Routine.does_atomically fun w => calm_onRegistry _ w
  refine hcreate.bind fun answer => ?_
  cases answer with
  | error e => exact .done _
  | ok record =>
    refine .ask trivial fun answer => ?_
    cases answer with
    | queued | overflow => exact .done _
    | rejected =>
      have hchange : (World.change id (.fail rejectedMessage) : Action ε τ _).Keeps (Calm view) :=
        Routine.does_atomically fun w => calm_onRegistry _ w
      refine hchange.bind fun answer => ?_
      cases answer with
      | error e => exact .done _
      | ok u => exact .done _

theorem Proper.of_does {α : Type} {D : JobId → Prop} {own : Option JobId} {m : Action ε τ α}
    (h : m.Does (fun w w' => Harmless D own w.registry w'.registry) fun _ => False) : Proper D own m := by
  induction h with
  | done a => exact .done a
  | crash => exact .crash
  | step h _ ih => exact .step h ih
  | ask hr _ _ => exact hr.elim

end Orchestrator
end JobRunner
