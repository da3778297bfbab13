import JobRunner.Proofs.RoutineRuns
/-!
# The course of a run

A loop that tries something again and again does only four things itself: it reports on its job, calls something, sleeps
and reads the clock.  What others do, and what the call does, comes in between.  A course lists what the loop did; it
says when time has passed, and what became of the record of the job.
-/
namespace JobRunner

variable {ε κ : Type}

/-- The line that a change has for the log. -/
def Change.line? : Change → Option String
  | log line => some line
  | _ => none

/-- What a loop does; `κ` tells what was called and what it answered. -/
inductive Act (κ : Type) where
  | wrote (c : Change)
  | called (k : κ)
  | slept (d : Duration)
  | read (time : Nat)

namespace Act

def write? : Act κ → Option Change
  | wrote c => some c
  | _ => none

def call? : Act κ → Option κ
  | called k => some k
  | _ => none

def sleep? : Act κ → Option Duration
  | slept d => some d
  | _ => none

def line? (a : Act κ) : Option String := a.write?.bind Change.line?

/-- The time that passes at least. -/
def span : Act κ → Nat
  | slept d => d.nanos
  | _ => 0

end Act

namespace World

/-- A report on a job.  An open record takes it; if there is none, nothing happens to the registry.  Other jobs, and all
that is not the registry, stay as they are. -/
structure Reported (id : JobId) (c : Change) (u v : World ε) : Prop where
  taken : ∀ r, u.registry.get? id = some r → r.status.isFinal = false →
    v.registry.get? id = some (c.mark (.ofNanos u.clock.read) r)
  dropped : (∀ r, u.registry.get? id = some r → r.status.isFinal = true) → v.registry = u.registry
  others : ∀ x, x ≠ id → v.registry.get? x = u.registry.get? x
  rest : v = { u with clock := u.clock.tick, registry := v.registry }

/-- Whatever is done so, the record of the job stays as it is. -/
def Spares (x : JobId) (R : World ε → World ε → Prop) : Prop := ∀ u v, R u v → v.registry.get? x = u.registry.get? x

/-- Whatever is done so, the clock does not go back. -/
def Forward (R : World ε → World ε → Prop) : Prop := ∀ u v, R u v → u.clock.now ≤ v.clock.now

end World

open World (Reported Spares Forward)

variable {R : World ε → World ε → Prop} {id x : JobId} {call : κ → World ε → World ε → Prop}
  {w v : World ε} {a : Act κ} {acts acts' : List (Act κ)}

/-- An act leads from one world to another, when the others do what `R` says before each of its steps. -/
def Act.Does (R : World ε → World ε → Prop) (id : JobId) (call : κ → World ε → World ε → Prop) :
    Act κ → World ε → World ε → Prop
  | wrote c, w, v => ∃ u, R w u ∧ Reported id c u v
  | called k, w, v => call k w v
  | slept d, w, v => (World.sleep d : World.Action ε .none Unit).Runs R w (some ()) v
  | read time, w, v => (World.now : World.Action ε .none Nat).Runs R w (some time) v

/-- One act after another. -/
def Follows (R : World ε → World ε → Prop) (id : JobId) (call : κ → World ε → World ε → Prop) :
    List (Act κ) → World ε → World ε → Prop
  | [], w, v => w = v
  | a :: acts, w, v => ∃ u, a.Does R id call w u ∧ Follows R id call acts u v

theorem follows_singleton : Follows R id call [a] w v ↔ a.Does R id call w v := by
  simp [Follows]

theorem follows_append : ∀ {acts : List (Act κ)} {w : World ε},
    Follows R id call (acts ++ acts') w v ↔ ∃ u, Follows R id call acts w u ∧ Follows R id call acts' u v
  | [], w => by simp [Follows]
  | a :: acts, w => by
    constructor
    · rintro ⟨t, ha, h⟩
      obtain ⟨u, h, h'⟩ := follows_append.1 h
      exact ⟨u, ⟨t, ha, h⟩, h'⟩
    · rintro ⟨u, ⟨t, ha, h⟩, h'⟩
      exact ⟨t, ha, follows_append.2 ⟨u, h, h'⟩⟩

theorem Follows.called {k : κ} : ∀ {acts : List (Act κ)} {w : World ε}, Follows R id call acts w v →
    k ∈ acts.filterMap Act.call? → ∃ u t, call k u t
  | a :: acts, w, ⟨u, ha, h⟩, hk => by
    rw [List.filterMap_cons] at hk
    cases a with
    | called k' =>
      obtain rfl | hk := List.mem_cons.1 hk
      · exact ⟨w, u, ha⟩
      · exact h.called hk
    | wrote | slept | read => exact h.called hk

/-! ## Reports -/

namespace World

variable {c : Change} {r : JobRecord}

/-- A report finds every open job in a status that allows it. -/
theorem canMove_report (hc : c.isReport = true) (ho : r.status.isFinal = false) :
    ∀ s, c.target? = some s → r.status.canMove s = true := by
  intro s hs
  cases c with
  | progress percent message =>
    cases hs
    cases hr : r.status with
    | pending | processing => rfl
    | completed | failed =>
      rw [hr] at ho
      cases ho
  | log message => cases hs
  | complete | fail => cases hc

theorem reported (hc : c.isReport = true) (u : World ε) :
    Reported id c u (onRegistry (Registry.change id c) u).2 where
  taken r hr ho := Registry.get?_change hr (JobRecord.apply_eq_ok _ ho (canMove_report hc ho))
  dropped h := by
    show (Registry.change id c (.ofNanos u.clock.read) u.registry).2 = u.registry
    unfold Registry.change
    cases hr : u.registry.jobs.get? id with
    | none => rfl
    | some r =>
      have hrefused : c.apply (.ofNanos u.clock.read) r = .error (.finished r.id r.status) := if_pos (h r hr)
      dsimp only
      rw [hrefused]
  others x hx := Registry.get?_change_of_ne (Ne.symm hx)
  rest := rfl

/-! ## Steps of a loop -/

variable {S : Interface} {α : Type} {o : Option α}

theorem does_report {o : Option Unit} (hc : c.isReport = true) (h : (report id c : Action ε S Unit).Runs R w o v) :
    (Act.wrote c).Does R id call w v := by
  obtain ⟨u, hu, -, rfl⟩ := runs_report.1 h
  exact ⟨u, hu, reported hc u⟩

theorem does_now {time : Nat} (h : (now : Action ε S Nat).Runs R w (some time) v) :
    (Act.read time).Does R id call w v :=
  runs_now.2 (runs_now.1 h)

theorem does_sleep {d : Duration} (h : (sleep d : Action ε S Unit).Runs R w (some ()) v) :
    (Act.slept d).Does R id call w v :=
  runs_sleep.2 (runs_sleep.1 h)

theorem of_report {f : Unit → Action ε S α} (hc : c.isReport = true) (h : (report id c >>= f).Runs R w o v) :
    ∃ u, (Act.wrote c).Does R id call w u ∧ (f ()).Runs R u o v := by
  obtain ⟨_, u, hreport, h⟩ | ⟨-, hcrash⟩ := Routine.runs_bind.1 h
  · exact ⟨u, does_report hc hreport, h⟩
  · obtain ⟨u, -, ho, -⟩ := runs_report.1 hcrash
    cases ho

theorem of_now {f : Nat → Action ε S α} (h : (now >>= f).Runs R w o v) :
    ∃ time u, (Act.read time).Does R id call w u ∧ (f time).Runs R u o v := by
  obtain ⟨time, u, hnow, h⟩ | ⟨-, hcrash⟩ := Routine.runs_bind.1 h
  · exact ⟨time, u, does_now hnow, h⟩
  · obtain ⟨u, -, ho, -⟩ := runs_now.1 hcrash
    cases ho

theorem of_sleep {d : Duration} {f : Unit → Action ε S α} (h : (sleep d >>= f).Runs R w o v) :
    ∃ u, (Act.slept d).Does R id call w u ∧ (f ()).Runs R u o v := by
  obtain ⟨_, u, hsleep, h⟩ | ⟨-, hcrash⟩ := Routine.runs_bind.1 h
  · exact ⟨u, does_sleep hsleep, h⟩
  · obtain ⟨u, u', -, -, -, ho, -⟩ := runs_sleep.1 hcrash
    cases ho

theorem of_reportAll {f : Unit → Action ε S α} : ∀ {lines : List String} {w : World ε},
    (reportAll id lines >>= f).Runs R w o v →
      ∃ u, Follows R id call (lines.map fun line => .wrote (.log line)) w u ∧ (f ()).Runs R u o v
  | [], w, h => ⟨w, rfl, h⟩
  | line :: lines, w, h => by
    have h : (report id (.log line) >>= fun _ => reportAll id lines >>= f).Runs R w o v := by
      rw [← bind_assoc]
      exact h
    obtain ⟨u, hline, h⟩ := of_report rfl h
    obtain ⟨u', hlines, h⟩ := of_reportAll h
    exact ⟨u', ⟨u, hline, hlines⟩, h⟩

end World

/-! ## The time that passes -/

theorem Act.Does.later (hR : Forward R) (hcall : ∀ k, Forward (call k)) (h : a.Does R id call w v) :
    w.clock.now + a.span ≤ v.clock.now := by
  cases a with
  | wrote c =>
    obtain ⟨u, hu, hr⟩ := h
    rw [hr.rest]
    exact Nat.le_trans (hR w u hu) u.clock.now_le_read
  | called k => exact hcall k w v h
  | slept d =>
    obtain ⟨u, u', hu, hu', hle, -, rfl⟩ := World.runs_sleep.1 h
    exact Nat.le_trans (Nat.add_le_add_right (hR w u hu) _) hle
  | read time =>
    obtain ⟨u, hu, -, rfl⟩ := World.runs_now.1 h
    exact Nat.le_trans (hR w u hu) u.clock.now_le_read

/-- The clock shows the time that is read. -/
theorem Act.Does.now_eq {time : Nat} (h : (Act.read time).Does R id call w v) : v.clock.now = time := by
  obtain ⟨u, -, ho, rfl⟩ := World.runs_now.1 h
  exact (Option.some.inj ho).symm

theorem Follows.later (hR : Forward R) (hcall : ∀ k, Forward (call k)) : ∀ {acts : List (Act κ)} {w : World ε},
    Follows R id call acts w v → w.clock.now + (acts.map Act.span).sum ≤ v.clock.now
  | [], w, h => by
    cases h
    exact Nat.le_refl _
  | a :: acts, w, ⟨u, ha, h⟩ => by
    have hfirst := ha.later hR hcall
    have hrest := Follows.later hR hcall h
    rw [List.map_cons, List.sum_cons]
    omega

/-! ## Exact times -/

/-- Reading the clock takes no time, and nobody waits. -/
structure Clock.Exact (c : Clock) : Prop where
  drift : c.drift = fun _ => 0
  alarms : c.alarms = []

namespace World

/-- Time passes only when an alarm is waited for, and then only up to the alarm. -/
def Prompt (R : World ε → World ε → Prop) : Prop := ∀ u v, R u v → v.clock = u.clock ∨ u.clock.pass? = some v.clock

theorem prompt_alone : Prompt (Routine.Alone (@pass? ε)) := by
  rintro u v (rfl | hpass)
  · exact .inl rfl
  · obtain ⟨clock, hclock, rfl⟩ := Option.map_eq_some_iff.1 hpass
    exact .inr hclock

theorem Prompt.forward (hR : Prompt R) : Forward R := by
  intro u v h
  obtain hclock | hpass := hR u v h
  · exact Nat.le_of_eq (congrArg Clock.now hclock).symm
  · exact Nat.le_of_lt (Clock.now_lt_pass? hpass)

theorem Prompt.clock_eq (hR : Prompt R) {u v : World ε} (h : R u v) (hu : u.clock.alarms = []) : v.clock = u.clock := by
  refine (hR u v h).resolve_right fun hpass => ?_
  unfold Clock.pass? Clock.nextAlarm? at hpass
  rw [hu] at hpass
  cases hpass

/-- Of an exact clock that is read the time does not move on. -/
theorem exact_tick {c : Clock} (h : c.Exact) : c.tick.Exact ∧ c.tick.now = c.now := by
  refine ⟨⟨h.drift, h.alarms⟩, ?_⟩
  show c.now + c.drift c.reads = c.now
  rw [h.drift, Nat.add_zero]

theorem exact_sleep {d : Duration} {u u' : World ε} (hu : u.clock.Exact) (hR : Prompt R) (hu' : R (setAlarm d u).2 u')
    (hle : u.clock.now + d.nanos ≤ u'.clock.now) :
    (u'.clock.dropAlarm (u.clock.now + d.nanos)).Exact ∧ u'.clock.now = u.clock.now + d.nanos := by
  have hset : (setAlarm d u).2.clock = { u.clock with alarms := [u.clock.now + d.nanos] } := by
    unfold setAlarm Clock.setAlarm
    dsimp only
    rw [hu.alarms]
  have hpassed : u'.clock = { u.clock with now := u.clock.now + d.nanos, alarms := [u.clock.now + d.nanos] } := by
    obtain heq | hpass := hR _ _ hu'
    -- if no time has passed, none had to
    · rw [hset] at heq
      rw [heq] at hle ⊢
      have hzero : u.clock.now + d.nanos = u.clock.now := Nat.le_antisymm hle (Nat.le_add_right ..)
      rw [hzero]
    · rw [hset] at hpass
      obtain ⟨time, htime, hclock⟩ := Option.map_eq_some_iff.1 hpass
      have hmem := (List.mem_filter.1 (List.min?_mem htime)).1
      rw [List.mem_singleton] at hmem
      rw [← hclock, hmem]
  rw [hpassed]
  refine ⟨⟨hu.drift, ?_⟩, rfl⟩
  exact List.erase_cons_head ..

end World

open World (Prompt) in
/-- When nothing else takes time, an act takes its span. -/
theorem Act.Does.exact (hR : Prompt R)
    (hcall : ∀ k u v, call k u v → u.clock.Exact → v.clock.Exact ∧ v.clock.now = u.clock.now)
    (h : a.Does R id call w v) (hw : w.clock.Exact) : v.clock.Exact ∧ v.clock.now = w.clock.now + a.span := by
  cases a with
  | wrote c =>
    obtain ⟨u, hu, hr⟩ := h
    have hclock : u.clock = w.clock := hR.clock_eq hu hw.alarms
    rw [hr.rest, hclock]
    exact World.exact_tick hw
  | called k => exact hcall k w v h hw
  | slept d =>
    obtain ⟨u, u', hu, hu', hle, -, rfl⟩ := World.runs_sleep.1 h
    have hclock : u.clock = w.clock := hR.clock_eq hu hw.alarms
    rw [← hclock] at hw ⊢
    exact World.exact_sleep hw hR hu' hle
  | read time =>
    obtain ⟨u, hu, -, rfl⟩ := World.runs_now.1 h
    have hclock : u.clock = w.clock := hR.clock_eq hu hw.alarms
    rw [← hclock] at hw ⊢
    exact World.exact_tick hw

open World (Prompt) in
theorem Follows.exact (hR : Prompt R)
    (hcall : ∀ k u v, call k u v → u.clock.Exact → v.clock.Exact ∧ v.clock.now = u.clock.now) :
    ∀ {acts : List (Act κ)} {w : World ε}, Follows R id call acts w v → w.clock.Exact →
      v.clock.Exact ∧ v.clock.now = w.clock.now + (acts.map Act.span).sum
  | [], w, h, hw => by
    cases h
    exact ⟨hw, rfl⟩
  | a :: acts, w, ⟨u, ha, h⟩, hw => by
    obtain ⟨hu, hfirst⟩ := ha.exact hR hcall hw
    obtain ⟨hv, hrest⟩ := h.exact hR hcall hu
    refine ⟨hv, ?_⟩
    rw [hrest, hfirst, List.map_cons, List.sum_cons, Nat.add_assoc]

/-! ## The records of jobs -/

theorem Act.Does.spares (hR : Spares x R) (hcall : ∀ k, Spares x (call k)) (hx : a.write? = none ∨ x ≠ id) :
    Spares x (a.Does R id call) := by
  intro w v h
  cases a with
  | wrote c =>
    obtain ⟨u, hu, hr⟩ := h
    exact (hr.others x (hx.resolve_left nofun)).trans (hR w u hu)
  | called k => exact hcall k w v h
  | slept d =>
    obtain ⟨u, u', hu, hu', -, -, rfl⟩ := World.runs_sleep.1 h
    exact (hR _ u' hu').trans (hR w u hu)
  | read time =>
    obtain ⟨u, hu, -, rfl⟩ := World.runs_now.1 h
    exact hR w u hu

/-- **The records of other jobs** are changed only by others. -/
theorem Follows.spares (hR : Spares x R) (hcall : ∀ k, Spares x (call k)) (hx : x ≠ id) :
    ∀ acts : List (Act κ), Spares x (Follows R id call acts)
  | [], _, _, rfl => rfl
  | _ :: acts, w, v, ⟨u, ha, h⟩ =>
    (Follows.spares hR hcall hx acts u v h).trans (ha.spares hR hcall (.inr hx) w u)

namespace JobRecord

variable {r r' : JobRecord} {cs : List Change}

/-- A record takes one change after another. -/
inductive Takes : List Change → JobRecord → JobRecord → Prop where
  | nil (r : JobRecord) : Takes [] r r
  | cons {c : Change} {cs : List Change} {r r' : JobRecord} (now : Timestamp) (h : Takes cs (c.mark now r) r') :
    Takes (c :: cs) r r'

theorem logMessages_mark {c : Change} (hc : c.isReport = true) (now : Timestamp) (r : JobRecord) :
    (c.mark now r).logMessages = r.logMessages ++ c.line?.toList := by
  cases c with
  | progress percent message => exact (List.append_nil _).symm
  | log message => exact List.map_append ..
  | complete | fail => cases hc

theorem isFinal_mark {c : Change} (hc : c.isReport = true) (now : Timestamp) (ho : r.status.isFinal = false) :
    (c.mark now r).status.isFinal = false := by
  cases c with
  | progress percent message => rfl
  | log message => exact ho
  | complete | fail => cases hc

/-- **Reports leave a job open**, and their lines are added to its log in order. -/
theorem Takes.reports (h : Takes cs r r') (hcs : ∀ c ∈ cs, c.isReport = true) (ho : r.status.isFinal = false) :
    r'.status.isFinal = false ∧ r'.logMessages = r.logMessages ++ cs.filterMap Change.line? := by
  induction h with
  | nil r => exact ⟨ho, (List.append_nil _).symm⟩
  | @cons c cs r r' now h ih =>
    rw [List.forall_mem_cons] at hcs
    obtain ⟨hopen, hlogs⟩ := ih hcs.2 (isFinal_mark hcs.1 now ho)
    refine ⟨hopen, ?_⟩
    rw [hlogs, logMessages_mark hcs.1, List.append_assoc, List.filterMap_cons]
    cases c.line? with
    | none => rfl
    | some line => rfl

/-- Log lines change nothing but the log and the time of the last change. -/
theorem Takes.logs (h : Takes cs r r') (hcs : ∀ c ∈ cs, c.line?.isSome = true) :
    r' = { r with logs := r'.logs, updatedAt := r'.updatedAt } := by
  induction h with
  | nil r => rfl
  | @cons c cs r r' now h ih =>
    rw [List.forall_mem_cons] at hcs
    have hrest := ih hcs.2
    cases c with
    | log message => exact hrest
    | progress | complete | fail => cases hcs.1

end JobRecord

/-- An open record that the others leave alone takes what the loop writes, and nothing else. -/
theorem Follows.takes (hR : Spares id R) (hcall : ∀ k, Spares id (call k)) :
    ∀ {acts : List (Act κ)} {w : World ε} {r : JobRecord}, Follows R id call acts w v →
      (∀ c ∈ acts.filterMap Act.write?, c.isReport = true) → w.registry.get? id = some r → r.status.isFinal = false →
      ∃ r', v.registry.get? id = some r' ∧ r.Takes (acts.filterMap Act.write?) r'
  | [], w, r, h, _, hr, _ => by
    cases h
    exact ⟨r, hr, .nil r⟩
  | a :: acts, w, r, ⟨u, ha, h⟩, hw, hr, ho => by
    cases hwrite : a.write? with
    | none =>
      rw [List.filterMap_cons_none hwrite] at hw ⊢
      exact h.takes hR hcall hw ((ha.spares hR hcall (.inl hwrite) w u).trans hr) ho
    | some c =>
      rw [List.filterMap_cons_some hwrite] at hw ⊢
      rw [List.forall_mem_cons] at hw
      cases a with
      | wrote c' =>
        cases hwrite
        obtain ⟨t, ht, hreported⟩ := ha
        have hmarked := hreported.taken r ((hR w t ht).trans hr) ho
        obtain ⟨r', hr', htakes⟩ := h.takes hR hcall hw.2 hmarked (JobRecord.isFinal_mark hw.1 _ ho)
        exact ⟨r', hr', .cons _ htakes⟩
      | called | slept | read => cases hwrite

/-- **What is written on a job that is gone or has ended** is lost, and the record stays as it is. -/
theorem Follows.dropped (hR : Spares id R) (hcall : ∀ k, Spares id (call k)) :
    ∀ {acts : List (Act κ)} {w : World ε}, Follows R id call acts w v →
      (∀ r, w.registry.get? id = some r → r.status.isFinal = true) → v.registry.get? id = w.registry.get? id
  | [], w, h, _ => by
    cases h
    rfl
  | a :: acts, w, ⟨u, ha, h⟩, hr => by
    have hfirst : u.registry.get? id = w.registry.get? id := by
      cases a with
      | wrote c =>
        obtain ⟨t, ht, hreported⟩ := ha
        have hsame : t.registry.get? id = w.registry.get? id := hR w t ht
        rw [hreported.dropped (hsame ▸ hr), hsame]
      | called | slept | read => exact Act.Does.spares hR hcall (.inl rfl) w u ha
    exact (h.dropped hR hcall (hfirst ▸ hr)).trans hfirst

theorem filterMap_line? (acts : List (Act κ)) :
    (acts.filterMap Act.write?).filterMap Change.line? = acts.filterMap Act.line? :=
  List.filterMap_filterMap ..

end JobRunner
