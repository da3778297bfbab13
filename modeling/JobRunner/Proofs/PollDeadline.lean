import JobRunner.Proofs.PollCourse
/-!
# The deadline of a wait

Each look is preceded by a whole tick, and no tick begins that does not fit in what is left of the time.  So the time
bounds the number of looks, whatever the probes and the other threads take of it, as long as the clock does not go back.
-/
namespace JobRunner

namespace Duration

theorem min_le_ofNanos {k n : Nat} (hk : k < limit) (h : k ≤ n) : k ≤ (ofNanos n).nanos :=
  @le_ofNanos ⟨k, hk⟩ n h

end Duration

namespace Poll

open World (Forward Patient Prompt)

variable {ε : Type} {S : Interface} {R : World ε → World ε → Prop} {id : JobId} {condition : Condition ε S}
  {policy : PollPolicy} {start left checks width : Nat} {w v : World ε} {looks : List Look} {ending : Ending}

/-! ## The time that looks take -/

theorem sum_span_writes {κ : Type} : ∀ lines : List String, ((writes lines : List (Act κ)).map Act.span).sum = 0
  | [] => rfl
  | _ :: lines => (Nat.zero_add _).trans (sum_span_writes lines)

theorem sum_span_called {κ : Type} : ∀ ks : List κ, ((ks.map Act.called).map Act.span).sum = 0
  | [] => rfl
  | _ :: ks => (Nat.zero_add _).trans (sum_span_called ks)

theorem sum_span_lookActs (check : Nat) (l : Look) :
    ((lookActs condition policy check l).map Act.span).sum = policy.pace.nanos := by
  unfold lookActs
  rw [List.map_append, List.map_append, List.sum_append, List.sum_append, sum_span_called, sum_span_writes]
  exact Nat.zero_add _

theorem sum_span_looksActs : ∀ (looks : List Look) (check : Nat),
    ((looksActs condition policy check looks).map Act.span).sum = looks.length * policy.pace.nanos
  | [], _ => (Nat.zero_mul _).symm
  | l :: looks, check => by
    rw [looksActs_cons, List.map_append, List.sum_append, sum_span_lookActs, sum_span_looksActs, List.length_cons,
      Nat.succ_mul, Nat.add_comm]

/-- No look begins unless a whole tick is left. -/
theorem Goes.begun (h : Goes policy start width left looks ending) (hd : start + policy.timeout.nanos < clockLimit) :
    ∀ l ∈ looks, l.began + policy.pace.nanos ≤ start + policy.timeout.nanos := by
  have hpace := pace_pos policy
  induction h with
  | late => nofun
  | @confirmed _ l _ htime =>
    rw [nanos_remaining hd] at htime
    exact List.forall_mem_singleton.2 (by omega)
  | @more _ l _ _ htime _ _ _ ih =>
    rw [nanos_remaining hd] at htime
    exact List.forall_mem_cons.2 ⟨by omega, ih⟩

theorem le_of_read {time : Nat} (hR : Forward R) (h : (Act.read time).Does R id (Answers R condition) w v) :
    w.clock.now ≤ time := by
  obtain ⟨u, hu, ho, -⟩ := World.runs_now.1 h
  cases ho
  exact Nat.le_trans (hR w u hu) u.clock.now_le_read

/-- All ticks lie between the start of the first one and the deadline. -/
theorem ticks_le {rest : List (Act (Probe ε S × Except CapabilityError Bool))} {time : Nat} (hR : Forward R)
    (hcalls : ∀ c, Forward (Answers R condition c)) : ∀ {looks : List Look} {check : Nat} {w : World ε},
      Follows R id (Answers R condition) (looksActs condition policy check looks ++ rest) w v →
      (∀ l ∈ looks, l.began + policy.pace.nanos ≤ time) →
      looks = [] ∨ w.clock.now + looks.length * policy.pace.nanos ≤ time
  | [], _, _, _, _ => .inl rfl
  | l :: looks, check, w, h, hbegun => by
    rw [List.forall_mem_cons] at hbegun
    rw [looksActs_cons, List.append_assoc] at h
    obtain ⟨u, hlook, hrest⟩ := follows_append.1 h
    have hlater := hlook.later hR hcalls
    rw [sum_span_lookActs] at hlater
    obtain ⟨t, hread, -⟩ := hlook
    have hbegan : w.clock.now ≤ l.began := le_of_read hR hread
    rw [List.length_cons, Nat.succ_mul]
    obtain rfl | hnext := ticks_le hR hcalls hrest hbegun.2
    · rw [List.length_nil, Nat.zero_mul]
      omega
    · omega

/-! ## What the deadline says of a wait -/

/-- The number of the first look that holds. -/
def firstHold? (looks : List Look) : Option Nat := (looks.findIdx? Look.holds).map (· + 1)

/-- Only the last look of a wait may hold, and then it is confirmed. -/
theorem Goes.firstHold? (h : Goes policy start width left looks ending) :
    firstHold? looks = match ending with
      | .confirmed _ => some looks.length
      | _ => none := by
  unfold Poll.firstHold?
  induction h with
  | late => rfl
  | confirmed stop _ _ hl => rw [List.findIdx?_cons, hl, if_pos rfl]; rfl
  | @more left l looks ending _ _ hl _ ih =>
    rw [List.findIdx?_cons, hl, if_neg Bool.false_ne_true, ih]
    cases ending with
    | _ => rfl

theorem none_holds (hn : firstHold? looks = none) : ∀ l ∈ looks, l.holds = false := by
  unfold firstHold? at hn
  rw [Option.map_eq_none_iff, List.findIdx?_eq_none_iff] at hn
  exact hn

/-- What the deadline says of a wait, if clocks can show it. -/
structure Timely (policy : PollPolicy) (wait : Wait) (result : Option (Except PollTimeout PollOutcome)) : Prop where
  room : wait.looks.length * policy.pace.nanos ≤ policy.timeout.nanos
  bounded : wait.looks.length ≤ policy.timeout.nanos / policy.pace.nanos
  /-- No look is begun unless a whole tick is left when its tick starts. -/
  begun : ∀ l ∈ wait.looks, l.began + policy.pace.nanos ≤ wait.start + policy.timeout.nanos
  ended : result.isSome = true
  /-- The number of looks does not wrap around if fewer fit in the time. -/
  counted : policy.timeout.nanos / policy.pace.nanos < UInt32.size →
    (UInt32.ofNat wait.looks.length).toNat = wait.looks.length
  /-- The wait ends well just if some look holds, and with the number of the first one that does. -/
  confirmed : ∀ k, (∃ elapsed, result = some (.ok ⟨k, elapsed⟩)) ↔ (firstHold? wait.looks).map UInt32.ofNat = some k
  exact : policy.timeout.nanos / policy.pace.nanos < UInt32.size → ∀ k,
    (∃ outcome, result = some (.ok outcome) ∧ outcome.checks.toNat = k) ↔ firstHold? wait.looks = some k
  elapsed : ∀ outcome, result = some (.ok outcome) →
    outcome.checks = .ofNat wait.looks.length ∧ wait.looks.length * policy.pace.nanos ≤ outcome.elapsed.nanos
  late : ∀ timeout, result = some (.error timeout) → timeout.checks = .ofNat wait.looks.length ∧
    (∀ l ∈ wait.looks, l.holds = false) ∧ policy.timeout.nanos ≤ timeout.elapsed.nanos

theorem Goes.time_of_late {began stop : Nat} (h : Goes policy start width left looks (.late began stop)) :
    (remaining (deadline? start policy.timeout) began).nanos < policy.pace.nanos := by
  generalize hending : Ending.late began stop = ending at h
  induction h with
  | late _ htime =>
    cases hending
    exact htime
  | confirmed => cases hending
  | more _ _ _ _ ih => exact ih hending

variable {wait : Wait}

/-- The acts of a wait: the start, the looks and the end. -/
theorem of_acts (h : Follows R id (Answers R condition) (wait.acts condition policy) w v) :
    ∃ u t, Follows R id (Answers R condition)
      [.read wait.start, .wrote (.log (waitingLine policy condition.description))] w u ∧
      Follows R id (Answers R condition) (looksActs condition policy 1 wait.looks) u t ∧
      Follows R id (Answers R condition) (wait.ending.acts policy wait.start ++
        writes [(wait.closing condition.description).1]) t v := by
  unfold Wait.acts at h
  rw [List.append_assoc] at h
  obtain ⟨t, hlooks, hending⟩ := follows_append.1 h
  obtain ⟨u, hopening, hlooks⟩ := follows_append.1 hlooks
  exact ⟨u, t, hopening, hlooks, hending⟩

theorem start_le {c : Change} (hR : Forward R) (hcalls : ∀ c, Forward (Answers R condition c))
    (h : Follows R id (Answers R condition) [.read start, .wrote c] w v) : start ≤ v.clock.now := by
  obtain ⟨u, hread, t, hwrote, rfl⟩ := h
  have hlater := hwrote.later hR hcalls
  rw [hread.now_eq] at hlater
  exact hlater

theorem timely (hR : Forward R) (hcalls : ∀ c, Forward (Answers R condition c))
    (hgoes : Goes policy wait.start condition.probes.length left wait.looks wait.ending)
    (hfollows : Follows R id (Answers R condition) (wait.acts condition policy) w v)
    (hd : wait.start + policy.timeout.nanos < clockLimit) :
    Timely policy wait (some (wait.closing condition.description).2) := by
  have hpace := pace_pos policy
  have hbegun := hgoes.begun hd
  have hfirst := hgoes.firstHold?
  obtain ⟨u, t, hopening, hlooks, hending⟩ := of_acts hfollows
  have hstart := start_le hR hcalls hopening
  have hticks : wait.start + wait.looks.length * policy.pace.nanos ≤ t.clock.now := by
    have hlater := hlooks.later hR hcalls
    rw [sum_span_looksActs] at hlater
    omega
  have hroom : wait.looks.length * policy.pace.nanos ≤ policy.timeout.nanos := by
    obtain hnil | hle := ticks_le hR hcalls (follows_append.2 ⟨t, hlooks, hending⟩) hbegun
    · rw [hnil, List.length_nil, Nat.zero_mul]
      exact Nat.zero_le _
    · omega
  have hbounded := (Nat.le_div_iff_mul_le hpace).2 hroom
  have hcounted : policy.timeout.nanos / policy.pace.nanos < UInt32.size →
      (UInt32.ofNat wait.looks.length).toNat = wait.looks.length :=
    fun hlt => UInt32.toNat_ofNat_of_lt' (Nat.lt_of_le_of_lt hbounded hlt)
  obtain ⟨start, looks, ending⟩ := wait
  dsimp only at *
  cases ending with
  | confirmed stop =>
    obtain ⟨t', hread, -⟩ := hending
    have hstop := le_of_read hR hread
    have hover : looks.length * policy.pace.nanos ≤ stop - start := by omega
    refine ⟨hroom, hbounded, hbegun, rfl, hcounted, fun k => ?_, fun hlt k => ?_, ?_, nofun⟩
    · rw [hfirst]
      constructor
      · rintro ⟨elapsed, ⟨⟩⟩
        rfl
      · rintro ⟨⟩
        exact ⟨_, rfl⟩
    · rw [hfirst]
      constructor
      · rintro ⟨outcome, ⟨⟩, rfl⟩
        exact congrArg some (hcounted hlt).symm
      · rintro ⟨⟩
        exact ⟨_, rfl, hcounted hlt⟩
    · rintro outcome ⟨⟩
      exact ⟨rfl, Duration.min_le_ofNanos (Nat.lt_of_le_of_lt hroom policy.timeout.nanos_lt) hover⟩
  | late began stop =>
    obtain ⟨t₁, hread, t₂, hslept, t₃, hstop, -⟩ := hending
    refine ⟨hroom, hbounded, hbegun, rfl, hcounted, fun k => ?_, fun _ k => ?_, nofun, ?_⟩
    · rw [hfirst]
      exact ⟨fun ⟨_, h⟩ => (nomatch h), nofun⟩
    · rw [hfirst]
      exact ⟨fun ⟨_, h, _⟩ => (nomatch h), nofun⟩
    · rintro timeout ⟨⟩
      have hleft := hgoes.time_of_late
      have hlater := hslept.later hR hcalls
      rw [hread.now_eq] at hlater
      exact ⟨rfl, none_holds hfirst, timeout_le_elapsed hleft hlater (le_of_read hR hstop)⟩

/-! ## The end of a wait -/

/-- A wait that has begun. -/
def onward (id : JobId) (condition : Condition ε S) (policy : PollPolicy) (start : Nat) :
    World.Action ε S (Except PollTimeout PollOutcome) := do
  World.report id (.log (waitingLine policy condition.description))
  looksFrom id condition policy.pace start (deadline? start policy.timeout) (mostLooks policy.pace) 0

theorem completes_runProbes (hP : Patient R) : ∀ {probes : List (Probe ε S)} {w : World ε},
    (∀ p ∈ probes, ∀ u, p.check.Completes R u) → (Condition.runProbes probes).Completes R w
  | [], _, _ => trivial
  | p :: probes, w, h => by
    rw [List.forall_mem_cons] at h
    refine Routine.completes_bind.2 ⟨h.1 w, fun answer u _ => ?_⟩
    exact Routine.completes_bind.2 ⟨completes_runProbes hP h.2, fun _ _ _ => trivial⟩

theorem later_of_evaluate {seen : Bool × List ProbeOutcome} (hR : Forward R)
    (hcalls : ∀ c, Forward (Answers R condition c)) (h : condition.evaluate.Runs R w (some seen) v) :
    w.clock.now ≤ v.clock.now := by
  obtain ⟨outcomes, u, hprobes, h⟩ | ⟨ho, -⟩ := Routine.runs_bind.1 h
  · obtain ⟨-, rfl⟩ := Routine.runs_pure.1 h
    obtain ⟨answers, -, -, hfollows⟩ | ⟨ho, -⟩ := runs_runProbes ⟨""⟩ (fun _ hp => hp) hprobes
    · exact Nat.le_trans (Nat.le_add_right ..) (hfollows.later hR hcalls)
    · cases ho
  · cases ho

theorem later_of_reportAll {lines : List String} {o : Option Unit} (hR : Forward R)
    (h : (World.reportAll id lines : World.Action ε S Unit).Runs R w o v) : w.clock.now ≤ v.clock.now := by
  have hallows : World.Allows (fun u v : World ε => u.clock.now ≤ v.clock.now) id :=
    ⟨fun _ _ h => h, fun w _ _ => w.clock.now_le_read⟩
  have hdoes := hallows.does_reportAll (S := S) (Q := fun _ => True) lines
  exact Routine.Runs.of_does (P := fun u v : World ε => u.clock.now ≤ v.clock.now) h hdoes (fun _ => Nat.le_refl _)
    Nat.le_trans hR

/-- A wait whose deadline comes before the last look that clocks can show comes to its end. -/
theorem completes_looksFrom (hP : Patient R) (hR : Forward R) (hcalls : ∀ c, Forward (Answers R condition c))
    (hprobes : ∀ p ∈ condition.probes, ∀ u, p.check.Completes R u) (hd : start + policy.timeout.nanos < clockLimit) :
    ∀ {left : Nat} {checks : UInt32} {w : World ε},
      start + policy.timeout.nanos < w.clock.now + (left + 1) * policy.pace.nanos →
      (looksFrom id condition policy.pace start (deadline? start policy.timeout) left checks).Completes R w
  | left, checks, w, hleft => by
    have hpace := pace_pos policy
    unfold looksFrom
    refine Routine.completes_bind.2 ⟨hP.completes_now w, fun time u hread => ?_⟩
    have hread : (Act.read time).Does R id (Answers R condition) w u := World.does_now hread
    have htime := le_of_read hR hread
    dsimp only
    split
    case isTrue =>
      refine Routine.completes_bind.2 ⟨hP.completes_sleep _ u, fun _ u _ => ?_⟩
      refine Routine.completes_bind.2 ⟨hP.completes_now u, fun _ u _ => ?_⟩
      exact Routine.completes_bind.2 ⟨hP.completes_report _ _ u, fun _ _ _ => trivial⟩
    -- there is time for one more look
    case isFalse hroom =>
      rw [nanos_remaining hd] at hroom
      refine Routine.completes_bind.2 ⟨hP.completes_sleep _ u, fun _ t hslept => ?_⟩
      have hslept : (Act.slept policy.pace).Does R id (Answers R condition) u t := World.does_sleep hslept
      have hlater : u.clock.now + policy.pace.nanos ≤ t.clock.now := hslept.later hR hcalls
      rw [hread.now_eq] at hlater
      cases left with
      | zero => exact absurd hlater (by omega)
      | succ left =>
        refine Routine.completes_bind.2 ⟨?_, fun seen x hseen => ?_⟩
        · exact Routine.completes_bind.2 ⟨completes_runProbes hP hprobes, fun _ _ _ => trivial⟩
        refine Routine.completes_bind.2 ⟨hP.completes_reportAll _ _ x, fun _ y hlines => ?_⟩
        have hseen := later_of_evaluate hR hcalls hseen
        have hlines := later_of_reportAll hR hlines
        split
        · refine Routine.completes_bind.2 ⟨hP.completes_now y, fun _ u _ => ?_⟩
          exact Routine.completes_bind.2 ⟨hP.completes_report _ _ u, fun _ _ _ => trivial⟩
        · refine completes_looksFrom hP hR hcalls hprobes hd ?_
          rw [Nat.succ_mul] at hleft
          omega

/-! ## Exact times -/

theorem start_exact (hprompt : Prompt R)
    (hexact : ∀ c u v, Answers R condition c u v → u.clock.Exact → v.clock.Exact ∧ v.clock.now = u.clock.now)
    (hw : w.clock.Exact) {result : Option (Except PollTimeout PollOutcome)}
    (hcourse : Course R id condition policy w v result wait) : wait.start = w.clock.now := by
  obtain ⟨u, t, ⟨x, hstart, -⟩, -, -⟩ := of_acts hcourse.follows
  exact hstart.now_eq.symm.trans (hstart.exact hprompt hexact hw).2

/-- When nothing else takes time, a wait that is given up made all looks that fit in its time, and took just that. -/
theorem late_exact {stop began : Nat} (hR : Forward R) (hcalls : ∀ c, Forward (Answers R condition c))
    (hprompt : Prompt R)
    (hexact : ∀ c u v, Answers R condition c u v → u.clock.Exact → v.clock.Exact ∧ v.clock.now = u.clock.now)
    (hw : w.clock.Exact) {result : Option (Except PollTimeout PollOutcome)}
    (hcourse : Course R id condition policy w v result wait) (hending : wait.ending = .late began stop)
    (hd : wait.start + policy.timeout.nanos < clockLimit) :
    wait.looks.length = policy.timeout.nanos / policy.pace.nanos ∧ stop = wait.start + policy.timeout.nanos := by
  obtain ⟨hgoes, hfollows, -⟩ := hcourse
  have hroom := (timely hR hcalls hgoes hfollows hd).room
  obtain ⟨u, t, ⟨x, hstart, y, hwaiting, rfl⟩, hlooks, hrest⟩ := of_acts hfollows
  rw [hending] at hgoes hrest
  obtain ⟨t₁, hread, t₂, hslept, t₃, hstop, -⟩ := hrest
  obtain ⟨hx, -⟩ := hstart.exact hprompt hexact hw
  obtain ⟨hy, hopening⟩ := hwaiting.exact hprompt hexact hx
  obtain ⟨ht, hticks⟩ := hlooks.exact hprompt hexact hy
  obtain ⟨ht₁, hbefore⟩ := hread.exact hprompt hexact ht
  obtain ⟨ht₂, hrest⟩ := hslept.exact hprompt hexact ht₁
  obtain ⟨-, hend⟩ := hstop.exact hprompt hexact ht₂
  have hstarted : y.clock.now = wait.start := hopening.trans hstart.now_eq
  have hbegan : began = wait.start + wait.looks.length * policy.pace.nanos := by
    rw [← hread.now_eq, hbefore, hticks, sum_span_looksActs, hstarted]
    rfl
  have hstopped : stop = began + (wait.start + policy.timeout.nanos - began) := by
    rw [← nanos_remaining hd began, ← hstop.now_eq, hend, hrest, hread.now_eq]
    rfl
  have hleft := hgoes.time_of_late
  rw [nanos_remaining hd] at hleft
  refine ⟨(Nat.div_eq_of_lt_le hroom ?_).symm, by omega⟩
  rw [Nat.succ_mul]
  omega

/-- Before the last look that clocks can show there is time for every deadline that they can show. -/
theorem lt_mostLooks (hd : start + policy.timeout.nanos < clockLimit) {now : Nat} :
    start + policy.timeout.nanos < now + (mostLooks policy.pace + 1) * policy.pace.nanos := by
  have hlimit : clockLimit < (mostLooks policy.pace + 1) * policy.pace.nanos :=
    Nat.lt_mul_of_div_lt (Nat.lt_succ_self _) (pace_pos policy)
  omega

theorem completes_onward (hP : Patient R) (hR : Forward R) (hcalls : ∀ c, Forward (Answers R condition c))
    (hprobes : ∀ p ∈ condition.probes, ∀ u, p.check.Completes R u) (hd : start + policy.timeout.nanos < clockLimit)
    (w : World ε) : (onward id condition policy start).Completes R w :=
  Routine.completes_bind.2 ⟨hP.completes_report _ _ w, fun _ _ _ =>
    completes_looksFrom hP hR hcalls hprobes hd (lt_mostLooks hd)⟩

/-- **The deadline of a wait.**  If the clock never goes back, a wait ends in time: it makes no more looks than there are
ticks in its time, ends well just with the first look that holds, and is given up no earlier than its time is over.  It
comes to that end if the probes come to theirs; and if nothing else takes time, it is given up after just as many looks
as there are ticks. -/
theorem deadline_law (R : World ε → World ε → Prop) (id : JobId) (condition : Condition ε S) (policy : PollPolicy)
    (hR : Forward R) (hcalls : ∀ c, Forward (Answers R condition c)) :
    policy.pace.nanos = max policy.tick.nanos 1000000 ∧
    (∀ w v result, (run id condition policy).Runs R w result v →
      (∃ wait, Course R id condition policy w v result wait ∧
        (wait.acts condition policy).filterMap Act.call? = wait.looks.flatMap (calls condition) ∧
        (wait.start + policy.timeout.nanos < clockLimit → Timely policy wait result)) ∨
      (result = none ∧ ∃ p ∈ condition.probes, ∃ u t, p.check.Runs R u none t)) ∧
    run id condition policy = World.now >>= onward id condition policy ∧
    (Patient R → (∀ p ∈ condition.probes, ∀ u, p.check.Completes R u) → ∀ w start u,
      (World.now : World.Action ε S Nat).Runs R w (some start) u → start + policy.timeout.nanos < clockLimit →
        (onward id condition policy start).Completes R u) ∧
    (Prompt R → (∀ c u v, Answers R condition c u v → u.clock.Exact → v.clock.Exact ∧ v.clock.now = u.clock.now) →
      ∀ w v timeout, (run id condition policy).Runs R w (some (.error timeout)) v → w.clock.Exact →
        w.clock.now + policy.timeout.nanos < clockLimit →
          ∃ wait, Course R id condition policy w v (some (.error timeout)) wait ∧
            wait.looks.length = policy.timeout.nanos / policy.pace.nanos ∧
            timeout.checks = .ofNat wait.looks.length ∧ timeout.elapsed = policy.timeout) := by
  refine ⟨nanos_pace policy, fun w v result h => ?_, rfl, fun hP hprobes _ _ u _ hd =>
    completes_onward hP hR hcalls hprobes hd u, fun hprompt hexact w v timeout h hw hd => ?_⟩
  · refine (exists_course h).imp_left fun ⟨wait, hcourse⟩ => ⟨wait, hcourse, call?_acts wait, fun hd => ?_⟩
    rw [hcourse.result_eq]
    exact timely hR hcalls hcourse.goes hcourse.follows hd
  · obtain ⟨wait, hcourse⟩ | ⟨ho, -⟩ := exists_course h
    swap
    · cases ho
    have hstart := start_exact hprompt hexact hw hcourse
    rw [← hstart] at hd
    have hresult := hcourse.result_eq
    unfold Wait.closing at hresult
    cases hending : wait.ending with
    | late began stop =>
      rw [hending] at hresult
      cases hresult
      obtain ⟨hcount, hstop⟩ := late_exact hR hcalls hprompt hexact hw hcourse hending hd
      refine ⟨wait, hcourse, hcount, rfl, Duration.ext ?_⟩
      show (Duration.ofNanos (stop - wait.start)).nanos = policy.timeout.nanos
      rw [hstop, Nat.add_sub_cancel_left]
      exact Duration.nanos_ofNanos policy.timeout.nanos_lt
    | confirmed =>
      rw [hending] at hresult
      cases hresult

/-- The only probe says no again and again. -/
def neverReady : Condition Unit .none := .single "ready" (pure (.ok false))

theorem answers_neverReady {R : World Unit → World Unit → Prop} {c : Probe Unit .none × Except CapabilityError Bool}
    {u v : World Unit} (h : Answers R neverReady c u v) : v = u := by
  obtain ⟨hmem, hrun⟩ := h
  rw [List.mem_singleton.1 hmem] at hrun
  exact (Routine.runs_pure.1 hrun).2

/-- Four ticks fit in the time; alone, the wait makes four looks and then sleeps through the rest of its time. -/
theorem deadline_law_four_ticks :
    (∀ w start u, (World.now : World.Action Unit .none Nat).Runs World.Idle w (some start) u →
      start + 30000000 < clockLimit →
        (onward ⟨"job"⟩ neverReady ⟨.ofMillis 30, .ofMillis 7⟩ start).Completes World.Idle u) ∧
    ∃ v timeout, (run ⟨"job"⟩ neverReady ⟨.ofMillis 30, .ofMillis 7⟩).Runs (Routine.Alone World.pass?) { env := () }
      (some (.error timeout)) v ∧ timeout.checks = 4 ∧ timeout.elapsed = .ofMillis 30 := by
  have hidle : Forward (@World.Idle Unit) := fun u v ⟨nanos, h⟩ => h ▸ Nat.le_add_right ..
  have hcalls {R : World Unit → World Unit → Prop} (c) : Forward (Answers R neverReady c) :=
    fun u v h => Nat.le_of_eq (congrArg (·.clock.now) (answers_neverReady h)).symm
  constructor
  · obtain ⟨-, -, -, hcompletes, -⟩ :=
      deadline_law World.Idle ⟨"job"⟩ neverReady ⟨.ofMillis 30, .ofMillis 7⟩ hidle hcalls
    exact hcompletes World.patient_idle (List.forall_mem_singleton.2 fun _ => trivial)
  · have hperformed : ((run ⟨"job"⟩ neverReady ⟨.ofMillis 30, .ofMillis 7⟩).perform World.pass? { env := () }).1 =
        .returned (.error ⟨"ready", .ofMillis 30, 4⟩) := by rfl
    generalize hp : (run ⟨"job"⟩ neverReady ⟨.ofMillis 30, .ofMillis 7⟩).perform World.pass? { env := () } = p
      at hperformed
    obtain ⟨ending, v⟩ := p
    cases hperformed
    have hrun := Routine.runs_of_perform hp
    have hprompt := @World.prompt_alone Unit
    obtain ⟨-, -, -, -, hlate⟩ :=
      deadline_law _ ⟨"job"⟩ neverReady ⟨.ofMillis 30, .ofMillis 7⟩ hprompt.forward hcalls
    obtain ⟨wait, -, hcount, hchecks, helapsed⟩ := hlate hprompt (fun c u v h hu => by
      rw [answers_neverReady h]
      exact ⟨hu, rfl⟩) _ v _ hrun ⟨rfl, rfl⟩ (by decide)
    rw [hcount] at hchecks
    exact ⟨v, _, hrun, hchecks, helapsed⟩

end Poll
end JobRunner
