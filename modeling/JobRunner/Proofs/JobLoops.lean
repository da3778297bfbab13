import JobRunner.Job.Context
import JobRunner.Proofs.Interference
/-!
# Retrying and polling among other threads

What a retried operation and a polled condition tell, in the order in which they tell it: failed attempts up to one
that succeeds or up to the last one that is allowed; looks that do not hold up to one that does or up to the end of the
wait.
-/
namespace JobRunner

open Routine (Does Ensures)
open World (Allows Calm Tells Told)

namespace Retry

variable {ε α β ξ : Type} {S : Interface} {R : World ε → World ε → Prop} {Q : S.Request → Prop} {id : JobId}
  {name : String} {policy : RetryPolicy} {operation : World.Action ε S (Except CapabilityError α)}

theorem toNat_attempts (policy : RetryPolicy) : policy.attempts.toNat = max 1 policy.maxAttempts.toNat := by
  unfold RetryPolicy.attempts
  by_cases hz : policy.maxAttempts = 0
  · rw [if_pos hz, hz]
    rfl
  · have hpos : policy.maxAttempts.toNat ≠ 0 := fun h => hz (UInt32.toNat_inj.1 h)
    rw [if_neg hz]
    omega

theorem does_pause (h : Allows R id) (d : Duration) : (pause d : World.Action ε S Unit).Does R Q := by
  unfold pause
  split
  · exact .done ()
  · exact h.does_sleep d

theorem does_attemptsFrom (h : Allows R id) (hop : operation.Does R Q) : ∀ left attempt,
    (attemptsFrom id name policy operation left attempt).Does R Q
  | left, attempt => by
    unfold attemptsFrom
    refine (h.does_report rfl).bind fun _ => (h.does_report rfl).bind fun _ => hop.bind fun answer => ?_
    cases answer with
    | ok a => exact (h.does_report rfl).bind fun _ => .done _
    | error e =>
      refine (h.does_report rfl).bind fun _ => ?_
      cases left with
      | zero => exact .done _
      | succ left => exact (does_pause h _).bind fun _ => does_attemptsFrom h hop left (attempt + 1)

/-- What attempts answer that fail up to the last one. -/
def answers (tried : List CapabilityError) (last : Except CapabilityError α) : List (Except CapabilityError α) :=
  tried.map .error ++ [last]

variable {view : ε → List ξ} {say : Except CapabilityError α → ξ} {w : World ε}

theorem ensures_pause {P : Option β → World ε → Prop} {f : Unit → World.Action ε S β} (d : Duration)
    (h : ∀ w', Calm view w w' → (f ()).Ensures (Calm view) P w') : (pause d >>= f).Ensures (Calm view) P w := by
  unfold pause
  split
  · exact h w (.refl w)
  · exact World.ensures_sleep d fun w' hw _ => h w' hw

/-- The attempts fail up to one that succeeds, or all fail that may be made. -/
theorem ensures_attemptsFrom (hop : Tells view say operation) {P : Option (Except RetryError α) → World ε → Prop} :
    ∀ {left attempt : Nat} {w : World ε},
      (∀ tried a w', tried.length ≤ left → Told view ((answers tried (.ok a)).map say) w w' → P (some (.ok a)) w') →
      (∀ tried e w', tried.length = left → Told view ((answers tried (.error e)).map say) w w' →
        P (some (.error ⟨name, attempt + left, e⟩)) w') →
      (attemptsFrom id name policy operation left attempt).Ensures (Calm view) P w
  | left, attempt, w, hok, hfail => by
    -- what this attempt answers comes before what the attempts left tell
    unfold attemptsFrom
    refine World.ensures_report fun u hu => World.ensures_report fun v hv => ?_
    refine Routine.ensures_bind.2 (hop _ _ fun answer w' hw => ?_)
    have htold : Told view [say answer] w w' := (hu.trans hv).trans_told hw
    cases answer with
    | ok a => exact World.ensures_report fun w' hw => hok [] a w' (Nat.zero_le _) (htold.calm hw)
    | error e =>
      refine World.ensures_report fun u hu => ?_
      cases left with
      | zero => exact hfail [] e u rfl (htold.calm hu)
      | succ left =>
        refine ensures_pause _ fun v hv => ?_
        have hnow := (htold.calm hu).calm hv
        refine ensures_attemptsFrom hop (fun tried a w' hle hw => ?_) fun tried e' w' hlen hw => ?_
        · exact hok (e :: tried) a w' (Nat.succ_le_succ hle) (hnow.trans hw)
        · rw [Nat.add_right_comm]
          exact hfail (e :: tried) e' w' (congrArg (· + 1) hlen) (hnow.trans hw)

theorem ensures_run (hop : Tells view say operation) {P : Option (Except RetryError α) → World ε → Prop}
    (hok : ∀ tried a w', tried.length < max 1 policy.maxAttempts.toNat →
      Told view ((answers tried (.ok a)).map say) w w' → P (some (.ok a)) w')
    (hfail : ∀ tried e w', tried.length + 1 = max 1 policy.maxAttempts.toNat →
      Told view ((answers tried (.error e)).map say) w w' → P (some (.error ⟨name, tried.length + 1, e⟩)) w') :
    (run id name policy operation).Ensures (Calm view) P w := by
  unfold run
  rw [toNat_attempts]
  refine ensures_attemptsFrom hop (fun tried a w' hle hw => hok tried a w' (by omega) hw) fun tried e w' hlen hw => ?_
  rw [← hlen, Nat.add_comm]
  exact hfail tried e w' (by omega) hw

end Retry

namespace Duration

variable {d : Duration} {n : Nat}

theorem le_longest (d : Duration) : d.nanos ≤ longest.nanos := Nat.le_pred_of_lt d.nanos_lt

theorem le_ofNanos (h : d.nanos ≤ n) : d.nanos ≤ (ofNanos n).nanos := by
  by_cases hn : n < limit
  · rw [nanos_ofNanos hn]
    exact h
  · rw [ofNanos, dif_neg hn]
    exact d.le_longest

theorem nanos_ofNanos_of_lt (h : (ofNanos n).nanos < d.nanos) : (ofNanos n).nanos = n := by
  by_cases hn : n < limit
  · exact nanos_ofNanos hn
  · rw [ofNanos, dif_neg hn] at h
    exact absurd h (Nat.not_lt.2 d.le_longest)

end Duration

/-! ## Polling -/

namespace Routine

variable {σ α : Type} {S : Interface} {R : σ → σ → Prop} {Q : S.Request → Prop}

theorem does_hang (hrefl : ∀ s, R s s) : (hang : Routine σ S α).Does R Q := .step hrefl fun _ => .crash

end Routine

namespace Poll

variable {ε α ξ : Type} {S : Interface} {R : World ε → World ε → Prop} {Q : S.Request → Prop} {id : JobId}
  {condition : Condition ε S} {policy : PollPolicy} {start : Nat}

/-- A tick lasts a millisecond at least. -/
theorem nanos_pace (policy : PollPolicy) : policy.pace.nanos = max policy.tick.nanos 1000000 := by
  unfold PollPolicy.pace Duration.max
  split
  case isTrue h => exact (Nat.max_eq_right h).symm
  case isFalse h => exact (Nat.max_eq_left (Nat.le_of_not_le h)).symm

theorem pace_pos (policy : PollPolicy) : 0 < policy.pace.nanos := by
  rw [nanos_pace]
  omega

/-- A deadline that clocks can show is so far away. -/
theorem nanos_remaining {timeout : Duration} (h : start + timeout.nanos < clockLimit) (now : Nat) :
    (remaining (deadline? start timeout) now).nanos = start + timeout.nanos - now := by
  have hlimit : clockLimit < Duration.limit := by decide
  unfold deadline?
  rw [if_pos h]
  exact Duration.nanos_ofNanos (Nat.lt_of_le_of_lt (Nat.sub_le ..) (Nat.lt_trans h hlimit))

theorem does_runProbes {probes : List (Probe ε S)} (h : ∀ p ∈ probes, p.check.Does R Q) :
    (Condition.runProbes probes).Does R Q := by
  induction probes with
  | nil => exact .done []
  | cons p probes ih =>
    rw [List.forall_mem_cons] at h
    exact h.1.bind fun _ => (ih h.2).bind fun _ => .done _

theorem does_looksFrom (h : Allows R id) (hc : ∀ p ∈ condition.probes, p.check.Does R Q) {pace : Duration}
    {deadline : Option Nat} : ∀ left checks, (looksFrom id condition pace start deadline left checks).Does R Q
  | left, checks => by
    unfold looksFrom
    refine h.does_now.bind fun time => ?_
    dsimp only
    split
    · unfold giveUp
      refine (h.does_sleep _).bind fun _ => h.does_now.bind fun _ => (h.does_report ?_).bind fun _ => .done _
      rfl
    · refine (h.does_sleep pace).bind fun _ => ?_
      cases left with
      | zero => exact Routine.does_hang fun w => h.clock w w.clock (Nat.le_refl _)
      | succ left =>
        refine ((does_runProbes hc).bind fun _ => .done _).bind fun seen => (h.does_reportAll _).bind fun _ => ?_
        split
        · unfold confirm
          refine h.does_now.bind fun _ => (h.does_report ?_).bind fun _ => .done _
          rfl
        · exact does_looksFrom h hc left (checks + 1)

theorem does_run (h : Allows R id) (hc : ∀ p ∈ condition.probes, p.check.Does R Q) :
    (run id condition policy).Does R Q :=
  h.does_now.bind fun _ => (h.does_report rfl).bind fun _ => does_looksFrom h hc _ _

/-- One look at the condition tells something that `Look` says of whether it holds. -/
def Shows (view : ε → List ξ) (Look : List ξ → Bool → Prop) (condition : Condition ε S) : Prop :=
  ∀ (P : Option (Bool × List ProbeOutcome) → World ε → Prop) w,
    (∀ look holds outcomes w', Look look holds → Told view look w w' → P (some (holds, outcomes)) w') →
      condition.evaluate.Ensures (Calm view) P w

variable {view : ε → List ξ} {Look : List ξ → Bool → Prop} {w : World ε}

/-- When a wait is given up because its time is over, it has taken at least so long. -/
theorem timeout_le_elapsed {timeout pace : Duration} {now later stop : Nat}
    (hleft : (remaining (deadline? start timeout) now).nanos < pace.nanos)
    (hlater : now + (remaining (deadline? start timeout) now).nanos ≤ later) (hstop : later ≤ stop) :
    timeout.nanos ≤ (Duration.between start stop).nanos := by
  by_cases hd : start + timeout.nanos < clockLimit
  · have hdeadline : deadline? start timeout = some (start + timeout.nanos) := if_pos hd
    rw [hdeadline] at hleft hlater
    have hexact : (remaining (some (start + timeout.nanos)) now).nanos = start + timeout.nanos - now :=
      Duration.nanos_ofNanos_of_lt hleft
    rw [hexact] at hlater
    exact Duration.le_ofNanos (by omega)
  -- a wait without a deadline is never given up
  · have hnone : deadline? start timeout = none := if_neg hd
    rw [hnone] at hleft
    exact absurd hleft (Nat.not_lt.2 pace.le_longest)

/-- From some time on there is room for so many looks before a deadline that clocks can show. -/
def Room (policy : PollPolicy) (start now looks : Nat) : Prop :=
  start + policy.timeout.nanos < clockLimit → looks = 0 ∨
    now + looks * policy.pace.nanos ≤ start + policy.timeout.nanos

/-- One more look is made when a whole tick is left. -/
theorem Room.succ {now began next looks : Nat} (h : Room policy start next looks)
    (hroom : policy.pace.nanos ≤ (remaining (deadline? start policy.timeout) began).nanos) (hbegan : now ≤ began)
    (hnext : began + policy.pace.nanos ≤ next) : Room policy start now (looks + 1) := by
  intro hd
  have hpace := pace_pos policy
  rw [nanos_remaining hd] at hroom
  rw [Nat.succ_mul]
  rcases h hd with rfl | hrest
  · rw [Nat.zero_mul]
    omega
  · omega

/-- Looks that have room after the start of a wait fit in its time. -/
theorem Room.le {now looks : Nat} (h : Room policy start now looks) (hd : start + policy.timeout.nanos < clockLimit)
    (hstart : start ≤ now) : looks * policy.pace.nanos ≤ policy.timeout.nanos := by
  rcases h hd with rfl | hrest
  · rw [Nat.zero_mul]
    exact Nat.zero_le _
  · omega

/-- No look holds but the last one, if any; or the time is over. -/
theorem ensures_looksFrom (hlook : Shows view Look condition) {P : Option (Except PollTimeout PollOutcome) →
    World ε → Prop} : ∀ (left checks : Nat) {w : World ε},
      (∀ (looks : List (List ξ)) last elapsed w', (∀ look ∈ looks, Look look false) → Look last true →
        Room policy start w.clock.now (looks.length + 1) → Told view (looks ++ [last]).flatten w w' →
          P (some (.ok ⟨.ofNat (checks + (looks.length + 1)), elapsed⟩)) w') →
      (∀ (looks : List (List ξ)) elapsed w', (∀ look ∈ looks, Look look false) →
        Room policy start w.clock.now looks.length → policy.timeout.nanos ≤ elapsed.nanos →
          Told view looks.flatten w w' →
            P (some (.error ⟨condition.description, elapsed, .ofNat (checks + looks.length)⟩)) w') →
      (looksFrom id condition policy.pace start (deadline? start policy.timeout) left (.ofNat checks)).Ensures
        (Calm view) P w
  | left, checks, w, hok, hlate => by
    unfold looksFrom
    refine World.ensures_now fun u hu => ?_
    dsimp only
    split
    case isTrue hleft =>
      refine World.ensures_sleep _ fun v hv hover => World.ensures_now fun w' hw => ?_
      refine World.ensures_report fun w'' hw' => ?_
      exact hlate [] _ w'' nofun (fun _ => .inl rfl) (timeout_le_elapsed hleft hover hw.later)
        (((hu.trans hv).trans hw).trans hw').told
    -- there is time for one more look
    case isFalse hleft =>
      refine World.ensures_sleep policy.pace fun v hv hslept => ?_
      cases left with
      | zero => exact fun _ _ => nofun
      | succ left =>
        have hcount : UInt32.ofNat checks + 1 = .ofNat (checks + 1) := (UInt32.ofNat_add ..).symm
        dsimp only
        rw [hcount]
        refine Routine.ensures_bind.2 (hlook _ _ fun look holds outcomes w' hl hw => ?_)
        refine World.ensures_reportAll fun u' hu' => ?_
        have htold : Told view look w u' := ((hu.trans hv).trans_told hw).calm hu'
        have hroom {n : Nat} (h : Room policy start u'.clock.now n) : Room policy start w.clock.now (n + 1) :=
          h.succ (Nat.le_of_not_lt hleft) hu.later (Nat.le_trans hslept (Nat.le_trans hw.later hu'.later))
        cases holds with
        | true =>
          refine World.ensures_now fun v' hv' => World.ensures_report fun w'' hw' => ?_
          refine hok [] look _ w'' nofun hl (hroom fun _ => .inl rfl) ?_
          rw [List.nil_append, List.flatten_singleton]
          exact (htold.calm hv').calm hw'
        | false =>
          have hcons : ∀ {looks}, (∀ look ∈ looks, Look look false) → ∀ look' ∈ look :: looks, Look look' false :=
            fun h => List.forall_mem_cons.2 ⟨hl, h⟩
          have hmore (n : Nat) : checks + 1 + n = checks + (n + 1) := by omega
          refine ensures_looksFrom hlook left (checks + 1) (fun looks last elapsed w'' h hlast hfits hw' => ?_)
            fun looks elapsed w'' h hfits hover hw' => ?_
          · rw [hmore]
            exact hok (look :: looks) last elapsed w'' (hcons h) hlast (hroom hfits) (htold.trans hw')
          · rw [hmore]
            exact hlate (look :: looks) elapsed w'' (hcons h) (hroom hfits) hover (htold.trans hw')

/-- **Among threads that leave the clock and what is seen alone**, a wait makes no more looks than fit in its time, if
clocks can show its deadline. -/
theorem ensures_run (hlook : Shows view Look condition) {P : Option (Except PollTimeout PollOutcome) → World ε → Prop}
    (hok : ∀ (looks : List (List ξ)) last elapsed w', (∀ look ∈ looks, Look look false) → Look last true →
      (w'.clock.now + policy.timeout.nanos < clockLimit →
        (looks.length + 1) * policy.pace.nanos ≤ policy.timeout.nanos) →
      Told view (looks ++ [last]).flatten w w' → P (some (.ok ⟨.ofNat (looks.length + 1), elapsed⟩)) w')
    (hlate : ∀ (looks : List (List ξ)) elapsed w', (∀ look ∈ looks, Look look false) →
      (w'.clock.now + policy.timeout.nanos < clockLimit →
        looks.length * policy.pace.nanos ≤ policy.timeout.nanos) →
      policy.timeout.nanos ≤ elapsed.nanos → Told view looks.flatten w w' →
        P (some (.error ⟨condition.description, elapsed, .ofNat looks.length⟩)) w') :
    (run id condition policy).Ensures (Calm view) P w := by
  refine World.ensures_now fun u hu => World.ensures_report fun v hv => ?_
  have hfits {n : Nat} {w' : World ε} (h : Room policy u.clock.now v.clock.now n) (hw : v.clock.now ≤ w'.clock.now)
      (hd : w'.clock.now + policy.timeout.nanos < clockLimit) :
      n * policy.pace.nanos ≤ policy.timeout.nanos := by
    have hstart : u.clock.now ≤ v.clock.now := hv.later
    exact h.le (by omega) hstart
  refine ensures_looksFrom hlook _ 0 ?_ ?_
  · intro looks last elapsed w' h hlast hroom hw
    rw [Nat.zero_add]
    exact hok looks last elapsed w' h hlast (hfits hroom hw.later) ((hu.trans hv).trans_told hw)
  · intro looks elapsed w' h hroom hover hw
    rw [Nat.zero_add]
    exact hlate looks elapsed w' h (hfits hroom hw.later) hover ((hu.trans hv).trans_told hw)

end Poll
end JobRunner
