import JobRunner.Proofs.JobLifecycle
import JobRunner.Proofs.RetryCourse
/-!
# The progress that retries show

Before each attempt the job is told which part of the attempts is behind it, in whole percent.  The percentage is
reckoned in thirty-two bits and kept in eight; as long as there are not more attempts than fit, neither loses anything,
and an attempt never counts itself, so that retrying alone brings no job to a hundred.

A run is looked at wherever it has come to, be it over or not: its operation may be at work, or crash, or never answer.
-/
namespace JobRunner

/-! ## Percentages -/

namespace RetryPolicy

variable {policy : RetryPolicy} {i : Nat}

/-- The number of attempts up to which percentages are reckoned without loss. -/
def mostCounted : Nat := 42949673

/-- What is multiplied by a hundred stays within thirty-two bits. -/
theorem counted_lt (h : max 1 policy.maxAttempts.toNat ≤ mostCounted) (hle : i ≤ max 1 policy.maxAttempts.toNat) :
    (i - 1) * 100 < 2 ^ 32 := by
  unfold mostCounted at h
  omega

/-- The part of the attempts that is behind an attempt is never the whole. -/
theorem percentage_lt (hi : 1 ≤ i) (hle : i ≤ max 1 policy.maxAttempts.toNat) :
    (i - 1) * 100 / max 1 policy.maxAttempts.toNat < 100 := by
  rw [Nat.div_lt_iff_lt_mul (by omega)]
  omega

/-- **The percentage before an attempt** is the exact one, rounded down. -/
theorem toNat_progressBefore (h : max 1 policy.maxAttempts.toNat ≤ mostCounted) (hi : 1 ≤ i)
    (hle : i ≤ max 1 policy.maxAttempts.toNat) :
    (policy.progressBefore (.ofNat i)).toNat = (i - 1) * 100 / max 1 policy.maxAttempts.toNat := by
  have hmost := Retry.toNat_attempts policy
  have hproduct : (i - 1) * 100 % 2 ^ 32 = (i - 1) * 100 := Nat.mod_eq_of_lt (counted_lt h hle)
  have hquotient := percentage_lt hi hle
  unfold mostCounted at h
  have hofNat : (UInt32.ofNat i).toNat = i := UInt32.toNat_ofNat_of_lt' (by rw [UInt32.size]; omega)
  have hone : (1 : UInt32) ≤ .ofNat i := by
    rw [UInt32.le_iff_toNat_le, hofNat]
    exact hi
  have hne : UInt32.ofNat i ≠ 0 := by
    intro hz
    rw [hz] at hofNat
    have hofNat : 0 = i := hofNat
    omega
  have hdone : (UInt32.ofNat i - 1).toNat = i - 1 := by
    rw [UInt32.toNat_sub_of_le _ _ hone, hofNat]
    rfl
  have hcounted : ¬ policy.attempts < UInt32.ofNat i - 1 := by
    rw [UInt32.lt_iff_toNat_lt, hdone, hmost]
    omega
  unfold progressBefore
  dsimp only
  rw [if_neg hne, if_neg hcounted, UInt32.toNat_toUInt8, UInt32.toNat_div, UInt32.toNat_mul, hdone, hmost]
  show (i - 1) * 100 % 2 ^ 32 / _ % 2 ^ 8 = _
  rw [hproduct]
  exact Nat.mod_eq_of_lt (by omega)

example : (⟨42949674, .zero⟩ : RetryPolicy).progressBefore 42949674 = 0 := by decide

end RetryPolicy

/-! ## Runs that are not over -/

namespace Routine

variable {σ : Type} {S : Interface} {α β : Type} {R P : σ → σ → Prop} {Q : S.Request → Prop}
  {m m' : Routine σ S α} {s t : σ}

/-- How far a routine has come among other threads: what is left of it, and the state after its last step.  Before each
step the others do to the state what `R` says. -/
inductive ComesTo (R : σ → σ → Prop) : Routine σ S α → σ → Routine σ S α → σ → Prop where
  | start (m : Routine σ S α) (s : σ) : ComesTo R m s m s
  | step {ready : σ → Bool} {act : σ → σ} {next : σ → Routine σ S α} {s u t : σ} {m : Routine σ S α} (hu : R s u)
    (hready : ready u = true) (hn : ComesTo R (next u) (act u) m t) : ComesTo R (.step ready act next) s m t
  | ask {r : S.Request} {next : S.Reply r → Routine σ S α} {s u t : σ} {m : Routine σ S α} (hu : R s u)
    (reply : S.Reply r) (hn : ComesTo R (next reply) u m t) : ComesTo R (.ask r next) s m t

theorem Runs.comesTo {a : α} (h : m.Runs R s (some a) t) : m.ComesTo R s (.done a) t := by
  generalize ho : some a = o at h
  induction h with
  | done b s =>
    cases ho
    exact .start (.done a) s
  | crash => cases ho
  | step hu hready _ ih => exact .step hu hready (ih ho)
  | ask hu reply _ ih => exact .ask hu reply (ih ho)

theorem ComesTo.trans {m'' : Routine σ S α} {u : σ} (h : m.ComesTo R s m' t) (h' : m'.ComesTo R t m'' u) :
    m.ComesTo R s m'' u := by
  induction h with
  | start => exact h'
  | step hu hready _ ih => exact .step hu hready (ih h')
  | ask hu reply _ ih => exact .ask hu reply (ih h')

/-- Two routines, one after the other, have come somewhere in the first one, or in the second one after the first. -/
theorem comesTo_bind {m : Routine σ S α} {f : α → Routine σ S β} {m' : Routine σ S β}
    (h : (m >>= f).ComesTo R s m' t) :
    (∃ m₁, m.ComesTo R s m₁ t ∧ m' = m₁ >>= f) ∨ ∃ a u, m.Runs R s (some a) u ∧ (f a).ComesTo R u m' t := by
  change (m.bind f).ComesTo R s m' t at h
  induction m generalizing s with
  | done a => exact .inr ⟨a, s, .done a s, h⟩
  | crash =>
    cases h
    exact .inl ⟨.crash, .start _ _, rfl⟩
  | step ready act next ih =>
    cases h with
    | start => exact .inl ⟨.step ready act next, .start _ _, rfl⟩
    | step hu hready hn =>
      obtain ⟨m₁, hm, rfl⟩ | ⟨a, v, hv, hf⟩ := ih _ hn
      · exact .inl ⟨m₁, .step hu hready hm, rfl⟩
      · exact .inr ⟨a, v, .step hu hready hv, hf⟩
  | ask r next ih =>
    cases h with
    | start => exact .inl ⟨.ask r next, .start _ _, rfl⟩
    | ask hu reply hn =>
      obtain ⟨m₁, hm, rfl⟩ | ⟨a, v, hv, hf⟩ := ih reply hn
      · exact .inl ⟨m₁, .ask hu reply hm, rfl⟩
      · exact .inr ⟨a, v, .ask hu reply hv, hf⟩

/-- As far as it has come a routine has done what each of its steps does, and so it goes on. -/
theorem ComesTo.of_does (h : m.ComesTo R s m' t) (hm : m.Does P Q) (hrefl : ∀ s, P s s)
    (htrans : ∀ {s u t}, P s u → P u t → P s t) (hR : ∀ s u, R s u → P s u) : P s t ∧ m'.Does P Q := by
  induction h with
  | start m s => exact ⟨hrefl s, hm⟩
  | step hu _ _ ih =>
    cases hm with
    | step hact hn =>
      obtain ⟨hpassed, hleft⟩ := ih (hn _)
      exact ⟨htrans (hR _ _ hu) (htrans (hact _) hpassed), hleft⟩
  | ask hu reply _ ih =>
    cases hm with
    | ask _ hn =>
      obtain ⟨hpassed, hleft⟩ := ih (hn reply)
      exact ⟨htrans (hR _ _ hu) hpassed, hleft⟩

end Routine

/-! ## Records while a retry runs -/

namespace World

variable {ε α : Type} {S : Interface} {R : World ε → World ε → Prop} {id : JobId} {u v w : World ε}

/-- The record of the job stays as it is. -/
def Leaves (id : JobId) (u v : World ε) : Prop := v.registry.get? id = u.registry.get? id

/-- What the record of an open job shows stays as it is, but for its log. -/
def KeepsShown (id : JobId) (u v : World ε) : Prop := ∀ r, u.registry.get? id = some r → r.status.isFinal = false →
  ∃ r', v.registry.get? id = some r' ∧ r'.status = r.status ∧ r'.message = r.message ∧ r'.progress = r.progress

theorem KeepsShown.refl (id : JobId) (w : World ε) : KeepsShown id w w := fun r hr _ => ⟨r, hr, rfl, rfl, rfl⟩

theorem KeepsShown.trans (h : KeepsShown id u v) (h' : KeepsShown id v w) : KeepsShown id u w := by
  intro r hr ho
  obtain ⟨r₁, hr₁, hstatus, hmessage, hprogress⟩ := h r hr ho
  obtain ⟨r₂, hr₂, hstatus', hmessage', hprogress'⟩ := h' r₁ hr₁ (hstatus ▸ ho)
  exact ⟨r₂, hr₂, hstatus'.trans hstatus, hmessage'.trans hmessage, hprogress'.trans hprogress⟩

theorem Leaves.keepsShown (h : Leaves id u v) : KeepsShown id u v := fun r hr _ => ⟨r, Eq.trans h hr, rfl, rfl, rfl⟩

/-- An open job stays open, and its progress does not go down. -/
def Rises (id : JobId) (u v : World ε) : Prop := ∀ r, u.registry.get? id = some r → r.status.isFinal = false →
  ∃ r', v.registry.get? id = some r' ∧ r'.status.isFinal = false ∧ r.progress ≤ r'.progress

theorem Rises.refl (id : JobId) (w : World ε) : Rises id w w := fun r hr ho => ⟨r, hr, ho, UInt8.le_refl _⟩

theorem Rises.trans (h : Rises id u v) (h' : Rises id v w) : Rises id u w := by
  intro r hr ho
  obtain ⟨r₁, hr₁, ho₁, hle⟩ := h r hr ho
  obtain ⟨r₂, hr₂, ho₂, hle'⟩ := h' r₁ hr₁ ho₁
  exact ⟨r₂, hr₂, ho₂, UInt8.le_trans hle hle'⟩

theorem Leaves.rises (h : Leaves id u v) : Rises id u v := fun r hr ho => ⟨r, Eq.trans h hr, ho, UInt8.le_refl _⟩

theorem allows_rises : Allows (@Rises ε id) id where
  clock w clock _ := Leaves.rises rfl
  report w c hc r hr ho := by
    refine ⟨_, (reported hc w).taken r hr ho, JobRecord.isFinal_mark hc _ ho, ?_⟩
    cases c with
    | progress percent message => exact JobRecord.le_max_min _ _
    | log message => exact UInt8.le_refl _
    | complete | fail => cases hc

variable {κ : Type} {call : κ → World ε → World ε → Prop}

theorem keepsShown_log {line : String} (hR : Spares id R) (h : (Act.wrote (.log line)).Does R id call w v) :
    KeepsShown id w v := by
  obtain ⟨u, hu, hreported⟩ := h
  intro r hr ho
  exact ⟨_, hreported.taken r ((hR w u hu).trans hr) ho, rfl, rfl, rfl⟩

/-- A report has not been made yet, or the routine has come somewhere after it. -/
theorem comesTo_report (call : κ → World ε → World ε → Prop) {c : Change} {f : Unit → Action ε S α} {m : Action ε S α}
    (hc : c.isReport = true)
    (h : (report id c >>= f).ComesTo R w m v) :
    (m = (report id c >>= f) ∧ v = w) ∨ ∃ u, (Act.wrote c).Does R id call w u ∧ (f ()).ComesTo R u m v := by
  obtain ⟨m₁, hm, rfl⟩ | ⟨_, u, hreport, h⟩ := Routine.comesTo_bind h
  · cases hm with
    | start => exact .inl ⟨rfl, rfl⟩
    | @step _ _ _ _ u _ _ hu _ hn =>
      cases hn with
      | start => exact .inr ⟨_, ⟨u, hu, reported hc u⟩, .start _ _⟩
  · exact .inr ⟨u, does_report hc hreport, h⟩

end World

/-! ## Attempts that a retry has reached -/

namespace Retry

open World (Spares Leaves KeepsShown Rises)

variable {ε α : Type} {S : Interface} {R : World ε → World ε → Prop} {id : JobId} {name : String} {policy : RetryPolicy}
  {operation : World.Action ε S (Except CapabilityError α)} {u v w : World ε} {r r' : JobRecord}
  {failed : List CapabilityError} {attempt : Nat}

/-- Failed attempts, each with a pause after it, and the announcement of another one; the first has the given number. -/
def announceActs (name : String) (policy : RetryPolicy) (attempt : Nat) :
    List CapabilityError → List (Act (Except CapabilityError α))
  | [] => [.wrote (.progress (policy.progressBefore (.ofNat attempt)) (attemptLine name attempt policy.attempts.toNat))]
  | e :: failed =>
    attemptActs name policy attempt (.error e) ++ pauseActs policy.delay ++
      announceActs name policy (attempt + 1) failed

/-- A retry that began in the world `w` has announced its next attempt after the given failures, and this led to the
world `u`. -/
def Announced (R : World ε → World ε → Prop) (id : JobId) (name : String) (policy : RetryPolicy)
    (operation : World.Action ε S (Except CapabilityError α)) (failed : List CapabilityError) (w u : World ε) : Prop :=
  Follows R id (Answers R operation) (announceActs name policy 1 failed) w u

/-- What a job shows whose progress was `p` at first, during an attempt. -/
structure ShowsAttempt (name : String) (policy : RetryPolicy) (p : UInt8) (attempt : Nat) (r : JobRecord) : Prop where
  status : r.status = .processing
  message : r.message = attemptLine name attempt (max 1 policy.maxAttempts.toNat)
  progress : r.progress.toNat = max p.toNat ((attempt - 1) * 100 / max 1 policy.maxAttempts.toNat)

theorem toNat_max_min {a b : UInt8} (h : b.toNat ≤ 100) : (max a (min b 100)).toNat = max a.toNat b.toNat := by
  have hmin : min b 100 = b := if_pos (UInt8.le_iff_toNat_le.2 h)
  rw [hmin]
  show (if a ≤ b then b else a).toNat = _
  split
  next hle => exact (Nat.max_eq_right (UInt8.le_iff_toNat_le.1 hle)).symm
  next hgt =>
    rw [UInt8.le_iff_toNat_le] at hgt
    omega

theorem showsAttempt_mark (hmax : max 1 policy.maxAttempts.toNat ≤ RetryPolicy.mostCounted) (hi : 1 ≤ attempt)
    (hle : attempt ≤ max 1 policy.maxAttempts.toNat) (now : Timestamp) (r : JobRecord) :
    ShowsAttempt name policy r.progress attempt ((Change.progress (policy.progressBefore (.ofNat attempt))
      (attemptLine name attempt policy.attempts.toNat)).mark now r) := by
  have hbefore := RetryPolicy.toNat_progressBefore hmax hi hle
  have hlt := RetryPolicy.percentage_lt hi hle
  refine ⟨rfl, congrArg (attemptLine name attempt) (toNat_attempts policy), ?_⟩
  show (max r.progress (min (policy.progressBefore (.ofNat attempt)) 100)).toNat = _
  rw [toNat_max_min (by omega), hbefore]

/-- An earlier attempt does not count beside a later one. -/
theorem ShowsAttempt.of_earlier {p q : UInt8} {i j : Nat} (h : ShowsAttempt name policy q j r) (hij : i ≤ j)
    (hq : q.toNat = max p.toNat ((i - 1) * 100 / max 1 policy.maxAttempts.toNat)) : ShowsAttempt name policy p j r := by
  have hle : (i - 1) * 100 / max 1 policy.maxAttempts.toNat ≤ (j - 1) * 100 / max 1 policy.maxAttempts.toNat :=
    Nat.div_le_div_right (Nat.mul_le_mul_right 100 (Nat.sub_le_sub_right hij 1))
  refine ⟨h.status, h.message, ?_⟩
  rw [h.progress, hq, Nat.max_assoc, Nat.max_eq_right hle]

theorem write?_announceActs (e : CapabilityError) :
    (announceActs (α := α) name policy attempt (e :: failed)).filterMap Act.write? =
      .progress (policy.progressBefore (.ofNat attempt)) (attemptLine name attempt policy.attempts.toNat) ::
        .log (attemptLine name attempt policy.attempts.toNat) :: .log (failureLine name e) ::
          (announceActs (α := α) name policy (attempt + 1) failed).filterMap Act.write? := by
  have hpause : (pauseActs (α := α) policy.delay).filterMap Act.write? = [] := by
    unfold pauseActs
    split <;> rfl
  rw [announceActs, List.filterMap_append, List.filterMap_append, hpause, List.append_nil]
  rfl

theorem isReport_announceActs : ∀ (failed : List CapabilityError) (attempt : Nat),
    ∀ c ∈ (announceActs (α := α) name policy attempt failed).filterMap Act.write?, c.isReport = true
  | [], attempt => by
    intro c hc
    cases List.mem_singleton.1 hc
    rfl
  | e :: failed, attempt => by
    rw [write?_announceActs, List.forall_mem_cons, List.forall_mem_cons, List.forall_mem_cons]
    exact ⟨rfl, rfl, rfl, isReport_announceActs failed (attempt + 1)⟩

/-- **Each announcement brings the job as far as its attempt says**, and those before it no further. -/
theorem showsAttempt_of_takes (hmax : max 1 policy.maxAttempts.toNat ≤ RetryPolicy.mostCounted) :
    ∀ {failed : List CapabilityError} {attempt : Nat} {r : JobRecord}, 1 ≤ attempt →
      attempt + failed.length ≤ max 1 policy.maxAttempts.toNat →
      r.Takes ((announceActs (α := α) name policy attempt failed).filterMap Act.write?) r' →
      ShowsAttempt name policy r.progress (attempt + failed.length) r'
  | [], attempt, r, hi, hle, h => by
    cases h with
    | cons now h =>
      cases h
      exact showsAttempt_mark hmax hi hle now r
  | e :: failed, attempt, r, hi, hle, h => by
    rw [List.length_cons] at hle ⊢
    rw [write?_announceActs] at h
    cases h with
    | cons now h =>
      have hfirst : ShowsAttempt name policy r.progress attempt _ := showsAttempt_mark hmax hi (by omega) now r
      -- the lines for the log leave the progress as it is
      cases h with
      | cons _ h =>
        cases h with
        | cons _ h =>
          have hrest := showsAttempt_of_takes hmax (by omega) (by omega) h
          rw [show attempt + (failed.length + 1) = attempt + 1 + failed.length by omega]
          exact hrest.of_earlier (by omega) hfirst.progress

/-- **What a job shows when an attempt has been announced**, if nobody else writes to it. -/
theorem Announced.shows (h : Announced R id name policy operation failed w u)
    (hmax : max 1 policy.maxAttempts.toNat ≤ RetryPolicy.mostCounted)
    (hlen : failed.length < max 1 policy.maxAttempts.toNat) (hR : Spares id R)
    (hop : ∀ answer, Spares id (Answers R operation answer)) (hr : w.registry.get? id = some r)
    (ho : r.status.isFinal = false) :
    ∃ r', u.registry.get? id = some r' ∧ ShowsAttempt name policy r.progress (failed.length + 1) r' := by
  obtain ⟨r', hr', htakes⟩ := h.takes hR hop (isReport_announceActs failed 1) hr ho
  refine ⟨r', hr', ?_⟩
  rw [Nat.add_comm]
  exact showsAttempt_of_takes hmax (Nat.le_refl 1) (by omega) htakes

/-! ## Where a run has come to -/

theorem does_pause_leaves (d : Duration) : (pause d : World.Action ε S Unit).Keeps (Leaves id) := by
  unfold pause
  split
  · exact .done ()
  · have hset : (Routine.atomically (World.setAlarm d) : World.Action ε S Nat).Keeps (Leaves id) :=
      Routine.does_atomically fun w => rfl
    exact hset.bind fun time => .step (fun w => rfl) fun _ => .done ()

theorem keepsShown_of_keeps {β : Type} {m m' : World.Action ε S β} (hR : Spares id R) (hm : m.Keeps (Leaves id))
    (h : m.ComesTo R w m' v) : KeepsShown id w v :=
  World.Leaves.keepsShown (h.of_does hm (fun _ => rfl) (fun h h' => Eq.trans h' h) hR).1

/-- **Wherever a retry has come**, it has announced an attempt, and the job shows what it showed then. -/
theorem comesTo_attemptsFrom (hR : Spares id R) (hop : operation.Keeps (Leaves id)) :
    ∀ {left attempt : Nat} {w : World ε} {m : World.Action ε S (Except RetryError α)},
      (attemptsFrom id name policy operation left attempt).ComesTo R w m v →
      (m = attemptsFrom id name policy operation left attempt ∧ v = w) ∨
        ∃ failed u, failed.length ≤ left ∧
          Follows R id (Answers R operation) (announceActs name policy attempt failed) w u ∧ KeepsShown id u v
  | left, attempt, w, m, h => by
    rw [attemptsFrom] at h ⊢
    obtain hstart | ⟨w₁, hannounced, h⟩ := World.comesTo_report (Answers R operation) rfl h
    · exact .inl hstart
    refine .inr ?_
    have hfirst : Follows R id (Answers R operation) (announceActs name policy attempt []) w w₁ :=
      follows_singleton.2 hannounced
    -- the next attempt begins, or nothing but the log has changed
    suffices hattempt : KeepsShown id w₁ v ∨ ∃ e left' w₂, left = left' + 1 ∧
        Follows R id (Answers R operation) (attemptActs name policy attempt (.error e) ++ pauseActs policy.delay) w w₂ ∧
        (attemptsFrom id name policy operation left' (attempt + 1)).ComesTo R w₂ m v ∧ KeepsShown id w₁ w₂ by
      obtain hkeeps | ⟨e, left', w₂, rfl, hfollows, h, hkeeps⟩ := hattempt
      · exact ⟨[], w₁, Nat.zero_le _, hfirst, hkeeps⟩
      · obtain ⟨-, rfl⟩ | ⟨failed, u, hle, hrest, hshown⟩ := comesTo_attemptsFrom hR hop h
        · exact ⟨[], w₁, Nat.zero_le _, hfirst, hkeeps⟩
        · exact ⟨e :: failed, u, Nat.succ_le_succ hle, follows_append.2 ⟨w₂, hfollows, hrest⟩, hshown⟩
    obtain ⟨-, rfl⟩ | ⟨w₂, hline, h⟩ := World.comesTo_report (Answers R operation) rfl h
    · exact .inl (.refl id v)
    have hkept : KeepsShown id w₁ w₂ := World.keepsShown_log hR hline
    obtain ⟨m₁, hcalled, -⟩ | ⟨answer, w₃, hcall, h⟩ := Routine.comesTo_bind h
    · exact .inl (hkept.trans (keepsShown_of_keeps hR hop hcalled))
    have hkept := hkept.trans (keepsShown_of_keeps hR hop hcall.comesTo)
    have hattempt : ∀ {w₄}, (Act.wrote (.log (closingLine name attempt answer))).Does R id (Answers R operation) w₃ w₄ →
        Follows R id (Answers R operation) (attemptActs name policy attempt answer) w w₄ :=
      fun hclosing => ⟨w₁, hannounced, w₂, hline, w₃, hcall, _, hclosing, rfl⟩
    cases answer with
    | ok a =>
      obtain ⟨-, rfl⟩ | ⟨w₄, hclosing, h⟩ := World.comesTo_report (Answers R operation) rfl h
      · exact .inl hkept
      · cases h
        exact .inl (hkept.trans (World.keepsShown_log hR hclosing))
    | error e =>
      obtain ⟨-, rfl⟩ | ⟨w₄, hclosing, h⟩ := World.comesTo_report (Answers R operation) rfl h
      · exact .inl hkept
      have hkept := hkept.trans (World.keepsShown_log hR hclosing)
      cases left with
      | zero =>
        cases h
        exact .inl hkept
      | succ left =>
        have hpausing : (pause policy.delay : World.Action ε S Unit).Keeps (Leaves id) := does_pause_leaves policy.delay
        obtain ⟨m₁, hpause, -⟩ | ⟨_, w₅, hpause, h⟩ := Routine.comesTo_bind h
        · exact .inl (hkept.trans (keepsShown_of_keeps hR hpausing hpause))
        have hkept := hkept.trans (keepsShown_of_keeps hR hpausing hpause.comesTo)
        rw [← bind_pure (pause policy.delay)] at hpause
        obtain ⟨w₆, hpaused, hdone⟩ : ∃ w₆, Follows R id (Answers R operation) (pauseActs policy.delay) w₄ w₆ ∧ _ :=
          of_pause hpause
        obtain ⟨-, rfl⟩ := Routine.runs_pure.1 hdone
        exact .inr ⟨e, left, w₅, rfl, follows_append.2 ⟨w₄, hattempt hclosing, hpaused⟩, h, hkept⟩

theorem spares_answers (hR : Spares id R) (hop : operation.Keeps (Leaves id)) (answer : Except CapabilityError α) :
    Spares id (Answers R operation answer) :=
  fun _ _ h => h.of_does hop (fun _ => rfl) (fun h h' => Eq.trans h' h) hR

/-- **The progress that retries show.**  A job that is open when a retry of an operation begins, and is written to by
nobody else, shows each attempt with the exact percentage of the attempts behind it, or with the progress that it had,
if that is more; nothing is lost on the way to the percentage.  Wherever the run has come to, the job shows the last
attempt that was announced; so its progress never goes down, and it is 100 only if it was 100. -/
theorem progress_of_retries (name : String) (policy : RetryPolicy) (hmax : max 1 policy.maxAttempts.toNat ≤ 42949673)
    (hR : Spares id R) (hop : operation.Keeps (Leaves id)) (hr : w.registry.get? id = some r)
    (ho : r.status.isFinal = false) :
    (∀ i, 1 ≤ i → i ≤ max 1 policy.maxAttempts.toNat → (i - 1) * 100 < 2 ^ 32 ∧
      (i - 1) * 100 / max 1 policy.maxAttempts.toNat < 100 ∧
      (policy.progressBefore (.ofNat i)).toNat = (i - 1) * 100 / max 1 policy.maxAttempts.toNat) ∧
    (∀ failed u, failed.length < max 1 policy.maxAttempts.toNat → Announced R id name policy operation failed w u →
      ∃ r', u.registry.get? id = some r' ∧ ShowsAttempt name policy r.progress (failed.length + 1) r') ∧
    (∀ m v, (run id name policy operation).ComesTo R w m v → (m = run id name policy operation ∧ v = w) ∨
      ∃ failed u r', failed.length < max 1 policy.maxAttempts.toNat ∧ Announced R id name policy operation failed w u ∧
        v.registry.get? id = some r' ∧ ShowsAttempt name policy r.progress (failed.length + 1) r') ∧
    ∀ m v m' v', (run id name policy operation).ComesTo R w m v → m.ComesTo R v m' v' →
      ∃ r₁ r₂, v.registry.get? id = some r₁ ∧ v'.registry.get? id = some r₂ ∧ r.progress ≤ r₁.progress ∧
        r₁.progress ≤ r₂.progress ∧ (r₂.progress = 100 → r.progress = 100) := by
  have hmost := toNat_attempts policy
  have hshows : ∀ failed u, failed.length < max 1 policy.maxAttempts.toNat →
      Announced R id name policy operation failed w u →
      ∃ r', u.registry.get? id = some r' ∧ ShowsAttempt name policy r.progress (failed.length + 1) r' :=
    fun failed u hlen h => h.shows hmax hlen hR (spares_answers hR hop) hr ho
  have hplaces : ∀ m v, (run id name policy operation).ComesTo R w m v → (m = run id name policy operation ∧ v = w) ∨
      ∃ failed u r', failed.length < max 1 policy.maxAttempts.toNat ∧ Announced R id name policy operation failed w u ∧
        v.registry.get? id = some r' ∧ ShowsAttempt name policy r.progress (failed.length + 1) r' := by
    intro m v h
    refine (comesTo_attemptsFrom hR hop h).imp_right ?_
    rintro ⟨failed, u, hle, hannounced, hkept⟩
    have hlen : failed.length < max 1 policy.maxAttempts.toNat := by omega
    obtain ⟨r₁, hr₁, hshown⟩ := hshows failed u hlen hannounced
    obtain ⟨r₂, hr₂, hstatus, hmessage, hprogress⟩ := hkept r₁ hr₁ (by rw [hshown.status]; rfl)
    refine ⟨failed, u, r₂, hlen, hannounced, hr₂, hstatus.trans hshown.status, hmessage.trans hshown.message, ?_⟩
    rw [hprogress, hshown.progress]
  refine ⟨fun i hi hle => ⟨RetryPolicy.counted_lt hmax hle, RetryPolicy.percentage_lt hi hle,
    RetryPolicy.toNat_progressBefore hmax hi hle⟩, hshows, hplaces, fun m v m' v' h h' => ?_⟩
  have hrises : (run id name policy operation).Keeps (Rises id) :=
    does_attemptsFrom World.allows_rises (hop.mono fun _ _ => World.Leaves.rises) _ _
  have hothers : ∀ u v, R u v → Rises id u v := fun u v huv => World.Leaves.rises (hR u v huv)
  obtain ⟨hbefore, hleft⟩ := h.of_does hrises (World.Rises.refl id) World.Rises.trans hothers
  obtain ⟨hafter, -⟩ := h'.of_does hleft (World.Rises.refl id) World.Rises.trans hothers
  obtain ⟨r₁, hr₁, ho₁, hle₁⟩ := hbefore r hr ho
  obtain ⟨r₂, hr₂, -, hle₂⟩ := hafter r₁ hr₁ ho₁
  refine ⟨r₁, r₂, hr₁, hr₂, hle₁, hle₂, fun hfull => ?_⟩
  obtain ⟨-, rfl⟩ | ⟨failed, u, r₃, hlen, -, hr₃, hshown⟩ := hplaces m' v' (h.trans h')
  · rw [hr] at hr₂
    cases hr₂
    exact hfull
  · rw [hr₂] at hr₃
    cases hr₃
    -- the percentage is below 100, so it is the progress at first that is 100
    have hlt : (failed.length + 1 - 1) * 100 / max 1 policy.maxAttempts.toNat < 100 :=
      RetryPolicy.percentage_lt (Nat.le_add_left 1 failed.length) hlen
    have hprogress := hshown.progress
    rw [hfull] at hprogress
    have hprogress : 100 = max r.progress.toNat _ := hprogress
    exact UInt8.toNat_inj.1 (show r.progress.toNat = 100 by omega)

/-- A job that has just been accepted. -/
def acceptedWorld : World Unit := { registry := (Registry.create ⟨"job"⟩ .empty ⟨0, 0⟩ {}).2, env := () }

/-- Of three attempts the second one is announced with a third behind it. -/
theorem progress_of_second_attempt :
    let operation : World.Action Unit .none (Except CapabilityError Unit) := pure (.error (.other "x"))
    ∃ u r, Announced Eq ⟨"job"⟩ "install" ⟨3, .zero⟩ operation [.other "x"] acceptedWorld u ∧
      u.registry.get? ⟨"job"⟩ = some r ∧ r.message = "install (attempt 2/3)" ∧ r.progress.toNat = 33 := by
  intro operation
  have hop : operation.Keeps (Leaves ⟨"job"⟩) := .done _
  have hR : Spares ⟨"job"⟩ (@Eq (World Unit)) := by
    rintro u _ rfl
    rfl
  have hwrote : ∀ (c : Change) (w : World Unit), c.isReport = true →
      (Act.wrote c).Does Eq ⟨"job"⟩ (Answers Eq operation) w (World.onRegistry (Registry.change ⟨"job"⟩ c) w).2 :=
    fun c w hc => ⟨w, rfl, World.reported hc w⟩
  have hannounced : ∃ u, Announced Eq ⟨"job"⟩ "install" ⟨3, .zero⟩ operation [.other "x"] acceptedWorld u :=
    ⟨_, _, hwrote _ _ rfl, _, hwrote _ _ rfl, _, .done _ _, _, hwrote _ _ rfl, _, hwrote _ _ rfl, rfl⟩
  obtain ⟨u, hu⟩ := hannounced
  have hr : acceptedWorld.registry.get? ⟨"job"⟩ = some (.accepted ⟨"job"⟩ .empty ⟨0, 0⟩) := rfl
  obtain ⟨-, hshows, -⟩ := progress_of_retries "install" ⟨3, .zero⟩ (by decide) hR hop hr rfl
  obtain ⟨r, hr, hshown⟩ := hshows [.other "x"] u (by decide) hu
  exact ⟨u, r, hu, hr, hshown.message, hshown.progress⟩

end Retry
end JobRunner
