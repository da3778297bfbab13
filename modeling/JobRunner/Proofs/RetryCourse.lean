import JobRunner.Proofs.Courses
import JobRunner.Proofs.JobLoops
/-!
# The course of a retry

An operation is called until it succeeds or may be called no more.  What a retry says and returns follows from the policy
and from what the operation answers, whatever the registry is like and whatever others do to it meanwhile.
-/
namespace JobRunner
namespace Retry

variable {ε α : Type} {S : Interface} {R : World ε → World ε → Prop} {id : JobId} {name : String} {policy : RetryPolicy}
  {operation : World.Action ε S (Except CapabilityError α)} {w v : World ε} {tried : List CapabilityError}
  {last : Except CapabilityError α} {attempt : Nat}

/-- What is said after an attempt. -/
def closingLine (name : String) (attempt : Nat) : Except CapabilityError α → String
  | .ok _ => successLine name attempt
  | .error e => failureLine name e

/-- What the last attempt makes of a retry. -/
def conclude (name : String) (attempt : Nat) : Except CapabilityError α → Except RetryError α
  | .ok a => .ok a
  | .error e => .error ⟨name, attempt, e⟩

/-- An attempt and its answer. -/
def attemptActs (name : String) (policy : RetryPolicy) (attempt : Nat) (answer : Except CapabilityError α) :
    List (Act (Except CapabilityError α)) :=
  let line := attemptLine name attempt policy.attempts.toNat
  [.wrote (.progress (policy.progressBefore (.ofNat attempt)) line), .wrote (.log line), .called answer,
    .wrote (.log (closingLine name attempt answer))]

def pauseActs (d : Duration) : List (Act (Except CapabilityError α)) := if d = .zero then [] else [.slept d]

/-- Failed attempts, each with a pause after it, and a last one; the first has the given number. -/
def acts (name : String) (policy : RetryPolicy) (attempt : Nat) :
    List CapabilityError → Except CapabilityError α → List (Act (Except CapabilityError α))
  | [], last => attemptActs name policy attempt last
  | e :: tried, last =>
    attemptActs name policy attempt (.error e) ++ pauseActs policy.delay ++ acts name policy (attempt + 1) tried last

/-- The lines that numbered answers leave in a log: one before each attempt, and one about its answer. -/
def linesFrom (name : String) (policy : RetryPolicy) (attempt : Nat) (answered : List (Except CapabilityError α)) :
    List String :=
  (answered.zipIdx attempt).flatMap fun a =>
    [name ++ " (attempt " ++ Nat.repr a.2 ++ "/" ++ Nat.repr (max 1 policy.maxAttempts.toNat) ++ ")",
      match a.1 with
      | .ok _ => name ++ " succeeded after " ++ Nat.repr a.2 ++ " attempt(s)"
      | .error e => name ++ " failed: " ++ e.message]

/-- How many of the outcomes in store are used up: those up to the first success, or as many as may be. -/
def callsMade (policy : RetryPolicy) (out : Nat → Except CapabilityError α) : Nat :=
  let most := max 1 policy.maxAttempts.toNat
  min ((List.range most).findIdx (fun i => (out i).isOk) + 1) most

/-- A call of the operation came to an answer. -/
def Answers (R : World ε → World ε → Prop) (operation : World.Action ε S (Except CapabilityError α))
    (answer : Except CapabilityError α) (w v : World ε) : Prop := operation.Runs R w (some answer) v

/-! ## What a retry does -/

theorem acts_cons (e : CapabilityError) : acts name policy attempt (e :: tried) last =
    attemptActs name policy attempt (.error e) ++ pauseActs policy.delay ++ acts name policy (attempt + 1) tried last :=
  rfl

theorem filterMap_acts {β : Type} {f : Act (Except CapabilityError α) → Option β} (hf : ∀ d, f (.slept d) = none) :
    ∀ {tried : List CapabilityError} {attempt : Nat}, (acts name policy attempt tried last).filterMap f =
      ((answers tried last).zipIdx attempt).flatMap fun a => (attemptActs name policy a.2 a.1).filterMap f
  | [], _ => (List.append_nil _).symm
  | e :: tried, attempt => by
    have hpause : (pauseActs policy.delay).filterMap f = [] := by
      unfold pauseActs
      split
      · rfl
      · exact List.filterMap_cons_none (hf _)
    rw [acts_cons, List.filterMap_append, List.filterMap_append, hpause, List.append_nil, filterMap_acts hf]
    rfl

theorem call?_acts : (acts name policy attempt tried last).filterMap Act.call? = answers tried last := by
  rw [filterMap_acts fun _ => rfl]
  show (((answers tried last).zipIdx attempt).flatMap fun a => [a.1]) = _
  rw [← List.map_eq_flatMap, List.zipIdx_map_fst]

theorem line?_acts :
    (acts name policy attempt tried last).filterMap Act.line? = linesFrom name policy attempt (answers tried last) := by
  rw [filterMap_acts fun _ => rfl]
  unfold linesFrom
  rw [← toNat_attempts]
  rfl

theorem isReport_acts : ∀ c ∈ (acts name policy attempt tried last).filterMap Act.write?, c.isReport = true := by
  rw [filterMap_acts fun _ => rfl]
  intro c hc
  obtain ⟨a, -, hc⟩ := List.mem_flatMap.1 hc
  simp only [attemptActs, List.filterMap_cons, Act.write?, List.filterMap_nil, List.mem_cons, List.not_mem_nil,
    or_false] at hc
  obtain rfl | rfl | rfl := hc
  · rfl
  · rfl
  · rfl

theorem sleep?_acts : ∀ {tried : List CapabilityError} {attempt : Nat},
    (acts name policy attempt tried last).filterMap Act.sleep? =
      if policy.delay = .zero then [] else List.replicate tried.length policy.delay
  | [], _ => (ite_self _).symm
  | e :: tried, attempt => by
    rw [acts_cons, List.filterMap_append, List.filterMap_append, sleep?_acts]
    unfold pauseActs
    split <;> rfl

theorem callsMade_eq {out : Nat → Except CapabilityError α} {n : Nat} (hfailed : ∀ i < n, (out i).isOk = false)
    (hlen : n + 1 ≤ max 1 policy.maxAttempts.toNat)
    (hend : (out n).isOk = true ∨ n + 1 = max 1 policy.maxAttempts.toNat) : callsMade policy out = n + 1 := by
  unfold callsMade
  dsimp only
  generalize max 1 policy.maxAttempts.toNat = most at hlen hend
  have hle : n ≤ (List.range most).findIdx (fun i => (out i).isOk) := by
    refine List.le_findIdx_of_not (by rw [List.length_range]; omega) fun i hi => ?_
    rw [List.getElem_range]
    exact hfailed i hi
  obtain hok | hmost := hend
  · -- the last outcome is the first success
    have heq : (List.range most).findIdx (fun i => (out i).isOk) ≤ n := by
      by_contra hgt
      have hnot := List.not_of_lt_findIdx (Nat.lt_of_not_le hgt)
      rw [List.getElem_range, hok] at hnot
      cases hnot
    omega
  · omega

/-- The answers are the outcomes in store, up to the first success or as many as may be. -/
theorem answers_eq (hlen : tried.length + 1 ≤ max 1 policy.maxAttempts.toNat)
    (hend : (∃ a, last = .ok a) ∨ tried.length + 1 = max 1 policy.maxAttempts.toNat)
    {out : Nat → Except CapabilityError α} (hout : ∀ i a, (answers tried last)[i]? = some a → a = out i) :
    tried.length + 1 = callsMade policy out ∧ answers tried last = (List.range (callsMade policy out)).map out := by
  have hfailed : ∀ i, (hi : i < tried.length) → out i = .error tried[i] := by
    intro i hi
    refine (hout i _ ?_).symm
    unfold answers
    rw [List.getElem?_append_left (by rwa [List.length_map]), List.getElem?_map, List.getElem?_eq_getElem hi]
    rfl
  have hlast : out tried.length = last := by
    refine (hout tried.length _ ?_).symm
    unfold answers
    rw [List.getElem?_append_right (by rw [List.length_map]), List.length_map, Nat.sub_self]
    rfl
  have hcount : callsMade policy out = tried.length + 1 := by
    refine callsMade_eq (fun i hi => ?_) hlen (hend.imp_left fun ⟨a, ha⟩ => ?_)
    · rw [hfailed i hi]
      rfl
    · rw [hlast, ha]
      rfl
  refine ⟨hcount.symm, ?_⟩
  rw [hcount, List.range_succ, List.map_append, List.map_singleton, hlast]
  refine congrArg (· ++ [last]) (List.ext_getElem (by simp) fun i hi hi' => ?_)
  rw [List.length_map] at hi
  rw [List.getElem_map, List.getElem_map, List.getElem_range, hfailed i hi]

/-! ## Runs -/

theorem of_pause {β : Type} {o : Option β} {f : Unit → World.Action ε S β}
    (h : (pause policy.delay >>= f).Runs R w o v) :
    ∃ u, Follows R id (Answers R operation) (pauseActs policy.delay) w u ∧ (f ()).Runs R u o v := by
  unfold pause at h
  unfold pauseActs
  by_cases hd : policy.delay = .zero
  · rw [if_pos hd] at h ⊢
    exact ⟨w, rfl, h⟩
  · rw [if_neg hd] at h ⊢
    obtain ⟨u, hslept, h⟩ := World.of_sleep h
    exact ⟨u, follows_singleton.2 hslept, h⟩

/-- The attempts fail up to one that succeeds, or all fail that may be made; only the operation crashes. -/
theorem runs_attemptsFrom : ∀ {left attempt : Nat} {w : World ε} {o : Option (Except RetryError α)},
    (attemptsFrom id name policy operation left attempt).Runs R w o v →
      (∃ tried last, tried.length ≤ left ∧ ((∃ a, last = .ok a) ∨ tried.length = left) ∧
        o = some (conclude name (attempt + tried.length) last) ∧
        Follows R id (Answers R operation) (acts name policy attempt tried last) w v) ∨
      (o = none ∧ ∃ u t, operation.Runs R u none t)
  | left, attempt, w, o, h => by
    unfold attemptsFrom at h
    obtain ⟨w₁, hprogress, h⟩ := World.of_report rfl h
    obtain ⟨w₂, hline, h⟩ := World.of_report rfl h
    obtain ⟨answer, w₃, hcall, h⟩ | ⟨ho, hcrash⟩ := Routine.runs_bind.1 h
    swap
    · exact .inr ⟨ho, w₂, v, hcrash⟩
    have hattempt : ∀ {w₄}, (Act.wrote (.log (closingLine name attempt answer))).Does R id (Answers R operation) w₃ w₄ →
        Follows R id (Answers R operation) (attemptActs name policy attempt answer) w w₄ :=
      fun hclosing => ⟨w₁, hprogress, w₂, hline, w₃, hcall, _, hclosing, rfl⟩
    cases answer with
    | ok a =>
      obtain ⟨w₄, hclosing, h⟩ := World.of_report rfl h
      obtain ⟨rfl, rfl⟩ := Routine.runs_pure.1 h
      exact .inl ⟨[], .ok a, Nat.zero_le _, .inl ⟨a, rfl⟩, rfl, hattempt hclosing⟩
    | error e =>
      obtain ⟨w₄, hclosing, h⟩ := World.of_report rfl h
      cases left with
      | zero =>
        obtain ⟨rfl, rfl⟩ := Routine.runs_pure.1 h
        exact .inl ⟨[], .error e, Nat.le_refl _, .inr rfl, rfl, hattempt hclosing⟩
      | succ left =>
        obtain ⟨w₅, hpause, h⟩ := of_pause h
        obtain ⟨tried, last, hle, hend, rfl, hrest⟩ | hcrash := runs_attemptsFrom h
        · refine .inl ⟨e :: tried, last, Nat.succ_le_succ hle, hend.imp_right (congrArg (· + 1)), ?_, ?_⟩
          · rw [List.length_cons, Nat.add_right_comm]
            rfl
          · rw [acts_cons]
            exact follows_append.2 ⟨w₅, follows_append.2 ⟨w₄, hattempt hclosing, hpause⟩, hrest⟩
        · exact .inr hcrash

theorem completes_attemptsFrom (hR : World.Patient R) (hop : ∀ u, operation.Completes R u) : ∀ left attempt w,
    (attemptsFrom id name policy operation left attempt).Completes R w
  | left, attempt, w => by
    unfold attemptsFrom
    refine Routine.completes_bind.2 ⟨hR.completes_report _ _ _, fun _ u _ => ?_⟩
    refine Routine.completes_bind.2 ⟨hR.completes_report _ _ _, fun _ u _ => ?_⟩
    refine Routine.completes_bind.2 ⟨hop u, fun answer u _ => ?_⟩
    cases answer with
    | ok a => exact Routine.completes_bind.2 ⟨hR.completes_report _ _ _, fun _ _ _ => trivial⟩
    | error e =>
      refine Routine.completes_bind.2 ⟨hR.completes_report _ _ _, fun _ u _ => ?_⟩
      cases left with
      | zero => exact trivial
      | succ left =>
        refine Routine.completes_bind.2 ⟨?_, fun _ u _ => completes_attemptsFrom hR hop left (attempt + 1) u⟩
        unfold pause
        split
        · exact trivial
        · exact hR.completes_sleep _ _

/-- What is to be said of a retry that led from the world `w` to the world `v` and came to a result: its operation failed
as listed and then answered `last`. -/
structure Course (R : World ε → World ε → Prop) (id : JobId) (name : String) (policy : RetryPolicy)
    (operation : World.Action ε S (Except CapabilityError α)) (w v : World ε) (result : Except RetryError α)
    (tried : List CapabilityError) (last : Except CapabilityError α) : Prop where
  /-- The number of calls and the answers follow from the policy and the outcomes in store, whatever these are. -/
  count : ∀ out : Nat → Except CapabilityError α, (∀ i a, (answers tried last)[i]? = some a → a = out i) →
    tried.length + 1 = callsMade policy out ∧ answers tried last = (List.range (callsMade policy out)).map out
  result_eq : result = conclude name (tried.length + 1) last
  /-- Nothing but this was done, in this order. -/
  follows : Follows R id (Answers R operation) (acts name policy 1 tried last) w v
  calls : (acts name policy 1 tried last).filterMap Act.call? = answers tried last
  pauses : (acts name policy 1 tried last).filterMap Act.sleep? =
    if policy.delay = .zero then [] else List.replicate tried.length policy.delay
  lines : (acts name policy 1 tried last).filterMap Act.line? = linesFrom name policy 1 (answers tried last)
  /-- What is written adds a line to the log of an open job, or none, and leaves the job open. -/
  reports : ∀ c ∈ (acts name policy 1 tried last).filterMap Act.write?, ∀ now r, r.status.isFinal = false →
    (c.mark now r).status.isFinal = false ∧ (c.mark now r).logMessages = r.logMessages ++ c.line?.toList
  others : ∀ x, x ≠ id → World.Spares x R → (∀ a, World.Spares x (Answers R operation a)) →
    v.registry.get? x = w.registry.get? x
  /-- An open job that is left alone otherwise gains the lines and stays open. -/
  gains : World.Spares id R → (∀ a, World.Spares id (Answers R operation a)) → ∀ r, w.registry.get? id = some r →
    r.status.isFinal = false → ∃ r', v.registry.get? id = some r' ∧ r'.status.isFinal = false ∧
      r'.logMessages = r.logMessages ++ linesFrom name policy 1 (answers tried last)
  drops : World.Spares id R → (∀ a, World.Spares id (Answers R operation a)) →
    (∀ r, w.registry.get? id = some r → r.status.isFinal = true) → v.registry.get? id = w.registry.get? id

theorem exists_course {result : Except RetryError α} (h : (run id name policy operation).Runs R w (some result) v) :
    ∃ tried last, Course R id name policy operation w v result tried last := by
  obtain ⟨tried, last, hle, hend, ho, hfollows⟩ | ⟨ho, -⟩ := runs_attemptsFrom h
  swap
  · cases ho
  rw [toNat_attempts] at hle hend
  have hwrites : ∀ c ∈ (acts name policy 1 tried last).filterMap Act.write?, c.isReport = true := isReport_acts
  refine ⟨tried, last, ?_⟩
  exact {
    count := fun out hout => answers_eq (by omega) (hend.imp_right fun h => by omega) hout
    result_eq := by
      rw [Nat.add_comm]
      exact Option.some.inj ho
    follows := hfollows
    calls := call?_acts
    pauses := sleep?_acts
    lines := line?_acts
    reports := fun c hc now r ho =>
      ⟨JobRecord.isFinal_mark (hwrites c hc) now ho, JobRecord.logMessages_mark (hwrites c hc) now r⟩
    others := fun x hx hR hop => hfollows.spares hR hop hx _ _ _
    gains := fun hR hop r hr ho => by
      obtain ⟨r', hr', htakes⟩ := hfollows.takes hR hop hwrites hr ho
      rw [← line?_acts, ← filterMap_line?]
      exact ⟨r', hr', htakes.reports hwrites ho⟩
    drops := fun hR hop hr => hfollows.dropped hR hop hr }

/-- **Retries follow their policy.**  Whatever the others do, a retry that comes to a result took the course above; one
that crashes does so in its operation; and it does come to a result if the operation does, and there is time to sleep. -/
theorem retries_follow_policy (R : World ε → World ε → Prop) (id : JobId) (name : String) (policy : RetryPolicy)
    (operation : World.Action ε S (Except CapabilityError α)) :
    (∀ w v result, (run id name policy operation).Runs R w (some result) v →
      ∃ tried last, Course R id name policy operation w v result tried last) ∧
    (∀ w v, (run id name policy operation).Runs R w none v → ∃ u t, operation.Runs R u none t) ∧
    (World.Patient R → (∀ u, operation.Completes R u) → ∀ w, (run id name policy operation).Completes R w) := by
  refine ⟨fun w v result h => exists_course h, fun w v h => ?_, fun hR hop w => completes_attemptsFrom hR hop _ _ w⟩
  obtain ⟨tried, last, -, -, ho, -⟩ | ⟨-, hcrash⟩ := runs_attemptsFrom h
  · cases ho
  · exact hcrash

/-- An operation that fails again and again is called three times when three attempts are allowed. -/
theorem retries_follow_policy_three :
    let operation : World.Action Unit .none (Except CapabilityError Unit) := pure (.error (.other "x"))
    World.Patient (@World.Idle Unit) ∧ (∀ u, operation.Completes World.Idle u) ∧
      ∃ v, (run ⟨"job"⟩ "install" ⟨3, .ofMillis 5⟩ operation).Runs World.Idle { env := () }
        (some (.error ⟨"install", 3, .other "x"⟩)) v := by
  intro operation
  have hop : ∀ u, operation.Completes World.Idle u := fun _ => trivial
  obtain ⟨hcourse, -, hcompletes⟩ := retries_follow_policy World.Idle ⟨"job"⟩ "install" ⟨3, .ofMillis 5⟩ operation
  obtain ⟨⟨result, v, h⟩, -⟩ := (hcompletes World.patient_idle hop { env := () }).runs World.patient_idle.refl
  obtain ⟨tried, last, hc⟩ := hcourse _ v result h
  have hanswer (i : Nat) (a : Except CapabilityError Unit) (ha : (answers tried last)[i]? = some a) :
      a = .error (.other "x") := by
    have hmem := List.mem_of_getElem? ha
    rw [← hc.calls] at hmem
    obtain ⟨u, t, hcall⟩ := hc.follows.called hmem
    exact Option.some.inj (Routine.runs_pure.1 hcall).1
  have hcount : tried.length + 1 = 3 := (hc.count (fun _ => .error (.other "x")) hanswer).1
  have hlast : last = .error (.other "x") := hanswer tried.length last (by simp [answers])
  have hresult := hc.result_eq
  rw [hcount, hlast] at hresult
  rw [hresult] at h
  exact ⟨World.patient_idle, hop, v, h⟩

end Retry
end JobRunner
