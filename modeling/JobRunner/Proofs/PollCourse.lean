import JobRunner.Proofs.Courses
import JobRunner.Proofs.JobLoops
/-!
# The course of a wait

A wait looks at its condition again and again.  All that it learns are the times at which it reads the clock and what the
probes answer; from these follow the next thing that it does, the lines for its job, and its result.  The registry is
only written to.
-/
namespace JobRunner
namespace Poll

variable {ε α : Type} {S : Interface} {R : World ε → World ε → Prop} {id : JobId} {condition : Condition ε S}
  {policy : PollPolicy} {start left checks : Nat} {w v : World ε}

/-- A reading of the clock, and what each probe answered when a tick had passed. -/
structure Look where
  began : Nat
  answers : List (Except CapabilityError Bool)

/-- A probe says that its condition holds. -/
def saysYes : Except CapabilityError Bool → Bool
  | .ok b => b
  | .error _ => false

def Look.holds (l : Look) : Bool := l.answers.any saysYes

/-- How a wait ends, with the last readings of the clock. -/
inductive Ending where
  | confirmed (stop : Nat)
  | late (began stop : Nat)

/-- What a wait learns. -/
structure Wait where
  start : Nat
  looks : List Look
  ending : Ending

/-- How a wait may go on when clocks can show the time of `left` more looks and each look asks `width` probes.  It gives
up when less than a tick is left, and it ends with the first look that holds. -/
inductive Goes (policy : PollPolicy) (start width : Nat) : Nat → List Look → Ending → Prop where
  | late {left began : Nat} (stop : Nat)
    (h : (remaining (deadline? start policy.timeout) began).nanos < policy.pace.nanos) :
    Goes policy start width left [] (.late began stop)
  | confirmed {left : Nat} {l : Look} (stop : Nat)
    (h : policy.pace.nanos ≤ (remaining (deadline? start policy.timeout) l.began).nanos)
    (hwidth : l.answers.length = width) (hl : l.holds = true) : Goes policy start width (left + 1) [l] (.confirmed stop)
  | more {left : Nat} {l : Look} {looks : List Look} {ending : Ending}
    (h : policy.pace.nanos ≤ (remaining (deadline? start policy.timeout) l.began).nanos)
    (hwidth : l.answers.length = width) (hl : l.holds = false) (hnext : Goes policy start width left looks ending) :
    Goes policy start width (left + 1) (l :: looks) ending

/-! ## What a wait does -/

/-- Each probe with its answer. -/
def calls (condition : Condition ε S) (l : Look) : List (Probe ε S × Except CapabilityError Bool) :=
  condition.probes.zip l.answers

def outcomes (condition : Condition ε S) (l : Look) : List ProbeOutcome :=
  (calls condition l).map fun c => ⟨c.1.name, c.2⟩

/-- The lines about a look; numbers of looks wrap around. -/
def checkLines (condition : Condition ε S) (check : Nat) (l : Look) : List String :=
  (outcomes condition l).map (checkLine (.ofNat check))

def writes {κ : Type} (lines : List String) : List (Act κ) := lines.map fun line => .wrote (.log line)

def lookActs (condition : Condition ε S) (policy : PollPolicy) (check : Nat) (l : Look) :
    List (Act (Probe ε S × Except CapabilityError Bool)) :=
  [.read l.began, .slept policy.pace] ++ (calls condition l).map .called ++ writes (checkLines condition check l)

/-- Looks, the first of which has the given number. -/
def looksActs (condition : Condition ε S) (policy : PollPolicy) (check : Nat) (looks : List Look) :
    List (Act (Probe ε S × Except CapabilityError Bool)) :=
  (looks.zipIdx check).flatMap fun l => lookActs condition policy l.2 l.1

namespace Ending

/-- The line that closes a wait, and its result. -/
def closing (description : String) (start checks : Nat) : Ending → String × Except PollTimeout PollOutcome
  | confirmed stop =>
    let outcome : PollOutcome := ⟨.ofNat checks, .between start stop⟩
    (confirmedLine description outcome, .ok outcome)
  | late _ stop =>
    let timeout : PollTimeout := ⟨description, .between start stop, .ofNat checks⟩
    (timeout.message, .error timeout)

def acts {κ : Type} (policy : PollPolicy) (start : Nat) : Ending → List (Act κ)
  | confirmed stop => [.read stop]
  | late began stop => [.read began, .slept (remaining (deadline? start policy.timeout) began), .read stop]

end Ending

namespace Wait

def closing (description : String) (wait : Wait) : String × Except PollTimeout PollOutcome :=
  wait.ending.closing description wait.start wait.looks.length

def acts (condition : Condition ε S) (policy : PollPolicy) (wait : Wait) :
    List (Act (Probe ε S × Except CapabilityError Bool)) :=
  [.read wait.start, .wrote (.log (waitingLine policy condition.description))] ++
    looksActs condition policy 1 wait.looks ++ wait.ending.acts policy wait.start ++
    writes [(wait.closing condition.description).1]

end Wait

/-- A call of one of the probes came to an answer. -/
def Answers (R : World ε → World ε → Prop) (condition : Condition ε S) (c : Probe ε S × Except CapabilityError Bool)
    (w v : World ε) : Prop :=
  c.1 ∈ condition.probes ∧ c.1.check.Runs R w (some c.2) v

/-! ## Runs -/

theorem runs_runProbes (id : JobId) : ∀ {probes : List (Probe ε S)} {w v : World ε} {o : Option (List ProbeOutcome)},
    (∀ p ∈ probes, p ∈ condition.probes) → (Condition.runProbes probes).Runs R w o v →
      (∃ answers : List (Except CapabilityError Bool), answers.length = probes.length ∧
        o = some ((probes.zip answers).map fun c => ⟨c.1.name, c.2⟩) ∧
        Follows R id (Answers R condition) ((probes.zip answers).map .called) w v) ∨
      (o = none ∧ ∃ p ∈ probes, ∃ u t, p.check.Runs R u none t)
  | [], w, v, o, _, h => by
    obtain ⟨rfl, rfl⟩ := Routine.runs_pure.1 h
    exact .inl ⟨[], rfl, rfl, rfl⟩
  | p :: probes, w, v, o, hp, h => by
    rw [List.forall_mem_cons] at hp
    unfold Condition.runProbes at h
    obtain ⟨answer, u, hcall, h⟩ | ⟨ho, hcrash⟩ := Routine.runs_bind.1 h
    swap
    · exact .inr ⟨ho, p, List.mem_cons_self, w, v, hcrash⟩
    obtain ⟨outcomes, t, hrest, h⟩ | ⟨ho, hcrash⟩ := Routine.runs_bind.1 h
    · obtain ⟨answers, hlen, houtcomes, hfollows⟩ | ⟨ho, -⟩ := runs_runProbes id hp.2 hrest
      · obtain ⟨rfl, rfl⟩ := Routine.runs_pure.1 h
        cases houtcomes
        exact .inl ⟨answer :: answers, congrArg (· + 1) hlen, rfl, u, ⟨hp.1, hcall⟩, hfollows⟩
      · cases ho
    · obtain ⟨_, _, ho', -⟩ | ⟨-, q, hq, hcrash⟩ := runs_runProbes id hp.2 hcrash
      · cases ho'
      · exact .inr ⟨ho, q, List.mem_cons_of_mem _ hq, hcrash⟩

theorem any_isSatisfied {probes : List (Probe ε S)} {answers : List (Except CapabilityError Bool)}
    (h : answers.length = probes.length) :
    ((probes.zip answers).map fun c => (⟨c.1.name, c.2⟩ : ProbeOutcome)).any (·.isSatisfied) = answers.any saysYes := by
  have hsnd : (probes.zip answers).map Prod.snd = answers := List.map_snd_zip (Nat.le_of_eq h)
  have hany : ((probes.zip answers).map Prod.snd).any saysYes = answers.any saysYes := congrArg (·.any saysYes) hsnd
  rw [List.any_map] at hany ⊢
  exact hany

/-- A look, and the lines about it; only a probe crashes. -/
theorem of_look {β : Type} {o : Option β} (began check : Nat) {f : Bool × List ProbeOutcome → World.Action ε S β}
    {g : Bool → World.Action ε S β}
    (h : (condition.evaluate >>= f).Runs R w o v)
    (hf : ∀ seen, f seen = World.reportAll id (seen.2.map (checkLine (.ofNat check))) >>= fun _ => g seen.1) :
    (∃ l : Look, l.began = began ∧ l.answers.length = condition.probes.length ∧ ∃ u,
      Follows R id (Answers R condition) ((calls condition l).map .called ++ writes (checkLines condition check l)) w u ∧
        (g l.holds).Runs R u o v) ∨
    (o = none ∧ ∃ p ∈ condition.probes, ∃ u t, p.check.Runs R u none t) := by
  unfold Condition.evaluate at h
  rw [bind_assoc] at h
  obtain ⟨outcomes, u, hprobes, h⟩ | ⟨ho, hcrash⟩ := Routine.runs_bind.1 h
  · obtain ⟨answers, hlen, houtcomes, hcalls⟩ | ⟨ho, -⟩ := runs_runProbes id (fun _ hp => hp) hprobes
    · cases houtcomes
      rw [pure_bind, hf] at h
      obtain ⟨t, hlines, h⟩ := World.of_reportAll h
      dsimp only at h
      rw [any_isSatisfied hlen] at h
      exact .inl ⟨⟨began, answers⟩, rfl, hlen, t, follows_append.2 ⟨u, hcalls, hlines⟩, h⟩
    · cases ho
  · obtain ⟨_, _, ho', -⟩ | ⟨-, hcrash⟩ := runs_runProbes id (fun _ hp => hp) hcrash
    · cases ho'
    · exact .inr ⟨ho, hcrash⟩

theorem looksActs_cons (check : Nat) (l : Look) (looks : List Look) : looksActs condition policy check (l :: looks) =
    lookActs condition policy check l ++ looksActs condition policy (check + 1) looks := by
  unfold looksActs
  rw [List.zipIdx_cons, List.flatMap_cons]

/-- All that a wait does, from its first look on, follows from what it learns. -/
theorem runs_looksFrom : ∀ {left checks : Nat} {w : World ε} {o : Option (Except PollTimeout PollOutcome)},
    (looksFrom id condition policy.pace start (deadline? start policy.timeout) left (.ofNat checks)).Runs R w o v →
      (∃ looks ending, Goes policy start condition.probes.length left looks ending ∧
        Follows R id (Answers R condition) (looksActs condition policy (checks + 1) looks ++ ending.acts policy start ++
          writes [(ending.closing condition.description start (checks + looks.length)).1]) w v ∧
        o = some (ending.closing condition.description start (checks + looks.length)).2) ∨
      (o = none ∧ ∃ p ∈ condition.probes, ∃ u t, p.check.Runs R u none t)
  | left, checks, w, o, h => by
    unfold looksFrom at h
    obtain ⟨began, w₁, hread, h⟩ := World.of_now h
    dsimp only at h
    split at h
    case isTrue hleft =>
      unfold giveUp at h
      obtain ⟨w₂, hslept, h⟩ := World.of_sleep h
      obtain ⟨stop, w₃, hstop, h⟩ := World.of_now h
      obtain ⟨w₄, hclosing, h⟩ := World.of_report rfl h
      obtain ⟨rfl, rfl⟩ := Routine.runs_pure.1 h
      exact .inl ⟨[], .late began stop, .late stop hleft, ⟨w₁, hread, w₂, hslept, w₃, hstop, _, hclosing, rfl⟩, rfl⟩
    -- there is time for one more look
    case isFalse hleft =>
      have htime := Nat.le_of_not_lt hleft
      obtain ⟨w₂, hslept, h⟩ := World.of_sleep h
      cases left with
      | zero => exact absurd h Routine.not_runs_hang
      | succ left =>
        have hcount : UInt32.ofNat checks + 1 = .ofNat (checks + 1) := (UInt32.ofNat_add ..).symm
        dsimp only at h
        rw [hcount] at h
        obtain ⟨l, rfl, hwidth, w₃, hlook, h⟩ | hcrash := of_look (g := fun holds =>
          if holds then confirm id condition.description start (.ofNat (checks + 1))
          else looksFrom id condition policy.pace start (deadline? start policy.timeout) left (.ofNat (checks + 1)))
          began (checks + 1) h fun _ => rfl
        swap
        · exact .inr hcrash
        have hacts : Follows R id (Answers R condition) (lookActs condition policy (checks + 1) l) w w₃ := by
          unfold lookActs
          rw [List.append_assoc]
          exact ⟨w₁, hread, w₂, hslept, hlook⟩
        cases hl : l.holds with
        | true =>
          rw [hl, if_pos rfl] at h
          unfold confirm at h
          obtain ⟨stop, w₄, hstop, h⟩ := World.of_now h
          obtain ⟨w₅, hclosing, h⟩ := World.of_report rfl h
          obtain ⟨rfl, rfl⟩ := Routine.runs_pure.1 h
          refine .inl ⟨[l], .confirmed stop, .confirmed stop htime hwidth hl, ?_, rfl⟩
          rw [looksActs_cons, List.append_assoc, List.append_assoc]
          exact follows_append.2 ⟨w₃, hacts, w₄, hstop, _, hclosing, rfl⟩
        | false =>
          rw [hl, if_neg Bool.false_ne_true] at h
          obtain ⟨looks, ending, hgoes, hfollows, rfl⟩ | hcrash := runs_looksFrom h
          · have hlooks : checks + (looks.length + 1) = checks + 1 + looks.length := by omega
            refine .inl ⟨l :: looks, ending, .more htime hwidth hl hgoes, ?_, ?_⟩
            · rw [List.append_assoc] at hfollows
              rw [List.length_cons, hlooks, looksActs_cons, List.append_assoc, List.append_assoc]
              exact follows_append.2 ⟨w₃, hacts, hfollows⟩
            · rw [List.length_cons, hlooks]
          · exact .inr hcrash

/-- A wait led from the world `w` to the world `v`, learning what `wait` says; nothing but its acts was done, in this
order. -/
structure Course (R : World ε → World ε → Prop) (id : JobId) (condition : Condition ε S) (policy : PollPolicy)
    (w v : World ε) (result : Option (Except PollTimeout PollOutcome)) (wait : Wait) : Prop where
  goes : Goes policy wait.start condition.probes.length (mostLooks policy.pace) wait.looks wait.ending
  follows : Follows R id (Answers R condition) (wait.acts condition policy) w v
  result_eq : result = some (wait.closing condition.description).2

/-- **Every wait takes its course**, unless a probe crashes. -/
theorem exists_course {result : Option (Except PollTimeout PollOutcome)}
    (h : (run id condition policy).Runs R w result v) :
    (∃ wait, Course R id condition policy w v result wait) ∨
      (result = none ∧ ∃ p ∈ condition.probes, ∃ u t, p.check.Runs R u none t) := by
  unfold run at h
  obtain ⟨start, u, hstart, h⟩ := World.of_now h
  obtain ⟨t, hwaiting, h⟩ := World.of_report rfl h
  obtain ⟨looks, ending, hgoes, hfollows, ho⟩ | hcrash := @runs_looksFrom _ _ _ _ _ _ _ _ _ 0 _ _ h
  · rw [Nat.zero_add, Nat.zero_add] at hfollows
    rw [Nat.zero_add] at ho
    exact .inl ⟨⟨start, looks, ending⟩, hgoes, ⟨u, hstart, t, hwaiting, hfollows⟩, ho⟩
  · exact .inr hcrash

/-! ## Reading off the acts -/

theorem filterMap_writes {κ β : Type} (f : Act κ → Option β) (lines : List String) :
    (writes lines).filterMap f = lines.filterMap fun line => f (.wrote (.log line)) := List.filterMap_map

theorem filterMap_lookActs {β : Type} (f : Act (Probe ε S × Except CapabilityError Bool) → Option β) (check : Nat)
    (l : Look) : (lookActs condition policy check l).filterMap f =
      [.read l.began, .slept policy.pace].filterMap f ++ (calls condition l).filterMap (fun c => f (.called c)) ++
        (checkLines condition check l).filterMap fun line => f (.wrote (.log line)) := by
  unfold lookActs
  rw [List.filterMap_append, List.filterMap_append, List.filterMap_map, filterMap_writes]
  rfl

theorem filterMap_acts {β : Type} (f : Act (Probe ε S × Except CapabilityError Bool) → Option β) (wait : Wait) :
    (wait.acts condition policy).filterMap f =
      [.read wait.start, .wrote (.log (waitingLine policy condition.description))].filterMap f ++
        (wait.looks.zipIdx 1).flatMap (fun l => (lookActs condition policy l.2 l.1).filterMap f) ++
        (wait.ending.acts policy wait.start).filterMap f ++
        [(wait.closing condition.description).1].filterMap fun line => f (.wrote (.log line)) := by
  unfold Wait.acts looksActs
  rw [List.filterMap_append, List.filterMap_append, List.filterMap_append, List.filterMap_flatMap, filterMap_writes]

/-- Each look calls all probes. -/
theorem call?_acts (wait : Wait) :
    (wait.acts condition policy).filterMap Act.call? = wait.looks.flatMap (calls condition) := by
  have hlook (check : Nat) (l : Look) : (lookActs condition policy check l).filterMap Act.call? = calls condition l := by
    rw [filterMap_lookActs]
    simp [Act.call?]
  have hlooks : (wait.looks.zipIdx 1).flatMap (fun l => calls condition l.1) = wait.looks.flatMap (calls condition) := by
    rw [← List.flatMap_map, List.zipIdx_map_fst]
  rw [filterMap_acts]
  simp only [hlook, hlooks]
  cases wait.ending with
  | _ => simp [Act.call?, Ending.acts, List.filterMap_cons]

end Poll
end JobRunner
