import JobRunner.Proofs.PollCourse
/-!
# The transcript of a wait

What a wait leaves in the log of its job, and that it learns nothing from there: two waits that have read the same times
and been given the same answers cannot differ.
-/
namespace JobRunner
namespace Poll

variable {ε : Type} {S : Interface} {R : World ε → World ε → Prop} {id : JobId} {condition : Condition ε S}
  {policy : PollPolicy} {start left : Nat} {w v : World ε}

/-! ## Nothing else is learnt -/

/-- Something that a wait learns. -/
inductive Input where
  | time (nanos : Nat)
  | answer (a : Except CapabilityError Bool)

def Look.inputs (l : Look) : List Input := .time l.began :: l.answers.map .answer

def Ending.inputs : Ending → List Input
  | confirmed stop => [.time stop]
  | late began stop => [.time began, .time stop]

/-- What a wait learns, in order. -/
def Wait.inputs (wait : Wait) : List Input :=
  .time wait.start :: wait.looks.flatMap Look.inputs ++ wait.ending.inputs

/-- What an act learns. -/
def input? {κ : Type} : Act (κ × Except CapabilityError Bool) → Option Input
  | .read time => some (.time time)
  | .called c => some (.answer c.2)
  | .wrote _ | .slept _ => none

theorem Goes.width {width : Nat} {looks : List Look} {ending : Ending} (h : Goes policy start width left looks ending) :
    ∀ l ∈ looks, l.answers.length = width := by
  induction h with
  | late => nofun
  | confirmed stop htime hwidth hl => exact List.forall_mem_singleton.2 hwidth
  | more htime hwidth hl hnext ih => exact List.forall_mem_cons.2 ⟨hwidth, ih⟩

theorem input?_lookActs {check : Nat} {l : Look} (h : l.answers.length = condition.probes.length) :
    (lookActs condition policy check l).filterMap input? = l.inputs := by
  have hsnd : (calls condition l).map Prod.snd = l.answers := List.map_snd_zip (Nat.le_of_eq h)
  have hcalls : (calls condition l).filterMap (fun c => input? (.called c)) = l.answers.map .answer := by
    rw [← hsnd, List.map_map, ← List.filterMap_eq_map]
    rfl
  rw [filterMap_lookActs, hcalls]
  simp [input?, Look.inputs, List.filterMap_cons]

/-- What is learnt is learnt from the acts. -/
theorem input?_acts {wait : Wait} (h : Goes policy wait.start condition.probes.length left wait.looks wait.ending) :
    (wait.acts condition policy).filterMap input? = wait.inputs := by
  have hlooks : (wait.looks.zipIdx 1).flatMap (fun l => (lookActs condition policy l.2 l.1).filterMap input?) =
      wait.looks.flatMap Look.inputs := by
    have hlook : ∀ l ∈ wait.looks.zipIdx 1, (lookActs condition policy l.2 l.1).filterMap input? = l.1.inputs :=
      fun l hl => input?_lookActs (h.width l.1 (List.fst_mem_of_mem_zipIdx hl))
    rw [List.flatMap_congr hlook, ← List.flatMap_map, List.zipIdx_map_fst]
  rw [filterMap_acts, hlooks]
  unfold Wait.inputs
  cases wait.ending with
  | _ => simp [input?, Ending.acts, Ending.inputs, List.filterMap_cons]

/-- Looks that begin alike are alike. -/
theorem Look.inputs_append {l l' : Look} {inputs inputs' : List Input} (hwidth : l.answers.length = l'.answers.length)
    (h : l.inputs ++ inputs <+: l'.inputs ++ inputs') : l = l' ∧ inputs <+: inputs' := by
  obtain ⟨rest, h⟩ := h
  rw [List.append_assoc] at h
  have hlen : l.inputs.length = l'.inputs.length := by simp [Look.inputs, hwidth]
  obtain ⟨hl, hrest⟩ := List.append_inj h hlen
  unfold Look.inputs at hl
  rw [List.cons.injEq, Input.time.injEq] at hl
  have hanswers : l.answers = l'.answers := List.map_injective_iff.2 (fun _ _ => Input.answer.inj) hl.2
  refine ⟨?_, rest, hrest⟩
  cases l
  cases l'
  rw [Look.mk.injEq]
  exact ⟨hl.1, hanswers⟩

/-- **A wait that has learnt the same** goes on in the same way. -/
theorem Goes.unique {width : Nat} {looks looks' : List Look} {ending ending' : Ending}
    (h : Goes policy start width left looks ending) (h' : Goes policy start width left looks' ending')
    (hp : looks.flatMap Look.inputs ++ ending.inputs <+: looks'.flatMap Look.inputs ++ ending'.inputs) :
    looks = looks' ∧ ending = ending' := by
  induction h generalizing looks' ending' with
  | late stop hleft =>
    cases h' with
    | late stop' hleft' =>
      obtain ⟨hbegan, hp⟩ := List.cons_prefix_cons.1 hp
      obtain ⟨hstop, -⟩ := List.cons_prefix_cons.1 hp
      cases hbegan
      cases hstop
      exact ⟨rfl, rfl⟩
    | confirmed _ htime | more htime =>
      cases (List.cons_prefix_cons.1 hp).1
      exact absurd hleft (Nat.not_lt.2 htime)
  | confirmed stop htime hwidth hl =>
    cases h' with
    | late stop' hleft' =>
      cases (List.cons_prefix_cons.1 hp).1
      exact absurd hleft' (Nat.not_lt.2 htime)
    | confirmed stop' _ hwidth' =>
      rw [List.flatMap_singleton, List.flatMap_singleton] at hp
      obtain ⟨rfl, hrest⟩ := Look.inputs_append (hwidth.trans hwidth'.symm) hp
      cases (List.cons_prefix_cons.1 hrest).1
      exact ⟨rfl, rfl⟩
    | more _ hwidth' hl' =>
      rw [List.flatMap_singleton, List.flatMap_cons, List.append_assoc] at hp
      obtain ⟨rfl, -⟩ := Look.inputs_append (hwidth.trans hwidth'.symm) hp
      rw [hl] at hl'
      cases hl'
  | more htime hwidth hl hnext ih =>
    cases h' with
    | late stop' hleft' =>
      cases (List.cons_prefix_cons.1 hp).1
      exact absurd hleft' (Nat.not_lt.2 htime)
    | confirmed stop' _ hwidth' hl' =>
      rw [List.flatMap_singleton, List.flatMap_cons, List.append_assoc] at hp
      obtain ⟨rfl, -⟩ := Look.inputs_append (hwidth.trans hwidth'.symm) hp
      rw [hl] at hl'
      cases hl'
    | more _ hwidth' _ hnext' =>
      rw [List.flatMap_cons, List.flatMap_cons, List.append_assoc, List.append_assoc] at hp
      obtain ⟨rfl, hrest⟩ := Look.inputs_append (hwidth.trans hwidth'.symm) hp
      obtain ⟨rfl, rfl⟩ := ih hnext' hrest
      exact ⟨rfl, rfl⟩

/-! ## The transcript -/

/-- What is said of the answer of a probe. -/
def verdict : Except CapabilityError Bool → String
  | .ok true => ": satisfied"
  | .ok false => ": not yet"
  | .error e => ": error: " ++ e.message

/-- The last line of a wait, after so many looks. -/
def Ending.line (description : String) (start looks : Nat) : Ending → String
  | confirmed stop =>
    description ++ " confirmed after " ++ Nat.repr (looks % 2 ^ 32) ++ " check(s) in " ++ (Duration.between start stop).text
  | late _ stop =>
    "timed out after " ++ (Duration.between start stop).text ++ " waiting for " ++ description ++ " (" ++
      Nat.repr (looks % 2 ^ 32) ++ " checks)"

/-- The lines about a look: one for each probe. -/
def Look.lines (condition : Condition ε S) (check : Nat) (l : Look) : List String :=
  (condition.probes.zip l.answers).map fun c =>
    "check " ++ Nat.repr (check % 2 ^ 32) ++ ": " ++ c.1.name ++ verdict c.2

/-- The lines of a wait: one that it has begun, those about its looks, and one that it is over.  Looks are numbered from
1, and their numbers wrap around. -/
def Wait.lines (condition : Condition ε S) (policy : PollPolicy) (wait : Wait) : List String :=
  ("waiting up to " ++ policy.timeout.text ++ " for " ++ condition.description ++ " (every " ++ policy.pace.text ++
      ")") :: (wait.looks.zipIdx 1).flatMap (fun l => l.1.lines condition l.2) ++
    [wait.ending.line condition.description wait.start wait.looks.length]

theorem checkLine_eq (check : Nat) (probe : String) (answer : Except CapabilityError Bool) :
    checkLine (.ofNat check) ⟨probe, answer⟩ = "check " ++ Nat.repr (check % 2 ^ 32) ++ ": " ++ probe ++ verdict answer := by
  unfold checkLine ProbeOutcome.message
  rw [UInt32.toNat_ofNat']
  cases answer with
  | ok b => cases b with | _ => exact String.append_assoc.symm
  | error e =>
    dsimp only [verdict]
    rw [String.append_assoc, String.append_assoc, String.append_assoc, String.append_assoc, String.append_assoc,
      String.append_assoc]

theorem checkLines_eq (check : Nat) (l : Look) : checkLines condition check l = l.lines condition check := by
  unfold checkLines outcomes calls Look.lines
  rw [List.map_map]
  exact List.map_congr_left fun c _ => checkLine_eq check c.1.name c.2

theorem Ending.fst_closing (description : String) (start looks : Nat) (ending : Ending) :
    (ending.closing description start looks).1 = ending.line description start looks := by
  cases ending with
  | confirmed stop =>
    dsimp only [closing, line, confirmedLine]
    rw [UInt32.toNat_ofNat']
  | late began stop =>
    dsimp only [closing, line, PollTimeout.message]
    rw [UInt32.toNat_ofNat']

theorem Wait.lines_eq (wait : Wait) : wait.lines condition policy =
    waitingLine policy condition.description :: (wait.looks.zipIdx 1).flatMap (fun l => checkLines condition l.2 l.1) ++
      [(wait.closing condition.description).1] := by
  unfold lines closing
  simp only [checkLines_eq, Ending.fst_closing]
  rfl

/-- Nothing is written but the lines. -/
theorem write?_acts (wait : Wait) :
    (wait.acts condition policy).filterMap Act.write? = (wait.lines condition policy).map .log := by
  have hlook (check : Nat) (l : Look) :
      (lookActs condition policy check l).filterMap Act.write? = (checkLines condition check l).map .log := by
    rw [filterMap_lookActs]
    simp [Act.write?]
  rw [filterMap_acts, Wait.lines_eq]
  simp only [hlook]
  cases wait.ending with
  | _ => simp [Act.write?, Ending.acts, List.filterMap_cons, List.map_flatMap]

theorem Look.holds_iff (l : Look) : l.holds = true ↔ .ok true ∈ l.answers := by
  unfold holds
  rw [List.any_eq_true]
  constructor
  · rintro ⟨a, ha, hyes⟩
    cases a with
    | ok b =>
      cases b with
      | true => exact ha
      | false => cases hyes
    | error e => cases hyes
  · exact fun h => ⟨_, h, rfl⟩

/-- What is to be said of a wait, of the lines that it writes and of what it calls. -/
structure Transcript (R : World ε → World ε → Prop) (id : JobId) (condition : Condition ε S) (policy : PollPolicy)
    (w v : World ε) (result : Option (Except PollTimeout PollOutcome)) (wait : Wait) : Prop
    extends Course R id condition policy w v result wait where
  calls : (wait.acts condition policy).filterMap Act.call? = wait.looks.flatMap (calls condition)
  /-- A look calls all probes in order, and holds if any of them says so. -/
  looks : ∀ l ∈ wait.looks, (Poll.calls condition l).map Prod.fst = condition.probes ∧
    (Poll.calls condition l).map Prod.snd = l.answers ∧ (l.holds = true ↔ .ok true ∈ l.answers)
  writes : (wait.acts condition policy).filterMap Act.write? = (wait.lines condition policy).map .log
  learns : (wait.acts condition policy).filterMap input? = wait.inputs
  /-- No wait for the condition goes another way after the same inputs. -/
  determined : ∀ wait' : Wait, Goes policy wait'.start condition.probes.length (mostLooks policy.pace) wait'.looks wait'.ending →
    (wait.inputs <+: wait'.inputs ∨ wait'.inputs <+: wait.inputs) → wait' = wait
  others : ∀ x, x ≠ id → World.Spares x R → (∀ c, World.Spares x (Answers R condition c)) →
    v.registry.get? x = w.registry.get? x
  /-- An open job that is left alone otherwise gains the lines, and nothing else becomes of it. -/
  gains : World.Spares id R → (∀ c, World.Spares id (Answers R condition c)) → ∀ r, w.registry.get? id = some r →
    r.status.isFinal = false → ∃ r', v.registry.get? id = some r' ∧
      r' = { r with logs := r'.logs, updatedAt := r'.updatedAt } ∧
      r'.logMessages = r.logMessages ++ wait.lines condition policy
  drops : World.Spares id R → (∀ c, World.Spares id (Answers R condition c)) →
    (∀ r, w.registry.get? id = some r → r.status.isFinal = true) → v.registry.get? id = w.registry.get? id

theorem Wait.unique {width : Nat} {wait wait' : Wait} (h : Goes policy wait.start width left wait.looks wait.ending)
    (h' : Goes policy wait'.start width left wait'.looks wait'.ending) (hp : wait.inputs <+: wait'.inputs) :
    wait = wait' := by
  obtain ⟨start, looks, ending⟩ := wait
  obtain ⟨start', looks', ending'⟩ := wait'
  obtain ⟨hstart, hp⟩ := List.cons_prefix_cons.1 hp
  cases hstart
  obtain ⟨rfl, rfl⟩ := Goes.unique h h' hp
  rfl

/-- **The transcript of a wait.**  Whatever the others do, a wait has a transcript, unless a probe crashes. -/
theorem wait_transcript (R : World ε → World ε → Prop) (id : JobId) (condition : Condition ε S) (policy : PollPolicy)
    (w v : World ε) (result : Option (Except PollTimeout PollOutcome))
    (h : (run id condition policy).Runs R w result v) :
    (∃ wait, Transcript R id condition policy w v result wait) ∨
      (result = none ∧ ∃ p ∈ condition.probes, ∃ u t, p.check.Runs R u none t) := by
  obtain ⟨wait, hcourse⟩ | hcrash := exists_course h
  swap
  · exact .inr hcrash
  have hgoes := hcourse.goes
  have hfollows := hcourse.follows
  have hwrites : (wait.acts condition policy).filterMap Act.write? = _ := write?_acts wait
  have hreports : ∀ c ∈ (wait.acts condition policy).filterMap Act.write?, c.isReport = true := by
    rw [hwrites]
    exact List.forall_mem_map.2 fun _ _ => rfl
  refine .inl ⟨wait, ?_⟩
  exact {
    toCourse := hcourse
    calls := call?_acts wait
    looks := fun l hl => by
      have hwidth := hgoes.width l hl
      exact ⟨List.map_fst_zip (Nat.le_of_eq hwidth.symm), List.map_snd_zip (Nat.le_of_eq hwidth), l.holds_iff⟩
    writes := hwrites
    learns := input?_acts hgoes
    determined := fun wait' hgoes' hp =>
      hp.elim (fun hp => (Wait.unique hgoes hgoes' hp).symm) (Wait.unique hgoes' hgoes)
    others := fun x hx hR hcalls => hfollows.spares hR hcalls hx _ _ _
    gains := fun hR hcalls r hr ho => by
      obtain ⟨r', hr', htakes⟩ := hfollows.takes hR hcalls hreports hr ho
      have hlines := (htakes.reports hreports ho).2
      rw [hwrites] at htakes hlines
      rw [List.filterMap_map] at hlines
      refine ⟨r', hr', htakes.logs (List.forall_mem_map.2 fun _ _ => rfl), hlines.trans ?_⟩
      exact congrArg (r.logMessages ++ ·) List.filterMap_some
    drops := fun hR hcalls hr => hfollows.dropped hR hcalls hr }

/-- Of two probes one fails and the other one says yes. -/
def twoProbes : Condition Unit .none := ⟨"ready", [⟨"status", pure (.error (.other "x"))⟩, ⟨"scan", pure (.ok true)⟩]⟩

theorem wait_transcript_two_probes : ∃ v wait, Transcript (Routine.Alone World.pass?) ⟨"job"⟩ twoProbes
    ⟨.ofMillis 30, .ofMillis 5⟩ { env := () } v (some (.ok ⟨1, .ofMillis 5⟩)) wait := by
  have hperformed : ((run ⟨"job"⟩ twoProbes ⟨.ofMillis 30, .ofMillis 5⟩).perform World.pass? { env := () }).1 =
      .returned (.ok ⟨1, .ofMillis 5⟩) := by rfl
  generalize hp : (run ⟨"job"⟩ twoProbes ⟨.ofMillis 30, .ofMillis 5⟩).perform World.pass? { env := () } = p
    at hperformed
  obtain ⟨ending, v⟩ := p
  cases hperformed
  obtain ⟨wait, h⟩ | ⟨ho, -⟩ := wait_transcript _ _ _ _ _ _ _ (Routine.runs_of_perform hp)
  · exact ⟨v, wait, h⟩
  · cases ho

end Poll
end JobRunner
