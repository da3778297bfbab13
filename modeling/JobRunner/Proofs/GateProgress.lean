import JobRunner.Proofs.GateTable
import JobRunner.Proofs.SingleFlight
/-!
# Gates hold nobody up for good

The list of gates is exact in every run: it has the keys whose gates some call is at, and counts these calls.  A call
waits only for another call for its key, which has its turn at the gate and is not held up itself; so as long as
builders report, whatever they report, calls go on until all have returned, and no gate is left.

A builder that crashes is a builder that reports.  Its call gives back its turn and leaves, with nobody in its way, and
does not stand in the way of any other call from then on.
-/
namespace JobRunner

/-- How many steps a call has to take, the report of its builder among them, if it finds no client. -/
def CacheStage.stepsLeft {γ ε : Type} : CacheStage γ ε → Nat
  | arriving => 9
  | entering => 8
  | queueing _ => 7
  | rechecking _ => 6
  | missing _ => 5
  | building _ _ => 4
  | keeping _ _ _ => 3
  | releasing _ _ => 2
  | leaving _ _ => 1
  | returned _ => 0

namespace Table

variable {κ β : Type} [DecidableEq κ]

theorem eq_empty {t : Table κ β} (h : ∀ k, t.get? k = none) : t = .empty := by
  refine Table.ext (List.eq_nil_iff_forall_not_mem.2 fun e he => ?_)
  have hsome := h e.1
  rw [get?_eq_some_iff.2 he] at hsome
  cases hsome

theorem exists_of_sum_pos {f : κ → β → Nat} {t : Table κ β} (h : 0 < t.sum f) :
    ∃ k v, t.get? k = some v ∧ 0 < f k v := by
  refine Classical.byContradiction fun hno => Nat.ne_of_gt h (sum_eq_zero fun k v hk => ?_)
  refine Nat.eq_zero_of_not_pos fun hpos => hno ⟨k, v, hk, hpos⟩

end Table

namespace ClientCache

variable {γ ε : Type} {c d : ClientCache γ ε} {new es : List (CacheEvent γ ε)} {n g now : Nat} {key : CacheKey}
  {stage next : CacheStage γ ε} {call : CacheCall γ ε}

/-! ## The list as a count of calls -/

/-- The number of calls for a key that are at a gate. -/
def visitors (key : CacheKey) (c : ClientCache γ ε) : Nat :=
  c.calls.sum fun _ call => (decide (call.key = key) && call.stage.isInside).toNat

/-- The calls at a listed gate are those for its key. -/
theorem Gated.gate?_eq_iff (h : c.Gated) (hl : c.listed.get? key = some g) (hn : c.calls.get? n = some call) :
    call.stage.gate? = some g ↔ call.key = key ∧ call.stage.isInside = true := by
  constructor
  · intro hg
    exact ⟨h.apart call.key key g (h.entered n call g hn hg) hl, by rw [CacheStage.isInside, hg]; rfl⟩
  · rintro ⟨rfl, hinside⟩
    obtain ⟨g', hg'⟩ := Option.isSome_iff_exists.1 hinside
    rw [hg', ← hl]
    exact (h.entered n call g' hn hg').symm

theorem Gated.inside_eq_visitors (h : c.Gated) (hl : c.listed.get? key = some g) : c.inside g = c.visitors key := by
  have hone : ∀ n call, c.calls.get? n = some call →
      weight g call = (decide (call.key = key) && call.stage.isInside).toNat := by
    intro n call hn
    rw [weight, decide_eq_decide.2 (h.gate?_eq_iff hl hn), Bool.decide_and, Bool.decide_coe]
  exact Nat.le_antisymm (Table.sum_le_sum fun n call hn => Nat.le_of_eq (hone n call hn))
    (Table.sum_le_sum fun n call hn => Nat.le_of_eq (hone n call hn).symm)

/-- What the list of gates tells of the calls. -/
structure GatesExact (c : ClientCache γ ε) : Prop where
  /-- A key is on the list while some call for it has entered its gate and not left it. -/
  listed : ∀ key, c.listed.contains key = true ↔
    ∃ n call, c.calls.get? n = some call ∧ call.key = key ∧ call.stage.isInside = true
  /-- Such a call is at the gate that is listed for its key. -/
  same : ∀ n call g, c.calls.get? n = some call → call.stage.gate? = some g → c.listed.get? call.key = some g
  /-- The list is one more owner. -/
  owners : ∀ key g, c.listed.get? key = some g →
    ∃ gate, c.gates.get? g = some gate ∧ gate.owners = c.visitors key + 1
  one : ∀ m n call call', c.calls.get? m = some call → c.calls.get? n = some call' → call.key = call'.key →
    call.stage.hasTurn = true → call'.stage.hasTurn = true → m = n
  ended : (∀ n call, c.calls.get? n = some call → ∃ answer, call.stage = .returned answer) →
    c.listed = .empty ∧ c.gates = .empty

theorem Tight.gatesExact (h : c.Tight) (hg : c.Gated) : c.GatesExact := by
  have hlisted : ∀ key, c.listed.contains key = true ↔
      ∃ n call, c.calls.get? n = some call ∧ call.key = key ∧ call.stage.isInside = true := by
    intro key
    rw [Table.contains, Option.isSome_iff_exists]
    constructor
    · rintro ⟨g, hl⟩
      obtain ⟨n, call, hn, hw⟩ := Table.exists_of_sum_pos (h.used key g hl)
      have hat : call.stage.gate? = some g := by
        refine Classical.byContradiction fun hne => ?_
        rw [weight_of_ne hne] at hw
        exact Nat.lt_irrefl 0 hw
      exact ⟨n, call, hn, (hg.gate?_eq_iff hl hn).1 hat⟩
    · rintro ⟨n, call, hn, rfl, hinside⟩
      obtain ⟨g, hat⟩ := Option.isSome_iff_exists.1 hinside
      exact ⟨g, hg.entered n call g hn hat⟩
  refine ⟨hlisted, hg.entered, fun key g hl => ?_, fun m n call call' hm hn => hg.one hm hn, fun hall => ?_⟩
  · rw [← hg.inside_eq_visitors hl]
    exact hg.owned key g hl
  · have hfree : ∀ key, c.listed.get? key = none := by
      intro key
      rw [← Option.not_isSome_iff_eq_none]
      intro hsome
      obtain ⟨n, call, hn, -, hinside⟩ := (hlisted key).1 hsome
      obtain ⟨answer, hs⟩ := hall n call hn
      rw [hs] at hinside
      cases hinside
    refine ⟨Table.eq_empty hfree, Table.eq_empty fun g => ?_⟩
    cases hgate : c.gates.get? g with
    | none => rfl
    | some gate =>
      obtain ⟨key, hl⟩ := h.listed g gate hgate
      rw [hfree key] at hl
      cases hl

/-! ## Going on -/

/-- The call can take its next step at any time, or its client is being built. -/
def Unhindered (n : Nat) (c : ClientCache γ ε) : Prop := (∀ now, (c.step n now).isSome = true) ∨ c.isBuilding n = true

/-- A call that has not returned is held up by whoever has the turn at its gate, and by nobody else. -/
theorem unhindered_or_queueing (hn : c.calls.get? n = some ⟨key, stage⟩) (hopen : ∀ answer, stage ≠ .returned answer) :
    c.Unhindered n ∨ ∃ g m, stage = .queueing g ∧ (c.gates.get? g).bind (·.holder) = some m := by
  have hsteps : ∀ d : Nat → ClientCache γ ε, (∀ now, c.step n now = some (d now)) → c.Unhindered n :=
    fun d hd => .inl fun now => by rw [hd]; rfl
  cases stage with
  | queueing g =>
    cases hh : (c.gates.get? g).bind (·.holder) with
    | some m => exact .inr ⟨g, m, rfl, hh⟩
    | none =>
      refine .inl (hsteps (fun _ => (c.setHolder g (some n)).put n key (.rechecking g)) fun now => ?_)
      simp [step, hn, hh]
  | building g epoch =>
    refine .inl (.inr ?_)
    rw [isBuilding, stage?, hn]
    rfl
  | returned answer => exact absurd rfl (hopen answer)
  | _ => exact .inl (.inl fun now => by simp [step, hn])

/-- A call waits for another one for its key, which has the turn. -/
theorem Tight.exists_holder {m : Nat} (h : c.Tight) (hg : c.Gated) (hn : c.calls.get? n = some ⟨key, .queueing g⟩)
    (hholder : (c.gates.get? g).bind (·.holder) = some m) :
    ∃ call, c.calls.get? m = some call ∧ call.key = key ∧ call.stage.hasTurn = true := by
  obtain ⟨gate, hgate, hm⟩ := Option.bind_eq_some_iff.1 hholder
  obtain ⟨call, hcall, hat, hturn⟩ := h.turn g gate m hgate hm
  have hkey : call.key = key := ((hg.gate?_eq_iff (hg.entered n _ g hn rfl) hcall).1 hat).1
  exact ⟨call, hcall, hkey, hturn⟩

/-- **While no call for its key has the turn, a call can take its next step.** -/
theorem Tight.step_isSome (h : c.Tight) (hg : c.Gated) (hn : c.calls.get? n = some ⟨key, stage⟩)
    (hopen : ∀ answer, stage ≠ .returned answer)
    (hfree : ∀ m call, c.calls.get? m = some call → call.key = key → call.stage.hasTurn = false) (now : Nat) :
    (c.step n now).isSome = true := by
  rcases unhindered_or_queueing hn hopen with (hsteps | hbuilding) | ⟨g, m, rfl, hholder⟩
  · exact hsteps now
  · have hturn := hfree n _ hn rfl
    rw [isBuilding, stage?, hn] at hbuilding
    cases stage with
    | building => cases hturn
    | _ => cases hbuilding
  · obtain ⟨call, hcall, hkey, hturn⟩ := h.exists_holder hg hn hholder
    rw [hfree m call hcall hkey] at hturn
    cases hturn

/-- **A call that is held up** waits for another one for its key, which is not. -/
theorem Tight.unhindered (h : c.Tight) (hg : c.Gated) (hn : c.calls.get? n = some call)
    (hopen : ∀ answer, call.stage ≠ .returned answer) : c.Unhindered n ∨ ∃ m call', c.calls.get? m = some call' ∧
      call'.key = call.key ∧ call'.stage.hasTurn = true ∧ c.Unhindered m := by
  obtain ⟨key, stage⟩ := call
  refine (unhindered_or_queueing hn hopen).imp_right ?_
  rintro ⟨g, m, rfl, hholder⟩
  obtain ⟨⟨key', stage'⟩, hcall, hkey, hturn⟩ := h.exists_holder hg hn hholder
  refine ⟨m, _, hcall, hkey, hturn, ?_⟩
  refine (unhindered_or_queueing hcall ?_).resolve_right ?_
  · rintro answer rfl
    cases hturn
  · rintro ⟨g', m', rfl, -⟩
    cases hturn

/-- The action is a step of a call or the report of its builder. -/
def Action.isOfCall : Action γ ε → Bool
  | .step _ _ | .report _ _ => true
  | _ => false

/-- How many steps all calls together have to take at most. -/
def stepsLeft (c : ClientCache γ ε) : Nat := c.calls.sum fun _ call => call.stage.stepsLeft

theorem stepsLeft_lt (hn : c.calls.get? n = some ⟨key, stage⟩) (hd : d.calls = c.calls.insert n ⟨key, next⟩)
    (hlt : next.stepsLeft < stage.stepsLeft) : d.stepsLeft < c.stepsLeft := by
  have hs := Table.sum_insert_of_some hn (fun _ call => call.stage.stepsLeft) ⟨key, next⟩
  unfold stepsLeft
  rw [hd]
  dsimp only at hs
  omega

/-- **Each step of a call and each report takes it nearer to its end.** -/
theorem stepsLeft_perform {a : Action γ ε} (ha : a.isOfCall = true) (h : c.perform a = some (new, d)) :
    d.stepsLeft < c.stepsLeft := by
  cases a with
  | arrive | invalidate | cleanup => cases ha
  | report n answer =>
    simp only [perform, Option.map_eq_some_iff] at h
    obtain ⟨_, h, hd⟩ := h
    cases hd
    simp only [report, Option.bind_eq_bind, Option.bind_eq_some_iff] at h
    obtain ⟨⟨key, stage⟩, hn, h⟩ := h
    cases stage with
    | building g epoch =>
      cases answer with
      | client | failed | crashed =>
        cases h
        exact stepsLeft_lt hn rfl (by simp [CacheStage.stepsLeft])
    | _ => cases h
  | step n now =>
    simp only [perform, Option.map_eq_some_iff] at h
    obtain ⟨_, h, hd⟩ := h
    cases hd
    simp only [step, Option.bind_eq_bind, Option.bind_eq_some_iff] at h
    obtain ⟨⟨key, stage⟩, hn, h⟩ := h
    cases stage with
    | arriving | rechecking =>
      cases h
      refine stepsLeft_lt hn rfl ?_
      rcases (c.store.lookup key now).1 with _ | client
      · simp [CacheStage.stepsLeft]
      · simp [CacheStage.stepsLeft]
    | entering =>
      cases h
      obtain ⟨g, hcalls⟩ := calls_enter c n key
      exact stepsLeft_lt hn hcalls (by simp [CacheStage.stepsLeft])
    | queueing g =>
      dsimp only at h
      cases hg : (c.gates.get? g).bind (·.holder) with
      | some m => rw [hg] at h; cases h
      | none =>
        rw [hg] at h
        cases h
        exact stepsLeft_lt hn (calls_setHolder ..) (by simp [CacheStage.stepsLeft])
    | missing | keeping =>
      cases h
      exact stepsLeft_lt hn rfl (by simp [CacheStage.stepsLeft])
    | releasing =>
      cases h
      exact stepsLeft_lt hn (calls_setHolder ..) (by simp [CacheStage.stepsLeft])
    | leaving =>
      cases h
      exact stepsLeft_lt hn (calls_leave ..) (by simp [CacheStage.stepsLeft])
    | building | returned => cases h

theorem length_add_stepsLeft_le : ∀ {as : List (Action γ ε)} {c d : ClientCache γ ε} {es : List (CacheEvent γ ε)},
    (∀ a ∈ as, a.isOfCall = true) → follow as c = some (es, d) → as.length + d.stepsLeft ≤ c.stepsLeft
  | [], c, d, es, _, h => by
    cases h
    exact Nat.le_of_eq (Nat.zero_add _)
  | a :: as, c, d, es, ha, h => by
    simp only [follow, Option.bind_eq_bind, Option.bind_eq_some_iff] at h
    obtain ⟨⟨new, d'⟩, hfirst, ⟨es', e⟩, hrest, he⟩ := h
    cases he
    have hlt := stepsLeft_perform (ha a List.mem_cons_self) hfirst
    have hle := length_add_stepsLeft_le (fun a' ha' => ha a' (List.mem_cons_of_mem _ ha')) hrest
    rw [List.length_cons]
    dsimp only at hle ⊢
    omega

theorem report_isSome (h : c.isBuilding n = true) (answer : CacheAnswer γ ε) : (c.report n answer).isSome = true := by
  unfold isBuilding stage? at h
  cases hn : c.calls.get? n with
  | none => rw [hn] at h; cases h
  | some call =>
    obtain ⟨key, stage⟩ := call
    rw [hn] at h
    cases stage with
    | building g epoch => cases answer <;> simp [report, hn]
    | _ => cases h

/-- When no call can take a step and no builder can report, all calls have returned. -/
theorem Tight.returned_of_stuck (h : c.Tight) (hg : c.Gated)
    (hstuck : ∀ a : Action γ ε, a.isOfCall = true → c.perform a = none) (hn : c.calls.get? n = some call) :
    ∃ answer, call.stage = .returned answer := by
  have hhindered : ∀ m, ¬ c.Unhindered m := by
    rintro m (hsteps | hbuilding)
    · have hsome := hsteps 0
      rw [Option.map_eq_none_iff.1 (hstuck (.step m 0) rfl)] at hsome
      cases hsome
    · have hsome := report_isSome hbuilding .crashed
      rw [Option.map_eq_none_iff.1 (hstuck (.report m .crashed) rfl)] at hsome
      cases hsome
  refine Classical.byContradiction fun hopen => ?_
  rcases h.unhindered hg hn fun answer hs => hopen ⟨answer, hs⟩ with hmoves | ⟨m, call', -, -, -, hmoves⟩
  · exact hhindered n hmoves
  · exact hhindered m hmoves

/-! ## After a crash -/

theorem answer?_insert {m : Nat} {k : CacheKey} {st : CacheStage γ ε} {answer : CacheAnswer γ ε}
    (hn : c.calls.get? n = some ⟨key, stage⟩) (ha : stage.answer? = some answer)
    (hm : c.calls.get? m = some ⟨k, st⟩) (hd : d.calls = c.calls.insert m ⟨k, next⟩)
    (hkeep : st.answer? = some answer → next.answer? = some answer) :
    ∃ stage', d.calls.get? n = some ⟨key, stage'⟩ ∧ stage'.answer? = some answer := by
  rw [hd]
  by_cases he : m = n
  · subst he
    rw [hn] at hm
    cases hm
    exact ⟨next, Table.get?_insert_self .., hkeep ha⟩
  · exact ⟨stage, (Table.get?_insert_ne he).trans hn, ha⟩

/-- A call that has its answer keeps it. -/
theorem answer?_move {answer : CacheAnswer γ ε} (hg : c.Gated) (hn : c.calls.get? n = some ⟨key, stage⟩)
    (ha : stage.answer? = some answer) (m : Move c new d) :
    ∃ stage', d.calls.get? n = some ⟨key, stage'⟩ ∧ stage'.answer? = some answer := by
  cases m with
  | arrive k =>
    have hne : c.callsMade ≠ n := by
      rintro rfl
      rw [hg.get?_callsMade] at hn
      cases hn
    exact ⟨stage, (Table.get?_insert_ne hne).trans hn, ha⟩
  | hit hm hl hs | miss hm hl hs =>
    rcases hs with ⟨rfl, -⟩ | ⟨g, rfl, -⟩
    · exact answer?_insert hn ha hm rfl nofun
    · exact answer?_insert hn ha hm rfl nofun
  | @enter m k hm =>
    obtain ⟨g, hcalls⟩ := calls_enter c m k
    exact answer?_insert hn ha hm hcalls nofun
  | turn hm => exact answer?_insert hn ha hm (calls_setHolder ..) nofun
  | ask hm | built hm | keep hm | discard hm => exact answer?_insert hn ha hm rfl nofun
  | release hm => exact answer?_insert hn ha hm (calls_setHolder ..) id
  | leave hm => exact answer?_insert hn ha hm (calls_leave ..) id
  | invalidate | cleanup => exact ⟨stage, hn, ha⟩

theorem Run.answer? {answer : CacheAnswer γ ε} (run : Run c es d) (hg : c.Gated)
    (hn : c.calls.get? n = some ⟨key, stage⟩) (ha : stage.answer? = some answer) :
    ∃ stage', d.calls.get? n = some ⟨key, stage'⟩ ∧ stage'.answer? = some answer := by
  induction run with
  | refl => exact ⟨stage, hn, ha⟩
  | tail a before last ih =>
    obtain ⟨stage', hn', ha'⟩ := ih
    exact answer?_move (before.gated hg) hn' ha' (move_of_perform last)

/-- A call that has its answer has returned, or can take its next step at any time. -/
theorem returned_or_step {answer : CacheAnswer γ ε} (hn : c.calls.get? n = some ⟨key, stage⟩)
    (ha : stage.answer? = some answer) : c.answer? n = some answer ∨ ∀ now, (c.step n now).isSome = true := by
  cases stage with
  | releasing | leaving => exact .inr fun now => by simp [step, hn]
  | returned a =>
    refine .inl ?_
    rw [ClientCache.answer?, stage?, hn]
    exact ha
  | _ => cases ha

/-- **Gates are exact, and hold nobody up for good.**  In every run the list of gates is exact.  A call that has not
returned can go on while no call for its key has the turn; at all times it can go on or is at its builder, or it waits
for another call for its key of which that is true.  So calls take their steps and builders report, which they can do
only so many times before other calls arrive, until nothing is left to do; then all calls have returned, and there are
no gates.  A call whose builder has crashed has returned, or can go on at any time, whatever else has happened since. -/
theorem gates_are_exact {config : CacheConfig} (run : Run (ofConfig config) es c) :
    c.GatesExact ∧
    (∀ n call, c.calls.get? n = some call → (∀ answer, call.stage ≠ .returned answer) →
      (∀ m call', c.calls.get? m = some call' → call'.key = call.key → call'.stage.hasTurn = false) →
      ∀ now, (c.step n now).isSome = true) ∧
    (∀ n call, c.calls.get? n = some call → (∀ answer, call.stage ≠ .returned answer) →
      c.Unhindered n ∨ ∃ m call', c.calls.get? m = some call' ∧ call'.key = call.key ∧ call'.stage.hasTurn = true ∧
        c.Unhindered m) ∧
    (∀ as es' d, (∀ a ∈ as, Action.isOfCall a = true) → follow as c = some (es', d) →
      as.length ≤ c.stepsLeft ∧ ((∀ a, Action.isOfCall a = true → d.perform a = none) →
        (∀ n call, d.calls.get? n = some call → ∃ answer, call.stage = .returned answer) ∧
          d.listed = .empty ∧ d.gates = .empty)) ∧
    ∀ n d es' e, c.report n .crashed = some d → Run d es' e →
      e.answer? n = some .crashed ∨ ∀ now, (e.step n now).isSome = true := by
  have hg := run.gated (gated_ofConfig config)
  refine ⟨run.tight.gatesExact hg, fun n call hn hopen hfree now => run.tight.step_isSome hg hn hopen hfree now,
    fun n call hn hopen => run.tight.unhindered hg hn hopen, ?_, ?_⟩
  · intro as es' d has hfollow
    have hlength := length_add_stepsLeft_le has hfollow
    refine ⟨by omega, fun hstuck => ?_⟩
    have run' := run.trans (run_of_follow hfollow)
    have hg' := run'.gated (gated_ofConfig config)
    have hall : ∀ n call, d.calls.get? n = some call → ∃ answer, call.stage = .returned answer :=
      fun n call hn => run'.tight.returned_of_stuck hg' hstuck hn
    exact ⟨hall, (run'.tight.gatesExact hg').ended hall⟩
  · intro n d es' e hreport run'
    have hperform : c.perform (.report n .crashed) = some (c.seenReport n .crashed, d) := by
      rw [perform, hreport]
      rfl
    have hgd : d.Gated := gated_move hg (move_of_perform hperform)
    simp only [report, Option.bind_eq_bind, Option.bind_eq_some_iff] at hreport
    obtain ⟨⟨key, stage⟩, hn, hreport⟩ := hreport
    cases stage with
    | building g epoch =>
      cases hreport
      have ha : (.releasing g .crashed : CacheStage γ ε).answer? = some .crashed := rfl
      obtain ⟨stage', hn', ha'⟩ := run'.answer? hgd (Table.get?_insert_self ..) ha
      exact returned_or_step hn' ha'
    | _ => cases hreport

/-- Two calls go to the gate of a key, and the builder of the first one crashes while the second one waits. -/
def crashAtGate : List (Action Nat Unit) :=
  [.arrive ⟨.packages, "a"⟩, .arrive ⟨.packages, "a"⟩, .step 1 0, .step 1 0] ++ List.replicate 5 (.step 0 0) ++
    [.report 0 .crashed]

/-- The first call leaves, and the second one has its turn. -/
def turnAfterCrash : List (Action Nat Unit) :=
  [.step 0 1, .step 0 1, .step 1 2, .step 1 2, .step 1 2, .report 1 (.client 7), .step 1 3, .step 1 3, .step 1 3]

/-- The gate has three owners when the builder crashes, and is gone when both calls have returned. -/
theorem gates_survive_crash : ∃ (es es' : List (CacheEvent Nat Unit)) (c d : ClientCache Nat Unit) (g : Nat)
    (gate : Gate), Run (ofConfig { capacity := 2, ttl := none }) es c ∧ follow turnAfterCrash c = some (es', d) ∧
      c.listed.get? ⟨.packages, "a"⟩ = some g ∧ c.gates.get? g = some gate ∧ gate.owners = 3 ∧
      turnAfterCrash.length ≤ c.stepsLeft ∧ d.answer? 0 = some .crashed ∧ d.answer? 1 = some (.client 7) ∧
      d.listed = .empty := by
  have hends : ((follow crashAtGate (ofConfig { capacity := 2, ttl := none })).any fun r =>
      (follow turnAfterCrash r.2).any fun r' =>
        decide (r.2.visitors ⟨.packages, "a"⟩ = 2) && r.2.listed.contains ⟨.packages, "a"⟩ &&
          decide (r'.2.answer? 0 = some .crashed) && decide (r'.2.answer? 1 = some (.client 7)) &&
          r'.2.calls.entries.all fun e => (ClientCache.answer? e.1 r'.2).isSome) = true := by decide +kernel
  simp only [Option.any_eq_true, Bool.and_eq_true, decide_eq_true_eq] at hends
  obtain ⟨⟨es, c⟩, hfollow, ⟨es', d⟩, hfollow', ⟨⟨⟨hvisitors, hlisted⟩, hcrashed⟩, hclient⟩, hreturned⟩ := hends
  have run : Run (ofConfig { capacity := 2, ttl := none }) es c := run_of_follow hfollow
  obtain ⟨hexact, -, -, hschedule, -⟩ := gates_are_exact run
  obtain ⟨hexact', -⟩ := gates_are_exact (run.trans (run_of_follow hfollow'))
  obtain ⟨g, hg⟩ := Option.isSome_iff_exists.1 hlisted
  obtain ⟨gate, hgate, howners⟩ := hexact.owners _ g hg
  have hall : ∀ n call, d.calls.get? n = some call → ∃ answer, call.stage = .returned answer :=
    fun n call hn => quiet_of_all hreturned n call hn rfl
  exact ⟨es, es', c, d, g, gate, run, hfollow', hg, hgate, by rw [howners, hvisitors],
    (hschedule _ es' d (by decide) hfollow').1, hcrashed, hclient, (hexact'.ended hall).1⟩

end ClientCache
end JobRunner
