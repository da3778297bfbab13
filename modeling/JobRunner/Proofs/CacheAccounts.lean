import JobRunner.Proofs.CacheCalls
/-!
# The accounts of a cache

The books of a run are read off the clients that are there before and after each action and off the history, not off the
counters, and the counters agree with them.  So whatever was stored is still there or was counted once when it went.
-/
namespace JobRunner
namespace ClientCache

open ClientStore (gone)

variable {γ ε : Type} {config : CacheConfig} {c d : ClientCache γ ε} {new es : List (CacheEvent γ ε)} {n : Nat}
  {key : CacheKey} {stage next : CacheStage γ ε} {ps : List Posting}

/-- What is entered in the books for an action, read off the clients before and after it and off what was seen before:
clients that go when one is to be stored are evicted, those that go at an invalidation are invalidated, and all others
have expired; and what was built is stored unless its builder was overtaken. -/
def posted (es : List (CacheEvent γ ε)) (c d : ClientCache γ ε) : Action γ ε → List Posting
  | .arrive _ | .report _ _ => []
  | .step n _ =>
    match c.calls.get? n with
    | some ⟨key, .keeping _ _ _⟩ =>
      gone .evicted c.store d.store ++ [if overtaken n es then .dropped key else .stored key]
    | _ => gone .expired c.store d.store
  | .invalidate _ => gone .invalidated c.store d.store
  | .cleanup _ => gone .expired c.store d.store

/-- Runs from an empty cache, with what was seen and the books. -/
inductive Booked (config : CacheConfig) : List (CacheEvent γ ε) → List Posting → ClientCache γ ε → Prop where
  | opened : Booked config [] [] (ofConfig config)
  | tail {es new : List (CacheEvent γ ε)} {ps : List Posting} {c d : ClientCache γ ε} (a : Action γ ε)
    (before : Booked config es ps c) (h : c.perform a = some (new, d)) :
    Booked config (es ++ new) (ps ++ posted es c d a) d

theorem Booked.run (h : Booked config es ps c) : Run (ofConfig config) es c := by
  induction h with
  | opened => exact .refl
  | tail a _ h ih => exact ih.tail a h

theorem Run.exists_booked (run : Run (ofConfig config) es c) : ∃ ps, Booked config es ps c := by
  induction run with
  | refl => exact ⟨[], .opened⟩
  | tail a _ h ih =>
    obtain ⟨ps, books⟩ := ih
    exact ⟨_, books.tail a h⟩

/-- Whatever was asked of a builder failed, was dropped or stored, or is still being built. -/
def Reported (es : List (CacheEvent γ ε)) (ps : List Posting) (c : ClientCache γ ε) : Prop :=
  es.countP CacheEvent.isAsked = es.countP CacheEvent.isFailure + ps.countP Posting.isDropped +
    ps.countP Posting.isStored + c.callsAt CacheStage.isFilling

theorem Reported.step {ps' : List Posting} (h : Reported es ps c) (hn : c.calls.get? n = some ⟨key, stage⟩)
    (hd : d.calls = c.calls.insert n ⟨key, next⟩)
    (hcount : new.countP CacheEvent.isAsked + stage.isFilling.toNat = new.countP CacheEvent.isFailure +
      ps'.countP Posting.isDropped + ps'.countP Posting.isStored + next.isFilling.toNat) :
    Reported (es ++ new) (ps ++ ps') d := by
  have hcalls := callsAt_insert CacheStage.isFilling hn hd
  unfold Reported at *
  rw [List.countP_append, List.countP_append, List.countP_append, List.countP_append]
  omega

theorem Reported.still {ps' : List Posting} (h : Reported es ps c)
    (hd : d.callsAt CacheStage.isFilling = c.callsAt CacheStage.isFilling)
    (hasked : new.countP CacheEvent.isAsked = 0) (hfailed : new.countP CacheEvent.isFailure = 0)
    (hdropped : ps'.countP Posting.isDropped = 0) (hstored : ps'.countP Posting.isStored = 0) :
    Reported (es ++ new) (ps ++ ps') d := by
  unfold Reported at *
  rw [List.countP_append, List.countP_append, List.countP_append, List.countP_append]
  omega

/-- The books are right. -/
structure InBooks (es : List (CacheEvent γ ε)) (ps : List Posting) (c : ClientCache γ ε) : Prop where
  stocked : c.store.Stocked ps
  reported : Reported es ps c

/-- A call goes on that neither begins to build nor has built anything. -/
theorem InBooks.pass (h : InBooks es ps c) (hn : c.calls.get? n = some ⟨key, stage⟩)
    (hd : d.calls = c.calls.insert n ⟨key, next⟩) (hs : ClientStore.Sheds .expired c.store d.store)
    (hf : next.isFilling = stage.isFilling) (hasked : new.countP CacheEvent.isAsked = 0)
    (hfailed : new.countP CacheEvent.isFailure = 0) :
    InBooks (es ++ new) (ps ++ gone .expired c.store d.store) d := by
  refine ⟨h.stocked.shed hs, h.reported.step hn hd ?_⟩
  rw [hasked, hfailed, hf, ClientStore.countP_gone _ fun _ => rfl, ClientStore.countP_gone _ fun _ => rfl]

theorem countP_seen_lookup {p : CacheEvent γ ε → Bool} (hhit : ∀ client, p (.hit n key client) = false)
    (hexpired : ∀ k, p (.expired k) = false) (now : Nat) :
    (match c.store.lookup key now with
      | (some client, _) => [CacheEvent.hit n key client]
      | (none, s) => (ClientStore.lost c.store s).map .expired).countP p = 0 := by
  rcases c.store.lookup key now with ⟨_ | client, s⟩
  · exact countP_map_eq_zero hexpired _
  · simp [hhit]

/-- A call that looks for a client goes on. -/
theorem InBooks.look {now : Nat} {found : γ → CacheStage γ ε} {absent : CacheStage γ ε} (h : InBooks es ps c)
    (hn : c.calls.get? n = some ⟨key, stage⟩) (hd : d = c.look n key now found absent)
    (hstage : stage.isFilling = false) (hfound : ∀ client, (found client).isFilling = false)
    (habsent : absent.isFilling = false) (hnew : new = match c.store.lookup key now with
      | (some client, _) => [CacheEvent.hit n key client]
      | (none, s) => (ClientStore.lost c.store s).map .expired) :
    InBooks (es ++ new) (ps ++ gone .expired c.store d.store) d := by
  subst hd hnew
  have hsheds : ClientStore.Sheds .expired c.store (c.store.lookup key now).2 := (ClientStore.sheds_lookup rfl).1
  refine h.pass hn rfl hsheds ?_ (countP_seen_lookup (fun _ => rfl) (fun _ => rfl) now)
    (countP_seen_lookup (fun _ => rfl) (fun _ => rfl) now)
  rw [hstage]
  cases (c.store.lookup key now).1 with
  | none => exact habsent
  | some client => exact hfound client

/-- A call that leaves the store alone goes on. -/
theorem InBooks.move (h : InBooks es ps c) (hn : c.calls.get? n = some ⟨key, stage⟩)
    (hd : d.calls = c.calls.insert n ⟨key, next⟩) (hs : d.store = c.store) (hf : next.isFilling = stage.isFilling) :
    InBooks (es ++ []) (ps ++ gone .expired c.store d.store) d := by
  refine h.pass hn hd ?_ hf rfl rfl
  rw [hs]
  exact .refl .expired c.store

/-- What was built is stored, or dropped if the builder was overtaken. -/
theorem InBooks.keep {g epoch now : Nat} {client : γ} (hv : c.Vacant) (hp : Punctual es c) (h : InBooks es ps c)
    (hn : c.calls.get? n = some ⟨key, .keeping g epoch client⟩)
    (hd : d = { c with store := c.store.keep key client epoch now }.put n key (.releasing g (.client client)))
    (hasked : new.countP CacheEvent.isAsked = 0) (hfailed : new.countP CacheEvent.isFailure = 0) :
    InBooks (es ++ new)
      (ps ++ (gone .evicted c.store d.store ++ [if overtaken n es then .dropped key else .stored key])) d := by
  subst hd
  obtain ⟨-, hover⟩ := hp n _ epoch hn rfl
  constructor
  · rw [hover]
    by_cases he : epoch = c.store.epoch
    · subst he
      rw [decide_eq_false (not_not_intro rfl)]
      exact h.stocked.keep client now (hv n _ hn rfl)
    · have hkeep : c.store.keep key client epoch now = c.store := ClientStore.keep_of_ne (Ne.symm he)
      simp only [put, hkeep, gone, lost_self, List.map_nil, List.nil_append, decide_eq_true he, if_true]
      exact h.stocked.drop key
  · refine h.reported.step hn rfl ?_
    rw [hasked, hfailed, List.countP_append, List.countP_append, ClientStore.countP_gone _ fun _ => rfl,
      ClientStore.countP_gone _ fun _ => rfl]
    cases overtaken n es with
    | true => rfl
    | false => rfl

theorem inBooks_step {now : Nat} (hv : c.Vacant) (hp : Punctual es c) (h : InBooks es ps c)
    (hd : c.step n now = some d) : InBooks (es ++ c.seen n now) (ps ++ posted es c d (.step n now)) d := by
  simp only [step, Option.bind_eq_bind, Option.bind_eq_some_iff] at hd
  obtain ⟨⟨key, stage⟩, hn, hd⟩ := hd
  simp only [seen, posted, hn]
  cases stage with
  | arriving => exact h.look hn (Option.some.inj hd).symm rfl (fun _ => rfl) rfl rfl
  | rechecking g => exact h.look hn (Option.some.inj hd).symm rfl (fun _ => rfl) rfl rfl
  | entering =>
    cases hd
    obtain ⟨g, hcalls⟩ := calls_enter c n key
    exact h.move hn hcalls (store_enter ..) rfl
  | queueing g =>
    dsimp only at hd
    split at hd
    · cases hd
    · cases hd
      exact h.move hn (calls_setHolder ..) (store_setHolder ..) rfl
  | missing g =>
    cases hd
    constructor
    · exact h.stocked.shed ⟨fun _ => .inr rfl, rfl, fun r _ => by cases r <;> rfl⟩
    · refine h.reported.step hn rfl ?_
      rw [ClientStore.countP_gone _ fun _ => rfl, ClientStore.countP_gone _ fun _ => rfl]
      rfl
  | keeping g epoch client =>
    refine h.keep hv hp hn (Option.some.inj hd).symm ?_ ?_
    · rw [List.countP_append, countP_map_eq_zero fun _ => rfl]
      split
      · rfl
      · rfl
    · rw [List.countP_append, countP_map_eq_zero fun _ => rfl]
      split
      · rfl
      · rfl
  | releasing g answer =>
    cases hd
    exact h.move hn (calls_setHolder ..) (store_setHolder ..) rfl
  | leaving g answer =>
    cases hd
    exact h.move hn (calls_leave ..) (store_leave ..) rfl
  | building | returned => cases hd

theorem inBooks_report {answer : CacheAnswer γ ε} (h : InBooks es ps c) (hd : c.report n answer = some d) :
    InBooks (es ++ c.seenReport n answer) (ps ++ []) d := by
  rw [List.append_nil]
  simp only [report, Option.bind_eq_bind, Option.bind_eq_some_iff] at hd
  obtain ⟨⟨key, stage⟩, hn, hd⟩ := hd
  cases stage with
  | building g epoch =>
    have hseen : c.seenReport n answer = [.built n key answer] := by simp [seenReport, hn]
    have hstep : ∀ {d : ClientCache γ ε} {next : CacheStage γ ε}, d.calls = c.calls.insert n ⟨key, next⟩ →
        0 + 1 = [CacheEvent.built n key answer].countP CacheEvent.isFailure + 0 + 0 + next.isFilling.toNat →
        Reported (es ++ [.built n key answer]) ps d := by
      intro d next hd hcount
      rw [← List.append_nil ps]
      exact h.reported.step hn hd hcount
    rw [hseen]
    cases answer with
    | client client =>
      cases hd
      exact ⟨h.stocked, hstep rfl rfl⟩
    | failed | crashed =>
      cases hd
      exact ⟨h.stocked, hstep rfl rfl⟩
  | _ => cases hd

theorem inBooks_perform {a : Action γ ε} (hg : c.Gated) (hv : c.Vacant) (hp : Punctual es c) (h : InBooks es ps c)
    (hd : c.perform a = some (new, d)) : InBooks (es ++ new) (ps ++ posted es c d a) d := by
  cases a with
  | arrive key =>
    cases hd
    refine ⟨?_, h.reported.still ?_ rfl rfl rfl rfl⟩
    · rw [posted, List.append_nil]
      exact h.stocked
    · exact Table.sum_insert_of_none hg.get?_callsMade (fun _ call => call.stage.isFilling.toNat) { key }
  | step n now =>
    simp only [perform, Option.map_eq_some_iff] at hd
    obtain ⟨_, hstep, hd⟩ := hd
    cases hd
    exact inBooks_step hv hp h hstep
  | report n answer =>
    simp only [perform, Option.map_eq_some_iff] at hd
    obtain ⟨_, hreport, hd⟩ := hd
    cases hd
    exact inBooks_report h hreport
  | invalidate i =>
    cases hd
    exact ⟨h.stocked.shed (ClientStore.sheds_apply i c.store), h.reported.still rfl rfl rfl
      (ClientStore.countP_gone _ fun _ => rfl) (ClientStore.countP_gone _ fun _ => rfl)⟩
  | cleanup now =>
    cases hd
    exact ⟨h.stocked.shed (ClientStore.sheds_cleanup now c.store), h.reported.still rfl
      (countP_map_eq_zero (fun _ => rfl) _) (countP_map_eq_zero (fun _ => rfl) _)
      (ClientStore.countP_gone _ fun _ => rfl) (ClientStore.countP_gone _ fun _ => rfl)⟩

theorem Run.counted (run : Run (ofConfig config) es c) : Counted es c := by
  induction run with
  | refl => exact ⟨rfl, rfl⟩
  | tail a before h ih => exact counted_move (before.gated (gated_ofConfig config)) ih (move_of_perform h)

theorem Run.vacant (run : Run (ofConfig config) es c) : c.Vacant := by
  induction run with
  | refl => exact nofun
  | tail a before h ih => exact vacant_move (before.gated (gated_ofConfig config)) before.sized ih (move_of_perform h)

theorem Run.punctual (run : Run (ofConfig config) es c) : Punctual es c := by
  induction run with
  | refl => exact nofun
  | tail a before h ih => exact punctual_move before.sized ih (move_of_perform h)

theorem Booked.inBooks (books : Booked config es ps c) : InBooks es ps c := by
  induction books with
  | opened =>
    refine ⟨⟨rfl, fun why => ?_, fun k => .nil⟩, rfl⟩
    cases why <;> rfl
  | tail a before h ih =>
    have hgated := before.run.gated (gated_ofConfig config)
    exact inBooks_perform hgated before.run.vacant before.run.punctual ih h

theorem callsAt_eq_zero {p : CacheStage γ ε → Bool}
    (h : ∀ n call, c.calls.get? n = some call → p call.stage = false) : c.callsAt p = 0 := by
  refine Table.sum_eq_zero fun n call hn => ?_
  rw [h n call hn]
  rfl

/-- **The accounts of a cache balance.**  Whatever happened in a run, the books of it tell of each client that was stored
how it went, in turns for each key, and the counters agree with them: what was stored is still there or was counted under
one of the three reasons.  When no call is under way, as many hits and misses were counted as there were calls, and as
many misses as builders were asked; and what a builder was asked for was stored, unless it failed or an invalidation
overtook it. -/
theorem accounts_balance (run : Run (ofConfig config) es c) : ∃ ps, Booked config es ps c ∧
    ps.countP Posting.isStored = c.store.stats.entries + c.store.stats.evictions + c.store.stats.expirations +
      c.store.stats.invalidations ∧
    c.store.stats.evictions = ps.countP (Posting.isRemoved .evicted) ∧
    c.store.stats.expirations = ps.countP (Posting.isRemoved .expired) ∧
    c.store.stats.invalidations = ps.countP (Posting.isRemoved .invalidated) ∧
    (∀ key, InTurns key ps (c.store.entries.contains key)) ∧
    c.store.stats.misses = es.countP CacheEvent.isAsked ∧
    ((∀ n call, c.calls.get? n = some call → ∃ answer, call.stage = .returned answer) →
      c.store.stats.hits + c.store.stats.misses = es.countP CacheEvent.isArrived ∧
      c.store.stats.misses = es.countP CacheEvent.isFailure + ps.countP Posting.isDropped +
        ps.countP Posting.isStored) := by
  obtain ⟨ps, books⟩ := run.exists_booked
  obtain ⟨hstocked, hreported⟩ := books.inBooks
  have hcounted := run.counted
  refine ⟨ps, books, hstocked.total, hstocked.removals .evicted, hstocked.removals .expired,
    hstocked.removals .invalidated, hstocked.turns, hcounted.builders, fun hquiet => ?_⟩
  have huncounted : c.callsAt CacheStage.isUncounted = 0 := callsAt_eq_zero fun n call hn => by
    obtain ⟨answer, hs⟩ := hquiet n call hn
    rw [hs]
    rfl
  have hfilling : c.callsAt CacheStage.isFilling = 0 := callsAt_eq_zero fun n call hn => by
    obtain ⟨answer, hs⟩ := hquiet n call hn
    rw [hs]
    rfl
  have hrequests := hcounted.requests
  have hbuilders := hcounted.builders
  unfold Reported at hreported
  constructor
  · show c.store.hits + c.store.misses = _
    omega
  · show c.store.misses = _
    omega

/-- A call that finds nobody at the gate, up to the report of its builder. -/
def buildAlone (n now : Nat) (answer : CacheAnswer Nat Unit) : List (Action Nat Unit) :=
  [.step n now, .step n now, .step n now, .step n now, .step n now, .report n answer]

/-- A client is found again and makes room for another, which expires; one could not be built, one was overtaken by an
invalidation, and one was kept and invalidated then. -/
def sampleActions : List (Action Nat Unit) :=
  let a : CacheKey := ⟨.packages, "a"⟩
  let b : CacheKey := ⟨.packages, "b"⟩
  let later := 2000000000
  List.flatten [[.arrive a], buildAlone 0 0 (.client 7), [.step 0 1, .step 0 1, .step 0 1, .arrive a, .step 1 2],
    [.arrive b], buildAlone 2 3 (.client 8), [.step 2 4, .step 2 4, .step 2 4],
    [.arrive a], buildAlone 3 5 .crashed, [.step 3 6, .step 3 6, .cleanup later],
    [.arrive b], buildAlone 4 later (.client 9), [.invalidate .all, .step 4 later, .step 4 later, .step 4 later],
    [.arrive a], buildAlone 5 later (.client 10), [.step 5 later, .step 5 later, .step 5 later, .invalidate (.byKey a)]]

theorem accounts_balance_sample : ∃ (es : List (CacheEvent Nat Unit)) (ps : List Posting) (c : ClientCache Nat Unit),
    Booked { capacity := 1, ttl := some (.ofSecs 1) } es ps c ∧
      (∀ n call, c.calls.get? n = some call → ∃ answer, call.stage = .returned answer) ∧
      c.store.stats = ⟨0, 1, some 1, 1, 5, 1, 1, 1⟩ ∧ es.countP CacheEvent.isArrived = 6 ∧
      ps.countP Posting.isStored = 3 ∧ ps.countP Posting.isDropped = 1 := by
  have hends : ((follow sampleActions (ofConfig { capacity := 1, ttl := some (.ofSecs 1) })).any fun r =>
      decide (r.2.store.stats = ⟨0, 1, some 1, 1, 5, 1, 1, 1⟩) && decide (r.1.countP CacheEvent.isFailure = 1) &&
        r.2.calls.entries.all fun e => (answer? e.1 r.2).isSome) = true := by decide +kernel
  simp only [Option.any_eq_true, Bool.and_eq_true, decide_eq_true_eq, List.all_eq_true] at hends
  obtain ⟨⟨es, c⟩, hfollow, ⟨hstats, hfailed⟩, hreturned⟩ := hends
  have hquiet : ∀ n call, c.calls.get? n = some call → ∃ answer, call.stage = .returned answer := by
    intro n call hn
    have hsome := hreturned (n, call) (Table.get?_eq_some_iff.1 hn)
    simp only [answer?, stage?, hn, Option.map_some] at hsome
    cases hs : call.stage with
    | returned answer => exact ⟨answer, rfl⟩
    | _ => rw [hs] at hsome; cases hsome
  obtain ⟨ps, books, hstored, -, -, -, -, -, hends⟩ := accounts_balance (run_of_follow hfollow)
  obtain ⟨harrived, hbuilt⟩ := hends hquiet
  rw [hstats] at hstored harrived hbuilt
  rw [hfailed, hstored] at hbuilt
  have hbuilt : 5 = 1 + ps.countP Posting.isDropped + 3 := hbuilt
  exact ⟨es, ps, c, books, hquiet, hstats, harrived.symm, hstored, by omega⟩

end ClientCache
end JobRunner
