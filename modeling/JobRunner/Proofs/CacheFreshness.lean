import JobRunner.Proofs.CacheRun
/-!
# No client outlives an invalidation

The epoch of a store is the number of invalidations so far, and a call that has a client built remembers the epoch in
which its builder began.  So a client is kept only if there was no invalidation since then, and from there on an
invalidation that concerns the key drops it.
-/
namespace JobRunner

/-- The clients under the key are meant. -/
def Invalidation.Concerns : Invalidation → CacheKey → Prop
  | byKey key, k => k = key
  | byPattern pattern, k => pattern.toList <:+: k.text.toList
  | all, _ => True

theorem hits_iff_concerns {i : Invalidation} {k : CacheKey} : i.hits k = true ↔ i.Concerns k := by
  cases i with
  | byKey key => exact beq_iff_eq
  | byPattern pattern => exact Text.contains_iff
  | all => exact ⟨fun _ => trivial, fun _ => rfl⟩

def CacheEvent.isInvalidation {γ ε : Type} : CacheEvent γ ε → Bool
  | invalidated _ => true
  | _ => false

namespace ClientCache

variable {γ ε : Type} {c d : ClientCache γ ε} {new es : List (CacheEvent γ ε)} {key : CacheKey} {client : γ}

/-- The client was built by a builder that began when `before` had happened and reported in `during`, and was then kept
under the key; nothing else was kept there since, and no invalidation since the builder began concerns the key. -/
def BuiltSince (key : CacheKey) (client : γ) (es : List (CacheEvent γ ε)) : Prop :=
  ∃ n before during after, es = before ++ .asked n key :: (during ++ .kept n key client :: after) ∧
    .built n key (.client client) ∈ during ∧ (∀ m other, .kept m key other ∉ after) ∧
    ∀ i, .invalidated i ∈ during ++ after → ¬ i.Concerns key

/-- The builder of the call began in an epoch. -/
def AskedAt (n : Nat) (key : CacheKey) (epoch : Nat) (during es : List (CacheEvent γ ε)) : Prop :=
  ∃ before, es = before ++ .asked n key :: during ∧ before.countP CacheEvent.isInvalidation = epoch

theorem AskedAt.append {n epoch : Nat} {during : List (CacheEvent γ ε)} (h : AskedAt n key epoch during es)
    (new : List (CacheEvent γ ε)) : AskedAt n key epoch (during ++ new) (es ++ new) := by
  obtain ⟨before, rfl, he⟩ := h
  refine ⟨before, ?_, he⟩
  rw [List.append_assoc, List.cons_append]

/-- What was built since stays so, unless it is replaced or invalidated. -/
theorem BuiltSince.append (h : BuiltSince key client es) (hk : ∀ n other, CacheEvent.kept n key other ∉ new)
    (hi : ∀ i, CacheEvent.invalidated i ∈ new → ¬ i.Concerns key) : BuiltSince key client (es ++ new) := by
  obtain ⟨n, before, during, after, rfl, hbuilt, hkept, hinvalid⟩ := h
  refine ⟨n, before, during, after ++ new, ?_, hbuilt, fun m other hm => ?_, fun i hm => ?_⟩
  · simp only [List.append_assoc, List.cons_append]
  · rcases List.mem_append.1 hm with hm | hm
    · exact hkept m other hm
    · exact hk m other hm
  · rw [← List.append_assoc] at hm
    rcases List.mem_append.1 hm with hm | hm
    · exact hinvalid i hm
    · exact hi i hm

/-- Epochs count invalidations, and all clients that are kept, or will be, are as old as they are said to be. -/
structure Dated (es : List (CacheEvent γ ε)) (c : ClientCache γ ε) : Prop where
  epoch : c.store.epoch = es.countP CacheEvent.isInvalidation
  building : ∀ n key g e, c.calls.get? n = some ⟨key, .building g e⟩ → ∃ during, AskedAt n key e during es
  keeping : ∀ n key g e client, c.calls.get? n = some ⟨key, .keeping g e client⟩ →
    ∃ during, AskedAt n key e during es ∧ .built n key (.client client) ∈ during
  kept : ∀ key client, c.store.client? key = some client → BuiltSince key client es

theorem Dated.building_append {n g epoch : Nat} (h : Dated es c) (hn : c.calls.get? n = some ⟨key, .building g epoch⟩)
    (new : List (CacheEvent γ ε)) : ∃ during, AskedAt n key epoch during (es ++ new) := by
  obtain ⟨during, hasked⟩ := h.building n key g epoch hn
  exact ⟨during ++ new, hasked.append new⟩

theorem Dated.keeping_append {n g epoch : Nat} (h : Dated es c)
    (hn : c.calls.get? n = some ⟨key, .keeping g epoch client⟩) (new : List (CacheEvent γ ε)) :
    ∃ during, AskedAt n key epoch during (es ++ new) ∧ .built n key (.client client) ∈ during := by
  obtain ⟨during, hasked, hbuilt⟩ := h.keeping n key g epoch client hn
  exact ⟨during ++ new, hasked.append new, List.mem_append_left _ hbuilt⟩

theorem Dated.mono (h : Dated es c)
    (hstore : ∀ k client, d.store.client? k = some client → c.store.client? k = some client)
    (hepoch : d.store.epoch = c.store.epoch)
    (hcalls : ∀ n u, d.calls.get? n = some u → u.stage.isFilling = true → c.calls.get? n = some u)
    (hk : ∀ n k client, CacheEvent.kept n k client ∉ new) (hi : ∀ i, CacheEvent.invalidated i ∉ new) :
    Dated (es ++ new) d := by
  have hcount : new.countP CacheEvent.isInvalidation = 0 := by
    rw [List.countP_eq_zero]
    intro e he
    cases e with
    | invalidated i => exact absurd he (hi i)
    | _ => exact Bool.false_ne_true
  refine ⟨?_, fun n k g e hn => ?_, fun n k g e client hn => ?_, fun k client hc => ?_⟩
  · rw [hepoch, h.epoch, List.countP_append, hcount, Nat.add_zero]
  · exact h.building_append (hcalls n _ hn rfl) new
  · exact h.keeping_append (hcalls n _ hn rfl) new
  · exact (h.kept k client (hstore k client hc)).append (fun n other => hk n k other) fun i hm => absurd hm (hi i)

theorem filling_of_insert {n : Nat} {next : CacheStage γ ε} (hd : d.calls = c.calls.insert n ⟨key, next⟩)
    (hf : next.isFilling = false) : ∀ m u, d.calls.get? m = some u → u.stage.isFilling = true →
      c.calls.get? m = some u := by
  intro m u hm hu
  rw [hd] at hm
  rcases Table.of_get?_insert hm with ⟨-, rfl⟩ | ⟨-, hm⟩
  · rw [show next.isFilling = true from hu] at hf
    cases hf
  · exact hm

/-- A call goes on that has no client built afterwards, and the store is the same. -/
theorem Dated.pass {n : Nat} {next : CacheStage γ ε} (h : Dated es c) (hstore : d.store = c.store)
    (hcalls : d.calls = c.calls.insert n ⟨key, next⟩) (hf : next.isFilling = false) : Dated (es ++ []) d := by
  refine h.mono ?_ ?_ (filling_of_insert hcalls hf) (fun _ _ _ => List.not_mem_nil) fun _ => List.not_mem_nil
  · rw [hstore]
    exact fun _ _ hc => hc
  · rw [hstore]

theorem Dated.ask {n g : Nat} (h : Dated es c) :
    Dated (es ++ [.asked n key]) ({ c with store := c.store.miss.2 }.put n key (.building g c.store.epoch)) := by
  refine ⟨?_, fun m k g' e hm => ?_, fun m k g' e client hm => ?_, fun k client hc => ?_⟩
  · rw [List.countP_append]
    exact h.epoch
  · rcases Table.of_get?_insert hm with ⟨rfl, hu⟩ | ⟨-, hm⟩
    · cases hu
      exact ⟨[], es, rfl, h.epoch.symm⟩
    · exact h.building_append hm _
  · rcases Table.of_get?_insert hm with ⟨-, hu⟩ | ⟨-, hm⟩
    · cases hu
    · exact h.keeping_append hm _
  · exact (h.kept k client hc).append (by simp) (by simp)

theorem Dated.built {n g epoch : Nat} (h : Dated es c) (hn : c.calls.get? n = some ⟨key, .building g epoch⟩) :
    Dated (es ++ [.built n key (.client client)]) (c.put n key (.keeping g epoch client)) := by
  refine ⟨?_, fun m k g' e hm => ?_, fun m k g' e other hm => ?_, fun k other hc => ?_⟩
  · rw [List.countP_append]
    exact h.epoch
  · rcases Table.of_get?_insert hm with ⟨-, hu⟩ | ⟨-, hm⟩
    · cases hu
    · exact h.building_append hm _
  · rcases Table.of_get?_insert hm with ⟨rfl, hu⟩ | ⟨-, hm⟩
    · cases hu
      obtain ⟨during, hasked⟩ := h.building m key g epoch hn
      exact ⟨during ++ _, hasked.append _, List.mem_append_right _ List.mem_cons_self⟩
    · exact h.keeping_append hm _
  · exact (h.kept k other hc).append (by simp) (by simp)

/-- A client that was built in the epoch of the store is kept: there was no invalidation in between. -/
theorem BuiltSince.of_kept {n : Nat} {during lost : List (CacheEvent γ ε)}
    (ha : AskedAt n key (es.countP CacheEvent.isInvalidation) during es) (hb : .built n key (.client client) ∈ during)
    (hl : ∀ i, CacheEvent.invalidated i ∉ lost) : BuiltSince key client (es ++ (lost ++ [.kept n key client])) := by
  obtain ⟨before, hes, hcount⟩ := ha
  -- as many invalidations before the builder began as there are now
  have hnone : during.countP CacheEvent.isInvalidation = 0 := by
    rw [hes, List.countP_append, List.countP_cons_of_neg Bool.false_ne_true] at hcount
    omega
  refine ⟨n, before, during ++ lost, [], ?_, List.mem_append_left _ hb, fun _ _ => List.not_mem_nil, fun i hi => ?_⟩
  · rw [hes]
    simp only [List.append_assoc, List.cons_append]
  · rw [List.append_nil] at hi
    rcases List.mem_append.1 hi with hi | hi
    · exact absurd rfl (List.countP_eq_zero.1 hnone _ hi)
    · exact absurd hi (hl i)

/-- A client is kept in the epoch in which its builder began. -/
theorem Dated.keep {config : CacheConfig} {n g now : Nat} (h : Dated es c) (hz : Sized config c)
    (hn : c.calls.get? n = some ⟨key, .keeping g c.store.epoch client⟩) (lost : List CacheKey) :
    Dated (es ++ (lost.map .evicted ++ [.kept n key client]))
      ({ c with store := c.store.keep key client c.store.epoch now }.put n key (.releasing g (.client client))) := by
  have hpos : 0 < c.store.capacity := by
    rw [hz.capacity]
    omega
  obtain ⟨hkept, hothers, hepoch, -, -⟩ := ClientStore.keep_spec key client now hpos hz.size
  have hcount : (lost.map CacheEvent.evicted ++ [(CacheEvent.kept n key client : CacheEvent γ ε)]).countP
      CacheEvent.isInvalidation = 0 := by
    rw [List.countP_eq_zero]
    intro e he
    cases e with
    | invalidated i => simp at he
    | _ => exact Bool.false_ne_true
  refine ⟨?_, fun m k g' e hm => ?_, fun m k g' e other hm => ?_, fun k other hc => ?_⟩
  · rw [List.countP_append, hcount]
    exact hepoch.trans h.epoch
  · rcases Table.of_get?_insert hm with ⟨-, hu⟩ | ⟨-, hm⟩
    · cases hu
    · exact h.building_append hm _
  · rcases Table.of_get?_insert hm with ⟨-, hu⟩ | ⟨-, hm⟩
    · cases hu
    · exact h.keeping_append hm _
  · have hc : (c.store.keep key client c.store.epoch now).client? k = some other := hc
    by_cases hk : k = key
    · rw [hk, hkept] at hc
      cases hc
      obtain ⟨during, hasked, hbuilt⟩ := h.keeping n key g _ client hn
      rw [h.epoch] at hasked
      rw [hk]
      exact .of_kept hasked hbuilt (by simp)
    · rcases hothers k hk with hnone | hsame
      · rw [hnone] at hc
        cases hc
      · rw [hsame] at hc
        refine (h.kept k other hc).append (fun m o hm => ?_) (by simp)
        rcases List.mem_append.1 hm with hm | hm
        · simp at hm
        · cases List.mem_singleton.1 hm
          exact hk rfl

theorem Dated.invalidate (h : Dated es c) (i : Invalidation) :
    Dated (es ++ [.invalidated i]) { c with store := c.store.apply i } := by
  obtain ⟨hclient, hepoch, -, -⟩ := ClientStore.invalidate_spec i c.store
  refine ⟨?_, fun m k g e hm => ?_, fun m k g e other hm => ?_, fun k other hc => ?_⟩
  · rw [List.countP_append]
    exact hepoch.trans (congrArg (· + 1) h.epoch)
  · exact h.building_append hm _
  · exact h.keeping_append hm _
  · have hc : (c.store.apply i).client? k = some other := hc
    rw [hclient, Option.ite_none_left_eq_some] at hc
    refine (h.kept k other hc.2).append (by simp) fun j hj => ?_
    cases List.mem_singleton.1 hj
    exact fun hcon => hc.1 (hits_iff_concerns.2 hcon)

theorem dated_move {config : CacheConfig} (h : Dated es c) (hz : Sized config c) (m : Move c new d) :
    Dated (es ++ new) d := by
  cases m with
  | arrive k =>
    refine h.mono (fun _ _ hc => hc) rfl ?_ (by simp) (by simp)
    exact filling_of_insert (n := c.callsMade) (c := c) rfl rfl
  | hit hn hl hs =>
    obtain ⟨-, hsame, hshrinks⟩ := ClientStore.lookup_some hl
    refine h.mono (fun _ _ => hshrinks.some) hshrinks.epoch ?_ (by simp) (by simp)
    refine filling_of_insert rfl ?_
    obtain ⟨-, rfl⟩ | ⟨g, -, rfl⟩ := hs
    · rfl
    · rfl
  | miss hn hl hs =>
    obtain ⟨-, hshrinks⟩ := ClientStore.lookup_none hl
    refine h.mono (fun _ _ => hshrinks.some) hshrinks.epoch ?_ (by simp) (by simp)
    refine filling_of_insert rfl ?_
    obtain ⟨-, rfl⟩ | ⟨g, -, rfl⟩ := hs
    · rfl
    · rfl
  | @enter n k hn =>
    obtain ⟨g, hcalls⟩ := calls_enter c n k
    exact h.pass (store_enter ..) hcalls rfl
  | turn hn | release hn => exact h.pass (store_setHolder ..) (calls_setHolder ..) rfl
  | leave hn => exact h.pass (store_leave ..) (calls_leave ..) rfl
  | ask hn => exact h.ask
  | built hn hs =>
    obtain ⟨client, rfl, rfl⟩ | ⟨-, rfl⟩ := hs
    · exact h.built hn
    · exact h.mono (fun _ _ hc => hc) rfl (filling_of_insert rfl rfl) (by simp) (by simp)
  | discard hn he => exact h.pass rfl rfl rfl
  | keep hn => exact h.keep hz hn _
  | invalidate i => exact h.invalidate i
  | cleanup now =>
    have hshrinks := ClientStore.shrinks_cleanup now c.store
    exact h.mono (fun _ _ => hshrinks.some) hshrinks.epoch (fun _ _ hm _ => hm) (by simp) (by simp)

theorem Run.dated {config : CacheConfig} (run : Run (ofConfig config) es c) : Dated es c := by
  induction run with
  | refl => exact ⟨rfl, nofun, nofun, nofun⟩
  | tail a before h ih => exact dated_move ih before.sized (move_of_perform h)

/-! ## Hits -/

/-- What a call finds is kept at that moment. -/
theorem client?_of_hit {n : Nat} (pre : List (CacheEvent γ ε)) {post : List (CacheEvent γ ε)}
    (m : Move c (pre ++ .hit n key client :: post) d) :
    pre = [] ∧ c.store.client? key = some client := by
  have hmem : CacheEvent.hit n key client ∈ pre ++ .hit n key client :: post :=
    List.mem_append_right _ List.mem_cons_self
  generalize hnew : pre ++ CacheEvent.hit n key client :: post = new at m hmem
  cases m with
  | hit hn hl hs =>
    rw [List.append_eq_singleton_iff] at hnew
    rcases hnew with ⟨hpre, hhit⟩ | ⟨-, hnil⟩
    · cases hhit
      exact ⟨hpre, (ClientStore.lookup_some hl).1⟩
    · cases hnil
  | _ => simp at hmem

theorem Run.hit {config : CacheConfig} (run : Run (ofConfig config) es c) :
    ∀ pre n key client post, es = pre ++ .hit n key client :: post → BuiltSince key client pre := by
  induction run with
  | refl =>
    intro pre n key client post h
    simp at h
  | tail a before h ih =>
    intro pre n key client post hsplit
    -- the hit is the last thing that happened, or was there before
    rw [List.append_eq_append_iff] at hsplit
    rcases hsplit with ⟨pre', rfl, rfl⟩ | ⟨post', hes, hpost⟩
    · obtain ⟨rfl, hclient⟩ := client?_of_hit pre' (move_of_perform h)
      rw [List.append_nil]
      exact before.dated.kept key client hclient
    · cases post' with
      | nil =>
        rw [List.nil_append] at hpost
        rw [List.append_nil] at hes
        subst hes hpost
        obtain ⟨-, hclient⟩ := client?_of_hit [] (move_of_perform h)
        exact before.dated.kept key client hclient
      | cons e post' =>
        rw [List.cons_append] at hpost
        cases hpost
        exact ih pre n key client post' hes

/-- **No invalidation is lost.**  However calls, builders, invalidations and clean-ups come in between each other: the
builder of a client that is kept began after every invalidation of its key.  So did the builder of a client that a call
was given, when it was given it, and of one that a call would be given now. -/
theorem no_invalidation_lost {config : CacheConfig} (run : Run (ofConfig config) es c) :
    (∀ key entry, c.store.entries.get? key = some entry → BuiltSince key entry.client es) ∧
    (∀ key now client s, c.store.lookup key now = (some client, s) → BuiltSince key client es) ∧
    ∀ pre n key client post, es = pre ++ .hit n key client :: post → BuiltSince key client pre := by
  refine ⟨fun key entry he => ?_, fun key now client s hl => ?_, run.hit⟩
  · refine run.dated.kept key entry.client ?_
    rw [ClientStore.client?, he, Option.map_some]
  · exact run.dated.kept key client (ClientStore.lookup_some hl).1

/-- The key is invalidated while a client is built for it, so that client is not kept; a later caller has another one
built, and that one is found. -/
theorem no_invalidation_lost_during_build : ∃ (es : List (CacheEvent Nat Unit)) (c : ClientCache Nat Unit),
    Run (ofConfig { capacity := 2, ttl := none }) es c ∧ (c.store.lookup ⟨.packages, "a"⟩ 20).1 = some 8 ∧
      BuiltSince ⟨.packages, "a"⟩ 8 es := by
  let key : CacheKey := ⟨.packages, "a"⟩
  let actions : List (Action Nat Unit) := [.arrive key, .step 0 0, .step 0 1, .step 0 2, .step 0 3, .step 0 4,
    .invalidate (.byKey key), .report 0 (.client 7), .step 0 5, .step 0 6, .step 0 7, .arrive key, .step 1 8, .step 1 9,
    .step 1 10, .step 1 11, .step 1 12, .report 1 (.client 8), .step 1 13]
  have hends : ((follow actions (ofConfig { capacity := 2, ttl := none })).any fun r =>
      decide ((r.2.store.lookup key 20).1 = some 8)) = true := by decide +kernel
  rw [Option.any_eq_true] at hends
  obtain ⟨⟨es, c⟩, hfollow, hfound⟩ := hends
  have hfound : (c.store.lookup key 20).1 = some 8 := of_decide_eq_true hfound
  have run : Run (ofConfig { capacity := 2, ttl := none }) es c := run_of_follow hfollow
  obtain ⟨-, hlookup, -⟩ := no_invalidation_lost run
  exact ⟨es, c, run, hfound, hlookup key 20 8 (c.store.lookup key 20).2 (Prod.ext hfound rfl)⟩

end ClientCache
end JobRunner
