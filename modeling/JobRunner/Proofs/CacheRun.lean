import JobRunner.Cache.Client
import JobRunner.Proofs.KeptClients
/-!
# Runs of a cache

A run is any sequence of steps of calls, of reports of builders, of invalidations and of clean-ups, each at any time.
The events of a run, oldest first, tell what the builders were asked and what they built, and what became of the
clients.

As for pools, `Move` lists what can happen, and whatever is said of runs is said of each move first.
-/
namespace JobRunner

/-- What is seen of a cache. -/
inductive CacheEvent (γ ε : Type) where
  | arrived (n : Nat) (key : CacheKey)
  /-- The builder of a call begins. -/
  | asked (n : Nat) (key : CacheKey)
  | built (n : Nat) (key : CacheKey) (answer : CacheAnswer γ ε)
  /-- A client that was built for a call is kept. -/
  | kept (n : Nat) (key : CacheKey) (client : γ)
  /-- A call finds a client. -/
  | hit (n : Nat) (key : CacheKey) (client : γ)
  | invalidated (i : Invalidation)
  | expired (key : CacheKey)
  | evicted (key : CacheKey)
  deriving Repr

/-- A client is being built for the call, or was built and is about to be kept. -/
def CacheStage.isFilling {γ ε : Type} : CacheStage γ ε → Bool
  | building _ _ | keeping _ _ _ => true
  | _ => false

namespace ClientCache

variable {γ ε : Type}

/-- What is seen when a call takes its next step. -/
def seen (c : ClientCache γ ε) (n now : Nat) : List (CacheEvent γ ε) :=
  match c.calls.get? n with
  | none => []
  | some ⟨key, stage⟩ =>
    match stage with
    | .arriving | .rechecking _ =>
      match c.store.lookup key now with
      | (some client, _) => [.hit n key client]
      | (none, s) => (ClientStore.lost c.store s).map .expired
    | .missing _ => [.asked n key]
    | .keeping _ epoch client =>
      (ClientStore.lost c.store (c.store.keep key client epoch now)).map .evicted ++
        if c.store.epoch = epoch then [.kept n key client] else []
    | _ => []

/-- What is seen when a builder reports. -/
def seenReport (c : ClientCache γ ε) (n : Nat) (answer : CacheAnswer γ ε) : List (CacheEvent γ ε) :=
  ((c.calls.get? n).map fun call => .built n call.key answer).toList

/-- What can happen at a time. -/
inductive Action (γ ε : Type) where
  | arrive (key : CacheKey)
  | step (n now : Nat)
  | report (n : Nat) (answer : CacheAnswer γ ε)
  | invalidate (i : Invalidation)
  | cleanup (now : Nat)

/-- What is seen of an action, and the cache after it. -/
def perform (c : ClientCache γ ε) : Action γ ε → Option (List (CacheEvent γ ε) × ClientCache γ ε)
  | .arrive key => some ([.arrived c.callsMade key], (c.arrive key).2)
  | .step n now => (c.step n now).map fun d => (c.seen n now, d)
  | .report n answer => (c.report n answer).map fun d => (c.seenReport n answer, d)
  | .invalidate i => some ([.invalidated i], { c with store := c.store.apply i })
  | .cleanup now => some ((ClientStore.lost c.store (c.store.cleanup now).2).map .expired,
    (c.onStore (ClientStore.cleanup now)).2)

/-- Runs, with what was seen on the way. -/
inductive Run (c : ClientCache γ ε) : List (CacheEvent γ ε) → ClientCache γ ε → Prop where
  | refl : Run c [] c
  | tail {es new : List (CacheEvent γ ε)} {d d' : ClientCache γ ε} (a : Action γ ε) (before : Run c es d)
    (h : d.perform a = some (new, d')) : Run c (es ++ new) d'

theorem Run.trans {c d e : ClientCache γ ε} {es es' : List (CacheEvent γ ε)} (h : Run c es d) (h' : Run d es' e) :
    Run c (es ++ es') e := by
  induction h' with
  | refl =>
    rw [List.append_nil]
    exact h
  | tail a _ last ih =>
    rw [← List.append_assoc]
    exact ih.tail a last

/-- One action after another, if all can happen. -/
def follow : List (Action γ ε) → ClientCache γ ε → Option (List (CacheEvent γ ε) × ClientCache γ ε)
  | [], c => some ([], c)
  | a :: as, c => do
    let (new, d) ← c.perform a
    let (es, e) ← follow as d
    some (new ++ es, e)

theorem run_of_follow : ∀ {as : List (Action γ ε)} {c d : ClientCache γ ε} {es : List (CacheEvent γ ε)},
    follow as c = some (es, d) → Run c es d
  | [], c, d, es, h => by
    cases h
    exact .refl
  | a :: as, c, d, es, h => by
    simp only [follow, Option.bind_eq_bind, Option.bind_eq_some_iff] at h
    obtain ⟨⟨new, d'⟩, ha, ⟨es', e⟩, has, he⟩ := h
    cases he
    have hone : Run c ([] ++ new) d' := Run.refl.tail a ha
    rw [List.nil_append] at hone
    exact hone.trans (run_of_follow has)

/-! ## Calls and stores after steps at gates -/

theorem calls_enter (c : ClientCache γ ε) (n : Nat) (key : CacheKey) :
    ∃ g, (c.enter n key).calls = c.calls.insert n ⟨key, .queueing g⟩ := by
  unfold enter
  cases c.listed.get? key with
  | none => exact ⟨_, rfl⟩
  | some g => exact ⟨g, rfl⟩

theorem store_enter (c : ClientCache γ ε) (n : Nat) (key : CacheKey) : (c.enter n key).store = c.store := by
  unfold enter
  cases c.listed.get? key with
  | _ => rfl

theorem calls_setHolder (c : ClientCache γ ε) (g : Nat) (holder : Option Nat) (n : Nat) (key : CacheKey)
    (stage : CacheStage γ ε) : ((c.setHolder g holder).put n key stage).calls = c.calls.insert n ⟨key, stage⟩ := by
  unfold setHolder
  cases c.gates.get? g with
  | _ => rfl

theorem store_setHolder (c : ClientCache γ ε) (g : Nat) (holder : Option Nat) (n : Nat) (key : CacheKey)
    (stage : CacheStage γ ε) : ((c.setHolder g holder).put n key stage).store = c.store := by
  unfold setHolder
  cases c.gates.get? g with
  | _ => rfl

theorem calls_leave (c : ClientCache γ ε) (n : Nat) (key : CacheKey) (g : Nat) (answer : CacheAnswer γ ε) :
    (c.leave n key g answer).calls = c.calls.insert n ⟨key, .returned answer⟩ := by
  unfold leave
  dsimp only
  split
  · rfl
  · rfl

theorem store_leave (c : ClientCache γ ε) (n : Nat) (key : CacheKey) (g : Nat) (answer : CacheAnswer γ ε) :
    (c.leave n key g answer).store = c.store := by
  unfold leave
  dsimp only
  split
  · rfl
  · rfl

/-! ## Moves -/

/-- What can happen, what is seen of it, and the cache after it. -/
inductive Move (c : ClientCache γ ε) : List (CacheEvent γ ε) → ClientCache γ ε → Prop where
  | arrive (key : CacheKey) : Move c [.arrived c.callsMade key]
    { c with calls := c.calls.insert c.callsMade { key }, callsMade := c.callsMade + 1 }
  | hit {n now : Nat} {key : CacheKey} {stage next : CacheStage γ ε} {client : γ} {s : ClientStore γ}
    (hn : c.calls.get? n = some ⟨key, stage⟩) (hl : c.store.lookup key now = (some client, s))
    (hs : stage = .arriving ∧ next = .returned (.client client) ∨
      ∃ g, stage = .rechecking g ∧ next = .releasing g (.client client)) :
    Move c [.hit n key client] ({ c with store := s }.put n key next)
  | miss {n now : Nat} {key : CacheKey} {stage next : CacheStage γ ε} {s : ClientStore γ}
    (hn : c.calls.get? n = some ⟨key, stage⟩) (hl : c.store.lookup key now = (none, s))
    (hs : stage = .arriving ∧ next = .entering ∨ ∃ g, stage = .rechecking g ∧ next = .missing g) :
    Move c ((ClientStore.lost c.store s).map .expired) ({ c with store := s }.put n key next)
  | enter {n : Nat} {key : CacheKey} (hn : c.calls.get? n = some ⟨key, .entering⟩) : Move c [] (c.enter n key)
  | turn {n g : Nat} {key : CacheKey} (hn : c.calls.get? n = some ⟨key, .queueing g⟩)
    (hg : (c.gates.get? g).bind (·.holder) = none) :
    Move c [] ((c.setHolder g (some n)).put n key (.rechecking g))
  | ask {n g : Nat} {key : CacheKey} (hn : c.calls.get? n = some ⟨key, .missing g⟩) :
    Move c [.asked n key] ({ c with store := c.store.miss.2 }.put n key (.building g c.store.epoch))
  | built {n g epoch : Nat} {key : CacheKey} {answer : CacheAnswer γ ε} {next : CacheStage γ ε}
    (hn : c.calls.get? n = some ⟨key, .building g epoch⟩)
    (hs : (∃ client, answer = .client client ∧ next = .keeping g epoch client) ∨
      (∀ client, answer ≠ .client client) ∧ next = .releasing g answer) :
    Move c [.built n key answer] (c.put n key next)
  | keep {n g now : Nat} {key : CacheKey} {client : γ}
    (hn : c.calls.get? n = some ⟨key, .keeping g c.store.epoch client⟩) :
    Move c ((ClientStore.lost c.store (c.store.keep key client c.store.epoch now)).map .evicted ++ [.kept n key client])
      ({ c with store := c.store.keep key client c.store.epoch now }.put n key (.releasing g (.client client)))
  | discard {n g epoch : Nat} {key : CacheKey} {client : γ} (hn : c.calls.get? n = some ⟨key, .keeping g epoch client⟩)
    (he : c.store.epoch ≠ epoch) : Move c [] (c.put n key (.releasing g (.client client)))
  | release {n g : Nat} {key : CacheKey} {answer : CacheAnswer γ ε}
    (hn : c.calls.get? n = some ⟨key, .releasing g answer⟩) :
    Move c [] ((c.setHolder g none).put n key (.leaving g answer))
  | leave {n g : Nat} {key : CacheKey} {answer : CacheAnswer γ ε}
    (hn : c.calls.get? n = some ⟨key, .leaving g answer⟩) : Move c [] (c.leave n key g answer)
  | invalidate (i : Invalidation) : Move c [.invalidated i] { c with store := c.store.apply i }
  | cleanup (now : Nat) : Move c ((ClientStore.lost c.store (c.store.cleanup now).2).map .expired)
    { c with store := (c.store.cleanup now).2 }

theorem lost_self (s : ClientStore γ) : ClientStore.lost s s = [] := by
  rw [ClientStore.lost, List.filter_eq_nil_iff]
  intro k hk
  have hmem : k ∈ s.entries.keys := hk
  rw [Table.keys, List.mem_map] at hmem
  obtain ⟨⟨k', e⟩, he, rfl⟩ := hmem
  simp [Table.contains, Table.get?_eq_some_iff.2 he]

/-- **Whatever happens is a move.** -/
theorem move_of_perform {c d : ClientCache γ ε} {a : Action γ ε} {new : List (CacheEvent γ ε)}
    (h : c.perform a = some (new, d)) : Move c new d := by
  cases a with
  | arrive key => cases h; exact .arrive key
  | invalidate i => cases h; exact .invalidate i
  | cleanup now => cases h; exact .cleanup now
  | report n answer =>
    simp only [perform, Option.map_eq_some_iff] at h
    obtain ⟨_, h, hd⟩ := h
    cases hd
    simp only [report, Option.bind_eq_bind, Option.bind_eq_some_iff] at h
    obtain ⟨⟨key, stage⟩, hn, h⟩ := h
    rw [seenReport, hn]
    cases stage with
    | building g epoch =>
      cases answer with
      | client client => cases h; exact .built hn (.inl ⟨client, rfl, rfl⟩)
      | failed e => cases h; exact .built hn (.inr ⟨by simp, rfl⟩)
      | crashed => cases h; exact .built hn (.inr ⟨by simp, rfl⟩)
    | _ => cases h
  | step n now =>
    simp only [perform, Option.map_eq_some_iff] at h
    obtain ⟨_, h, hd⟩ := h
    cases hd
    simp only [step, Option.bind_eq_bind, Option.bind_eq_some_iff] at h
    obtain ⟨⟨key, stage⟩, hn, h⟩ := h
    rw [seen, hn]
    cases stage with
    | arriving =>
      cases h
      unfold look
      dsimp only
      rcases hl : c.store.lookup key now with ⟨_ | client, s⟩
      · exact .miss hn hl (.inl ⟨rfl, rfl⟩)
      · exact .hit hn hl (.inl ⟨rfl, rfl⟩)
    | rechecking g =>
      cases h
      unfold look
      dsimp only
      rcases hl : c.store.lookup key now with ⟨_ | client, s⟩
      · exact .miss hn hl (.inr ⟨g, rfl, rfl⟩)
      · exact .hit hn hl (.inr ⟨g, rfl, rfl⟩)
    | entering => cases h; exact .enter hn
    | queueing g =>
      dsimp only at h
      cases hg : (c.gates.get? g).bind (·.holder) with
      | some m => rw [hg] at h; cases h
      | none => rw [hg] at h; cases h; exact .turn hn hg
    | missing g => cases h; exact .ask hn
    | keeping g epoch client =>
      cases h
      dsimp only
      by_cases he : c.store.epoch = epoch
      · subst he
        rw [if_pos rfl]
        exact .keep hn
      · rw [if_neg he, ClientStore.keep_of_ne he, lost_self]
        exact .discard hn he
    | releasing g answer => cases h; exact .release hn
    | leaving g answer => cases h; exact .leave hn
    | building | returned => cases h

/-! ## Sizes -/

/-- The settings stay, and the store is within its capacity. -/
structure Sized (config : CacheConfig) (c : ClientCache γ ε) : Prop where
  config : c.store.config = (ClientStore.ofConfig config : ClientStore γ).config
  size : c.store.size ≤ c.store.capacity

theorem capacity_ofConfig (config : CacheConfig) :
    (ClientStore.ofConfig config : ClientStore γ).capacity = max 1 config.capacity.toNat := by
  unfold ClientStore.ofConfig ClientStore.capacity
  dsimp only
  by_cases hz : config.capacity = 0
  · rw [if_pos hz, hz]
    rfl
  · have hpos : config.capacity.toNat ≠ 0 := fun h => hz (UInt64.toNat_inj.1 h)
    rw [if_neg hz]
    omega

theorem Sized.capacity {config : CacheConfig} {c : ClientCache γ ε} (h : Sized config c) :
    c.store.capacity = max 1 config.capacity.toNat := by
  rw [← capacity_ofConfig (γ := γ), ClientStore.capacity, h.config, ClientStore.capacity]

theorem Sized.of_shrinks {config : CacheConfig} {c d : ClientCache γ ε} (h : Sized config c)
    (hs : ClientStore.Shrinks c.store d.store) : Sized config d := by
  refine ⟨hs.config.trans h.config, ?_⟩
  rw [ClientStore.capacity, hs.config]
  exact Nat.le_trans hs.size h.size

theorem sized_move {config : CacheConfig} {c d : ClientCache γ ε} {new : List (CacheEvent γ ε)} (h : Sized config c)
    (m : Move c new d) : Sized config d := by
  cases m with
  | arrive | built | discard => exact h.of_shrinks (.refl c.store)
  | turn | release | enter | leave =>
    refine h.of_shrinks ?_
    simp only [store_setHolder, store_enter, store_leave]
    exact .refl _
  | hit hn hl hs => exact h.of_shrinks (ClientStore.lookup_some hl).2.2
  | miss hn hl hs => exact h.of_shrinks (ClientStore.lookup_none hl).2
  | ask hn => exact ⟨h.config, h.size⟩
  | @keep n g now key client hn =>
    have hpos : 0 < c.store.capacity := by
      rw [h.capacity]
      omega
    obtain ⟨-, -, -, hconfig, hsize⟩ := ClientStore.keep_spec key client now hpos h.size
    refine ⟨hconfig.trans h.config, ?_⟩
    show (c.store.keep key client c.store.epoch now).size ≤ (c.store.keep key client c.store.epoch now).capacity
    rw [ClientStore.capacity, hconfig]
    exact hsize
  | invalidate i =>
    obtain ⟨-, -, hconfig, hsize⟩ := ClientStore.invalidate_spec i c.store
    refine ⟨hconfig.trans h.config, ?_⟩
    show (c.store.apply i).size ≤ (c.store.apply i).capacity
    rw [ClientStore.capacity, hconfig]
    exact Nat.le_trans hsize h.size
  | cleanup now => exact h.of_shrinks (ClientStore.shrinks_cleanup now c.store)

/-- **A cache is within its capacity in every run.** -/
theorem Run.sized {config : CacheConfig} {c : ClientCache γ ε} {es : List (CacheEvent γ ε)}
    (run : Run (ofConfig config) es c) : Sized config c := by
  induction run with
  | refl => exact ⟨rfl, Nat.zero_le _⟩
  | tail a _ last ih => exact sized_move ih (move_of_perform last)

end ClientCache
end JobRunner
