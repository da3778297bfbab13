import JobRunner.Cache.Fetch
import JobRunner.Proofs.CacheRun
import JobRunner.Proofs.Shelf
/-!
# Caches used by one caller after another

A caller that nobody gets in between finds no gate and leaves none behind, so that its call is no more than a look at the
kept clients and, if need be, the keeping of a new one.  Such a cache is a shelf: whatever is asked of it, in whatever
order and at whatever times, the answers and what is kept are those of the shelf that is asked the same at the same times.
-/
namespace JobRunner

/-- The clock after so many readings. -/
def Clock.ticks : Nat → Clock → Clock
  | 0, c => c
  | n + 1, c => ticks n c.tick

theorem Clock.now_le_ticks (n : Nat) (c : Clock) : c.now ≤ (c.ticks n).now := by
  induction n generalizing c with
  | zero => exact Nat.le_refl _
  | succ n ih => exact Nat.le_trans c.now_le_read (ih c.tick)

namespace Table

variable {κ β : Type} [DecidableEq κ]

theorem erase_insert_empty (k : κ) (v : β) : ((empty : Table κ β).insert k v).erase k = empty := by
  refine Table.ext ?_
  simp [insert, erase, filter, empty, place]

end Table

namespace ClientCache

variable {γ ε : Type} {s s' : ClientStore γ} {n g m now epoch : Nat} {key : CacheKey} {client : γ}
  {answer : CacheAnswer γ ε} {c c' : ClientCache γ ε} {clock : Clock}

/-! ## One call alone -/

/-- A cache that nobody uses. -/
def unused (s : ClientStore γ) (g m : Nat) : ClientCache γ ε := ⟨s, .empty, .empty, .empty, g, m⟩

/-- A cache with one call, which has not entered a gate. -/
def alone (s : ClientStore γ) (n : Nat) (key : CacheKey) (stage : CacheStage γ ε) (g m : Nat) : ClientCache γ ε :=
  ⟨s, .empty, .empty, Table.empty.insert n ⟨key, stage⟩, g, m⟩

/-- A cache with one call, which has entered its gate. -/
def within (s : ClientStore γ) (n : Nat) (key : CacheKey) (stage : CacheStage γ ε) (holder : Option Nat) (g m : Nat) :
    ClientCache γ ε :=
  ⟨s, Table.empty.insert key g, Table.empty.insert g ⟨holder, 2⟩, Table.empty.insert n ⟨key, stage⟩, g + 1, m⟩

theorem step_found (h : s.lookup key now = (some client, s')) : (alone (ε := ε) s n key .arriving g m).step n now =
    some (alone s' n key (.returned (.client client)) g m) := by
  simp only [step, alone, look, put, h, Table.get?_insert_self, Table.insert_insert, Option.bind_eq_bind,
    Option.bind_some]

theorem step_absent (h : s.lookup key now = (none, s')) :
    (alone (ε := ε) s n key .arriving g m).step n now = some (alone s' n key .entering g m) := by
  simp only [step, alone, look, put, h, Table.get?_insert_self, Table.insert_insert, Option.bind_eq_bind,
    Option.bind_some]

theorem step_entering :
    (alone (ε := ε) s n key .entering g m).step n now = some (within s n key (.queueing g) none g m) := by
  simp only [step, alone, within, enter, put, Table.get?_insert_self, Table.get?_empty, Table.insert_insert,
    Option.bind_eq_bind, Option.bind_some]

theorem step_queueing : (within (ε := ε) s n key (.queueing g) none g m).step n now =
    some (within s n key (.rechecking g) (some n) g m) := by
  simp only [step, within, setHolder, put, Table.get?_insert_self, Table.insert_insert, Option.bind_eq_bind,
    Option.bind_some]

theorem step_rechecking (h : s.lookup key now = (none, s')) :
    (within (ε := ε) s n key (.rechecking g) (some n) g m).step n now =
      some (within s' n key (.missing g) (some n) g m) := by
  simp only [step, within, look, put, h, Table.get?_insert_self, Table.insert_insert, Option.bind_eq_bind,
    Option.bind_some]

theorem step_missing : (within (ε := ε) s n key (.missing g) (some n) g m).step n now =
    some (within s.miss.2 n key (.building g s.epoch) (some n) g m) := by
  simp only [step, within, ClientStore.miss, put, Table.get?_insert_self, Table.insert_insert,
    Option.bind_eq_bind, Option.bind_some]

theorem step_building : (within (ε := ε) s n key (.building g epoch) (some n) g m).step n now = none := by
  simp only [step, within, Table.get?_insert_self, Option.bind_eq_bind, Option.bind_some]

theorem step_keeping : (within (ε := ε) s n key (.keeping g epoch client) (some n) g m).step n now =
    some (within (s.keep key client epoch now) n key (.releasing g (.client client)) (some n) g m) := by
  simp only [step, within, put, Table.get?_insert_self, Table.insert_insert, Option.bind_eq_bind,
    Option.bind_some]

theorem step_releasing : (within s n key (.releasing g answer) (some n) g m).step n now =
    some (within s n key (.leaving g answer) none g m) := by
  simp only [step, within, setHolder, put, Table.get?_insert_self, Table.insert_insert, Option.bind_eq_bind,
    Option.bind_some]

theorem step_leaving : (within s n key (.leaving g answer) none g m).step n now =
    some (alone s n key (.returned answer) (g + 1) m) := by
  simp [step, within, alone, leave, put, Table.insert_insert, Table.erase_insert_empty]

theorem step_returned : (alone s n key (.returned answer) g m).step n now = none := by
  simp only [step, alone, Table.get?_insert_self, Option.bind_eq_bind, Option.bind_some]

theorem report_client : (within (ε := ε) s n key (.building g epoch) (some n) g m).report n (.client client) =
    some (within s n key (.keeping g epoch client) (some n) g m) := by
  simp only [report, within, put, Table.get?_insert_self, Table.insert_insert, Option.bind_eq_bind,
    Option.bind_some]

theorem report_unbuilt (h : ∀ client, answer ≠ .client client) :
    (within s n key (.building g epoch) (some n) g m).report n answer =
      some (within s n key (.releasing g answer) (some n) g m) := by
  cases answer with
  | client client => exact absurd rfl (h client)
  | failed | crashed =>
    simp only [report, within, put, Table.get?_insert_self, Table.insert_insert, Option.bind_eq_bind,
      Option.bind_some]

theorem advance_succ (h : c.step n clock.read = some c') (fuel : Nat) :
    c.advance n (fuel + 1) clock = c'.advance n fuel clock.tick := by
  rw [advance, h]

theorem advance_stop (h : c.step n clock.read = none) (fuel : Nat) : c.advance n fuel clock = (c, clock) := by
  cases fuel with
  | zero => rfl
  | succ fuel => rw [advance, h]

theorem advance_found (h : s.lookup key clock.read = (some client, s')) :
    (alone (ε := ε) s n key .arriving g m).advance n stages clock =
      (alone s' n key (.returned (.client client)) g m, clock.tick) := by
  unfold stages
  rw [advance_succ (step_found h), advance_stop step_returned]

theorem lookup_of_absent (h : s.entries.get? key = none) : s.lookup key now = (none, s) := by
  rw [ClientStore.lookup, h]

theorem advance_absent (h : s.lookup key clock.read = (none, s')) (hk : s'.entries.get? key = none) :
    (alone (ε := ε) s n key .arriving g m).advance n stages clock =
      (within s'.miss.2 n key (.building g s'.epoch) (some n) g m, clock.ticks 5) := by
  unfold stages
  rw [advance_succ (step_absent h), advance_succ step_entering, advance_succ step_queueing,
    advance_succ (step_rechecking (lookup_of_absent hk)), advance_succ step_missing, advance_stop step_building]
  rfl

theorem advance_built : (within (ε := ε) s n key (.keeping g epoch client) (some n) g m).advance n stages clock =
    (alone (s.keep key client epoch clock.read) n key (.returned (.client client)) (g + 1) m, clock.ticks 3) := by
  unfold stages
  rw [advance_succ step_keeping, advance_succ step_releasing, advance_succ step_leaving, advance_stop step_returned]
  rfl

theorem advance_unbuilt : (within s n key (.releasing g answer) (some n) g m).advance n stages clock =
    (alone s n key (.returned answer) (g + 1) m, clock.ticks 2) := by
  unfold stages
  rw [advance_succ step_releasing, advance_succ step_leaving, advance_stop step_returned]
  rfl

end ClientCache

/-! ## Builders -/

/-- What makes a client, when it is asked at some time, with the state of the builders.  It takes its time, and it leaves
the cache alone. -/
structure Builder (γ ε β : Type) where
  build : Clock → β → CacheAnswer γ ε × Clock × β
  forward : ∀ clock b, clock.now ≤ (build clock b).2.1.now

namespace Fetching

variable {γ ε β : Type} {s s' : ClientStore γ} {g m : Nat} {key : CacheKey} {clock : Clock} {b : β}

def ask (builder : Builder γ ε β) (f : Fetching γ ε β) : CacheAnswer γ ε × Fetching γ ε β :=
  let r := builder.build f.clock f.builders
  (r.1, { f with clock := r.2.1, builders := r.2.2 })

theorem answer?_alone {n : Nat} {answer : CacheAnswer γ ε} :
    (ClientCache.alone s n key (.returned answer) g m).answer? n = some answer := by
  simp only [ClientCache.answer?, ClientCache.stage?, ClientCache.alone, Table.get?_insert_self, Option.map_some]

theorem dismiss_alone {n : Nat} {stage : CacheStage γ ε} :
    (ClientCache.alone s n key stage g m).dismiss n = .unused s g m := by
  simp only [ClientCache.dismiss, ClientCache.alone, Table.erase_insert_empty, ClientCache.unused]

theorem fetch_found {client : γ} (h : s.lookup key clock.read = (some client, s')) (builder : Builder γ ε β) :
    fetch key (ask builder) ⟨.unused s g m, clock, b⟩ =
      (some (.client client), false, ⟨.unused s' g (m + 1), clock.tick, b⟩) := by
  have harrive : (ClientCache.unused (ε := ε) s g m).arrive key = (m, .alone s m key .arriving g (m + 1)) := rfl
  have hbuilding : (ClientCache.alone s' m key (.returned (.client client : CacheAnswer γ ε)) g (m + 1)).isBuilding m =
      false := by
    simp only [ClientCache.isBuilding, ClientCache.stage?, ClientCache.alone, Table.get?_insert_self, Option.map_some]
  simp only [fetch, harrive, advance, ClientCache.advance_found h, hbuilding, Bool.false_eq_true, if_false,
    answer?_alone, dismiss_alone]

def settled (key : CacheKey) (now : Nat) (s : ClientStore γ) : CacheAnswer γ ε → ClientStore γ
  | .client client => s.miss.2.keep key client s.epoch now
  | _ => s.miss.2

theorem fetch_absent (h : s.lookup key clock.read = (none, s')) (hk : s'.entries.get? key = none)
    (builder : Builder γ ε β) :
    ∃ k, fetch key (ask builder) ⟨.unused s g m, clock, b⟩ =
      (some (builder.build (clock.ticks 5) b).1, true,
        ⟨.unused (settled key (builder.build (clock.ticks 5) b).2.1.read s' (builder.build (clock.ticks 5) b).1)
          (g + 1) (m + 1), (builder.build (clock.ticks 5) b).2.1.tick.ticks k, (builder.build (clock.ticks 5) b).2.2⟩) := by
  have harrive : (ClientCache.unused (ε := ε) s g m).arrive key = (m, .alone s m key .arriving g (m + 1)) := rfl
  have hbuilding : (ClientCache.within (ε := ε) s'.miss.2 m key (.building g s'.epoch) (some m) g (m + 1)).isBuilding m =
      true := by
    simp only [ClientCache.isBuilding, ClientCache.stage?, ClientCache.within, Table.get?_insert_self, Option.map_some]
  simp only [fetch, harrive, advance, ClientCache.advance_absent h hk, hbuilding, if_true, ask]
  generalize builder.build (clock.ticks 5) b = r
  obtain ⟨answer, clock', b'⟩ := r
  cases answer with
  | client client =>
    refine ⟨2, ?_⟩
    simp only [ClientCache.report_client, Option.getD_some, ClientCache.advance_built, answer?_alone, dismiss_alone,
      settled]
    rfl
  | failed | crashed =>
    refine ⟨1, ?_⟩
    rw [ClientCache.report_unbuilt (by simp)]
    simp only [Option.getD_some, ClientCache.advance_unbuilt, answer?_alone, dismiss_alone, settled]
    rfl

end Fetching

/-! ## What is asked and answered -/

/-- What a cache, or a shelf, answers. -/
inductive CacheReply (γ ε : Type) where
  /-- The answer to a call for a client, and whether its builder was asked. -/
  | answered (answer : Option (CacheAnswer γ ε)) (asked : Bool)
  | flag (b : Bool)
  | number (n : Nat)
  | report (stats : CacheStats) (entries : List CacheEntryStats)

inductive CacheUse (γ ε β : Type) where
  | fetch (key : CacheKey) (builder : Builder γ ε β)
  | contains (key : CacheKey)
  | cleanByKey (key : CacheKey)
  | cleanByPattern (pattern : String)
  | cleanup
  | clear
  | size
  | detailed

/-- What is asked of a shelf.  The times are those at which a cache reads the clock to answer the same. -/
inductive ShelfUse (γ ε : Type) where
  | fetch (key : CacheKey) (looked : Nat) (built : CacheAnswer γ ε) (builtAt : Nat)
  | contains (key : CacheKey) (now : Nat)
  | cleanByKey (key : CacheKey)
  | cleanByPattern (pattern : String)
  | cleanup (now : Nat)
  | clear
  | size
  | detailed (now : Nat)

namespace ShelfUse

variable {γ ε : Type}

def perform (h : Shelf γ) : ShelfUse γ ε → CacheReply γ ε × Shelf γ
  | fetch key looked built builtAt =>
    let r := h.fetch key looked built builtAt
    (.answered (some r.1.1) r.1.2, r.2)
  | contains key now => (.flag (h.contains key now), h)
  | cleanByKey key => (.flag (h.item? key).isSome, (h.invalidate (· == key)).2)
  | cleanByPattern pattern =>
    let r := h.invalidate (·.isMatch pattern)
    (.number r.1, r.2)
  | cleanup now =>
    let r := h.cleanup now
    (.number r.1, r.2)
  | clear =>
    let r := h.invalidate fun _ => true
    (.number r.1, r.2)
  | size => (.number h.items.length, h)
  | detailed now => (.report h.stats (h.detailed now), h)

/-- The answers of a shelf that is asked one thing after another, and what is left on it. -/
def performAll : List (ShelfUse γ ε) → Shelf γ → List (CacheReply γ ε) × Shelf γ
  | [], h => ([], h)
  | u :: us, h =>
    let r := u.perform h
    let rest := performAll us r.2
    (r.1 :: rest.1, rest.2)

/-- The times that count for an answer; when a client was built counts only if it was. -/
def times : ShelfUse γ ε → CacheReply γ ε → List Nat
  | fetch _ looked _ builtAt, .answered _ true => [looked, builtAt]
  | fetch _ looked _ _, _ => [looked]
  | contains _ now, _ => [now]
  | cleanup now, _ => [now]
  | detailed now, _ => [now]
  | _, _ => []

end ShelfUse

namespace CacheUse

variable {γ ε β : Type}

def perform (f : Fetching γ ε β) : CacheUse γ ε β → CacheReply γ ε × Fetching γ ε β
  | fetch key builder =>
    let r := f.fetch key (Fetching.ask builder)
    (.answered r.1 r.2.1, r.2.2)
  | contains key =>
    let r := f.onStore fun now s => (s.contains key now, s)
    (.flag r.1, r.2)
  | cleanByKey key =>
    let r := f.onStore fun _ s => s.cleanByKey key
    (.flag r.1, r.2)
  | cleanByPattern pattern =>
    let r := f.onStore fun _ s => s.cleanByPattern pattern
    (.number r.1, r.2)
  | cleanup =>
    let r := f.onStore fun now s => s.cleanup now
    (.number r.1, r.2)
  | clear =>
    let r := f.onStore fun _ s => s.clear
    (.number r.1, r.2)
  | size =>
    let r := f.onStore fun _ s => (s.size, s)
    (.number r.1, r.2)
  | detailed =>
    let r := f.onStore fun now s => ((s.stats, s.detailed now), s)
    (.report r.1.1 r.1.2, r.2)

/-- The same asked of a shelf.  A caller that finds no client has read the clock five times when its builder is asked. -/
def onShelf (f : Fetching γ ε β) : CacheUse γ ε β → ShelfUse γ ε
  | fetch key builder =>
    let r := builder.build (f.clock.ticks 5) f.builders
    .fetch key f.clock.read r.1 r.2.1.read
  | contains key => .contains key f.clock.read
  | cleanByKey key => .cleanByKey key
  | cleanByPattern pattern => .cleanByPattern pattern
  | cleanup => .cleanup f.clock.read
  | clear => .clear
  | size => .size
  | detailed => .detailed f.clock.read

/-- What is asked of a cache, one thing after another, as it would be asked of a shelf, with the answers of the cache; and
what becomes of the cache. -/
def performAll : List (CacheUse γ ε β) → Fetching γ ε β → List (ShelfUse γ ε × CacheReply γ ε) × Fetching γ ε β
  | [], f => ([], f)
  | u :: us, f =>
    let r := u.perform f
    let rest := performAll us r.2
    ((u.onShelf f, r.1) :: rest.1, rest.2)

/-! ## Caches as shelves -/

/-- Nobody is in the cache. -/
structure Quiet (f : Fetching γ ε β) : Prop where
  unused : f.cache = .unused f.cache.store f.cache.gatesMade f.cache.callsMade
  ranked : f.cache.store.Ranked

/-- From one state to another, a cache answers what its shelf answers, at times that follow each other. -/
structure Agrees (f f' : Fetching γ ε β) (u : ShelfUse γ ε) (reply : CacheReply γ ε) : Prop where
  quiet : Quiet f'
  same : u.perform f.cache.store.shelf = (reply, f'.cache.store.shelf)
  ordered : (u.times reply).Pairwise (· ≤ ·)
  between : ∀ t ∈ u.times reply, f.clock.now ≤ t ∧ t ≤ f'.clock.now
  forward : f.clock.now ≤ f'.clock.now

variable {f : Fetching γ ε β} {s : ClientStore γ} {key : CacheKey}

theorem agrees_onStore {α : Type} {op : Nat → ClientStore γ → α × ClientStore γ} {u : ShelfUse γ ε}
    {reply : CacheReply γ ε} (h : Quiet f) (hr : (op f.clock.read f.cache.store).2.Ranked)
    (hs : u.perform f.cache.store.shelf = (reply, (op f.clock.read f.cache.store).2.shelf))
    (ht : u.times reply = [] ∨ u.times reply = [f.clock.read]) : Agrees f (f.onStore op).2 u reply := by
  refine ⟨⟨?_, hr⟩, hs, ?_, fun t hm => ?_, f.clock.now_le_read⟩
  · have hunused := h.unused
    unfold ClientCache.unused at hunused
    simp only [Fetching.onStore, ClientCache.onStore, ClientCache.unused]
    rw [hunused]
  · rcases ht with ht | ht <;> simp [ht]
  · rcases ht with ht | ht
    · rw [ht] at hm
      cases hm
    · rw [ht, List.mem_singleton] at hm
      subst hm
      exact ⟨f.clock.now_le_read, Nat.le_refl _⟩

theorem ranked_miss (h : s.Ranked) : s.miss.2.Ranked := ⟨h.distinct, h.numbered, h.room, h.pos⟩

theorem settle_shelf (h : s.Ranked) (hk : s.entries.get? key = none) (now : Nat) (answer : CacheAnswer γ ε) :
    (Fetching.settled key now s answer).Ranked ∧
      (Fetching.settled key now s answer).shelf = s.shelf.settle key now answer := by
  cases answer with
  | client c => exact ClientStore.keep_shelf (ranked_miss h) hk c now
  | failed | crashed => exact ⟨ranked_miss h, rfl⟩

theorem fetch_found {client : γ} {s' : ClientStore γ} {g m : Nat} {clock : Clock} {b : β} (h : s.Ranked)
    (hl : s.lookup key clock.read = (some client, s')) (builder : Builder γ ε β) :
    Agrees ⟨.unused s g m, clock, b⟩ ((fetch key builder).perform ⟨.unused s g m, clock, b⟩).2
      ((fetch key builder).onShelf ⟨.unused s g m, clock, b⟩)
      ((fetch key builder).perform ⟨.unused s g m, clock, b⟩).1 := by
  obtain ⟨hr, hs⟩ := ClientStore.lookup_shelf h key clock.read
  rw [hl] at hr hs
  have hshelf : ∀ built builtAt, s.shelf.fetch (ε := ε) key clock.read built builtAt =
      ((.client client, false), s'.shelf) := by
    intro built builtAt
    rw [Shelf.fetch, hs]
  have hread : clock.now ≤ clock.read := clock.now_le_read
  simp only [perform, onShelf, Fetching.fetch_found hl]
  refine ⟨⟨rfl, hr⟩, ?_, ?_, ?_, hread⟩
  · simp only [ShelfUse.perform, ClientCache.unused, hshelf]
  · simp [ShelfUse.times]
  · simp only [ShelfUse.times, List.mem_singleton, forall_eq]
    exact ⟨hread, Nat.le_refl _⟩

theorem fetch_absent {s' : ClientStore γ} {g m : Nat} {clock : Clock} {b : β} (h : s.Ranked)
    (hl : s.lookup key clock.read = (none, s')) (builder : Builder γ ε β) :
    Agrees ⟨.unused s g m, clock, b⟩ ((fetch key builder).perform ⟨.unused s g m, clock, b⟩).2
      ((fetch key builder).onShelf ⟨.unused s g m, clock, b⟩)
      ((fetch key builder).perform ⟨.unused s g m, clock, b⟩).1 := by
  obtain ⟨hr, hs⟩ := ClientStore.lookup_shelf h key clock.read
  rw [hl] at hr hs
  have hk : s'.entries.get? key = none := Option.map_eq_none_iff.1 (ClientStore.lookup_none hl).1
  obtain ⟨k, hfetch⟩ := Fetching.fetch_absent (ε := ε) (g := g) (m := m) (b := b) hl hk builder
  have hforward := builder.forward (clock.ticks 5) b
  simp only [perform, onShelf, hfetch]
  generalize builder.build (clock.ticks 5) b = r at hforward ⊢
  obtain ⟨answer, clock', b'⟩ := r
  obtain ⟨hkept, hsettled⟩ := settle_shelf hr hk clock'.read answer
  have hshelf : s.shelf.fetch key clock.read answer clock'.read =
      ((answer, true), s'.shelf.settle key clock'.read answer) := by
    rw [Shelf.fetch, hs]
  -- the clock is read for the lookup, then by the builder, and last to keep the client
  have hlooked : clock.now ≤ clock.read := clock.now_le_read
  have hasked : clock.read ≤ (clock.ticks 5).now := clock.tick.now_le_ticks 4
  have hread : clock'.now ≤ clock'.read := clock'.now_le_read
  have hdone : clock'.read ≤ (clock'.tick.ticks k).now := clock'.tick.now_le_ticks k
  dsimp only at hforward
  refine ⟨⟨rfl, hkept⟩, ?_, ?_, ?_, ?_⟩
  · simp only [ShelfUse.perform, ClientCache.unused, hshelf, hsettled]
  · simp only [ShelfUse.times, List.pairwise_cons, List.mem_singleton, forall_eq]
    refine ⟨?_, by simp⟩
    omega
  · simp only [ShelfUse.times, List.forall_mem_cons]
    refine ⟨⟨hlooked, ?_⟩, ⟨?_, hdone⟩, by simp⟩
    · show clock.read ≤ (clock'.tick.ticks k).now
      omega
    · omega
  · show clock.now ≤ (clock'.tick.ticks k).now
    omega

theorem cleanByKey_shelf (s : ClientStore γ) (key : CacheKey) :
    (s.shelf.item? key).isSome = (s.cleanByKey key).1 := by
  rw [ClientStore.item?_shelf, Option.isSome_map]
  show _ = (s.size - (s.entries.erase key).size != 0)
  cases he : s.entries.get? key with
  | none =>
    have hsum := Table.sum_erase (fun _ _ => 1) s.entries key
    simp only [he, ← Table.size_eq_sum, Option.map_none, Option.getD_none] at hsum
    have hsize : s.size - (s.entries.erase key).size = 0 := by
      show s.entries.size - _ = 0
      omega
    rw [hsize]
    rfl
  | some e =>
    have hsize := Table.size_erase_of_get? he
    have hone : s.size - (s.entries.erase key).size = 1 := by
      show s.entries.size - _ = 1
      omega
    rw [hone]
    rfl

/-- **Whatever is asked of a cache, its shelf answers the same.** -/
theorem agrees_perform (h : Quiet f) (u : CacheUse γ ε β) : Agrees f (u.perform f).2 (u.onShelf f) (u.perform f).1 := by
  have hr := h.ranked
  cases u with
  | fetch key builder =>
    obtain ⟨cache, clock, b⟩ := f
    obtain ⟨s, g, m, rfl⟩ : ∃ s g m, cache = .unused s g m := ⟨_, _, _, h.unused⟩
    rcases hl : s.lookup key clock.read with ⟨_ | client, s'⟩
    · exact fetch_absent hr hl builder
    · exact fetch_found hr hl builder
  | contains key =>
    simp only [perform, onShelf]
    exact agrees_onStore h hr (congrArg (fun b => (CacheReply.flag b, _)) (ClientStore.contains_shelf ..)) (.inr rfl)
  | cleanByKey key =>
    obtain ⟨hranked, hshelf⟩ := ClientStore.invalidate_shelf hr (· == key)
    simp only [perform, onShelf]
    refine agrees_onStore h hranked ?_ (.inl rfl)
    simp only [ShelfUse.perform, hshelf, cleanByKey_shelf]
    rfl
  | cleanByPattern pattern =>
    obtain ⟨hranked, hshelf⟩ := ClientStore.invalidate_shelf hr (·.isMatch pattern)
    simp only [perform, onShelf]
    exact agrees_onStore h hranked (congrArg (fun r => (CacheReply.number r.1, r.2)) hshelf) (.inl rfl)
  | cleanup =>
    obtain ⟨hranked, hshelf⟩ := ClientStore.cleanup_shelf hr f.clock.read
    simp only [perform, onShelf]
    exact agrees_onStore h hranked (congrArg (fun r => (CacheReply.number r.1, r.2)) hshelf) (.inr rfl)
  | clear =>
    obtain ⟨hranked, hshelf⟩ := ClientStore.invalidate_shelf hr fun _ => true
    simp only [perform, onShelf]
    exact agrees_onStore h hranked (congrArg (fun r => (CacheReply.number r.1, r.2)) hshelf) (.inl rfl)
  | size =>
    simp only [perform, onShelf]
    exact agrees_onStore h hr (congrArg (fun n => (CacheReply.number n, _)) (ClientStore.length_shelf _)) (.inl rfl)
  | detailed =>
    simp only [perform, onShelf]
    refine agrees_onStore h hr ?_ (.inr rfl)
    show (CacheReply.report f.cache.store.shelf.stats (f.cache.store.shelf.detailed f.clock.read), _) = _
    rw [ClientStore.stats_shelf, ClientStore.detailed_shelf]
    rfl

theorem agrees_performAll (h : Quiet f) (us : List (CacheUse γ ε β)) :
    ShelfUse.performAll ((performAll us f).1.map Prod.fst) f.cache.store.shelf =
        ((performAll us f).1.map Prod.snd, (performAll us f).2.cache.store.shelf) ∧
      ((performAll us f).1.flatMap fun e => e.1.times e.2).Pairwise (· ≤ ·) ∧
      ∀ t ∈ (performAll us f).1.flatMap fun e => e.1.times e.2, f.clock.now ≤ t := by
  induction us generalizing f with
  | nil => exact ⟨rfl, .nil, fun t ht => by cases ht⟩
  | cons u us ih =>
    have ha := agrees_perform h u
    obtain ⟨hsame, hordered, hlater⟩ := ih ha.quiet
    refine ⟨?_, ?_, fun t ht => ?_⟩
    · simp only [performAll, List.map_cons, ShelfUse.performAll, ha.same, hsame]
    · simp only [performAll, List.flatMap_cons]
      refine List.pairwise_append.2 ⟨ha.ordered, hordered, fun t ht t' ht' => ?_⟩
      exact Nat.le_trans (ha.between t ht).2 (hlater t' ht')
    · simp only [performAll, List.flatMap_cons] at ht
      rcases List.mem_append.1 ht with ht | ht
      · exact (ha.between t ht).1
      -- a later use reads the clock after this one has left it
      · exact Nat.le_trans ha.forward (hlater t ht)

/-- **A cache that is used by one caller after another is a shelf**, for every capacity, every lifetime and every clock:
its answers are those of the shelf that is asked the same at the times at which the cache read the clock, these times
never go back, and what it keeps in the end is what is on the shelf. -/
theorem cache_is_shelf (config : CacheConfig) (clock : Clock) (b : β) (us : List (CacheUse γ ε β)) :
    ShelfUse.performAll ((performAll us ⟨.ofConfig config, clock, b⟩).1.map Prod.fst) (.ofConfig config) =
        ((performAll us ⟨.ofConfig config, clock, b⟩).1.map Prod.snd,
          (performAll us ⟨.ofConfig config, clock, b⟩).2.cache.store.shelf) ∧
      ((performAll us ⟨.ofConfig config, clock, b⟩).1.flatMap fun e => e.1.times e.2).Pairwise (· ≤ ·) := by
  have hpos : 0 < (ClientStore.ofConfig config : ClientStore γ).capacity := by
    rw [ClientCache.capacity_ofConfig]
    omega
  have hquiet : Quiet (⟨.ofConfig config, clock, b⟩ : Fetching γ ε β) :=
    ⟨rfl, ⟨.nil, fun e he => absurd he List.not_mem_nil, Nat.zero_le _, hpos⟩⟩
  have hempty : (ClientStore.ofConfig config : ClientStore γ).shelf = Shelf.ofConfig config := by
    have hrow : (ClientStore.ofConfig config : ClientStore γ).byRecency = [] := List.mergeSort_nil
    rw [ClientStore.shelf_eq hrow, ClientCache.capacity_ofConfig]
    rfl
  obtain ⟨hsame, hordered, -⟩ := agrees_performAll hquiet us
  refine ⟨?_, hordered⟩
  rw [← hsame, ← hempty]
  rfl

end CacheUse
end JobRunner
