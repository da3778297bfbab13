import JobRunner.Cache.Client
import JobRunner.Proofs.KeptClients
/-!
# Stores as shelves

A shelf is the plain picture of a store: clients in a row, the one asked for last in front, and nothing else to know
about them but when they were built and last asked for, and how often.  It needs no numbers of accesses, since the order
of the row says it all: a client that is found goes to the front, and the one at the end makes room for a new one.

Every store is such a shelf as long as no two of its clients have the same number, and each operation of a store is what
it looks like on its shelf.
-/
namespace JobRunner

structure ShelfItem (γ : Type) where
  key : CacheKey
  client : γ
  builtAt : Nat
  usedAt : Nat
  hits : Nat

/-- Clients in a row, the one asked for last in front, and what was counted. -/
structure Shelf (γ : Type) where
  capacity : Nat
  ttl : Option Duration
  items : List (ShelfItem γ) := []
  hits : Nat := 0
  misses : Nat := 0
  evictions : Nat := 0
  expirations : Nat := 0
  invalidations : Nat := 0

namespace Shelf

variable {γ ε : Type}

/-- An empty shelf with room for one client at least. -/
def ofConfig (config : CacheConfig) : Shelf γ := { capacity := max 1 config.capacity.toNat, ttl := config.ttl }

/-- The age of the client has reached the lifetime. -/
def isExpired (h : Shelf γ) (now : Nat) (i : ShelfItem γ) : Bool := h.ttl.any fun ttl => ttl.nanos ≤ now - i.builtAt

def item? (h : Shelf γ) (key : CacheKey) : Option (ShelfItem γ) := h.items.find? (·.key == key)

def others (h : Shelf γ) (key : CacheKey) : List (ShelfItem γ) := h.items.filter (·.key != key)

def contains (h : Shelf γ) (key : CacheKey) (now : Nat) : Bool := (h.item? key).any fun i => !h.isExpired now i

/-- A client that is found comes to the front; one that has reached the lifetime is dropped. -/
def lookup (key : CacheKey) (now : Nat) (h : Shelf γ) : Option γ × Shelf γ :=
  match h.item? key with
  | none => (none, h)
  | some i =>
    if h.isExpired now i then (none, { h with items := h.others key, expirations := h.expirations + 1 })
    else
      (some i.client, { h with items := { i with usedAt := now, hits := i.hits + 1 } :: h.others key, hits := h.hits + 1 })

def miss (h : Shelf γ) : Shelf γ := { h with misses := h.misses + 1 }

/-- A new client comes to the front; when the shelf is full, the one at the end makes room. -/
def keep (key : CacheKey) (client : γ) (now : Nat) (h : Shelf γ) : Shelf γ :=
  let i : ShelfItem γ := ⟨key, client, now, now, 0⟩
  if h.items.length < h.capacity then { h with items := i :: h.items }
  else { h with items := i :: h.items.dropLast, evictions := h.evictions + 1 }

/-- Counts a client that was missing, and puts up the one that its builder made, if it made one. -/
def settle (key : CacheKey) (now : Nat) (h : Shelf γ) : CacheAnswer γ ε → Shelf γ
  | .client c => h.miss.keep key c now
  | _ => h.miss

/-- Asks for a client and, if there is none, for its builder; the flag tells whether the builder was asked. -/
def fetch (key : CacheKey) (looked : Nat) (built : CacheAnswer γ ε) (builtAt : Nat) (h : Shelf γ) :
    (CacheAnswer γ ε × Bool) × Shelf γ :=
  match h.lookup key looked with
  | (some c, h) => ((.client c, false), h)
  | (none, h) => ((built, true), h.settle key builtAt built)

/-- Drops the clients whose key passes the test; the answer is their number. -/
def invalidate (test : CacheKey → Bool) (h : Shelf γ) : Nat × Shelf γ :=
  let kept := h.items.filter fun i => !test i.key
  let dropped := h.items.length - kept.length
  (dropped, { h with items := kept, invalidations := h.invalidations + dropped })

/-- Drops the clients that have reached the lifetime; the answer is their number. -/
def cleanup (now : Nat) (h : Shelf γ) : Nat × Shelf γ :=
  let kept := h.items.filter fun i => !h.isExpired now i
  let dropped := h.items.length - kept.length
  (dropped, { h with items := kept, expirations := h.expirations + dropped })

def stats (h : Shelf γ) : CacheStats :=
  ⟨h.items.length, h.capacity, h.ttl.map (·.secs), h.hits, h.misses, h.evictions, h.expirations, h.invalidations⟩

/-- What there is to tell about each client, from front to end. -/
def detailed (h : Shelf γ) (now : Nat) : List CacheEntryStats :=
  h.items.map fun i => ⟨i.key.target.name ++ ":" ++ i.key.digest, i.key.target, (Duration.between i.builtAt now).millis,
    (Duration.between i.usedAt now).millis, i.hits⟩

end Shelf

namespace Table

variable {κ β : Type} [DecidableEq κ]

theorem place_perm (k : κ) (v : β) : ∀ {l : List (κ × β)}, (l.map Prod.fst).Nodup →
    (place k v l).Perm ((k, v) :: l.filter fun e => e.1 != k)
  | [], _ => .refl _
  | (k', v') :: l, h => by
    rw [List.map_cons, List.nodup_cons] at h
    by_cases hk : k' = k
    · subst hk
      have hkeep : (l.filter fun e => e.1 != k') = l := by
        refine List.filter_eq_self.2 fun e he => ?_
        have hne : e.1 ≠ k' := fun heq => h.1 (List.mem_map.2 ⟨e, he, heq⟩)
        simp [hne]
      simp [place, hkeep]
    · simp only [place, hk, if_false, List.filter_cons, bne_iff_ne, ne_eq, not_false_eq_true, if_true]
      exact ((place_perm k v h.2).cons _).trans (.swap ..)

/-- **Binding a key**, but for the order: the new binding and the old ones of other keys. -/
theorem entries_insert_perm (t : Table κ β) (k : κ) (v : β) :
    (t.insert k v).entries.Perm ((k, v) :: (t.erase k).entries) := place_perm k v t.nodup

end Table

namespace ClientStore

variable {γ : Type} {key : CacheKey} {now : Nat} {s s' : ClientStore γ}

/-- How a kept client looks on a shelf. -/
def item (e : CacheKey × CacheEntry γ) : ShelfItem γ := ⟨e.1, e.2.client, e.2.createdAt, e.2.lastAccessAt, e.2.hits⟩

def shelf (s : ClientStore γ) : Shelf γ where
  capacity := s.capacity
  ttl := s.config.ttl
  items := s.byRecency.map item
  hits := s.hits
  misses := s.misses
  evictions := s.evictions
  expirations := s.expirations
  invalidations := s.invalidations

theorem shelf_eq {row : List (CacheKey × CacheEntry γ)} (h : s.byRecency = row) :
    s.shelf = ⟨s.capacity, s.config.ttl, row.map item, s.hits, s.misses, s.evictions, s.expirations,
      s.invalidations⟩ := by
  rw [shelf, h]

/-- No two clients have the same number, none has a number that is still to come, and there are not too many. -/
structure Ranked (s : ClientStore γ) : Prop where
  distinct : s.entries.entries.Pairwise fun a b => a.2.lastAccess ≠ b.2.lastAccess
  numbered : ∀ e ∈ s.entries.entries, e.2.lastAccess ≤ s.accesses
  room : s.size ≤ s.capacity
  pos : 0 < s.capacity

/-! ## The order of the row -/

theorem byRecency_perm (s : ClientStore γ) : s.byRecency.Perm s.entries.entries := List.mergeSort_perm ..

theorem length_byRecency (s : ClientStore γ) : s.byRecency.length = s.size := s.byRecency_perm.length_eq

theorem length_shelf (s : ClientStore γ) : s.shelf.items.length = s.size :=
  (List.length_map ..).trans (length_byRecency s)

theorem keys_byRecency (s : ClientStore γ) : (s.byRecency.map Prod.fst).Nodup :=
  (s.byRecency_perm.map Prod.fst).nodup_iff.2 s.entries.nodup

theorem Ranked.descending (h : s.Ranked) : s.byRecency.Pairwise fun a b => b.2.lastAccess < a.2.lastAccess := by
  have hsorted : s.byRecency.Pairwise fun a b => decide (b.2.lastAccess ≤ a.2.lastAccess) = true := by
    refine List.pairwise_mergeSort (fun a b c => ?_) (fun a b => ?_) _
    · simp only [decide_eq_true_eq]
      omega
    · simp only [Bool.or_eq_true, decide_eq_true_eq]
      omega
  have hdistinct : s.byRecency.Pairwise fun a b => a.2.lastAccess ≠ b.2.lastAccess :=
    (s.byRecency_perm.pairwise_iff fun hne => hne.symm).2 h.distinct
  refine (hsorted.and hdistinct).imp fun hab => ?_
  have hle := of_decide_eq_true hab.1
  omega

/-- There is only one way to put the clients into their order. -/
theorem byRecency_eq {l : List (CacheKey × CacheEntry γ)} (hp : l.Perm s.entries.entries)
    (hl : l.Pairwise fun a b => b.2.lastAccess < a.2.lastAccess) : s.Ranked → s.byRecency = l := by
  intro h
  refine List.Perm.eq_of_pairwise (fun a b _ _ hab hba => ?_) h.descending hl (s.byRecency_perm.trans hp.symm)
  omega

/-- **Dropping clients** leaves the others in their order. -/
theorem Ranked.filter (p : CacheKey → CacheEntry γ → Bool) (s' : ClientStore γ) (h : s.Ranked)
    (he : s'.entries = s.entries.filter p) (ha : s'.accesses = s.accesses) (hc : s'.config = s.config) :
    s'.Ranked ∧ s'.byRecency = s.byRecency.filter fun e => p e.1 e.2 := by
  have hentries : s'.entries.entries = s.entries.entries.filter fun e => p e.1 e.2 := congrArg Table.entries he
  have hsize : s'.size ≤ s.size := by
    rw [size, he]
    exact Table.size_filter_le ..
  have hranked : s'.Ranked := by
    refine ⟨?_, fun e hm => ?_, ?_, ?_⟩
    · rw [hentries]
      exact h.distinct.filter _
    · rw [hentries] at hm
      rw [ha]
      exact h.numbered e (List.mem_filter.1 hm).1
    · rw [capacity, hc]
      exact Nat.le_trans hsize h.room
    · rw [capacity, hc]
      exact h.pos
  refine ⟨hranked, byRecency_eq ?_ (h.descending.filter _) hranked⟩
  rw [hentries]
  exact s.byRecency_perm.filter _

/-- **A client with a new number** comes to the front. -/
theorem Ranked.insert (e : CacheEntry γ) (s' : ClientStore γ) (h : s.Ranked) (he : s'.entries = s.entries.insert key e)
    (hn : e.lastAccess = s.accesses + 1) (ha : s'.accesses = s.accesses + 1) (hc : s'.config = s.config)
    (hs : s'.size ≤ s.capacity) :
    s'.Ranked ∧ s'.byRecency = (key, e) :: s.byRecency.filter fun e => e.1 != key := by
  have hperm : s'.entries.entries.Perm ((key, e) :: s.entries.entries.filter fun e => e.1 != key) := by
    rw [he]
    exact Table.entries_insert_perm ..
  have hlt : ∀ {l : List (CacheKey × CacheEntry γ)}, l.Perm s.entries.entries → ∀ b ∈ l.filter fun e => e.1 != key,
      b.2.lastAccess < e.lastAccess := by
    intro l hl b hb
    have hle := h.numbered b (hl.mem_iff.1 (List.mem_filter.1 hb).1)
    omega
  have hranked : s'.Ranked := by
    refine ⟨?_, fun b hb => ?_, ?_, ?_⟩
    · refine (hperm.pairwise_iff fun hne => hne.symm).2 (List.pairwise_cons.2 ⟨fun b hb => ?_, h.distinct.filter _⟩)
      exact Nat.ne_of_gt (hlt (.refl _) b hb)
    · rcases List.mem_cons.1 (hperm.mem_iff.1 hb) with rfl | hb
      · dsimp only
        omega
      · have hb := hlt (.refl _) b hb
        omega
    · rw [capacity, hc]
      exact hs
    · rw [capacity, hc]
      exact h.pos
  refine ⟨hranked, byRecency_eq ?_ ?_ hranked⟩
  · exact ((s.byRecency_perm.filter _).cons _).trans hperm.symm
  · exact List.pairwise_cons.2 ⟨hlt s.byRecency_perm, h.descending.filter _⟩

/-! ## Finding -/

theorem find?_byRecency (s : ClientStore γ) (key : CacheKey) :
    s.byRecency.find? (·.1 == key) = (s.entries.get? key).map fun e => (key, e) := by
  cases he : s.entries.get? key with
  | none =>
    refine List.find?_eq_none.2 fun e hm => ?_
    have hne : e.1 ≠ key := by
      rintro rfl
      rw [Table.get?_eq_some_iff.2 (s.byRecency_perm.mem_iff.1 hm)] at he
      cases he
    simp [hne]
  | some e =>
    have hm : (key, e) ∈ s.byRecency := s.byRecency_perm.mem_iff.2 (Table.get?_eq_some_iff.1 he)
    cases hf : s.byRecency.find? (·.1 == key) with
    | none => exact absurd (beq_self_eq_true key) (List.find?_eq_none.1 hf _ hm)
    | some e' =>
      have hk : e'.1 = key := by simpa using List.find?_some hf
      have hm' := s.byRecency_perm.mem_iff.1 (List.mem_of_find?_eq_some hf)
      rw [← Prod.mk.eta (p := e'), hk] at hm' ⊢
      rw [Table.get?_eq_some_iff.2 hm'] at he
      cases he
      rfl

theorem item?_shelf (s : ClientStore γ) (key : CacheKey) :
    s.shelf.item? key = (s.entries.get? key).map fun e => item (key, e) := by
  show (s.byRecency.map item).find? (·.key == key) = _
  rw [List.find?_map]
  show (s.byRecency.find? (·.1 == key)).map item = _
  rw [find?_byRecency, Option.map_map]
  rfl

theorem others_shelf (s : ClientStore γ) (key : CacheKey) :
    s.shelf.others key = (s.byRecency.filter fun e => e.1 != key).map item := List.filter_map

theorem isExpired_shelf (s : ClientStore γ) (now : Nat) (e : CacheKey × CacheEntry γ) :
    s.shelf.isExpired now (item e) = s.isExpired now e.2 := by
  unfold isExpired
  show s.config.ttl.any _ = _
  cases s.config.ttl with
  | none => rfl
  | some ttl => rfl

theorem contains_shelf (s : ClientStore γ) (key : CacheKey) (now : Nat) :
    s.shelf.contains key now = s.contains key now := by
  unfold contains Shelf.contains
  rw [item?_shelf]
  cases s.entries.get? key with
  | none => rfl
  | some e => exact congrArg (!·) (isExpired_shelf s now (key, e))

theorem lookup_shelf (h : s.Ranked) (key : CacheKey) (now : Nat) :
    (s.lookup key now).2.Ranked ∧ s.shelf.lookup key now = ((s.lookup key now).1, (s.lookup key now).2.shelf) := by
  unfold lookup Shelf.lookup
  rw [item?_shelf]
  cases he : s.entries.get? key with
  | none => exact ⟨h, rfl⟩
  | some e =>
    dsimp only [Option.map_some]
    rw [isExpired_shelf, others_shelf]
    cases hx : s.isExpired now e with
    | true =>
      rw [if_pos rfl, if_pos rfl]
      obtain ⟨hranked, hrow⟩ := h.filter (fun k _ => k != key)
        { s with entries := s.entries.erase key, expirations := s.expirations + 1 } rfl rfl rfl
      exact ⟨hranked, Prod.ext rfl (shelf_eq hrow).symm⟩
    | false =>
      rw [if_neg Bool.false_ne_true, if_neg Bool.false_ne_true]
      have hsize : ∀ e', (s.entries.insert key e').size ≤ s.capacity := fun e' =>
        Nat.le_trans (Nat.le_of_eq (Table.size_insert_of_contains (by rw [Table.contains, he]; rfl))) h.room
      let e' := { e with lastAccessAt := now, lastAccess := s.accesses + 1, hits := e.hits + 1 }
      obtain ⟨hranked, hrow⟩ := h.insert e'
        { s with entries := s.entries.insert key e', accesses := s.accesses + 1, hits := s.hits + 1 }
        rfl rfl rfl rfl (hsize e')
      exact ⟨hranked, Prod.ext rfl (shelf_eq hrow).symm⟩

/-! ## Keeping -/

theorem oldest?_cons_cons (a b : CacheKey × CacheEntry γ) (l : List (CacheKey × CacheEntry γ)) :
    oldest? (b :: a :: l) = oldest? ((if a.2.lastAccess < b.2.lastAccess then a else b) :: l) := by
  unfold oldest?
  simp only [List.foldl_cons]
  split <;> rfl

/-- The oldest entry is not younger than any other. -/
theorem oldest?_cons : ∀ (l : List (CacheKey × CacheEntry γ)) (b : CacheKey × CacheEntry γ),
    ∃ e ∈ b :: l, oldest? (b :: l) = some e ∧ ∀ a ∈ b :: l, e.2.lastAccess ≤ a.2.lastAccess
  | [], b => ⟨b, List.mem_cons_self, rfl, by simp⟩
  | a :: l, b => by
    rw [oldest?_cons_cons]
    by_cases hlt : a.2.lastAccess < b.2.lastAccess
    · rw [if_pos hlt]
      obtain ⟨e, he, ho, hall⟩ := oldest?_cons l a
      have ha := hall a List.mem_cons_self
      refine ⟨e, List.mem_cons_of_mem _ he, ho, List.forall_mem_cons.2 ⟨?_, hall⟩⟩
      omega
    · rw [if_neg hlt]
      obtain ⟨e, he, ho, hall⟩ := oldest?_cons l b
      have hb := hall b List.mem_cons_self
      refine ⟨e, ?_, ho, List.forall_mem_cons.2 ⟨hb, List.forall_mem_cons.2 ⟨?_, fun c hc => ?_⟩⟩⟩
      · exact List.cons_subset_cons b (List.subset_cons_self a l) he
      · omega
      · exact hall c (List.mem_cons_of_mem _ hc)

/-- **Who makes room is at the end of the row.** -/
theorem evict_shelf (h : s.Ranked) (hs : 0 < s.size) :
    s.evict.Ranked ∧
      s.evict.shelf = { s.shelf with items := s.shelf.items.dropLast, evictions := s.shelf.evictions + 1 } := by
  obtain ⟨e, he, ho, hall⟩ : ∃ e ∈ s.entries.entries, oldest? s.entries.entries = some e ∧
      ∀ a ∈ s.entries.entries, e.2.lastAccess ≤ a.2.lastAccess := by
    cases hl : s.entries.entries with
    | nil =>
      rw [size, Table.size, hl] at hs
      exact absurd hs (Nat.lt_irrefl 0)
    | cons b l => exact oldest?_cons l b
  have hevict : s.evict = { s with entries := s.entries.erase e.1, evictions := s.evictions + 1 } := by
    rw [evict, ho]
  obtain ⟨hranked, hrow⟩ := h.filter (fun k _ => k != e.1) s.evict (by rw [hevict]; rfl) (by rw [hevict])
    (by rw [hevict])
  suffices hlast : (s.byRecency.filter fun e' => e'.1 != e.1) = s.byRecency.dropLast by
    refine ⟨hranked, ?_⟩
    rw [shelf_eq (hrow.trans hlast), hevict, List.map_dropLast]
    rfl
  -- the last of the row is the oldest, and no other has its key
  obtain ⟨front, last, hsplit⟩ : ∃ front last, s.byRecency = front ++ [last] := by
    refine ⟨_, _, (List.dropLast_append_getLast (l := s.byRecency) fun hnil => ?_).symm⟩
    rw [← length_byRecency, hnil] at hs
    exact absurd hs (Nat.lt_irrefl 0)
  have hdesc := h.descending
  have hkeys := keys_byRecency s
  have hlast := hall last (s.byRecency_perm.mem_iff.1 (by rw [hsplit]; simp))
  have hmem := s.byRecency_perm.mem_iff.2 he
  rw [hsplit] at hdesc hkeys hmem ⊢
  obtain ⟨-, -, hfront⟩ := List.pairwise_append.1 hdesc
  obtain rfl : e = last := by
    rcases List.mem_append.1 hmem with hf | hf
    · have hlt := hfront e hf last List.mem_cons_self
      omega
    · exact List.mem_singleton.1 hf
  rw [List.dropLast_concat, List.filter_append]
  have hothers : ∀ a ∈ front, (a.1 != e.1) = true := by
    intro a ha
    rw [List.map_append, List.nodup_append] at hkeys
    exact bne_iff_ne.2 (hkeys.2.2 a.1 (List.mem_map_of_mem ha) e.1 (by simp))
  rw [List.filter_eq_self.2 hothers]
  simp

theorem makeRoom_of_lt (h : s.size < s.capacity) (fuel : Nat) : s.makeRoom key fuel = s := by
  cases fuel with
  | zero => rfl
  | succ n => rw [makeRoom, if_neg fun hfull => Nat.not_le.2 h hfull.1]

/-- **One client makes room when the store is full**, and none otherwise. -/
theorem makeRoom_shelf (h : s.Ranked) (hk : s.entries.get? key = none) :
    s.makeRoom key s.size = if s.size < s.capacity then s else s.evict := by
  by_cases hlt : s.size < s.capacity
  · rw [if_pos hlt, makeRoom_of_lt hlt]
  · rw [if_neg hlt]
    obtain ⟨hshrinks, hsize⟩ := evict_spec s
    have hpos := h.pos
    have hle := h.room
    obtain ⟨n, hn⟩ : ∃ n, s.size = n + 1 := ⟨s.size - 1, by omega⟩
    have hroom : s.evict.size < s.evict.capacity := by
      rw [capacity, hshrinks.config]
      show s.evict.size < s.capacity
      omega
    have hfull : s.capacity ≤ s.size ∧ (!s.entries.contains key) = true :=
      ⟨Nat.not_lt.1 hlt, by rw [Table.contains, hk]; rfl⟩
    rw [hn, makeRoom, if_pos hfull, makeRoom_of_lt hroom]

theorem put_shelf (h : s.Ranked) (hk : s.entries.get? key = none) (hlt : s.size < s.capacity) (c : γ) (now : Nat)
    (hs : s' = { s with
      entries := s.entries.insert key ⟨c, now, now, s.accesses + 1, 0⟩, accesses := s.accesses + 1 }) :
    s'.Ranked ∧ s'.shelf = { s.shelf with items := ⟨key, c, now, now, 0⟩ :: s.shelf.items } := by
  have hsize : s'.size ≤ s.capacity := by
    rw [hs]
    exact Nat.le_trans (Table.size_insert_le ..) hlt
  obtain ⟨hranked, hrow⟩ := h.insert ⟨c, now, now, s.accesses + 1, 0⟩ s' (by rw [hs]) rfl (by rw [hs]) (by rw [hs])
    hsize
  have hothers : (s.byRecency.filter fun e => e.1 != key) = s.byRecency := by
    refine List.filter_eq_self.2 fun e he => bne_iff_ne.2 ?_
    rintro rfl
    rw [Table.get?_eq_some_iff.2 (s.byRecency_perm.mem_iff.1 he)] at hk
    cases hk
  rw [hothers] at hrow
  refine ⟨hranked, ?_⟩
  rw [shelf_eq hrow, hs]
  rfl

theorem keep_shelf (h : s.Ranked) (hk : s.entries.get? key = none) (c : γ) (now : Nat) :
    (s.keep key c s.epoch now).Ranked ∧ (s.keep key c s.epoch now).shelf = s.shelf.keep key c now := by
  have hpos := h.pos
  have hle := h.room
  have hkeep : s.keep key c s.epoch now = { s.makeRoom key s.size with
      entries := (s.makeRoom key s.size).entries.insert key ⟨c, now, now, (s.makeRoom key s.size).accesses + 1, 0⟩
      accesses := (s.makeRoom key s.size).accesses + 1 } := if_neg (not_not_intro rfl)
  unfold Shelf.keep
  rw [length_shelf]
  rw [makeRoom_shelf h hk] at hkeep
  show _ ∧ _ = if s.size < s.capacity then _ else _
  by_cases hlt : s.size < s.capacity
  · rw [if_pos hlt] at hkeep ⊢
    exact put_shelf h hk hlt c now hkeep
  · rw [if_neg hlt] at hkeep ⊢
    obtain ⟨hshrinks, hsize⟩ := evict_spec s
    obtain ⟨hranked, hshelf⟩ := evict_shelf h (by omega)
    have habsent : s.evict.entries.get? key = none := by
      have hc : s.client? key = none := by rw [client?, hk]; rfl
      exact Option.map_eq_none_iff.1 ((hshrinks.client key).elim id fun hn => hn.trans hc)
    have hroom : s.evict.size < s.evict.capacity := by
      rw [capacity, hshrinks.config]
      show s.evict.size < s.capacity
      omega
    obtain ⟨hput, hshelf'⟩ := put_shelf hranked habsent hroom c now hkeep
    refine ⟨hput, ?_⟩
    rw [hshelf', hshelf]

/-! ## Dropping and reporting -/

theorem invalidate_shelf (h : s.Ranked) (test : CacheKey → Bool) :
    (s.invalidate test).2.Ranked ∧
      s.shelf.invalidate test = ((s.invalidate test).1, (s.invalidate test).2.shelf) := by
  obtain ⟨hranked, hrow⟩ := h.filter (fun k _ => !test k) (s.invalidate test).2 rfl rfl rfl
  have hkept : (s.shelf.items.filter fun i => !test i.key) = (s.invalidate test).2.byRecency.map item := by
    rw [hrow]
    exact List.filter_map
  have hdropped : s.shelf.items.length - (s.shelf.items.filter fun i => !test i.key).length = (s.invalidate test).1 := by
    rw [hkept, length_shelf, List.length_map, length_byRecency]
    rfl
  refine ⟨hranked, ?_⟩
  unfold Shelf.invalidate
  dsimp only
  rw [hdropped, hkept]
  rfl

theorem cleanup_shelf (h : s.Ranked) (now : Nat) :
    (s.cleanup now).2.Ranked ∧ s.shelf.cleanup now = ((s.cleanup now).1, (s.cleanup now).2.shelf) := by
  obtain ⟨hranked, hrow⟩ := h.filter (fun _ e => !s.isExpired now e) (s.cleanup now).2 rfl rfl rfl
  have hkept : (s.shelf.items.filter fun i => !s.shelf.isExpired now i) = (s.cleanup now).2.byRecency.map item := by
    rw [hrow]
    refine List.filter_map.trans (congrArg _ (List.filter_congr fun e _ => ?_))
    exact congrArg (!·) (isExpired_shelf s now e)
  have hdropped : s.shelf.items.length - (s.shelf.items.filter fun i => !s.shelf.isExpired now i).length =
      (s.cleanup now).1 := by
    rw [hkept, length_shelf, List.length_map, length_byRecency]
    rfl
  refine ⟨hranked, ?_⟩
  unfold Shelf.cleanup
  dsimp only
  rw [hdropped, hkept]
  rfl

theorem stats_shelf (s : ClientStore γ) : s.shelf.stats = s.stats := by
  unfold Shelf.stats stats
  rw [length_shelf]
  rfl

theorem detailed_shelf (s : ClientStore γ) (now : Nat) : s.shelf.detailed now = s.detailed now := List.map_map

end ClientStore
end JobRunner
