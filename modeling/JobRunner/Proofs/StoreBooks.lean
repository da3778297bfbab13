import JobRunner.Proofs.KeptClients
/-!
# The books of a store

A store counts the clients that went, for each of three reasons apart.  Beside it there are books in which every client
is entered when it is stored and when it is removed.  Each operation removes clients for one reason at most, so the
counters agree with the books as long as no client is stored over another.
-/
namespace JobRunner

/-- Why a client is kept no longer. -/
inductive Removal where
  | evicted
  | expired
  | invalidated
  deriving DecidableEq, Repr

namespace ClientStore

variable {γ : Type} {s s' : ClientStore γ} {key k : CacheKey} {why : Removal} {now : Nat}

/-- The counter of the removals for a reason. -/
def removals (s : ClientStore γ) : Removal → Nat
  | .evicted => s.evictions
  | .expired => s.expirations
  | .invalidated => s.invalidations

theorem client?_ne_none : s.client? k ≠ none ↔ s.entries.contains k = true := by
  rw [Ne, client?_eq_none, Bool.not_eq_false]

theorem nodup_keys (s : ClientStore γ) : s.entries.keys.Nodup := s.entries.nodup

theorem length_keys (s : ClientStore γ) : s.entries.keys.length = s.size := List.length_map ..

theorem nodup_lost (s s' : ClientStore γ) : (lost s s').Nodup := s.nodup_keys.filter _

/-- The clients that are not lost are the ones that stay. -/
theorem length_lost (h : ∀ k, s'.client? k = none ∨ s'.client? k = s.client? k) :
    (lost s s').length + s'.size = s.size := by
  have hperm : (s.entries.keys.filter fun k => s'.entries.contains k).Perm s'.entries.keys := by
    refine (List.perm_ext_iff_of_nodup (s.nodup_keys.filter _) s'.nodup_keys).2 fun k => ?_
    rw [List.mem_filter, mem_keys, mem_keys, ← client?_ne_none]
    constructor
    · exact fun hk => hk.2
    · intro hk
      rw [← (h k).resolve_left hk]
      exact ⟨hk, hk⟩
  have hlength := List.length_eq_length_filter_add (l := s.entries.keys) fun k => s'.entries.contains k
  rw [hperm.length_eq, length_keys, length_keys] at hlength
  show (s.entries.keys.filter fun k => !s'.entries.contains k).length + s'.size = s.size
  omega

/-- Clients go for one reason, and all that go are counted under it. -/
structure Sheds (why : Removal) (s s' : ClientStore γ) : Prop where
  client : ∀ k, s'.client? k = none ∨ s'.client? k = s.client? k
  counted : s'.removals why + s'.size = s.removals why + s.size
  others : ∀ r, r ≠ why → s'.removals r = s.removals r

theorem Sheds.refl (why : Removal) (s : ClientStore γ) : Sheds why s s := ⟨fun _ => .inr rfl, rfl, fun _ _ => rfl⟩

theorem Sheds.trans {r : ClientStore γ} (h : Sheds why s s') (h' : Sheds why s' r) : Sheds why s r := by
  refine ⟨fun k => ?_, h'.counted.trans h.counted, fun w hw => (h'.others w hw).trans (h.others w hw)⟩
  rcases h'.client k with hn | hk
  · exact .inl hn
  · rw [hk]
    exact h.client k

theorem Sheds.removals_eq (h : Sheds why s s') (r : Removal) :
    s'.removals r = s.removals r + if r = why then (lost s s').length else 0 := by
  have hlost := length_lost h.client
  have hcounted := h.counted
  by_cases hr : r = why
  · rw [if_pos hr, hr]
    omega
  · rw [if_neg hr, h.others r hr, Nat.add_zero]

theorem Sheds.contains (h : Sheds why s s') (k : CacheKey) :
    s'.entries.contains k = (s.entries.contains k && !decide (k ∈ lost s s')) := by
  rw [Bool.eq_iff_iff, Bool.and_eq_true, Bool.not_eq_true', decide_eq_false_iff_not, ← client?_ne_none,
    ← client?_ne_none, mem_lost, not_and]
  constructor
  · intro hk
    rw [← (h.client k).resolve_left hk]
    exact ⟨hk, fun _ hn => hk hn⟩
  · rintro ⟨hk, hlost⟩
    exact hlost hk

/-- The clients that fail a test go, and the counter of the reason grows by their number. -/
theorem sheds_filter {p : CacheKey → CacheEntry γ → Bool} (he : s'.entries = s.entries.filter p)
    (hc : s'.removals why = s.removals why + (s.size - (s.entries.filter p).size))
    (ho : ∀ r, r ≠ why → s'.removals r = s.removals r) : Sheds why s s' := by
  have hsize : (s.entries.filter p).size ≤ s.size := Table.size_filter_le ..
  refine ⟨fun k => ?_, ?_, ho⟩
  · rw [client?, he]
    exact (shrinks_filter (s := s) p rfl rfl rfl : Shrinks s { s with entries := s.entries.filter p }).client k
  · have hs : s'.size = (s.entries.filter p).size := by rw [size, he]
    omega

theorem sheds_cleanup (now : Nat) (s : ClientStore γ) : Sheds .expired s (s.cleanup now).2 := by
  refine sheds_filter (p := fun _ e => !s.isExpired now e) rfl rfl fun r hr => ?_
  cases r with
  | expired => exact absurd rfl hr
  | _ => rfl

theorem sheds_apply (i : Invalidation) (s : ClientStore γ) : Sheds .invalidated s (s.apply i) := by
  rw [apply_eq]
  refine sheds_filter (p := fun k _ => !i.hits k) rfl rfl fun r hr => ?_
  cases r with
  | invalidated => exact absurd rfl hr
  | _ => rfl

/-- The client of a key goes. -/
theorem sheds_erase {e : CacheEntry γ} (hk : s.entries.get? key = some e) (he : s'.entries = s.entries.erase key)
    (hc : s'.removals why = s.removals why + 1) (ho : ∀ r, r ≠ why → s'.removals r = s.removals r) :
    Sheds why s s' := by
  refine sheds_filter (p := fun k _ => k != key) he ?_ ho
  have hsize := Table.size_erase_of_get? hk
  show s'.removals why = s.removals why + (s.entries.size - (s.entries.erase key).size)
  omega

/-- A look-up counts a hit if it finds a client, and else nothing but the client that has reached the lifetime. -/
theorem sheds_lookup {client : Option γ} (h : s.lookup key now = (client, s')) :
    Sheds .expired s s' ∧ s'.hits = s.hits + client.isSome.toNat ∧ s'.misses = s.misses := by
  unfold lookup at h
  cases he : s.entries.get? key with
  | none =>
    simp only [he] at h
    cases h
    exact ⟨.refl .expired s, rfl, rfl⟩
  | some e =>
    cases hx : s.isExpired now e with
    | true =>
      simp only [he, hx, if_true] at h
      cases h
      refine ⟨sheds_erase he rfl rfl fun r hr => ?_, rfl, rfl⟩
      cases r with
      | expired => exact absurd rfl hr
      | _ => rfl
    | false =>
      have hfound := h
      simp only [he, hx, Bool.false_eq_true, if_false] at h
      cases h
      obtain ⟨-, hsame, -⟩ := lookup_some hfound
      refine ⟨⟨fun k => .inr (hsame k), ?_, fun r _ => ?_⟩, rfl, rfl⟩
      · exact congrArg (s.expirations + ·) (Table.size_insert_of_contains (by rw [Table.contains, he]; rfl))
      · cases r <;> rfl

theorem sheds_evict (s : ClientStore γ) :
    Sheds .evicted s s.evict ∧ s.evict.hits = s.hits ∧ s.evict.misses = s.misses := by
  unfold evict
  rcases oldest?_cases s.entries.entries with ⟨-, ho⟩ | ⟨⟨k, e⟩, he, ho⟩
  · rw [ho]
    exact ⟨.refl .evicted s, rfl, rfl⟩
  · rw [ho]
    refine ⟨sheds_erase (Table.get?_eq_some_iff.2 he) rfl rfl fun r hr => ?_, rfl, rfl⟩
    cases r with
    | evicted => exact absurd rfl hr
    | _ => rfl

theorem sheds_makeRoom (key : CacheKey) : ∀ (fuel : Nat) (s : ClientStore γ),
    Sheds .evicted s (s.makeRoom key fuel) ∧ (s.makeRoom key fuel).hits = s.hits ∧
      (s.makeRoom key fuel).misses = s.misses
  | 0, s => ⟨.refl .evicted s, rfl, rfl⟩
  | fuel + 1, s => by
    unfold makeRoom
    by_cases hfull : s.capacity ≤ s.size ∧ (!s.entries.contains key) = true
    · rw [if_pos hfull]
      obtain ⟨hone, hhits, hmisses⟩ := sheds_evict s
      obtain ⟨hrest, hhits', hmisses'⟩ := sheds_makeRoom key fuel s.evict
      exact ⟨hone.trans hrest, hhits'.trans hhits, hmisses'.trans hmisses⟩
    · rw [if_neg hfull]
      exact ⟨.refl .evicted s, rfl, rfl⟩

theorem counts_keep (key : CacheKey) (client : γ) (epoch now : Nat) (s : ClientStore γ) :
    (s.keep key client epoch now).hits = s.hits ∧ (s.keep key client epoch now).misses = s.misses := by
  unfold keep
  split
  · exact ⟨rfl, rfl⟩
  · exact (sheds_makeRoom key s.size s).2

/-- Where there is no client one comes, after others have made room for it. -/
theorem keep_fresh (client : γ) (now : Nat) (hfree : s.client? key = none) :
    ∃ r, Sheds .evicted s r ∧ r.client? key = none ∧ lost s (s.keep key client s.epoch now) = lost s r ∧
      (∀ k, (s.keep key client s.epoch now).entries.contains k = (decide (key = k) || r.entries.contains k)) ∧
      (s.keep key client s.epoch now).size = r.size + 1 ∧
      ∀ why, (s.keep key client s.epoch now).removals why = r.removals why := by
  obtain ⟨hsheds, -, -⟩ := sheds_makeRoom key s.size s
  have hfree' : (s.makeRoom key s.size).client? key = none := by
    rcases hsheds.client key with hn | hs
    · exact hn
    · exact hs.trans hfree
  unfold keep
  rw [if_neg (not_not_intro rfl)]
  generalize s.makeRoom key s.size = r at hsheds hfree'
  have hcontains : ∀ (e : CacheEntry γ) k,
      (r.entries.insert key e).contains k = (decide (key = k) || r.entries.contains k) := by
    intro e k
    rw [Table.contains, Table.get?_insert]
    by_cases hk : key = k
    · simp [hk]
    · simp [hk, Table.contains]
  refine ⟨r, hsheds, hfree', ?_, hcontains _, ?_, fun why => by cases why <;> rfl⟩
  · refine List.filter_congr fun k hk => ?_
    have hne : key ≠ k := by
      rintro rfl
      exact mem_keys.1 hk hfree
    dsimp only
    rw [hcontains, decide_eq_false hne, Bool.false_or]
  · have hnone : r.entries.get? key = none := Option.map_eq_none_iff.1 hfree'
    have hs := Table.sum_insert_of_none hnone (fun _ _ => 1) ⟨client, now, now, r.accesses + 1, 0⟩
    rw [← Table.size_eq_sum, ← Table.size_eq_sum] at hs
    exact hs

end ClientStore

/-! ## Books -/

/-- An entry in the books: what became of a client. -/
inductive Posting where
  | stored (key : CacheKey)
  | removed (key : CacheKey) (why : Removal)
  /-- It was built, and not stored since an invalidation came before. -/
  | dropped (key : CacheKey)
  deriving DecidableEq, Repr

namespace Posting

def key : Posting → CacheKey
  | stored k | removed k _ | dropped k => k

def isStored : Posting → Bool
  | stored _ => true
  | _ => false

def isDropped : Posting → Bool
  | dropped _ => true
  | _ => false

def isRemoved (why : Removal) : Posting → Bool
  | removed _ w => w == why
  | _ => false

end Posting

/-- Under a key clients are stored and removed in turns: none is stored before the last one was removed, and each is
removed once at most, for one reason.  The flag tells whether the last one is there. -/
inductive InTurns (key : CacheKey) : List Posting → Bool → Prop where
  | nil : InTurns key [] false
  | stored {ps : List Posting} (h : InTurns key ps false) : InTurns key (ps ++ [.stored key]) true
  | removed {ps : List Posting} (why : Removal) (h : InTurns key ps true) : InTurns key (ps ++ [.removed key why]) false
  | dropped {ps : List Posting} {there : Bool} (k : CacheKey) (h : InTurns key ps there) :
    InTurns key (ps ++ [.dropped k]) there
  | other {ps : List Posting} {there : Bool} (p : Posting) (hp : p.key ≠ key) (h : InTurns key ps there) :
    InTurns key (ps ++ [p]) there

/-- Clients are removed one after another. -/
theorem InTurns.remove {key : CacheKey} (why : Removal) : ∀ {lost : List CacheKey} {ps : List Posting} {there : Bool},
    InTurns key ps there → lost.Nodup → (key ∈ lost → there = true) →
      InTurns key (ps ++ lost.map fun k => .removed k why) (there && !decide (key ∈ lost))
  | [], ps, there, h, _, _ => by simpa using h
  | k :: lost, ps, there, h, hd, hk => by
    rw [List.nodup_cons] at hd
    rw [List.map_cons, List.append_cons]
    by_cases he : k = key
    · subst he
      rw [hk List.mem_cons_self] at h
      have hrest := (h.removed why).remove why hd.2 fun hm => absurd hm hd.1
      simpa using hrest
    · have hrest := (h.other (.removed k why) he).remove why hd.2 fun hm => hk (List.mem_cons_of_mem k hm)
      simpa [Ne.symm he] using hrest

namespace ClientStore

variable {γ : Type} {s s' : ClientStore γ} {key : CacheKey} {why : Removal} {ps : List Posting}

/-- The clients that are gone. -/
def gone (why : Removal) (s s' : ClientStore γ) : List Posting := (lost s s').map fun k => .removed k why

theorem countP_gone (why : Removal) {p : Posting → Bool} (hp : ∀ k, p (.removed k why) = false) :
    (gone why s s').countP p = 0 := by
  simp [gone, List.countP_eq_zero, hp]

theorem countP_isRemoved_gone (why r : Removal) :
    (gone why s s').countP (Posting.isRemoved r) = if r = why then (lost s s').length else 0 := by
  by_cases hr : r = why
  · subst hr
    rw [if_pos rfl, List.countP_eq_length.2 (by simp [gone, Posting.isRemoved]), gone, List.length_map]
  · rw [if_neg hr]
    exact countP_gone why fun k => beq_false_of_ne (Ne.symm hr)

/-- The number of the clients that are there and of those that were counted when they went. -/
def total (s : ClientStore γ) : Nat := s.size + s.evictions + s.expirations + s.invalidations

theorem Sheds.total_eq (h : Sheds why s s') : s'.total = s.total := by
  have hcounted := h.counted
  have hothers := h.others
  unfold total
  cases why with
  | evicted =>
    have hexpired : s'.expirations = s.expirations := hothers .expired (by decide)
    have hinvalid : s'.invalidations = s.invalidations := hothers .invalidated (by decide)
    simp only [removals] at hcounted
    omega
  | expired =>
    have hevicted : s'.evictions = s.evictions := hothers .evicted (by decide)
    have hinvalid : s'.invalidations = s.invalidations := hothers .invalidated (by decide)
    simp only [removals] at hcounted
    omega
  | invalidated =>
    have hevicted : s'.evictions = s.evictions := hothers .evicted (by decide)
    have hexpired : s'.expirations = s.expirations := hothers .expired (by decide)
    simp only [removals] at hcounted
    omega

/-- The clients and the counters of a store agree with the books. -/
structure Stocked (ps : List Posting) (s : ClientStore γ) : Prop where
  total : ps.countP Posting.isStored = s.total
  removals : ∀ why, s.removals why = ps.countP (Posting.isRemoved why)
  turns : ∀ k, InTurns k ps (s.entries.contains k)

theorem Stocked.shed (h : Stocked ps s) (hs : Sheds why s s') : Stocked (ps ++ gone why s s') s' := by
  refine ⟨?_, fun r => ?_, fun k => ?_⟩
  · rw [List.countP_append, countP_gone why fun _ => rfl, h.total, hs.total_eq, Nat.add_zero]
  · rw [List.countP_append, countP_isRemoved_gone, ← h.removals, hs.removals_eq]
  · rw [hs.contains]
    exact (h.turns k).remove why (nodup_lost s s') fun hk => client?_ne_none.1 (mem_lost.1 hk).1

theorem Stocked.drop (h : Stocked ps s) (k : CacheKey) : Stocked (ps ++ [.dropped k]) s := by
  refine ⟨?_, fun r => ?_, fun k' => (h.turns k').dropped k⟩
  · rw [List.countP_append]
    exact h.total
  · rw [List.countP_append]
    exact h.removals r

/-- A client that is kept where there was none is entered after those that have made room for it. -/
theorem Stocked.keep (h : Stocked ps s) (client : γ) (now : Nat) (hfree : s.client? key = none) :
    Stocked (ps ++ (gone .evicted s (s.keep key client s.epoch now) ++ [.stored key]))
      (s.keep key client s.epoch now) := by
  obtain ⟨r, hsheds, hfree', hlost, hcontains, hsize, hremovals⟩ := keep_fresh client now hfree
  have hroom := h.shed hsheds
  rw [← List.append_assoc, gone, hlost, ← gone]
  refine ⟨?_, fun why => ?_, fun k => ?_⟩
  · have htotal : (s.keep key client s.epoch now).total = r.total + 1 := by
      have hevicted := hremovals .evicted
      have hexpired := hremovals .expired
      have hinvalid := hremovals .invalidated
      simp only [ClientStore.removals] at hevicted hexpired hinvalid
      simp only [ClientStore.total]
      omega
    rw [List.countP_append, hroom.total, htotal]
    rfl
  · rw [List.countP_append, hremovals, hroom.removals]
    rfl
  · rw [hcontains]
    have hturns := hroom.turns k
    by_cases hk : key = k
    · subst hk
      rw [client?_eq_none.1 hfree'] at hturns
      rw [decide_eq_true rfl]
      exact hturns.stored
    · rw [decide_eq_false hk, Bool.false_or]
      exact hturns.other (.stored key) hk

end ClientStore

end JobRunner
