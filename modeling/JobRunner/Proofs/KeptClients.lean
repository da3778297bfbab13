import JobRunner.Cache.Store
import JobRunner.Proofs.TableSums
/-!
# What stores keep

The operations of a store, seen from one key: which client is kept under it afterwards.  Looking up a client changes
nothing but times and counters; a client is lost when it has reached the lifetime, when it makes room or when it is
invalidated; and only keeping one brings one.  A store never holds more clients than its capacity.
-/
namespace JobRunner

/-- What makes kept clients invalid. -/
inductive Invalidation where
  | byKey (key : CacheKey)
  | byPattern (pattern : String)
  | all
  deriving DecidableEq, Repr

/-- The clients under the key become invalid. -/
def Invalidation.hits : Invalidation → CacheKey → Bool
  | byKey key, k => k == key
  | byPattern pattern, k => k.isMatch pattern
  | all, _ => true

namespace ClientStore

variable {γ : Type} {key k : CacheKey} {now : Nat} {s s' : ClientStore γ}

def apply (i : Invalidation) (s : ClientStore γ) : ClientStore γ :=
  match i with
  | .byKey key => (s.cleanByKey key).2
  | .byPattern pattern => (s.cleanByPattern pattern).2
  | .all => s.clear.2

theorem apply_eq (i : Invalidation) (s : ClientStore γ) : s.apply i = (s.invalidate i.hits).2 := by
  cases i <;> rfl

/-- The client that is kept under a key, as old as it may be. -/
def client? (s : ClientStore γ) (k : CacheKey) : Option γ := (s.entries.get? k).map (·.client)

/-- The keys that had clients before and have none any more. -/
def lost (s s' : ClientStore γ) : List CacheKey := s.entries.keys.filter fun k => !s'.entries.contains k

theorem client?_eq_none : s.client? k = none ↔ s.entries.contains k = false := by
  rw [client?, Option.map_eq_none_iff, Table.contains, Option.isSome_eq_false_iff, Option.isNone_iff_eq_none]

theorem mem_keys : k ∈ s.entries.keys ↔ s.client? k ≠ none := by
  rw [Ne, client?, Option.map_eq_none_iff, ← Ne, Option.ne_none_iff_exists', Table.keys, List.mem_map]
  constructor
  · rintro ⟨⟨k', e⟩, he, rfl⟩
    exact ⟨e, Table.get?_eq_some_iff.2 he⟩
  · rintro ⟨e, he⟩
    exact ⟨(k, e), Table.get?_eq_some_iff.1 he, rfl⟩

theorem mem_lost : k ∈ lost s s' ↔ s.client? k ≠ none ∧ s'.client? k = none := by
  rw [lost, List.mem_filter, mem_keys, Bool.not_eq_true', client?_eq_none]

/-- What is not lost stays. -/
theorem client?_of_not_mem_lost (h : s'.client? k = none ∨ s'.client? k = s.client? k) (hk : k ∉ lost s s') :
    s'.client? k = s.client? k := by
  rcases h with hn | he
  · rw [mem_lost, not_and] at hk
    rw [hn]
    exact Classical.byContradiction fun hc => hk (Ne.symm hc) hn
  · exact he

/-- No client comes, some may go, and it is the same epoch. -/
structure Shrinks (s s' : ClientStore γ) : Prop where
  client : ∀ k, s'.client? k = none ∨ s'.client? k = s.client? k
  epoch : s'.epoch = s.epoch
  config : s'.config = s.config
  size : s'.size ≤ s.size

theorem Shrinks.refl (s : ClientStore γ) : Shrinks s s := ⟨fun _ => .inr rfl, rfl, rfl, Nat.le_refl _⟩

theorem Shrinks.trans {r : ClientStore γ} (h : Shrinks s s') (h' : Shrinks s' r) : Shrinks s r := by
  refine ⟨fun k => ?_, h'.epoch.trans h.epoch, h'.config.trans h.config, Nat.le_trans h'.size h.size⟩
  rcases h'.client k with hn | hk
  · exact .inl hn
  · rw [hk]
    exact h.client k

theorem Shrinks.some {c : γ} (h : Shrinks s s') (hk : s'.client? k = some c) : s.client? k = some c := by
  rcases h.client k with hn | he
  · rw [hn] at hk
    cases hk
  · rw [← he, hk]

theorem shrinks_filter (p : CacheKey → CacheEntry γ → Bool) (he : s'.entries = s.entries.filter p)
    (hp : s'.epoch = s.epoch) (hc : s'.config = s.config) : Shrinks s s' := by
  refine ⟨fun k => ?_, hp, hc, ?_⟩
  · unfold client?
    rw [he, Table.get?_filter]
    cases s.entries.get? k with
    | none => exact .inl rfl
    | some e =>
      cases ht : p k e with
      | true => exact .inr (by simp [Option.filter, ht])
      | false => exact .inl (by simp [Option.filter, ht])
  · rw [size, he]
    exact Table.size_filter_le ..

/-! ## Looking up -/

/-- A client that is found was kept under the key, and all clients stay. -/
theorem lookup_some {c : γ} (h : s.lookup key now = (some c, s')) :
    s.client? key = some c ∧ (∀ k, s'.client? k = s.client? k) ∧ Shrinks s s' := by
  unfold lookup at h
  cases he : s.entries.get? key with
  | none =>
    rw [he] at h
    cases h
  | some e =>
    cases hx : s.isExpired now e with
    | true =>
      simp only [he, hx, if_true] at h
      cases h
    | false =>
      simp only [he, hx, Bool.false_eq_true, if_false] at h
      cases h
      have hsame : ∀ k, client? { s with
          entries := s.entries.insert key
            { e with lastAccessAt := now, lastAccess := s.accesses + 1, hits := e.hits + 1 }
          accesses := s.accesses + 1, hits := s.hits + 1 } k = s.client? k := by
        intro k
        unfold client?
        rw [Table.get?_insert]
        by_cases hk : key = k
        · subst hk
          rw [if_pos rfl, he]
          rfl
        · rw [if_neg hk]
      refine ⟨by rw [client?, he]; rfl, hsame, fun k => .inr (hsame k), rfl, rfl, ?_⟩
      exact Nat.le_of_eq (Table.size_insert_of_contains (by rw [Table.contains, he]; rfl))

/-- When no client is found there is none afterwards. -/
theorem lookup_none (h : s.lookup key now = (none, s')) : s'.client? key = none ∧ Shrinks s s' := by
  unfold lookup at h
  cases he : s.entries.get? key with
  | none =>
    simp only [he] at h
    cases h
    exact ⟨by rw [client?, he]; rfl, .refl s⟩
  | some e =>
    cases hx : s.isExpired now e with
    | true =>
      simp only [he, hx, if_true] at h
      cases h
      refine ⟨?_, shrinks_filter (fun k _ => k != key) rfl rfl rfl⟩
      rw [client?, Table.get?_erase, if_pos rfl]
      rfl
    | false =>
      simp only [he, hx, Bool.false_eq_true, if_false] at h
      cases h

theorem shrinks_cleanup (now : Nat) (s : ClientStore γ) : Shrinks s (s.cleanup now).2 :=
  shrinks_filter (fun _ e => !s.isExpired now e) rfl rfl rfl

/-! ## Making room -/

/-- A search that takes the next element or keeps what it has finds nothing new or one of the elements. -/
theorem foldl_choice {α : Type} {f : Option α → α → Option α}
    (hf : ∀ best a, f best a = some a ∨ f best a = best ∧ best ≠ none) : ∀ (l : List α) (best : Option α),
    l.foldl f best = best ∧ (l = [] ∨ best ≠ none) ∨ ∃ a ∈ l, l.foldl f best = some a
  | [], _ => .inl ⟨rfl, .inl rfl⟩
  | a :: l, best => by
    rw [List.foldl_cons]
    rcases foldl_choice hf l (f best a) with ⟨hl, -⟩ | ⟨b, hb, hl⟩
    · rw [hl]
      rcases hf best a with ha | ⟨ha, hne⟩
      · exact .inr ⟨a, List.mem_cons_self, ha⟩
      · exact .inl ⟨ha, .inr hne⟩
    · exact .inr ⟨b, List.mem_cons_of_mem _ hb, hl⟩

/-- Of some entries the oldest is one of them; of none there is none. -/
theorem oldest?_cases (l : List (CacheKey × CacheEntry γ)) :
    l = [] ∧ oldest? l = none ∨ ∃ e ∈ l, oldest? l = some e := by
  unfold oldest?
  refine (foldl_choice (fun best a => ?_) l none).imp (fun h => ⟨h.2.resolve_right (absurd rfl), h.1⟩) id
  cases best with
  | none => exact .inl rfl
  | some b =>
    dsimp only
    split
    · exact .inl rfl
    · exact .inr ⟨rfl, Option.some_ne_none b⟩

theorem evict_spec (s : ClientStore γ) : Shrinks s s.evict ∧ s.evict.size = s.size - 1 := by
  unfold evict
  rcases oldest?_cases s.entries.entries with ⟨hnil, ho⟩ | ⟨⟨k, e⟩, he, ho⟩
  · rw [ho]
    refine ⟨.refl s, ?_⟩
    simp only [size, Table.size, hnil]
    rfl
  · rw [ho]
    have hk := Table.get?_eq_some_iff.2 he
    have hsize := Table.size_erase_of_get? hk
    refine ⟨shrinks_filter (fun k' _ => k' != k) rfl rfl rfl, ?_⟩
    show (s.entries.erase k).size = s.entries.size - 1
    omega

/-- Enough clients go for one more, unless there is one under the key. -/
theorem makeRoom_spec (key : CacheKey) : ∀ {fuel : Nat} {s : ClientStore γ}, 0 < s.capacity → s.size ≤ fuel →
    Shrinks s (s.makeRoom key fuel) ∧
      ((s.makeRoom key fuel).size < s.capacity ∨ (s.makeRoom key fuel).entries.contains key = true)
  | 0, s, hc, hs => ⟨.refl s, .inl (Nat.lt_of_le_of_lt hs hc)⟩
  | fuel + 1, s, hc, hs => by
    unfold makeRoom
    by_cases hfull : s.capacity ≤ s.size ∧ (!s.entries.contains key) = true
    · rw [if_pos hfull]
      obtain ⟨hshrinks, hsize⟩ := evict_spec s
      have hcap : s.evict.capacity = s.capacity := by rw [capacity, hshrinks.config, capacity]
      have hpos : 0 < s.evict.capacity := by rw [hcap]; exact hc
      -- the store is not empty when it is full, so it gets smaller
      have hfuel : s.evict.size ≤ fuel := by omega
      obtain ⟨hs', hroom⟩ := makeRoom_spec key hpos hfuel
      rw [hcap] at hroom
      exact ⟨hshrinks.trans hs', hroom⟩
    · rw [if_neg hfull]
      refine ⟨.refl s, ?_⟩
      rw [not_and, Bool.not_eq_true, Bool.not_eq_false'] at hfull
      rcases Nat.lt_or_ge s.size s.capacity with hl | hg
      · exact .inl hl
      · exact .inr (hfull hg)

/-! ## Keeping -/

theorem keep_of_ne {c : γ} {epoch : Nat} (h : s.epoch ≠ epoch) : s.keep key c epoch now = s := if_pos h

/-- The client is kept under its key; others may have made room for it. -/
theorem keep_spec (key : CacheKey) (c : γ) (now : Nat) (hc : 0 < s.capacity) (hs : s.size ≤ s.capacity) :
    (s.keep key c s.epoch now).client? key = some c ∧
    (∀ k, k ≠ key → (s.keep key c s.epoch now).client? k = none ∨ (s.keep key c s.epoch now).client? k = s.client? k) ∧
    (s.keep key c s.epoch now).epoch = s.epoch ∧ (s.keep key c s.epoch now).config = s.config ∧
    (s.keep key c s.epoch now).size ≤ s.capacity := by
  obtain ⟨hshrinks, hroom⟩ := makeRoom_spec key hc (Nat.le_refl s.size)
  unfold keep
  rw [if_neg (not_not_intro rfl)]
  refine ⟨?_, fun k hk => ?_, hshrinks.epoch, hshrinks.config, ?_⟩
  · rw [client?, Table.get?_insert_self]
    rfl
  · rw [client?, Table.get?_insert_ne (Ne.symm hk)]
    exact hshrinks.client k
  · rcases hroom with hl | hk
    · exact Nat.le_trans (Table.size_insert_le ..) hl
    · rw [size, Table.size_insert_of_contains hk]
      exact Nat.le_trans hshrinks.size hs

/-! ## Invalidating -/

theorem invalidate_spec (i : Invalidation) (s : ClientStore γ) :
    (∀ k, (s.apply i).client? k = if i.hits k then none else s.client? k) ∧ (s.apply i).epoch = s.epoch + 1 ∧
      (s.apply i).config = s.config ∧ (s.apply i).size ≤ s.size := by
  rw [apply_eq]
  refine ⟨fun k => ?_, rfl, rfl, Table.size_filter_le ..⟩
  show ((s.entries.filter fun k _ => !i.hits k).get? k).map (·.client) = _
  rw [Table.get?_filter]
  cases hk : i.hits k with
  | true =>
    rw [if_pos rfl]
    cases s.entries.get? k with
    | none => rfl
    | some e => simp [Option.filter]
  | false =>
    rw [if_neg Bool.false_ne_true, client?]
    cases s.entries.get? k with
    | none => rfl
    | some e => simp [Option.filter]

end ClientStore
end JobRunner
