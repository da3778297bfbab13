import JobRunner.Table
import Mathlib.Algebra.Order.BigOperators.Group.List
import Mathlib.Algebra.Order.Ring.Nat
/-!
# Sums over tables

What is added up over the bindings of a table changes by one summand when a key is bound or dropped.  How many threads,
calls or clients of some kind there are is such a sum, so a step of a system changes it by what that step does.
-/
namespace JobRunner
namespace Table

variable {κ β : Type}

/-- The sum of a weight over all bindings. -/
def sum (f : κ → β → Nat) (t : Table κ β) : Nat := (t.entries.map fun e => f e.1 e.2).sum

theorem sum_add (f g : κ → β → Nat) (t : Table κ β) : (t.sum fun k v => f k v + g k v) = t.sum f + t.sum g :=
  List.sum_map_add

variable [DecidableEq κ]

/-! ## Bindings and look-up -/

theorem find_eq_none {k : κ} : ∀ {l : List (κ × β)}, k ∉ l.map Prod.fst → find k l = none
  | [], _ => rfl
  | (k', v) :: l, h => by
    rw [List.map_cons, List.mem_cons, not_or] at h
    rw [find, if_neg (Ne.symm h.1), find_eq_none h.2]

theorem find_eq_some_iff {k : κ} {v : β} : ∀ {l : List (κ × β)}, (l.map Prod.fst).Nodup →
    (find k l = some v ↔ (k, v) ∈ l)
  | [], _ => by simp [find]
  | (k', v') :: l, h => by
    rw [List.map_cons, List.nodup_cons] at h
    have ih := find_eq_some_iff (k := k) (v := v) h.2
    by_cases hk : k' = k
    · subst hk
      have hno : (k', v) ∉ l := fun hm => h.1 (List.mem_map.2 ⟨(k', v), hm, rfl⟩)
      rw [find, if_pos rfl, List.mem_cons]
      simp [hno, eq_comm]
    · rw [find, if_neg hk, ih, List.mem_cons]
      simp [Ne.symm hk]

theorem get?_eq_some_iff {t : Table κ β} {k : κ} {v : β} : t.get? k = some v ↔ (k, v) ∈ t.entries :=
  find_eq_some_iff t.nodup

theorem get?_insert_ne {t : Table κ β} {k k' : κ} {v : β} (h : k ≠ k') : (t.insert k v).get? k' = t.get? k' := by
  rw [get?_insert, if_neg h]

theorem place_place (k : κ) (v w : β) : ∀ l : List (κ × β), place k w (place k v l) = place k w l
  | [] => by simp [place]
  | (k', v') :: l => by
    by_cases h : k' = k
    · simp [place, h]
    · simp [place, h, place_place k v w l]

theorem place_of_find {k : κ} {v : β} : ∀ {l : List (κ × β)}, find k l = some v → place k v l = l
  | [], h => by cases h
  | (k', v') :: l, h => by
    by_cases hk : k' = k
    · rw [find, if_pos hk] at h
      cases h
      rw [place, if_pos hk, hk]
    · rw [find, if_neg hk] at h
      rw [place, if_neg hk, place_of_find h]

/-- Of two bindings of a key, one after the other, the second one remains. -/
theorem insert_insert (t : Table κ β) (k : κ) (v w : β) : (t.insert k v).insert k w = t.insert k w :=
  Table.ext (place_place k v w t.entries)

/-- A key is bound to what it is bound to already. -/
theorem insert_of_get? {t : Table κ β} {k : κ} {v : β} (h : t.get? k = some v) : t.insert k v = t :=
  Table.ext (place_of_find h)

/-- A binding after an insertion is the new one or an old one of another key. -/
theorem of_get?_insert {t : Table κ β} {k k' : κ} {v w : β} (h : (t.insert k v).get? k' = some w) :
    k' = k ∧ w = v ∨ k' ≠ k ∧ t.get? k' = some w := by
  rw [get?_insert] at h
  by_cases he : k = k'
  · rw [if_pos he] at h
    cases h
    exact .inl ⟨he.symm, rfl⟩
  · rw [if_neg he] at h
    exact .inr ⟨Ne.symm he, h⟩

/-- A key that is not bound after an insertion is another one, and was not bound before. -/
theorem of_get?_insert_eq_none {t : Table κ β} {k k' : κ} {v : β} (h : (t.insert k v).get? k' = none) :
    k' ≠ k ∧ t.get? k' = none := by
  rw [get?_insert] at h
  by_cases he : k = k'
  · rw [if_pos he] at h
    cases h
  · rw [if_neg he] at h
    exact ⟨Ne.symm he, h⟩

/-- What holds of all bindings and of a new one holds of all bindings with the new one among them. -/
theorem forall_insert {t : Table κ β} {k : κ} {v : β} {P : κ → β → Prop} (h : ∀ k v, t.get? k = some v → P k v)
    (hv : P k v) : ∀ k' v', (t.insert k v).get? k' = some v' → P k' v' := by
  intro k' v' hk
  rcases of_get?_insert hk with ⟨rfl, rfl⟩ | ⟨-, hk⟩
  · exact hv
  · exact h k' v' hk

/-! ## Sums after each operation -/

theorem sum_place (f : κ → β → Nat) (k : κ) (v : β) : ∀ l : List (κ × β),
    ((place k v l).map fun e => f e.1 e.2).sum + ((find k l).map (f k)).getD 0 =
      (l.map fun e => f e.1 e.2).sum + f k v
  | [] => by simp [place, find]
  | (k', v') :: l => by
    by_cases h : k' = k
    · subst h
      simp only [place, find, if_true, List.map_cons, List.sum_cons, Option.map_some, Option.getD_some]
      omega
    · have ih := sum_place f k v l
      simp only [place, find, h, if_false, List.map_cons, List.sum_cons]
      omega

/-- **Binding a key adds its new weight in place of its old one.** -/
theorem sum_insert (f : κ → β → Nat) (t : Table κ β) (k : κ) (v : β) :
    (t.insert k v).sum f + ((t.get? k).map (f k)).getD 0 = t.sum f + f k v := sum_place f k v t.entries

theorem sum_insert_of_some {t : Table κ β} {k : κ} {w : β} (h : t.get? k = some w) (f : κ → β → Nat) (v : β) :
    (t.insert k v).sum f + f k w = t.sum f + f k v := by
  have hs := sum_insert f t k v
  rw [h] at hs
  exact hs

theorem sum_insert_of_none {t : Table κ β} {k : κ} (h : t.get? k = none) (f : κ → β → Nat) (v : β) :
    (t.insert k v).sum f = t.sum f + f k v := by
  have hs := sum_insert f t k v
  rw [h] at hs
  exact hs

theorem sum_filter_ne (f : κ → β → Nat) (k : κ) : ∀ l : List (κ × β), (l.map Prod.fst).Nodup →
    ((l.filter fun e => e.1 != k).map fun e => f e.1 e.2).sum + ((find k l).map (f k)).getD 0 =
      (l.map fun e => f e.1 e.2).sum
  | [], _ => by simp [find]
  | (k', v') :: l, h => by
    rw [List.map_cons, List.nodup_cons] at h
    have ih := sum_filter_ne f k l h.2
    by_cases hk : k' = k
    · subst hk
      rw [find_eq_none h.1] at ih
      simp [find] at ih ⊢
      omega
    · simp [find, hk] at ih ⊢
      omega

/-- **Dropping a key takes its weight off.** -/
theorem sum_erase (f : κ → β → Nat) (t : Table κ β) (k : κ) :
    (t.erase k).sum f + ((t.get? k).map (f k)).getD 0 = t.sum f := sum_filter_ne f k t.entries t.nodup

theorem sum_erase_of_some {t : Table κ β} {k : κ} {v : β} (h : t.get? k = some v) (f : κ → β → Nat) :
    (t.erase k).sum f + f k v = t.sum f := by
  have hs := sum_erase f t k
  rw [h] at hs
  exact hs

theorem le_sum {f : κ → β → Nat} {t : Table κ β} {k : κ} {v : β} (h : t.get? k = some v) : f k v ≤ t.sum f := by
  have hs := sum_erase_of_some h f
  omega

/-- Two keys weigh no more than all keys together. -/
theorem add_le_sum {f : κ → β → Nat} {t : Table κ β} {k k' : κ} {v v' : β} (hne : k ≠ k') (h : t.get? k = some v)
    (h' : t.get? k' = some v') : f k v + f k' v' ≤ t.sum f := by
  have he : (t.erase k).get? k' = some v' := by rw [get?_erase, if_neg hne, h']
  have hs := sum_erase_of_some h f
  have hle := le_sum (f := f) he
  omega

theorem sum_eq_zero {f : κ → β → Nat} {t : Table κ β} (h : ∀ k v, t.get? k = some v → f k v = 0) : t.sum f = 0 := by
  unfold sum
  rw [List.sum_eq_zero_iff_forall_eq_nat]
  intro n hn
  obtain ⟨⟨k, v⟩, he, rfl⟩ := List.mem_map.1 hn
  exact h k v (get?_eq_some_iff.2 he)

theorem sum_le_sum {f g : κ → β → Nat} {t : Table κ β} (h : ∀ k v, t.get? k = some v → f k v ≤ g k v) :
    t.sum f ≤ t.sum g :=
  List.sum_le_sum fun e he => h e.1 e.2 (get?_eq_some_iff.2 he)

/-! ## Sizes -/

omit [DecidableEq κ] in
theorem size_eq_sum (t : Table κ β) : t.size = t.sum fun _ _ => 1 := by
  rw [sum, List.map_const', List.sum_replicate_nat, Nat.mul_one, size]

theorem size_insert_of_contains {t : Table κ β} {k : κ} {v : β} (h : t.contains k = true) :
    (t.insert k v).size = t.size := by
  obtain ⟨w, hw⟩ := Option.isSome_iff_exists.1 h
  have hs := sum_insert_of_some hw (fun _ _ => 1) v
  rw [size_eq_sum, size_eq_sum]
  omega

theorem size_insert_le (t : Table κ β) (k : κ) (v : β) : (t.insert k v).size ≤ t.size + 1 := by
  have hs := sum_insert (fun _ _ => 1) t k v
  rw [size_eq_sum, size_eq_sum]
  omega

theorem size_erase_of_get? {t : Table κ β} {k : κ} {v : β} (h : t.get? k = some v) :
    (t.erase k).size + 1 = t.size := by
  rw [size_eq_sum, size_eq_sum]
  exact sum_erase_of_some h fun _ _ => 1

omit [DecidableEq κ] in
theorem size_filter_le (t : Table κ β) (p : κ → β → Bool) : (t.filter p).size ≤ t.size := List.length_filter_le ..

end Table
end JobRunner
