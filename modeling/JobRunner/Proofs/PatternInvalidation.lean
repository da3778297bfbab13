import JobRunner.Proofs.Shelf
import JobRunner.Proofs.StoreBooks
import Mathlib.Data.List.Basic
/-!
# What a pattern removes

An invalidation drops the clients whose key it names, counts them, and leaves every other client as it was, also in its
place among the others.  A pattern names the keys whose shown form contains it.

The shown form of a key is the name of its system, a colon and the digits of a digest.  Neither names nor digests have
a colon in them, all digests have the same length, and no name ends with another one.  So a name with a colon stands in
the shown forms of the keys of one system, and the whole of a shown form stands in no other one.
-/
namespace JobRunner

/-! ## Sorting what is left -/

section Sorting

variable {α : Type} {le : α → α → Bool} (trans : ∀ a b c, le a b = true → le b c = true → le a c = true)
  (total : ∀ a b, (le a b || le b a) = true)
include trans total

/-- One more element comes behind those that it may not precede, and before the others. -/
theorem mergeSort_cons_split (a : α) (l : List α) :
    (a :: l).mergeSort le = (l.mergeSort le).filter (fun b => !le a b) ++ a :: (l.mergeSort le).filter (le a) ∧
      (l.mergeSort le).filter (fun b => !le a b) ++ (l.mergeSort le).filter (le a) = l.mergeSort le := by
  obtain ⟨front, back, hall, hrest, hfront⟩ := List.mergeSort_cons trans total a l
  have hsorted := List.pairwise_mergeSort trans total (a :: l)
  rw [hall] at hsorted
  have hback : ∀ b ∈ back, le a b = true := (List.pairwise_cons.1 (List.pairwise_append.1 hsorted).2.1).1
  have hbefore : (front ++ back).filter (fun b => !le a b) = front := by
    rw [List.filter_append, List.filter_eq_self.2 hfront, List.filter_eq_nil_iff.2 fun b hb => by simp [hback b hb],
      List.append_nil]
  have hbehind : (front ++ back).filter (le a) = back := by
    have hnone : ∀ b ∈ front, ¬ le a b = true := fun b hb => by simpa using hfront b hb
    rw [List.filter_append, List.filter_eq_self.2 hback, List.filter_eq_nil_iff.2 hnone, List.nil_append]
  rw [hall, hrest, hbefore, hbehind]
  exact ⟨rfl, rfl⟩

/-- **What is left of a list is sorted as it stood in the whole list**, even where elements may go either way. -/
theorem filter_mergeSort (p : α → Bool) : ∀ l : List α, (l.mergeSort le).filter p = (l.filter p).mergeSort le
  | [] => by simp
  | a :: l => by
    have ih := filter_mergeSort p l
    rw [(mergeSort_cons_split trans total a l).1, List.filter_append, List.filter_comm, ih]
    obtain ⟨hcons, hsame⟩ := mergeSort_cons_split trans total a (l.filter p)
    by_cases hp : p a = true
    · rw [List.filter_cons_of_pos hp, List.filter_cons_of_pos hp, hcons, List.filter_comm, ih]
    · rw [List.filter_cons_of_neg hp, List.filter_cons_of_neg hp, List.filter_comm, ih, hsame]

end Sorting

/-! ## Invalidations -/

namespace ClientStore

variable {γ : Type} {s : ClientStore γ} {P Q : CacheKey → Prop} {r : Nat × ClientStore γ}

theorem byRecency_filter {s s' : ClientStore γ} (p : CacheKey → CacheEntry γ → Bool)
    (h : s'.entries = s.entries.filter p) : s'.byRecency = s.byRecency.filter fun e => p e.1 e.2 := by
  unfold byRecency
  rw [h, filter_mergeSort (fun a b c hab hbc => ?_) fun a b => ?_]
  · rfl
  · rw [decide_eq_true_eq] at hab hbc ⊢
    exact Nat.le_trans hbc hab
  · rw [Bool.or_eq_true, decide_eq_true_eq, decide_eq_true_eq]
    exact Nat.le_total ..

/-- An answer and a store that come of dropping the clients of certain keys, and of nothing else. -/
structure Removes (s : ClientStore γ) (P : CacheKey → Prop) (r : Nat × ClientStore γ) : Prop where
  gone : ∀ k, P k → r.2.entries.get? k = none
  /-- Every other client is the same, with its times and its hits. -/
  kept : ∀ k, ¬ P k → r.2.entries.get? k = s.entries.get? k
  /-- The clients that are kept stand in the order in which they stood. -/
  order : r.2.byRecency = s.byRecency.filter fun e => r.2.entries.contains e.1
  answer : r.1 = (lost s r.2).length
  counted : r.2.invalidations = s.invalidations + r.1
  /-- It is a new epoch, and nothing else has changed. -/
  rest : r.2 = { s with entries := r.2.entries, invalidations := r.2.invalidations, epoch := s.epoch + 1 }

/-- What matters is which of the keys with clients are named. -/
theorem Removes.congr (h : Removes s P r) (hkeys : ∀ k ∈ s.entries.keys, (P k ↔ Q k)) : Removes s Q r := by
  have hfree : ∀ k, k ∉ s.entries.keys → s.entries.get? k = none ∧ r.2.entries.get? k = none := by
    intro k hk
    have hnone : s.entries.get? k = none := Table.find_eq_none hk
    refine ⟨hnone, ?_⟩
    by_cases hp : P k
    · exact h.gone k hp
    · rw [h.kept k hp, hnone]
  refine { h with gone := fun k hq => ?_, kept := fun k hq => ?_ }
  · by_cases hk : k ∈ s.entries.keys
    · exact h.gone k ((hkeys k hk).2 hq)
    · exact (hfree k hk).2
  · by_cases hk : k ∈ s.entries.keys
    · exact h.kept k fun hp => hq ((hkeys k hk).1 hp)
    · rw [(hfree k hk).1, (hfree k hk).2]

/-- **An invalidation** drops the clients whose keys pass its test, and nothing else. -/
theorem removes_invalidate (test : CacheKey → Bool) (s : ClientStore γ) :
    Removes s (test · = true) (s.invalidate test) := by
  have hgone : ∀ k, test k = true → (s.invalidate test).2.entries.get? k = none := by
    intro k hk
    show (s.entries.filter fun k _ => !test k).get? k = none
    rw [Table.get?_filter, hk]
    cases s.entries.get? k <;> rfl
  have hkept : ∀ k, ¬ test k = true → (s.invalidate test).2.entries.get? k = s.entries.get? k := by
    intro k hk
    rw [Bool.not_eq_true] at hk
    show (s.entries.filter fun k _ => !test k).get? k = s.entries.get? k
    rw [Table.get?_filter, hk]
    cases s.entries.get? k <;> rfl
  have hshrinks : ∀ k, (s.invalidate test).2.client? k = none ∨ (s.invalidate test).2.client? k = s.client? k := by
    intro k
    unfold client?
    by_cases hk : test k = true
    · exact .inl (by rw [hgone k hk]; rfl)
    · exact .inr (by rw [hkept k hk])
  refine ⟨hgone, hkept, ?_, ?_, rfl, rfl⟩
  · have horder : (s.invalidate test).2.byRecency = s.byRecency.filter fun e => !test e.1 :=
      byRecency_filter (fun k _ => !test k) rfl
    rw [horder]
    refine List.filter_congr fun e he => ?_
    have he : s.entries.get? e.1 = some e.2 := Table.get?_eq_some_iff.2 (s.byRecency_perm.mem_iff.1 he)
    rw [Table.contains]
    cases hk : test e.1 with
    | true => rw [hgone _ hk]; rfl
    | false => rw [hkept _ (Bool.not_eq_true _ ▸ hk), he]; rfl
  · have hlength := length_lost hshrinks
    show s.size - (s.invalidate test).2.size = _
    omega

end ClientStore

/-! ## Shown forms of keys -/

namespace Text

theorem colon_notMem_hexBytes (bytes : List UInt8) : ':' ∉ hexBytes bytes := by
  have hdigit : ∀ n < 16, ':' ≠ hexDigit n := by decide
  intro hmem
  obtain ⟨b, -, hb⟩ := List.mem_flatMap.1 hmem
  have hlt := b.toNat_lt
  rcases List.mem_pair.1 hb with h | h
  · exact hdigit _ (by omega) h
  · exact hdigit _ (by omega) h

variable {a b c d : List Char}

/-- Texts around a colon stand in one another as their parts do. -/
theorem around_colon_infix_iff (hb : ':' ∉ b) (hd : ':' ∉ d) :
    a ++ ':' :: c <:+: b ++ ':' :: d ↔ a <:+ b ∧ c <+: d := by
  constructor
  · rintro ⟨front, back, h⟩
    rw [List.append_assoc, List.append_assoc, List.cons_append, ← List.append_assoc, eq_comm] at h
    obtain ⟨hbefore, -, hbehind⟩ := (List.append_cons_inj_of_notMem hb hd).1 h
    exact ⟨⟨front, hbefore.symm⟩, ⟨back, hbehind.symm⟩⟩
  · rintro ⟨⟨front, rfl⟩, ⟨back, rfl⟩⟩
    exact ⟨front, back, by simp⟩

end Text

namespace CacheKey

/-- A key that was made from settings or from a connection. -/
inductive IsMade : CacheKey → Prop where
  | fingerprint (target : TargetSystem) (settings : Json) : IsMade (fingerprint target settings)
  | ofConnection (c : ConnectionConfig) : IsMade (ofConnection c)

variable {k k' : CacheKey}

/-- The digest of a key is made of so many digits. -/
theorem IsMade.digest_spec (h : k.IsMade) : ':' ∉ k.digest.toList ∧ k.digest.toList.length = 64 := by
  have hfingerprint : ∀ t v, ':' ∉ (CacheKey.fingerprint t v).digest.toList ∧
      (CacheKey.fingerprint t v).digest.toList.length = 64 := by
    intro t v
    unfold CacheKey.fingerprint
    rw [String.toList_ofList, Text.length_hexBytes, Sha256.length_digest]
    exact ⟨Text.colon_notMem_hexBytes _, rfl⟩
  cases h with
  | fingerprint t v => exact hfingerprint t v
  | ofConnection c => exact hfingerprint c.target (Wire.encode c)

theorem colon_notMem_name (t : TargetSystem) : ':' ∉ t.name.toList := by
  cases t <;> decide

/-- No name ends with another one. -/
theorem name_suffix_iff {t t' : TargetSystem} : t.name.toList <:+ t'.name.toList ↔ t' = t := by
  constructor
  · cases t <;> cases t' <;> decide
  · rintro rfl
    exact List.suffix_rfl

theorem toList_text (k : CacheKey) : k.text.toList = k.target.name.toList ++ ':' :: k.digest.toList := by
  simp [text]

/-- **A name with a colon** stands in the shown forms of the keys of one system. -/
theorem IsMade.isMatch_name (h : k.IsMade) (t : TargetSystem) : k.isMatch (t.name ++ ":") = true ↔ k.target = t := by
  rw [isMatch, Text.contains_iff, toList_text, String.toList_append]
  show t.name.toList ++ ':' :: [] <:+: _ ↔ _
  rw [Text.around_colon_infix_iff (colon_notMem_name _) h.digest_spec.1, name_suffix_iff]
  exact and_iff_left (List.nil_prefix)

/-- **A shown form** stands in no other one. -/
theorem IsMade.isMatch_text (h : k.IsMade) (h' : k'.IsMade) : k.isMatch k'.text = true ↔ k = k' := by
  rw [isMatch, Text.contains_iff, toList_text, toList_text,
    Text.around_colon_infix_iff (colon_notMem_name _) h.digest_spec.1, name_suffix_iff]
  constructor
  · rintro ⟨htarget, hdigest⟩
    have hlength : k'.digest.toList.length = k.digest.toList.length := h'.digest_spec.2.trans h.digest_spec.2.symm
    have hdigest := String.toList_inj.1 (hdigest.eq_of_length hlength)
    obtain ⟨t, d⟩ := k
    exact CacheKey.mk.injEq .. ▸ ⟨htarget, hdigest.symm⟩
  · rintro rfl
    exact ⟨rfl, List.prefix_rfl⟩

end CacheKey

namespace ClientStore

variable {γ : Type} (s : ClientStore γ)

/-- **What a pattern removes.**  Whatever is in a store, a pattern drops the clients whose shown key contains it, and
the empty pattern drops all.  When the keys were made from settings or connections, the name of a system and a colon
drop the clients of that system, and the shown form of a key drops the client of that key. -/
theorem patterns_remove_what_they_name :
    (∀ pattern : String, Removes s (fun k => pattern.toList <:+: (k.target.name ++ ":" ++ k.digest).toList)
      (s.cleanByPattern pattern)) ∧
    s.cleanByPattern "" = s.clear ∧
    ((∀ k ∈ s.entries.keys, k.IsMade) →
      (∀ t : TargetSystem, Removes s (fun k => k.target = t) (s.cleanByPattern (t.name ++ ":"))) ∧
      ∀ k : CacheKey, k.IsMade → Removes s (fun k' => k' = k) (s.cleanByPattern k.text)) := by
  refine ⟨fun pattern => ?_, ?_, fun hmade => ⟨fun t => ?_, fun k hk => ?_⟩⟩
  · exact (removes_invalidate (·.isMatch pattern) s).congr fun k _ => Text.contains_iff
  · unfold cleanByPattern clear
    congr 1
    funext k
    exact Text.contains_iff.2 (List.nil_infix)
  · exact (removes_invalidate (·.isMatch _) s).congr fun k' hk' => (hmade k' hk').isMatch_name t
  · exact (removes_invalidate (·.isMatch _) s).congr fun k' hk' => (hmade k' hk').isMatch_text hk

/-- The keys of two systems for the same settings. -/
def twins : CacheKey × CacheKey := (.fingerprint .packages (.obj []), .fingerprint .cluster (.obj []))

/-- A store with the clients of two systems. -/
def twinStore : ClientStore Nat where
  entries := (Table.empty.insert twins.1 ⟨1, 0, 5, 1, 0⟩).insert twins.2 ⟨2, 3, 7, 2, 4⟩
  accesses := 2

/-- The client of the other system stays, both under the name of the first one and under its key. -/
theorem patterns_spare_twin : ∀ pattern ∈ ["packages:", twins.1.text],
    (twinStore.cleanByPattern pattern).2.entries.get? twins.1 = none ∧
      (twinStore.cleanByPattern pattern).2.entries.get? twins.2 = some ⟨2, 3, 7, 2, 4⟩ := by
  have hkeys : ∀ k ∈ twinStore.entries.keys, k.IsMade := by
    intro k hk
    rcases Table.mem_keys_place.1 hk with rfl | hk
    · exact .fingerprint ..
    · rcases Table.mem_keys_place.1 hk with rfl | hk
      · exact .fingerprint ..
      · cases hk
  have hother : twins.2.target ≠ .packages := by decide
  obtain ⟨-, -, hmade⟩ := patterns_remove_what_they_name twinStore
  obtain ⟨hname, htext⟩ := hmade hkeys
  intro pattern hpattern
  have hcases : pattern = "packages:" ∨ pattern = twins.1.text := by simpa using hpattern
  rcases hcases with rfl | rfl
  · have hremoves := hname .packages
    exact ⟨hremoves.gone _ rfl, (hremoves.kept _ hother).trans (Table.get?_insert_self ..)⟩
  · have hremoves := htext twins.1 (.fingerprint ..)
    have hne : twins.2 ≠ twins.1 := fun h => hother (congrArg CacheKey.target h)
    exact ⟨hremoves.gone _ rfl, (hremoves.kept _ hne).trans (Table.get?_insert_self ..)⟩

end ClientStore
end JobRunner
