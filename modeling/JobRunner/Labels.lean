/-!
# Labels

A finite map from texts to texts, kept in ascending order of its keys.  Two maps with the same bindings are the same
value, in whatever order the bindings were made.  Settings of a connection, the metadata of a job and what is reported
about a release are labels.
-/
namespace JobRunner

/-- A list of bindings whose keys ascend strictly. -/
structure Labels where
  entries : List (String × String) := []
  sorted : entries.Pairwise (fun a b => a.1 < b.1) := by exact List.Pairwise.nil

namespace Labels

@[ext] theorem ext {a b : Labels} (h : a.entries = b.entries) : a = b := by
  cases a; cases b; cases h; rfl

instance : DecidableEq Labels := fun a b =>
  if h : a.entries = b.entries then isTrue (Labels.ext h) else isFalse (fun e => h (e ▸ rfl))

instance : Repr Labels := ⟨fun l n => reprPrec l.entries n⟩

def empty : Labels := {}

instance : EmptyCollection Labels := ⟨empty⟩
instance : Inhabited Labels := ⟨empty⟩

/-- Binds a key in an ascending list, in place of what it was bound to. -/
def place (key value : String) : List (String × String) → List (String × String)
  | [] => [(key, value)]
  | (k, v) :: rest =>
    if key < k then (key, value) :: (k, v) :: rest
    else if k < key then (k, v) :: place key value rest
    else (key, value) :: rest

theorem mem_place {key value : String} {l : List (String × String)} {p : String × String}
    (h : p ∈ place key value l) : p.1 = key ∨ p ∈ l := by
  induction l with
  | nil => simp_all [place]
  | cons q l ih =>
    obtain ⟨k, v⟩ := q
    simp only [place] at h
    split at h
    · rcases List.mem_cons.1 h with h | h
      · exact .inl (by rw [h])
      · exact .inr h
    · split at h
      · rcases List.mem_cons.1 h with h | h
        · exact .inr (by rw [h]; exact List.mem_cons_self)
        · rcases ih h with h | h
          · exact .inl h
          · exact .inr (List.mem_cons_of_mem _ h)
      · rcases List.mem_cons.1 h with h | h
        · exact .inl (by rw [h])
        · exact .inr (List.mem_cons_of_mem _ h)

theorem pairwise_place {key value : String} {l : List (String × String)}
    (h : l.Pairwise (fun a b => a.1 < b.1)) : (place key value l).Pairwise (fun a b => a.1 < b.1) := by
  induction l with
  | nil => simp [place]
  | cons q l ih =>
    obtain ⟨k, v⟩ := q
    obtain ⟨hq, hl⟩ := List.pairwise_cons.1 h
    simp only [place]
    split
    · rename_i hk
      refine List.pairwise_cons.2 ⟨fun p hp => ?_, h⟩
      rcases List.mem_cons.1 hp with rfl | hp
      · exact hk
      · exact String.lt_trans hk (hq p hp)
    · split
      · rename_i hk
        refine List.pairwise_cons.2 ⟨fun p hp => ?_, ih hl⟩
        rcases mem_place hp with e | hp
        · rw [e]; exact hk
        · exact hq p hp
      · rename_i h₁ h₂
        have e : k = key := String.le_antisymm (String.not_lt.1 h₁) (String.not_lt.1 h₂)
        subst e
        exact List.pairwise_cons.2 ⟨fun p hp => hq p hp, hl⟩

/-- The map with one key bound. -/
def insert (key value : String) (l : Labels) : Labels :=
  ⟨place key value l.entries, pairwise_place l.sorted⟩

/-- The map of a list of bindings, in which a later binding of a key replaces an earlier one. -/
def ofList (bindings : List (String × String)) : Labels :=
  bindings.foldl (fun l p => l.insert p.1 p.2) empty

def get? (key : String) (l : Labels) : Option String :=
  (l.entries.find? fun p => p.1 == key).map (·.2)

def toList (l : Labels) : List (String × String) := l.entries

@[simp] theorem get?_empty (key : String) : empty.get? key = none := rfl

theorem find?_place (k key value : String) (l : List (String × String)) :
    ((place key value l).find? fun p => p.1 == k).map (·.2) =
      if key = k then some value else (l.find? fun p => p.1 == k).map (·.2) := by
  induction l with
  | nil => by_cases h : key = k <;> simp [place, h]
  | cons q l ih =>
    obtain ⟨a, v⟩ := q
    simp only [place]
    split
    · by_cases h : key = k <;> simp [h]
    · split
      · rename_i _ hlt
        by_cases ha : a = k
        · have : key ≠ k := by rintro rfl; subst ha; exact String.lt_irrefl _ hlt
          simp [ha, this]
        · simp [ha, ih]
      · rename_i h₁ h₂
        have e : a = key := String.le_antisymm (String.not_lt.1 h₁) (String.not_lt.1 h₂)
        subst e
        by_cases h : a = k <;> simp [h]

/-- A look-up after a binding finds the new value under its key and the old values elsewhere. -/
theorem get?_insert (k key value : String) (l : Labels) :
    (l.insert key value).get? k = if key = k then some value else l.get? k :=
  find?_place k key value l.entries

end Labels
end JobRunner
