/-!
# Tables

A finite map with distinct keys, in the order in which the keys were first bound.  The order is no part of what a table
means: a reader that shows it to anyone sorts by something of its own first.
-/
namespace JobRunner

/-- A list of bindings no two of which have the same key. -/
structure Table (κ β : Type) where
  entries : List (κ × β) := []
  nodup : (entries.map Prod.fst).Nodup := by exact List.Pairwise.nil

namespace Table

variable {κ β : Type}

@[ext] theorem ext {a b : Table κ β} (h : a.entries = b.entries) : a = b := by
  cases a; cases b; cases h; rfl

def empty : Table κ β := {}

instance : EmptyCollection (Table κ β) := ⟨empty⟩
instance : Inhabited (Table κ β) := ⟨empty⟩

variable [DecidableEq κ]

/-- The value bound to a key in a list of bindings. -/
def find (k : κ) : List (κ × β) → Option β
  | [] => none
  | (k', v) :: rest => if k' = k then some v else find k rest

/-- Binds a key in a list of bindings, in place of what it was bound to. -/
def place (k : κ) (v : β) : List (κ × β) → List (κ × β)
  | [] => [(k, v)]
  | (k', v') :: rest => if k' = k then (k, v) :: rest else (k', v') :: place k v rest

theorem mem_keys_place {k x : κ} {v : β} {l : List (κ × β)} :
    x ∈ (place k v l).map Prod.fst ↔ x = k ∨ x ∈ l.map Prod.fst := by
  induction l with
  | nil => simp [place]
  | cons p l ih =>
    obtain ⟨k', v'⟩ := p
    by_cases h : k' = k
    · subst h; simp [place]
    · simp only [place, h, if_false, List.map_cons, List.mem_cons, ih]
      constructor
      · rintro (h | h | h) <;> simp [h]
      · rintro (h | h | h) <;> simp [h]

theorem nodup_place {k : κ} {v : β} {l : List (κ × β)} (h : (l.map Prod.fst).Nodup) :
    ((place k v l).map Prod.fst).Nodup := by
  induction l with
  | nil => simp [place]
  | cons p l ih =>
    obtain ⟨k', v'⟩ := p
    simp only [List.map_cons, List.nodup_cons] at h
    by_cases e : k' = k
    · subst e; simpa [place] using h
    · simp only [place, e, if_false, List.map_cons, List.nodup_cons]
      refine ⟨fun hm => ?_, ih h.2⟩
      rcases mem_keys_place.1 hm with hm | hm
      · exact e hm
      · exact h.1 hm

/-- The value bound to the key. -/
def get? (t : Table κ β) (k : κ) : Option β := find k t.entries

/-- The value bound to the key, or the given one if there is none. -/
def getD (t : Table κ β) (k : κ) (d : β) : β := (t.get? k).getD d

def contains (t : Table κ β) (k : κ) : Bool := (t.get? k).isSome

/-- The table with one key bound. -/
def insert (t : Table κ β) (k : κ) (v : β) : Table κ β := ⟨place k v t.entries, nodup_place t.nodup⟩

/-- The table with the bindings that pass the test. -/
def filter (p : κ → β → Bool) (t : Table κ β) : Table κ β where
  entries := t.entries.filter fun e => p e.1 e.2
  nodup := (t.nodup.sublist (List.filter_sublist.map Prod.fst))

/-- The table without the key. -/
def erase (t : Table κ β) (k : κ) : Table κ β := t.filter fun k' _ => k' != k

def keys (t : Table κ β) : List κ := t.entries.map Prod.fst
def values (t : Table κ β) : List β := t.entries.map Prod.snd
def size (t : Table κ β) : Nat := t.entries.length

/-! ## Look-up after each operation -/

theorem find_place (k k' : κ) (v : β) (l : List (κ × β)) :
    find k' (place k v l) = if k = k' then some v else find k' l := by
  induction l with
  | nil => simp [place, find]
  | cons p l ih =>
    obtain ⟨a, w⟩ := p
    by_cases h : a = k
    · subst h; by_cases h' : a = k' <;> simp [place, find, h']
    · by_cases h' : a = k'
      · subst h'
        simp [place, find, h, Ne.symm h]
      · simp [place, find, h, h', ih]

theorem find_filter (p : κ → β → Bool) (k : κ) (l : List (κ × β)) (h : (l.map Prod.fst).Nodup) :
    find k (l.filter fun e => p e.1 e.2) = (find k l).filter (p k) := by
  induction l with
  | nil => rfl
  | cons e l ih =>
    obtain ⟨a, w⟩ := e
    simp only [List.map_cons, List.nodup_cons] at h
    by_cases ha : a = k
    · subst ha
      cases hp : p a w with
      | true => simp [hp, find, Option.filter]
      | false =>
        have hn : find a l = none := by
          have : ∀ (l : List (κ × β)), a ∉ l.map Prod.fst → find a l = none := by
            intro l
            induction l with
            | nil => intro _; rfl
            | cons q l ih =>
              intro hm
              simp only [List.map_cons, List.mem_cons, not_or] at hm
              simp [find, Ne.symm hm.1, ih hm.2]
          exact this l h.1
        simp [hp, find, ih h.2, hn, Option.filter]
    · cases hp : p a w <;> simp [hp, find, ha, ih h.2]

@[simp] theorem get?_empty (k : κ) : (empty : Table κ β).get? k = none := rfl

theorem get?_insert (t : Table κ β) (k k' : κ) (v : β) :
    (t.insert k v).get? k' = if k = k' then some v else t.get? k' := find_place k k' v t.entries

@[simp] theorem get?_insert_self (t : Table κ β) (k : κ) (v : β) : (t.insert k v).get? k = some v := by
  simp [get?_insert]

@[simp] theorem getD_empty (k : κ) (d : β) : (empty : Table κ β).getD k d = d := rfl

theorem get?_filter (t : Table κ β) (p : κ → β → Bool) (k : κ) :
    (t.filter p).get? k = (t.get? k).filter (p k) := find_filter p k t.entries t.nodup

theorem get?_erase (t : Table κ β) (k k' : κ) :
    (t.erase k).get? k' = if k = k' then none else t.get? k' := by
  rw [erase, get?_filter]
  by_cases h : k = k'
  · subst h; cases t.get? k <;> simp
  · cases t.get? k' <;> simp [h, Ne.symm h]

end Table
end JobRunner
