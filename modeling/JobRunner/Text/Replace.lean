import JobRunner.Text.Search
/-!
# Splitting and replacing

A text is split where a mark stands in it, at the first place or at the last one.
-/
namespace JobRunner
namespace Text

/-- The parts of a text before and behind the first place where a mark stands. -/
def splitFirst? (mark : List Char) : List Char → Option (List Char × List Char)
  | [] => if mark.isEmpty then some ([], []) else none
  | c :: cs =>
    if mark.isPrefixOf (c :: cs) then some ([], (c :: cs).drop mark.length)
    else (splitFirst? mark cs).map fun r => (c :: r.1, r.2)

/-- The parts of a text before and behind the last place where a mark stands. -/
def splitLast? (mark cs : List Char) : Option (List Char × List Char) :=
  (splitFirst? mark.reverse cs.reverse).map fun r => (r.2.reverse, r.1.reverse)

/-- Replaces a mark wherever it stands, from left to right, at most `fuel` times. -/
def replaceFrom (mark replacement : List Char) : Nat → List Char → List Char
  | 0, cs => cs
  | fuel + 1, cs =>
    match splitFirst? mark cs with
    | none => cs
    | some (front, rest) => front ++ replacement ++ replaceFrom mark replacement fuel rest

/-- Replaces a mark, which may not be empty, wherever it stands. -/
def replaceAll (mark replacement s : String) : String :=
  String.ofList (replaceFrom mark.toList replacement.toList s.length s.toList)

theorem eq_of_splitFirst? {mark cs front rest : List Char} (h : splitFirst? mark cs = some (front, rest)) :
    cs = front ++ mark ++ rest := by
  induction cs generalizing front with
  | nil =>
    simp only [splitFirst?] at h
    split at h
    · rename_i hm
      simp only [Option.some.injEq, Prod.mk.injEq] at h
      simp [← h.1, ← h.2, List.isEmpty_iff.1 hm]
    · simp at h
  | cons c cs ih =>
    simp only [splitFirst?] at h
    split at h
    · rename_i hp
      simp only [Option.some.injEq, Prod.mk.injEq] at h
      obtain ⟨t, ht⟩ := List.isPrefixOf_iff_prefix.1 hp
      rw [← h.1, ← h.2, ← ht]
      simp
    · obtain ⟨⟨f, r⟩, hs, he⟩ := Option.map_eq_some_iff.1 h
      simp only [Prod.mk.injEq] at he
      obtain ⟨rfl, rfl⟩ := he
      simp [ih hs]

end Text
end JobRunner
