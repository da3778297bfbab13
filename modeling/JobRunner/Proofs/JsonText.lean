import JobRunner.Json.Compact
import JobRunner.Json.Read
/-!
# Compact texts tell values apart

A string comes back from its text as it was, and what stands behind its closing quote is left over: no string can be made
to look like the end of itself with something behind it.  So the compact text of a value without numbers says where it
ends, and no two such values have the same text.  (The text of a number goes on as long as digits follow.)
-/
namespace JobRunner

open Text (hexDigit hexPadded)

namespace Json

variable {s t : String} {v w : Json} {rest rest' : List Char}

/-! ## Strings come back -/

theorem hexValue?_hexDigit : ∀ n < 16, Read.hexValue? (hexDigit n) = some n := by decide

theorem fourHex?_hexPadded {n : Nat} (hn : n < 65536) (rest : List Char) :
    Read.fourHex? (hexPadded 4 n ++ rest) = some (n, rest) := by
  have hdigit (m : Nat) : Read.hexValue? (hexDigit (m % 16)) = some (m % 16) :=
    hexValue?_hexDigit _ (Nat.mod_lt _ (by decide))
  have hsum : ((n / 16 / 16 / 16 % 16 * 16 + n / 16 / 16 % 16) * 16 + n / 16 % 16) * 16 + n % 16 = n := by omega
  simp [hexPadded, Read.fourHex?, hdigit, hsum]

/-- A control character comes back from its number. -/
theorem numbered?_hexPadded {c : Char} (hc : c.toNat < 0x20) (rest : List Char) :
    Read.numbered? (hexPadded 4 c.toNat ++ rest) = some (c, rest) := by
  have hlow : ¬ (0xD800 ≤ c.toNat ∧ c.toNat < 0xDC00) := by omega
  have hhigh : ¬ (0xDC00 ≤ c.toNat ∧ c.toNat < 0xE000) := by omega
  unfold Read.numbered?
  rw [fourHex?_hexPadded (Nat.lt_trans hc (by decide))]
  simp [hlow, hhigh, Char.ofNat_toNat]

/-- A character is escaped and comes back from its escape, or it stands as it is. -/
theorem escapeChar_cases (c : Char) :
    (∃ behind, escapeChar c = '\\' :: behind ∧ ∀ rest, Read.escaped? (behind ++ rest) = some (c, rest)) ∨
      escapeChar c = [c] ∧ c ≠ '"' ∧ c ≠ '\\' ∧ ¬ c.toNat < 0x20 := by
  unfold escapeChar
  -- seven characters are escaped by a letter
  iterate 7
    split
    · rename_i hc
      exact .inl ⟨_, rfl, fun rest => by rw [hc]; rfl⟩
  split
  · rename_i hc
    exact .inl ⟨_, rfl, numbered?_hexPadded hc⟩
  · rename_i hquote hbackslash _ _ _ _ _ hc
    exact .inr ⟨rfl, hquote, hbackslash, hc⟩

/-- **A character is read back from the form in which it stands in a string.** -/
theorem stringFrom?_escapeChar (fuel : Nat) (before : List Char) (c : Char) (rest : List Char) :
    Read.stringFrom? (fuel + 1) before (escapeChar c ++ rest) = Read.stringFrom? fuel (c :: before) rest := by
  rcases escapeChar_cases c with ⟨behind, hc, hread⟩ | ⟨hc, hquote, hbackslash, hprint⟩
  · rw [hc, List.cons_append, Read.stringFrom?, hread]
    rfl
  · rw [hc, List.singleton_append, Read.stringFrom?, if_neg hprint]
    · exact hquote
    · exact hbackslash

/-- **A string is read back from its text**, and what stands behind the closing quote is left over. -/
theorem stringFrom?_escaped : ∀ (cs : List Char) {fuel : Nat} (before rest : List Char), cs.length < fuel →
    Read.stringFrom? fuel before (cs.flatMap escapeChar ++ '"' :: rest) = some (.ofList (before.reverse ++ cs), rest)
  | _, 0, _, _, h => absurd h (Nat.not_lt_zero _)
  | [], fuel + 1, before, rest, _ => by
    rw [List.append_nil]
    rfl
  | c :: cs, fuel + 1, before, rest, h => by
    rw [List.flatMap_cons, List.append_assoc, stringFrom?_escapeChar,
      stringFrom?_escaped cs (c :: before) rest (Nat.lt_of_succ_lt_succ h), List.reverse_cons, List.append_assoc]
    rfl

/-- The text of a string says where it ends, and which string it is. -/
theorem stringText_append_inj (h : stringText s ++ rest = stringText t ++ rest') : s = t ∧ rest = rest' := by
  let fuel := s.toList.length + t.toList.length + 1
  have hread (s : String) (rest : List Char) (hs : s.toList.length < fuel) :
      Read.stringFrom? fuel [] ((stringText s ++ rest).drop 1) = some (s, rest) := by
    have htext : (stringText s ++ rest).drop 1 = s.toList.flatMap escapeChar ++ '"' :: rest := by simp [stringText]
    rw [htext, stringFrom?_escaped _ _ _ hs]
    simp
  have hs := hread s rest (by omega)
  rw [h, hread t rest' (by omega)] at hs
  cases hs
  exact ⟨rfl, rfl⟩

/-! ## Values without numbers -/

mutual

/-- There is no number in the value. -/
def isNumberless : Json → Bool
  | null | bool _ | str _ => true
  | int _ | real _ => false
  | arr items => areNumberless items
  | obj members => haveNumberless members

def areNumberless : List Json → Bool
  | [] => true
  | x :: xs => x.isNumberless && areNumberless xs

def haveNumberless : List (String × Json) → Bool
  | [] => true
  | (_, v) :: ms => v.isNumberless && haveNumberless ms

end

/-- The first character of the text of a value that is no number. -/
def lead : Json → Char
  | null => 'n'
  | bool b => if b then 't' else 'f'
  | int _ | real _ => '0'
  | str _ => '"'
  | arr _ => '['
  | obj _ => '\x7b'

theorem textOf_eq_cons : ∀ {v : Json}, v.isNumberless = true → ∃ cs, v.textOf = v.lead :: cs
  | null, _ | bool true, _ | bool false, _ | str _, _ | arr _, _ | obj _, _ => ⟨_, by unfold textOf; rfl⟩
  | int _, h | real _, h => by cases h

/-- The values are of one kind; those that are no more than a word are equal. -/
inductive Alike : Json → Json → Prop where
  | null : Alike null null
  | bool (b : Bool) : Alike (bool b) (bool b)
  | str (s t : String) : Alike (str s) (str t)
  | arr (xs ys : List Json) : Alike (arr xs) (arr ys)
  | obj (ms ns : List (String × Json)) : Alike (obj ms) (obj ns)

/-- The first character tells of which kind a value is. -/
theorem alike_of_textOf (hv : v.isNumberless = true) (hw : w.isNumberless = true)
    (h : v.textOf ++ rest = w.textOf ++ rest') : Alike v w := by
  have hlead : v.lead = w.lead := by
    obtain ⟨cs, hv⟩ := textOf_eq_cons hv
    obtain ⟨cs', hw⟩ := textOf_eq_cons hw
    rw [hv, hw] at h
    exact (List.cons.inj h).1
  clear h
  cases v <;> cases w <;> grind [Alike, lead, isNumberless]

theorem lead_ne (v : Json) : v.lead ≠ ']' := by
  cases v with
  | bool b => cases b <;> decide
  | _ => simp [lead]

mutual

/-- **The text of a value without numbers says where it ends, and which value it is.** -/
theorem textOf_append_inj : ∀ (v w : Json) {rest rest' : List Char}, v.isNumberless = true → w.isNumberless = true →
    v.textOf ++ rest = w.textOf ++ rest' → v = w ∧ rest = rest'
  | null, _, _, _, hv, hw, h => by
    cases alike_of_textOf hv hw h
    exact ⟨rfl, List.append_cancel_left h⟩
  | bool _, _, _, _, hv, hw, h => by
    cases alike_of_textOf hv hw h
    exact ⟨rfl, List.append_cancel_left h⟩
  | str s, _, _, _, hv, hw, h => by
    cases alike_of_textOf hv hw h with
    | str _ t =>
      unfold textOf at h
      obtain ⟨rfl, hrest⟩ := stringText_append_inj h
      exact ⟨rfl, hrest⟩
  | arr xs, _, _, _, hv, hw, h => by
    cases alike_of_textOf hv hw h with
    | arr _ ys =>
      unfold textOf at h
      simp only [List.cons_append, List.append_assoc, List.nil_append] at h
      obtain ⟨rfl, hrest⟩ := itemsText_append_inj xs ys hv hw (List.cons.inj h).2
      exact ⟨rfl, hrest⟩
  | obj ms, _, _, _, hv, hw, h => by
    cases alike_of_textOf hv hw h with
    | obj _ ns =>
      unfold textOf at h
      simp only [List.cons_append, List.append_assoc, List.nil_append] at h
      obtain ⟨rfl, hrest⟩ := membersText_append_inj ms ns hv hw (List.cons.inj h).2
      exact ⟨rfl, hrest⟩
  | int _, _, _, _, hv, _, _ | real _, _, _, _, hv, _, _ => by cases hv

theorem itemsText_append_inj : ∀ (xs ys : List Json) {rest rest' : List Char}, areNumberless xs = true →
    areNumberless ys = true → itemsText xs ++ ']' :: rest = itemsText ys ++ ']' :: rest' → xs = ys ∧ rest = rest'
  | [], [], _, _, _, _, h => ⟨rfl, (List.cons.inj h).2⟩
  | [], y :: ys, _, _, _, hy, h => by
    obtain ⟨cs, hcs⟩ := textOf_eq_cons (Bool.and_eq_true_iff.1 hy).1
    unfold itemsText at h
    rw [hcs] at h
    exact absurd (List.cons.inj h).1.symm (lead_ne _)
  | x :: xs, [], _, _, hx, _, h => by
    obtain ⟨cs, hcs⟩ := textOf_eq_cons (Bool.and_eq_true_iff.1 hx).1
    unfold itemsText at h
    rw [hcs] at h
    exact absurd (List.cons.inj h).1 (lead_ne _)
  | x :: xs, y :: ys, _, _, hx, hy, h => by
    obtain ⟨hx, hxs⟩ := Bool.and_eq_true_iff.1 hx
    obtain ⟨hy, hys⟩ := Bool.and_eq_true_iff.1 hy
    unfold itemsText at h
    rw [List.append_assoc, List.append_assoc] at h
    obtain ⟨rfl, htail⟩ := textOf_append_inj x y hx hy h
    obtain ⟨rfl, hrest⟩ := tailItemsText_append_inj xs ys hxs hys htail
    exact ⟨rfl, hrest⟩

theorem tailItemsText_append_inj : ∀ (xs ys : List Json) {rest rest' : List Char}, areNumberless xs = true →
    areNumberless ys = true → tailItemsText xs ++ ']' :: rest = tailItemsText ys ++ ']' :: rest' →
    xs = ys ∧ rest = rest'
  | [], [], _, _, _, _, h => ⟨rfl, (List.cons.inj h).2⟩
  | [], _ :: _, _, _, _, _, h | _ :: _, [], _, _, _, _, h => by
    unfold tailItemsText at h
    exact absurd (List.cons.inj h).1 (by decide)
  | x :: xs, y :: ys, _, _, hx, hy, h => by
    obtain ⟨hx, hxs⟩ := Bool.and_eq_true_iff.1 hx
    obtain ⟨hy, hys⟩ := Bool.and_eq_true_iff.1 hy
    unfold tailItemsText at h
    rw [List.cons_append, List.cons_append, List.append_assoc, List.append_assoc] at h
    obtain ⟨rfl, htail⟩ := textOf_append_inj x y hx hy (List.cons.inj h).2
    obtain ⟨rfl, hrest⟩ := tailItemsText_append_inj xs ys hxs hys htail
    exact ⟨rfl, hrest⟩

theorem membersText_append_inj : ∀ (ms ns : List (String × Json)) {rest rest' : List Char}, haveNumberless ms = true →
    haveNumberless ns = true → membersText ms ++ '\x7d' :: rest = membersText ns ++ '\x7d' :: rest' →
    ms = ns ∧ rest = rest'
  | [], [], _, _, _, _, h => ⟨rfl, (List.cons.inj h).2⟩
  | [], (_, _) :: _, _, _, _, _, h | (_, _) :: _, [], _, _, _, _, h => by
    unfold membersText at h
    exact absurd (List.cons.inj h).1 (by decide)
  | (k, v) :: ms, (l, w) :: ns, _, _, hv, hw, h => by
    obtain ⟨hv', hms⟩ := Bool.and_eq_true_iff.1 hv
    obtain ⟨hw', hns⟩ := Bool.and_eq_true_iff.1 hw
    unfold membersText at h
    simp only [List.append_assoc, List.cons_append] at h
    obtain ⟨rfl, hvalue⟩ := stringText_append_inj h
    obtain ⟨rfl, htail⟩ := textOf_append_inj v w hv' hw' (List.cons.inj hvalue).2
    obtain ⟨rfl, hrest⟩ := tailMembersText_append_inj ms ns hms hns htail
    exact ⟨rfl, hrest⟩

theorem tailMembersText_append_inj : ∀ (ms ns : List (String × Json)) {rest rest' : List Char},
    haveNumberless ms = true → haveNumberless ns = true →
    tailMembersText ms ++ '\x7d' :: rest = tailMembersText ns ++ '\x7d' :: rest' → ms = ns ∧ rest = rest'
  | [], [], _, _, _, _, h => ⟨rfl, (List.cons.inj h).2⟩
  | [], (_, _) :: _, _, _, _, _, h | (_, _) :: _, [], _, _, _, _, h => by
    unfold tailMembersText at h
    exact absurd (List.cons.inj h).1 (by decide)
  | (k, v) :: ms, (l, w) :: ns, _, _, hv, hw, h => by
    obtain ⟨hv', hms⟩ := Bool.and_eq_true_iff.1 hv
    obtain ⟨hw', hns⟩ := Bool.and_eq_true_iff.1 hw
    unfold tailMembersText at h
    simp only [List.append_assoc, List.cons_append] at h
    obtain ⟨rfl, hvalue⟩ := stringText_append_inj (List.cons.inj h).2
    obtain ⟨rfl, htail⟩ := textOf_append_inj v w hv' hw' (List.cons.inj hvalue).2
    obtain ⟨rfl, hrest⟩ := tailMembersText_append_inj ms ns hms hns htail
    exact ⟨rfl, hrest⟩

end

/-- **Values without numbers have different texts.** -/
theorem compact_inj (hv : v.isNumberless = true) (hw : w.isNumberless = true) (h : v.compact = w.compact) : v = w := by
  have htext : v.textOf ++ [] = w.textOf ++ [] := by rw [String.ofList_injective h]
  exact (textOf_append_inj v w hv hw htext).1

end Json
end JobRunner
