import JobRunner.Text.Blank
import JobRunner.Text.Decimal
import Mathlib.Data.List.Induction
import Mathlib.Data.List.TakeWhile
import Mathlib.Data.Nat.Digits.Defs
/-!
# Numerals

A numeral is an optional plus sign and one or more digits, and stands for what its digits come to in base ten.  A reader
with a limit accepts exactly the numerals below the limit; of any other text it reports the first fault from the left.
Trimming a text gives the one part of it that blanks surround and that neither begins nor ends with a blank.
-/
namespace JobRunner
namespace Text

/-! ## What blanks surround -/

/-- The text is the core with blanks in front and behind, and the core has none at its ends. -/
structure Surrounds (text core : List Char) : Prop where
  around : ∃ front back, text = front ++ core ++ back ∧ (∀ c ∈ front, isBlank c = true) ∧ ∀ c ∈ back, isBlank c = true
  first : ∀ c ∈ core.head?, isBlank c = false
  last : ∀ c ∈ core.getLast?, isBlank c = false

variable {text core front cs : List Char}

theorem trimFront_append (hfront : ∀ c ∈ front, isBlank c = true) (cs : List Char) :
    trimFront (front ++ cs) = trimFront cs :=
  List.dropWhile_append_of_pos hfront

theorem trimFront_of_head (h : ∀ c ∈ cs.head?, isBlank c = false) : trimFront cs = cs := by
  cases cs with
  | nil => rfl
  | cons c cs => exact List.dropWhile_cons_of_neg (Bool.eq_false_iff.1 (h c rfl))

theorem head?_trimFront (cs : List Char) : ∀ c ∈ (trimFront cs).head?, isBlank c = false := by
  intro c hc
  have hhead := List.head?_dropWhile_not isBlank cs
  rw [show (cs.dropWhile isBlank).head? = some c from hc] at hhead
  exact hhead

/-- A text is the blanks in front of it and what is left of it without them. -/
theorem exists_front (cs : List Char) : ∃ front, cs = front ++ trimFront cs ∧ ∀ c ∈ front, isBlank c = true :=
  ⟨cs.takeWhile isBlank, List.takeWhile_append_dropWhile.symm, fun _ hc => List.mem_takeWhile_imp hc⟩

/-- **Trimming finds what blanks surround**, and nothing else is surrounded so. -/
theorem surrounds_iff : Surrounds text core ↔ trimBack (trimFront text) = core := by
  constructor
  · rintro ⟨⟨front, back, rfl, hfront, hback⟩, hfirst, hlast⟩
    have hback' : ∀ c ∈ back.reverse, isBlank c = true := fun c hc => hback c (List.mem_reverse.1 hc)
    rw [List.append_assoc, trimFront_append hfront]
    cases core with
    | nil =>
      have hnone : trimFront back = [] := List.dropWhile_eq_nil_iff.2 hback
      rw [List.nil_append, hnone]
      rfl
    | cons c core =>
      have hcore : trimFront (c :: core ++ back) = c :: core ++ back := trimFront_of_head hfirst
      rw [hcore]
      unfold trimBack
      rw [List.reverse_append, trimFront_append hback', trimFront_of_head, List.reverse_reverse]
      rw [List.head?_reverse]
      exact hlast
  · rintro rfl
    obtain ⟨front, hsplit, hfront⟩ := exists_front text
    obtain ⟨back, hrest, hback⟩ := exists_front (trimFront text).reverse
    have hrest : trimFront text = trimBack (trimFront text) ++ back.reverse := by
      have hreverse := congrArg List.reverse hrest
      rw [List.reverse_reverse, List.reverse_append] at hreverse
      exact hreverse
    refine ⟨⟨front, back.reverse, ?_, hfront, fun c hc => hback c (List.mem_reverse.1 hc)⟩, ?_, ?_⟩
    · rw [List.append_assoc, ← hrest]
      exact hsplit
    · -- the core begins as the text does after the blanks in front
      intro c hc
      have hhead := head?_trimFront text
      rw [hrest] at hhead
      cases hcore : trimBack (trimFront text) with
      | nil =>
        rw [hcore] at hc
        cases hc
      | cons a core =>
        rw [hcore] at hc hhead
        exact hhead c hc
    · intro c hc
      unfold trimBack at hc
      rw [List.getLast?_reverse] at hc
      exact head?_trimFront _ c hc

theorem toList_trim (s : String) : (trim s).toList = trimBack (trimFront s.toList) := String.toList_ofList

namespace Decimal

/-! ## What digits come to -/

/-- What a run of digits stands for in base ten. -/
def value (ds : List Char) : Nat := Nat.ofDigits 10 (ds.reverse.map fun c => c.toNat - '0'.toNat)

/-- The characters are digits, if there are any. -/
def AreDigits (ds : List Char) : Prop := ∀ c ∈ ds, c.isDigit = true

variable {limit n : Nat} {ds rest : List Char} {c : Char} {fault : Fault}

theorem value_concat (ds : List Char) (c : Char) : value (ds ++ [c]) = value ds * 10 + (c.toNat - '0'.toNat) := by
  unfold value
  rw [List.reverse_append, List.reverse_singleton, List.singleton_append, List.map_cons, Nat.ofDigits_cons]
  omega

theorem value_le_append (ds rest : List Char) : value ds ≤ value (ds ++ rest) := by
  induction rest using List.reverseRecOn with
  | nil => rw [List.append_nil]
  | append_singleton rest c ih =>
    rw [← List.append_assoc, value_concat]
    omega

theorem digit?_of_isDigit (h : c.isDigit = true) : digit? c = some (c.toNat - '0'.toNat) := by
  simp only [Char.isDigit, Bool.and_eq_true, decide_eq_true_eq] at h
  exact if_pos h

theorem digit?_of_not_isDigit (h : c.isDigit = false) : digit? c = none := by
  refine if_neg fun hc => ?_
  have hdigit : c.isDigit = true := by
    simp only [Char.isDigit, Bool.and_eq_true, decide_eq_true_eq]
    exact hc
  rw [hdigit] at h
  cases h

/-! ## Reading a run of digits -/

/-- Digits that do not reach the limit are read on from. -/
theorem readFrom_digits (pre : List Char) (hds : AreDigits ds) (h : value (pre ++ ds) < limit) (rest : List Char) :
    readFrom limit (value pre) (ds ++ rest) = readFrom limit (value (pre ++ ds)) rest := by
  induction ds generalizing pre with
  | nil => rw [List.append_nil, List.nil_append]
  | cons c ds ih =>
    obtain ⟨hc, hds⟩ := List.forall_mem_cons.1 hds
    rw [List.append_cons] at h ⊢
    have hstep : value (pre ++ [c]) < limit := Nat.lt_of_le_of_lt (value_le_append _ ds) h
    rw [← ih _ hds h, value_concat, List.cons_append, readFrom, digit?_of_isDigit hc]
    rw [value_concat] at hstep
    exact if_pos hstep

/-- Digits that reach the limit are not read to their end. -/
theorem readFrom_tooLarge (pre : List Char) (hds : AreDigits ds) (hpre : value pre < limit)
    (h : limit ≤ value (pre ++ ds)) (rest : List Char) :
    readFrom limit (value pre) (ds ++ rest) = .error .tooLarge := by
  induction ds generalizing pre with
  | nil =>
    rw [List.append_nil] at h
    exact absurd hpre (Nat.not_lt.2 h)
  | cons c ds ih =>
    obtain ⟨hc, hds⟩ := List.forall_mem_cons.1 hds
    rw [List.append_cons] at h
    rw [List.cons_append, readFrom, digit?_of_isDigit hc]
    dsimp only
    rw [← value_concat]
    by_cases hstep : value (pre ++ [c]) < limit
    · rw [if_pos hstep]
      exact ih _ hds hstep h
    · exact if_neg hstep

theorem readFrom_badDigit (hc : c.isDigit = false) (v : Nat) (rest : List Char) :
    readFrom limit v (c :: rest) = .error .badDigit := by
  rw [readFrom, digit?_of_not_isDigit hc]

/-- A text is a run of digits that stays below the limit, or one that reaches it stands in front, or one that does not
and then another character. -/
theorem digits_cases (limit : Nat) (cs : List Char) :
    AreDigits cs ∧ value cs < limit ∨ (∃ ds rest, cs = ds ++ rest ∧ AreDigits ds ∧ limit ≤ value ds) ∨
      ∃ ds c rest, cs = ds ++ c :: rest ∧ AreDigits ds ∧ c.isDigit = false ∧ value ds < limit := by
  have hsplit : cs = cs.takeWhile Char.isDigit ++ cs.dropWhile Char.isDigit := List.takeWhile_append_dropWhile.symm
  have hds : AreDigits (cs.takeWhile Char.isDigit) := fun _ hc => List.mem_takeWhile_imp hc
  rcases Nat.lt_or_ge (value (cs.takeWhile Char.isDigit)) limit with hlt | hge
  · cases hrest : cs.dropWhile Char.isDigit with
    | nil =>
      rw [hrest, List.append_nil] at hsplit
      rw [← hsplit] at hds hlt
      exact .inl ⟨hds, hlt⟩
    | cons c rest =>
      have hc := List.head?_dropWhile_not Char.isDigit cs
      rw [hrest] at hc hsplit
      exact .inr (.inr ⟨_, c, rest, hsplit, hds, hc, hlt⟩)
  · exact .inr (.inl ⟨_, _, hsplit, hds, hge⟩)

/-! ## Numerals and faults -/

/-- The text without one plus sign in front, if it has one. -/
def unsigned : List Char → List Char
  | '+' :: cs => cs
  | cs => cs

/-- An optional plus sign and one or more digits, and what they stand for. -/
def IsNumeral (cs : List Char) (n : Nat) : Prop :=
  ∃ sign ds, cs = sign ++ ds ∧ (sign = [] ∨ sign = ['+']) ∧ ds ≠ [] ∧ AreDigits ds ∧ n = value ds

/-- What is wrong with a text that is no numeral below the limit: the first fault from the left. -/
inductive IsFaulty (limit : Nat) : List Char → Fault → Prop where
  | empty : IsFaulty limit [] .empty
  /-- There is a sign and nothing else. -/
  | bare : IsFaulty limit ['+'] .badDigit
  | badDigit {cs ds rest : List Char} {c : Char} (h : unsigned cs = ds ++ c :: rest) (hds : AreDigits ds)
    (hc : c.isDigit = false) (hv : value ds < limit) : IsFaulty limit cs .badDigit
  | tooLarge {cs ds rest : List Char} (h : unsigned cs = ds ++ rest) (hds : AreDigits ds) (hv : limit ≤ value ds) :
    IsFaulty limit cs .tooLarge

theorem unsigned_of_ne (h : ∀ cs', cs ≠ '+' :: cs') : unsigned cs = cs := by
  unfold unsigned
  split
  · exact absurd rfl (h _)
  · rfl

/-- A text is empty, a sign alone, or it is read like the text without its sign. -/
theorem read_cases (limit : Nat) (cs : List Char) :
    cs = [] ∨ cs = ['+'] ∨ unsigned cs ≠ [] ∧ (cs = unsigned cs ∨ cs = '+' :: unsigned cs) ∧
      read limit cs = readFrom limit (value []) (unsigned cs) := by
  unfold read
  split
  · exact .inl rfl
  case h_2 cs =>
    cases cs with
    | nil => exact .inr (.inl rfl)
    | cons c cs => exact .inr (.inr ⟨List.cons_ne_nil c cs, .inr rfl, rfl⟩)
  case h_3 cs hnil hplus =>
    rw [unsigned_of_ne hplus]
    exact .inr (.inr ⟨fun h => hnil h, .inl rfl, rfl⟩)

theorem read_of_unsigned (h : unsigned cs ≠ []) : read limit cs = readFrom limit (value []) (unsigned cs) := by
  rcases read_cases limit cs with rfl | rfl | ⟨-, -, hread⟩
  · exact absurd rfl h
  · exact absurd rfl h
  · exact hread

/-- What comes of reading a text. -/
theorem read_spec (hl : 0 < limit) (cs : List Char) :
    (∃ n, read limit cs = .ok n ∧ IsNumeral cs n ∧ n < limit) ∨
      ∃ fault, read limit cs = .error fault ∧ IsFaulty limit cs fault := by
  rcases read_cases limit cs with rfl | rfl | ⟨hne, hsign, hread⟩
  · exact .inr ⟨.empty, rfl, .empty⟩
  · exact .inr ⟨.badDigit, rfl, .bare⟩
  · rw [hread]
    rcases digits_cases limit (unsigned cs) with
      ⟨hds, hlt⟩ | ⟨ds, rest, hcs, hds, hge⟩ | ⟨ds, c, rest, hcs, hds, hc, hlt⟩
    · have hall := readFrom_digits [] hds hlt []
      rw [List.append_nil] at hall
      refine .inl ⟨_, hall, ?_, hlt⟩
      rcases hsign with hcs | hcs
      · exact ⟨[], unsigned cs, hcs, .inl rfl, hne, hds, rfl⟩
      · exact ⟨['+'], unsigned cs, hcs, .inr rfl, hne, hds, rfl⟩
    · refine .inr ⟨.tooLarge, ?_, .tooLarge hcs hds hge⟩
      rw [hcs]
      exact readFrom_tooLarge [] hds hl hge rest
    · refine .inr ⟨.badDigit, ?_, .badDigit hcs hds hc hlt⟩
      rw [hcs, readFrom_digits [] hds hlt]
      exact readFrom_badDigit hc _ rest

theorem unsigned_numeral {sign : List Char} (hsign : sign = [] ∨ sign = ['+']) (hds : AreDigits ds) :
    unsigned (sign ++ ds) = ds := by
  rcases hsign with rfl | rfl
  · refine unsigned_of_ne fun cs' h => ?_
    rw [List.nil_append] at h
    have hplus := hds '+' (h ▸ List.mem_cons_self)
    cases hplus
  · rfl

/-- **What is accepted**: numerals below the limit. -/
theorem read_eq_ok_iff (hl : 0 < limit) : read limit cs = .ok n ↔ IsNumeral cs n ∧ n < limit := by
  constructor
  · intro h
    rcases read_spec hl cs with ⟨n', hread, hn⟩ | ⟨fault, hread, -⟩
    · rw [h] at hread
      cases hread
      exact hn
    · rw [h] at hread
      cases hread
  · rintro ⟨⟨sign, ds, rfl, hsign, hne, hds, rfl⟩, hlt⟩
    have hunsigned := unsigned_numeral hsign hds
    have hall := readFrom_digits [] hds hlt []
    rw [List.append_nil] at hall
    rw [← hunsigned] at hne
    rw [read_of_unsigned hne, hunsigned, hall]
    rfl

/-- **What is refused, and why**: the first fault from the left. -/
theorem read_eq_error_iff (hl : 0 < limit) : read limit cs = .error fault ↔ IsFaulty limit cs fault := by
  constructor
  · intro h
    rcases read_spec hl cs with ⟨n, hread, -⟩ | ⟨fault', hread, hf⟩
    · rw [h] at hread
      cases hread
    · rw [h] at hread
      cases hread
      exact hf
  · intro h
    cases h with
    | empty => rfl
    | bare => rfl
    | @badDigit _ ds rest c hcs hds hc hv =>
      have hne : unsigned cs ≠ [] := by simp [hcs]
      rw [read_of_unsigned hne, hcs, readFrom_digits [] hds hv, readFrom_badDigit hc]
    | @tooLarge _ ds rest hcs hds hv =>
      have hds' : ds ≠ [] := by
        rintro rfl
        exact absurd hl (Nat.not_lt.2 hv)
      have hne : unsigned cs ≠ [] := by simp [hcs, hds']
      rw [read_of_unsigned hne, hcs, readFrom_tooLarge [] hds hl hv]

end Decimal
end Text
end JobRunner
