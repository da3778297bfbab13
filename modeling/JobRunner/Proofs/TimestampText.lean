import JobRunner.Proofs.Calendar
import JobRunner.Time.Timestamp
import Mathlib.Data.Option.Basic
/-!
# Timestamps come back from their texts

A text stands for a timestamp in one of many forms; what it stands for is written in one of them, and read again from
there.  A number is read back from its digits, with what stands behind them left over, and so is each part in turn.
-/
namespace JobRunner
namespace Timestamp

variable {cs rest : List Char} {n most width : Nat}

/-! ## Digits -/

theorem digit?_of_isDigit {c : Char} (h : c.isDigit = true) : Text.Decimal.digit? c = some (c.toNat - 48) := by
  rw [Char.isDigit_iff_toNat] at h
  exact if_pos h

theorem digit?_eq_none {c : Char} (h : c.isDigit = false) : Text.Decimal.digit? c = none := by
  refine if_neg fun hc => ?_
  rw [Char.isDigit_iff_toNat.2 hc] at h
  cases h

/-- The text does not go on with a digit. -/
def EndsDigits (rest : List Char) : Prop := ∀ c ∈ rest.head?, c.isDigit = false

theorem takeDigits_append : ∀ {cs : List Char} {most : Nat}, (∀ c ∈ cs, c.isDigit = true) → cs.length ≤ most →
    (cs.length = most ∨ EndsDigits rest) → takeDigits most (cs ++ rest) = (cs.map (·.toNat - 48), rest)
  | [], 0, _, _, _ => by cases rest <;> rfl
  | [], most + 1, _, _, h => by
    have hrest : EndsDigits rest := h.resolve_left (by simp)
    cases rest with
    | nil => rfl
    | cons c rest =>
      have hc := digit?_eq_none (hrest c rfl)
      simp [takeDigits, hc]
  | c :: cs, most + 1, hcs, hlen, h => by
    rw [List.forall_mem_cons] at hcs
    have ih := takeDigits_append hcs.2 (Nat.le_of_succ_le_succ hlen) (h.imp_left Nat.succ.inj)
    simp [takeDigits, digit?_of_isDigit hcs.1, ih]

theorem digitsValue_map (cs : List Char) : digitsValue (cs.map (·.toNat - 48)) = Nat.ofDigitChars 10 cs 0 := by
  unfold digitsValue Nat.ofDigitChars
  rw [List.foldl_map]
  simp only [Nat.mul_comm]
  rfl

/-- A run of digits is read as the number that it shows, and what stands behind it is left over. -/
theorem number_append (hcs : ∀ c ∈ cs, c.isDigit = true) (hne : cs ≠ []) (hlen : cs.length ≤ most)
    (h : cs.length = most ∨ EndsDigits rest) : number most (cs ++ rest) = some (Nat.ofDigitChars 10 cs 0, rest) := by
  unfold number
  rw [takeDigits_append hcs hlen h, ← digitsValue_map]
  cases cs with
  | nil => exact absurd rfl hne
  | cons c cs => rfl

/-! ## Padded numbers -/

theorem padded_eq (width n : Nat) :
    padded width n = List.replicate (width - (Nat.toDigits 10 n).length) '0' ++ Nat.toDigits 10 n := by
  unfold padded
  rw [Nat.toList_repr]

theorem isDigit_padded : ∀ c ∈ padded width n, c.isDigit = true := by
  intro c hc
  rw [padded_eq, List.mem_append] at hc
  rcases hc with hc | hc
  · rw [List.eq_of_mem_replicate hc]
    rfl
  · exact Nat.isDigit_of_mem_toDigits (by decide) (by decide) hc

theorem ofDigitChars_padded : Nat.ofDigitChars 10 (padded width n) 0 = n := by
  rw [padded_eq, Nat.ofDigitChars_append, Nat.ofDigitChars_replicate_zero, Nat.mul_zero, Nat.ofDigitChars_ten_toDigits]

theorem padded_ne_nil : padded width n ≠ [] := by
  rw [padded_eq]
  simp

theorem length_padded (hw : 0 < width) (h : n < Nat.pow 10 width) : (padded width n).length = width := by
  have hlen := (Nat.length_toDigits_le_iff (b := 10) (by decide) hw).2 h
  rw [padded_eq, List.length_append, List.length_replicate]
  omega

/-- A padded number is read back. -/
theorem number_padded (hw : 0 < width) (h : n < Nat.pow 10 width) (rest : List Char) :
    number width (padded width n ++ rest) = some (n, rest) := by
  have hlen := length_padded hw h
  rw [number_append isDigit_padded padded_ne_nil (Nat.le_of_eq hlen) (.inl hlen), ofDigitChars_padded]

theorem isBlank_of_isDigit {c : Char} (h : c.isDigit = true) : Text.isBlank c = false := by
  rw [Char.isDigit_iff_toNat] at h
  have h : 48 ≤ c.toNat ∧ c.toNat ≤ 57 := h
  simp only [Text.isBlank, Text.inRanges, Text.blankRanges, List.any_cons, List.any_nil]
  simp only [Bool.or_eq_false_iff, Bool.and_eq_false_iff, decide_eq_false_iff_not, Bool.or_false]
  omega

theorem trimFront_append (hcs : ∀ c ∈ cs, c.isDigit = true) (hne : cs ≠ []) :
    Text.trimFront (cs ++ rest) = cs ++ rest := by
  cases cs with
  | nil => exact absurd rfl hne
  | cons c cs =>
    rw [List.cons_append, Text.trimFront_cons, isBlank_of_isDigit (hcs c List.mem_cons_self)]
    rfl

theorem paddedNumber_padded (hw : 0 < width) (h : n < Nat.pow 10 width) (rest : List Char) :
    paddedNumber width (padded width n ++ rest) = some (n, rest) := by
  unfold paddedNumber
  rw [trimFront_append isDigit_padded padded_ne_nil, number_padded hw h]

/-! ## The parts of a timestamp -/

theorem trimFront_of_isBlank_eq_false {c : Char} (h : Text.isBlank c = false) (rest : List Char) :
    Text.trimFront (c :: rest) = c :: rest := by
  rw [Text.trimFront_cons, h]
  rfl

theorem mark_cons {c : Char} (h : Text.isBlank c = false) (rest : List Char) : mark c (c :: rest) = some rest := by
  unfold mark
  rw [trimFront_of_isBlank_eq_false h]
  exact if_pos rfl

/-- A year with a sign has all its digits read, up to the mark behind them. -/
theorem number_signed (n : Nat) (rest : List Char) :
    number (padded 4 n ++ '-' :: rest).length (padded 4 n ++ '-' :: rest) = some (n, '-' :: rest) := by
  have hend : EndsDigits ('-' :: rest) := by
    intro c hc
    cases hc
    rfl
  rw [number_append isDigit_padded padded_ne_nil (by simp) (.inr hend), ofDigitChars_padded]

theorem year_of_isDigit {c : Char} (hc : c.isDigit = true) (cs : List Char) :
    year (c :: cs) = (number 4 (c :: cs)).map fun r => ((r.1 : Int), r.2) := by
  unfold year
  rw [trimFront_of_isBlank_eq_false (isBlank_of_isDigit hc)]
  split
  case h_3 => rfl
  -- a sign is no digit
  all_goals
    rename_i heq
    cases heq
    cases hc

theorem year_yearText (y : Int) (rest : List Char) : year (yearText y ++ '-' :: rest) = some (y, '-' :: rest) := by
  unfold yearText
  split
  case isTrue h =>
    obtain ⟨c, cs, hp⟩ : ∃ c cs, padded 4 y.toNat = c :: cs := List.exists_cons_of_ne_nil padded_ne_nil
    have hc : c.isDigit = true := isDigit_padded c (hp ▸ List.mem_cons_self)
    have hnat : y.toNat < 10 ^ 4 := by omega
    have hread := number_padded (by decide) hnat ('-' :: rest)
    rw [hp, List.cons_append] at hread ⊢
    rw [year_of_isDigit hc, hread, Option.map_some, Int.toNat_of_nonneg h.1]
  case isFalse h =>
    by_cases hneg : y < 0
    · have hback : -((y.natAbs : Nat) : Int) = y := by omega
      rw [if_pos hneg, List.cons_append]
      unfold year
      rw [trimFront_of_isBlank_eq_false (by decide)]
      simp only [number_signed, Option.map_some, hback]
    · have hback : ((y.natAbs : Nat) : Int) = y := by omega
      rw [if_neg hneg, List.cons_append]
      unfold year
      rw [trimFront_of_isBlank_eq_false (by decide)]
      simp only [number_signed, Option.map_some, hback]

theorem fraction_point (hw : 0 < width) (hle : width ≤ 9) (h : n < Nat.pow 10 width) (rest : List Char) :
    fraction ('.' :: (padded width n ++ 'Z' :: rest)) = some (n * Nat.pow 10 (9 - width), 'Z' :: rest) := by
  have hlen := length_padded hw h
  have hend : EndsDigits ('Z' :: rest) := by
    intro c hc
    cases hc
    rfl
  rw [fraction, takeDigits_append isDigit_padded (Nat.le_trans (Nat.le_of_eq hlen) hle) (.inr hend)]
  have hvalue : digitsValue ((padded width n).map (·.toNat - 48)) = n := by rw [digitsValue_map, ofDigitChars_padded]
  cases hp : padded width n with
  | nil => exact absurd hp padded_ne_nil
  | cons c cs =>
    rw [hp] at hvalue hlen
    rw [List.map_cons] at hvalue ⊢
    dsimp only
    rw [hvalue, List.length_cons, List.length_map, ← List.length_cons, hlen]
    rfl

theorem fraction_fractionText {nanos : Nat} (h : nanos < 1000000000) (rest : List Char) :
    fraction (fractionText nanos ++ 'Z' :: rest) = some (nanos, 'Z' :: rest) := by
  unfold fractionText
  split
  · rename_i hz
    subst hz
    rfl
  split
  · have hlt : nanos / 1000000 < 1000 := by omega
    rw [List.cons_append, fraction_point (by decide) (by decide) hlt]
    congr 2
    show nanos / 1000000 * 1000000 = nanos
    omega
  split
  · have hlt : nanos / 1000 < 1000000 := by omega
    rw [List.cons_append, fraction_point (by decide) (by decide) hlt]
    congr 2
    show nanos / 1000 * 1000 = nanos
    omega
  · rw [List.cons_append, fraction_point (by decide) (by decide) h]
    congr 2
    exact Nat.mul_one nanos

/-! ## Reading what was written -/

/-- The text of a local date and time of day in UTC. -/
def partsText (date : Date) (hour minute second nanos : Nat) : List Char :=
  yearText date.year ++ '-' :: padded 2 date.month ++ '-' :: padded 2 date.day ++ 'T' :: padded 2 hour ++
    ':' :: padded 2 minute ++ ':' :: padded 2 second ++ fractionText nanos ++ ['Z']

theorem some_bind {α β : Type} (a : α) (f : α → Option β) : (some a >>= f) = f a := rfl

theorem bind_eq_some {α β : Type} {x : Option α} {f : α → Option β} {b : β} :
    (x >>= f) = some b ↔ ∃ a, x = some a ∧ f a = some b := Option.bind_eq_some_iff

/-- The parts of a timestamp are read back from its text. -/
theorem ofText?_partsText {date : Date} {hour minute second nanos : Nat} (hmonth : date.month < 100)
    (hday : date.day < 100) (hhour : hour < 100) (hminute : minute < 100) (hsecond : second < 100)
    (hnanos : nanos < 1000000000) : ofText? (String.ofList (partsText date hour minute second nanos)) =
      (Date.ofParts? date.year date.month date.day).bind fun d => ofLocal? d hour minute second nanos 0 := by
  have hpad {n : Nat} (h : n < 100) (rest : List Char) : paddedNumber 2 (padded 2 n ++ rest) = some (n, rest) :=
    paddedNumber_padded (by decide) h rest
  have hdash : Text.isBlank '-' = false := by decide
  have hcolon : Text.isBlank ':' = false := by decide
  have hend : offset (Text.trimFront ['Z']) = some (0, []) := rfl
  unfold ofText? partsText
  simp only [String.toList_ofList, List.append_assoc, List.cons_append, some_bind, year_yearText, mark_cons hdash,
    mark_cons hcolon, hpad hmonth, hpad hday, hpad hhour, hpad hminute, hpad hsecond, fraction_fractionText hnanos, hend]
  rfl

/-- The timestamps that texts stand for: the calendar has their date, and only the last second of a minute goes on past
a thousand million nanoseconds. -/
structure Readable (t : Timestamp) : Prop where
  inRange : (Date.ofDayNumber (t.secs / 86400)).inRange = true
  nanos_lt : t.nanos < 2000000000
  leap : 1000000000 ≤ t.nanos → t.secs % 60 = 59

theorem text_eq (t : Timestamp) : t.text = String.ofList (partsText (Date.ofDayNumber (t.secs / 86400))
    ((t.secs % 86400).toNat / 3600) ((t.secs % 86400).toNat / 60 % 60)
    (if 1000000000 ≤ t.nanos then (t.secs % 86400).toNat % 60 + 1 else (t.secs % 86400).toNat % 60)
    (if 1000000000 ≤ t.nanos then t.nanos - 1000000000 else t.nanos)) := rfl

/-- **A timestamp that a text stands for is read back from its own text.** -/
theorem ofText?_text {t : Timestamp} (h : t.Readable) : ofText? t.text = some t := by
  obtain ⟨secs, nanos⟩ := t
  obtain ⟨hrange, hnanos, hleap⟩ := h
  dsimp only at hrange hnanos hleap
  have hdate := Date.ofParts?_ofDayNumber hrange
  obtain ⟨hmonth, hday⟩ := Date.lt_of_ofParts? hdate
  have hcount := Date.dayNumber_ofDayNumber (secs / 86400)
  obtain ⟨second, hsecond⟩ : ∃ second, second = (secs % 86400).toNat := ⟨_, rfl⟩
  have hsplit : secs = secs / 86400 * 86400 + second ∧ second < 86400 ∧ (secs % 60 = 59 → second % 60 = 59) := by omega
  rw [text_eq]
  dsimp only
  rw [← hsecond, ofText?_partsText hmonth hday (by omega) (by omega) (by split <;> omega) (by split <;> omega), hdate,
    Option.bind_some]
  have hclock : second / 3600 ≤ 23 ∧ second / 60 % 60 ≤ 59 := by omega
  unfold ofLocal?
  rw [hcount]
  by_cases hl : 1000000000 ≤ nanos
  · have hlast := hsplit.2.2 (hleap hl)
    have hsecs : secs / 86400 * 86400 + ((second : Int) / 3600 * 3600 + (second : Int) / 60 % 60 * 60 + 59) = secs := by
      omega
    have hback : 1000000000 + (nanos - 1000000000) = nanos := by omega
    simp [hl, hlast, hclock, hsecs, hrange, hback]
  · have hlast : second % 60 ≠ 60 ∧ second % 60 ≤ 60 := by omega
    have hsecs : secs / 86400 * 86400 +
        ((second : Int) / 3600 * 3600 + (second : Int) / 60 % 60 * 60 + (second : Int) % 60) = secs := by omega
    simp [hl, hlast, hclock, hsecs, hrange]

/-! ## What can be read -/

theorem takeDigits_bounds : ∀ (most : Nat) (cs : List Char),
    (takeDigits most cs).1.length ≤ most ∧ ∀ d ∈ (takeDigits most cs).1, d < 10
  | 0, _ => ⟨Nat.le_refl _, nofun⟩
  | _ + 1, [] => ⟨Nat.zero_le _, nofun⟩
  | most + 1, c :: cs => by
    unfold takeDigits
    cases hc : Text.Decimal.digit? c with
    | none => exact ⟨Nat.zero_le _, nofun⟩
    | some d =>
      obtain ⟨hlen, hlt⟩ := takeDigits_bounds most cs
      exact ⟨Nat.succ_le_succ hlen, List.forall_mem_cons.2 ⟨Text.Decimal.digit?_lt hc, hlt⟩⟩

theorem foldl_digits_lt : ∀ (ds : List Nat) (v : Nat), (∀ d ∈ ds, d < 10) →
    ds.foldl (fun v d => v * 10 + d) v < (v + 1) * Nat.pow 10 ds.length
  | [], v, _ => Nat.lt_of_lt_of_eq (Nat.lt_succ_self v) (Nat.mul_one _).symm
  | d :: ds, v, h => by
    rw [List.forall_mem_cons] at h
    refine Nat.lt_of_lt_of_le (foldl_digits_lt ds (v * 10 + d) h.2) ?_
    show (v * 10 + d + 1) * Nat.pow 10 ds.length ≤ (v + 1) * (Nat.pow 10 ds.length * 10)
    rw [Nat.mul_comm (Nat.pow 10 ds.length) 10, ← Nat.mul_assoc]
    exact Nat.mul_le_mul_right _ (by omega)

theorem fraction_lt {cs rest : List Char} {n : Nat} (h : fraction cs = some (n, rest)) : n < 1000000000 := by
  unfold fraction at h
  split at h
  case h_1 cs =>
    obtain ⟨hlen, hlt⟩ := takeDigits_bounds 9 cs
    split at h
    · cases h
    · rename_i ds behind _ hds
      rw [hds] at hlen hlt
      cases h
      have hvalue := foldl_digits_lt ds 0 hlt
      rw [Nat.zero_add, Nat.one_mul] at hvalue
      calc digitsValue ds * 10 ^ (9 - ds.length)
        _ < 10 ^ ds.length * 10 ^ (9 - ds.length) := Nat.mul_lt_mul_of_pos_right hvalue (Nat.pow_pos (by decide))
        _ = 1000000000 := by rw [← Nat.pow_add, Nat.add_sub_cancel' hlen]
  case h_2 =>
    cases h
    decide

theorem offset_mod {cs rest : List Char} {o : Int} (h : offset cs = some (o, rest)) : o % 60 = 0 := by
  unfold offset at h
  split at h
  case h_3 =>
    split at h
    · cases h
      rfl
    · simp only [Option.bind_eq_bind] at h
      split at h
      case h_4 => cases h
      all_goals
        simp only [Option.bind_some, Option.bind_eq_some_iff] at h
        obtain ⟨hours, -, minutes, -, h⟩ := h
        cases h
        omega
  all_goals
    cases h
    rfl

theorem Readable.of_ofLocal? {date : Date} {hour minute second nanos : Nat} {o : Int} {t : Timestamp}
    (hn : nanos < 1000000000) (ho : o % 60 = 0) (h : ofLocal? date hour minute second nanos o = some t) :
    t.Readable := by
  unfold ofLocal? at h
  rw [Option.ite_none_right_eq_some] at h
  obtain ⟨-, h⟩ := h
  dsimp only at h
  rw [Option.ite_none_right_eq_some] at h
  obtain ⟨hrange, h⟩ := h
  cases h
  refine ⟨hrange, ?_, fun hle => ?_⟩
  · dsimp only
    split <;> omega
  · dsimp only at hle ⊢
    split at hle
    · rw [if_pos ‹_›]
      omega
    · omega

theorem Readable.of_ofText? {s : String} {t : Timestamp} (h : ofText? s = some t) : t.Readable := by
  unfold ofText? at h
  simp only [bind_eq_some] at h
  obtain ⟨a, ha, b, hb, c, hc, d, hd, e, he, h⟩ := h
  split at h
  case h_4 => cases h
  all_goals
    simp only [some_bind, bind_eq_some] at h
    obtain ⟨hour, -, _, -, minute, -, _, -, second, -, nanos, hnanos, o, ho, -, -, date, -, h⟩ := h
    exact .of_ofLocal? (fraction_lt hnanos) (offset_mod ho) h

end Timestamp
end JobRunner
