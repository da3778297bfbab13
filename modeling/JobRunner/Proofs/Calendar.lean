import JobRunner.Time.Date
/-!
# Days and dates

Every day has a date that the calendar has, and the day is counted back from it.  Days are told apart by the cycle of four
hundred years in which they lie, and within the cycle by century, by four years and by year; years are taken from March,
so that a leap day is the last of its year.
-/
namespace JobRunner
namespace Date

/-- A day of the four hundred years of a cycle: its century, its four years within the century, its year within those,
and the day of that year.  Only the last of four years has a day 365, and of the last four years of a century only those
of the last century. -/
structure InCycle (day century four year rest : Int) : Prop where
  day_eq : day = 36524 * century + 1461 * four + 365 * year + rest
  century_nonneg : 0 ≤ century
  century_le : century ≤ 3
  four_nonneg : 0 ≤ four
  four_le : four ≤ 24
  year_nonneg : 0 ≤ year
  year_le : year ≤ 3
  rest_nonneg : 0 ≤ rest
  rest_le : rest ≤ 365
  leap : rest = 365 → year = 3 ∧ (four ≠ 24 ∨ century = 3)

theorem exists_inCycle {day : Int} (h0 : 0 ≤ day) (h1 : day < 146097) :
    ∃ century four year rest, InCycle day century four year rest := by
  obtain ⟨century, within, hday, hc, hc', hw, hw'⟩ : ∃ century within, day = 36524 * century + within ∧
      0 ≤ century ∧ century ≤ 3 ∧ 0 ≤ within ∧ (within < 36524 ∨ within = 36524 ∧ century = 3) :=
    ⟨day / 36524 - day / 146096, day - 36524 * (day / 36524 - day / 146096), by omega⟩
  obtain ⟨year, rest, hrest, hy, hy', hr, hr'⟩ : ∃ year rest, within % 1461 = 365 * year + rest ∧
      0 ≤ year ∧ year ≤ 3 ∧ 0 ≤ rest ∧ (rest < 365 ∨ rest = 365 ∧ year = 3) :=
    ⟨within % 1461 / 365 - within % 1461 / 1460, within % 1461 - 365 * (within % 1461 / 365 - within % 1461 / 1460),
      by omega⟩
  refine ⟨century, within / 1461, year, rest, ?_⟩
  constructor <;> omega

namespace InCycle

variable {day century four year rest : Int}

/-- The year of the cycle as it is found by division. -/
theorem year_eq (h : InCycle day century four year rest) :
    (day - day / 1460 + day / 36524 - day / 146096) / 365 = 100 * century + 4 * four + year := by
  obtain ⟨hday, hc, hc', hf, hf', hy, hy', hr, hr', hl⟩ := h
  -- the last day of the cycle is the only one behind 146095, and the only one behind its last whole century
  by_cases hlast : day = 146096
  · subst hlast
    omega
  have hcentury : day / 36524 = century := by omega
  have hfour : day / 1460 = 25 * century + four + (24 * century + four + 365 * year + rest) / 1460 := by omega
  have hcycle : day / 146096 = 0 := by omega
  rw [hcentury, hfour, hcycle]
  omega

theorem day_nonneg (h : InCycle day century four year rest) : 0 ≤ day := by
  obtain ⟨hday, hc, hc', hf, hf', hy, hy', hr, hr', hl⟩ := h
  omega

theorem day_lt (h : InCycle day century four year rest) : day < 146097 := by
  obtain ⟨hday, hc, hc', hf, hf', hy, hy', hr, hr', hl⟩ := h
  omega

/-- The year, counted on through the cycles. -/
theorem cycle_eq {cycle : Int} (h : InCycle day century four year rest) :
    (100 * century + 4 * four + year + cycle * 400) / 400 = cycle ∧
      (100 * century + 4 * four + year + cycle * 400) % 400 = 100 * century + 4 * four + year := by
  obtain ⟨hday, hc, hc', hf, hf', hy, hy', hr, hr', hl⟩ := h
  omega

theorem rest_eq (h : InCycle day century four year rest) :
    let y := 100 * century + 4 * four + year
    day - (365 * y + y / 4 - y / 100) = rest := by
  obtain ⟨hday, hc, hc', hf, hf', hy, hy', hr, hr', hl⟩ := h
  intro y
  have h4 : y / 4 = 25 * century + four := by omega
  have h100 : y / 100 = century := by omega
  omega

end InCycle

/-- The date of a day in a year that begins in March. -/
def ofYearDay (y day : Int) : Date :=
  let month := (5 * day + 2) / 153
  ⟨if month < 10 then y else y + 1, (if month < 10 then month + 3 else month - 9).toNat,
    (day - (153 * month + 2) / 5 + 1).toNat⟩

theorem ofDayNumber_eq {cycle day century four year rest : Int} (h : InCycle day century four year rest) :
    ofDayNumber (146097 * cycle + day - 719468) =
      ofYearDay (100 * century + 4 * four + year + cycle * 400) rest := by
  have hcycle : (146097 * cycle + day) / 146097 = cycle ∧ (146097 * cycle + day) % 146097 = day := by
    have hday := h.day_nonneg
    have hday' := h.day_lt
    omega
  have hmonth : (5 * rest + 2) / 153 ≤ 11 ∧ 0 ≤ (5 * rest + 2) / 153 := by
    have hrest := h.rest_le
    have hrest' := h.rest_nonneg
    omega
  unfold ofDayNumber ofYearDay
  simp only [Int.sub_add_cancel, hcycle, h.year_eq, h.rest_eq]
  by_cases hm : (5 * rest + 2) / 153 < 10
  · have hlow : ¬ (5 * rest + 2) / 153 + 3 ≤ 2 := by omega
    simp only [hm, hlow, if_true, if_false]
  · have hlow : (5 * rest + 2) / 153 - 9 ≤ 2 := by omega
    simp only [hm, hlow, if_true, if_false]

theorem dayNumber_ofYearDay {y day : Int} (h0 : 0 ≤ day) (h1 : day ≤ 365) : (ofYearDay y day).dayNumber =
    y / 400 * 146097 + (y % 400 * 365 + y % 400 / 4 - y % 400 / 100 + day) - 719468 := by
  obtain ⟨month, hmonth⟩ : ∃ month, month = (5 * day + 2) / 153 := ⟨_, rfl⟩
  have hrange : 0 ≤ month ∧ month ≤ 11 ∧ (153 * month + 2) / 5 ≤ day := by omega
  unfold ofYearDay dayNumber
  dsimp only
  rw [← hmonth]
  clear hmonth
  by_cases hm : month < 10
  · have hlow : ¬ (month + 3).toNat ≤ 2 := by omega
    have hback : (((month + 3).toNat - 3 : Nat) : Int) = month := by omega
    simp only [hm, if_true, hlow, if_false, hback]
    omega
  · have hlow : (month - 9).toNat ≤ 2 := by omega
    have hback : (((month - 9).toNat + 9 : Nat) : Int) = month := by omega
    simp only [hm, hlow, if_true, if_false, hback, Int.add_sub_cancel]
    omega

/-- **Days are counted back from the dates they have.** -/
theorem dayNumber_ofDayNumber (n : Int) : (ofDayNumber n).dayNumber = n := by
  obtain ⟨cycle, day, rfl, h0, h1⟩ : ∃ cycle day, n = 146097 * cycle + day - 719468 ∧ 0 ≤ day ∧ day < 146097 :=
    ⟨(n + 719468) / 146097, (n + 719468) % 146097, by omega⟩
  obtain ⟨century, four, year, rest, h⟩ := exists_inCycle h0 h1
  rw [ofDayNumber_eq h, dayNumber_ofYearDay h.rest_nonneg h.rest_le, h.cycle_eq.1, h.cycle_eq.2]
  have hrest := h.rest_eq
  dsimp only at hrest
  omega

theorem isLeap_iff (y : Int) : isLeap y = true ↔ y % 4 = 0 ∧ (y % 100 ≠ 0 ∨ y % 400 = 0) := by
  simp [isLeap]

theorem isLeap_of_rest {cycle day century four year : Int} (h : InCycle day century four year 365) :
    isLeap (100 * century + 4 * four + year + cycle * 400 + 1) = true := by
  have hleap := h.leap rfl
  have hcentury := h.century_le
  have hfour := h.four_le
  have hfour' := h.four_nonneg
  rw [isLeap_iff]
  omega

/-- A day of a year that begins in March lies within its month. -/
theorem ofYearDay_spec {y day : Int} (h0 : 0 ≤ day) (h1 : day ≤ 365) (hl : day = 365 → isLeap (y + 1) = true) :
    1 ≤ (ofYearDay y day).day ∧ (ofYearDay y day).day ≤ monthLength (ofYearDay y day).year (ofYearDay y day).month := by
  obtain ⟨month, hmonth⟩ : ∃ month, month = (5 * day + 2) / 153 := ⟨_, rfl⟩
  unfold ofYearDay
  dsimp only
  rw [← hmonth]
  have hcases : month = 11 ∨ month = 0 ∨ month = 1 ∨ month = 2 ∨ month = 3 ∨ month = 4 ∨ month = 5 ∨ month = 6 ∨
      month = 7 ∨ month = 8 ∨ month = 9 ∨ month = 10 := by omega
  rcases hcases with rfl | hother
  · -- the last month is February
    refine ⟨by omega, ?_⟩
    show (day - 337 + 1).toNat ≤ if isLeap (y + 1) then 29 else 28
    split
    · omega
    · have hday : day ≠ 365 := fun h => absurd (hl h) ‹_›
      omega
  · rcases hother with rfl | rfl | rfl | rfl | rfl | rfl | rfl | rfl | rfl | rfl | rfl <;>
      simp [monthLength] <;> omega

/-- **The calendar has every date that a day has**, if its year is in range. -/
theorem ofParts?_ofDayNumber {n : Int} (h : (ofDayNumber n).inRange = true) :
    ofParts? (ofDayNumber n).year (ofDayNumber n).month (ofDayNumber n).day = some (ofDayNumber n) := by
  obtain ⟨cycle, day, hn, h0, h1⟩ : ∃ cycle day, n = 146097 * cycle + day - 719468 ∧ 0 ≤ day ∧ day < 146097 :=
    ⟨(n + 719468) / 146097, (n + 719468) % 146097, by omega⟩
  obtain ⟨century, four, year, rest, hin⟩ := exists_inCycle h0 h1
  have hspec := ofYearDay_spec (y := 100 * century + 4 * four + year + cycle * 400) hin.rest_nonneg hin.rest_le
    fun hrest => isLeap_of_rest (hrest ▸ hin)
  rw [← ofDayNumber_eq hin, ← hn] at hspec
  unfold inRange at h
  rw [Bool.and_eq_true, decide_eq_true_eq, decide_eq_true_eq] at h
  exact if_pos ⟨h.1, h.2, hspec⟩

theorem lt_of_ofParts? {y : Int} {month day : Nat} {date : Date} (h : ofParts? y month day = some date) :
    month < 100 ∧ day < 100 := by
  obtain ⟨⟨-, -, hpos, hle⟩, -⟩ := Option.ite_none_right_eq_some.1 h
  have hlen : monthLength y month ≤ 31 := by
    unfold monthLength
    repeat' split
    all_goals decide
  refine ⟨Nat.lt_of_not_le fun hm => ?_, by omega⟩
  have hnone : monthLength y month = 0 := by
    unfold monthLength
    split <;> first | rfl | omega
  omega

end Date
end JobRunner
