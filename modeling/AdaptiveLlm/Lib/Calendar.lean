import AdaptiveLlm.Lib.Blocks

set_option autoImplicit false

/-! # The proleptic Gregorian calendar

Dates and their ordinals: day 1 is January 1 of year 1. The year of an ordinal is found from the
cycles of 400, 100 and 4 years, the month from the lengths of the months. Ordinals name the dates in
their order, and every ordinal is that of the date found for it.

The year is computed as Python's library does it, by dividing by the lengths of the cycles one after
another, with the last day of a leap cycle treated apart. Its law is proved from the quotients, not
by running through the years. The months of a year are blocks of listed lengths (`Lib/Blocks.lean`),
from which the order of the ordinals follows year by year. -/

namespace Calendar

/-- The years with a 29th of February. -/
def isLeap (year : ℕ) : Bool := year % 4 = 0 && (year % 100 ≠ 0 || year % 400 = 0)

/-- The days of the months of a year. -/
def monthLengths (year : ℕ) : List ℕ :=
  [31, if isLeap year then 29 else 28, 31, 30, 31, 30, 31, 31, 30, 31, 30, 31]

/-- The days of a year. -/
def yearLength (year : ℕ) : ℕ := if isLeap year then 366 else 365

theorem sum_monthLengths (year : ℕ) : (monthLengths year).sum = yearLength year := by
  unfold monthLengths yearLength
  cases isLeap year <;> rfl

@[simp] theorem length_monthLengths (year : ℕ) : (monthLengths year).length = 12 := rfl

/-- The days of the years before `year`. -/
def daysBeforeYear (year : ℕ) : ℕ := (year - 1) * 365 + (year - 1) / 4 - (year - 1) / 100 + (year - 1) / 400

theorem succ_div (n b : ℕ) : (n + 1) / b = n / b + if (n + 1) % b = 0 then 1 else 0 := by
  rw [Nat.succ_div]
  simp only [Nat.dvd_iff_mod_eq_zero]

theorem daysBeforeYear_succ {year : ℕ} (h : 1 ≤ year) :
    daysBeforeYear (year + 1) = daysBeforeYear year + yearLength year := by
  obtain ⟨y, rfl⟩ : ∃ y, year = y + 1 := ⟨year - 1, by omega⟩
  have hle : y / 100 ≤ y / 4 := Nat.div_le_div_left (by decide) (by decide)
  simp only [daysBeforeYear, yearLength, isLeap, Nat.add_sub_cancel, succ_div]
  by_cases h4 : (y + 1) % 4 = 0
  · by_cases h100 : (y + 1) % 100 = 0
    · by_cases h400 : (y + 1) % 400 = 0
      · simp [h4, h100, h400]
        omega
      · simp [h4, h100, h400]
        omega
    · have h400 : (y + 1) % 400 ≠ 0 := by omega
      simp [h4, h100, h400]
      omega
  · have h100 : (y + 1) % 100 ≠ 0 := by omega
    have h400 : (y + 1) % 400 ≠ 0 := by omega
    simp [h4, h100, h400]
    omega

theorem daysBeforeYear_monotone : Monotone daysBeforeYear := by
  refine monotone_nat_of_le_succ fun year => ?_
  rcases Nat.eq_zero_or_pos year with rfl | h
  · exact Nat.zero_le _
  · rw [daysBeforeYear_succ h]
    exact Nat.le_add_right _ _

/-- The year of day `n` after January 1 of year 1, and the day of that year from 0: `n` in cycles of
    400 years, then 100, 4 and 1. The last day of a cycle that ends in a leap year falls out of its
    last year. -/
def yearOf (n : ℕ) : ℕ × ℕ :=
  let n400 := n / 146097
  let n100 := n % 146097 / 36524
  let n4 := n % 146097 % 36524 / 1461
  let n1 := n % 146097 % 36524 % 1461 / 365
  let year := n400 * 400 + n100 * 100 + n4 * 4 + n1 + 1
  if n1 = 4 ∨ n100 = 4 then (year - 1, 365) else (year, n % 146097 % 36524 % 1461 % 365)

theorem daysBeforeYear_cycles {a b c d : ℕ} (hb : b < 4) (hc : c < 25) (hd : d < 4) :
    daysBeforeYear (a * 400 + b * 100 + c * 4 + d + 1) = a * 146097 + b * 36524 + c * 1461 + d * 365 := by
  have h4 : (a * 400 + b * 100 + c * 4 + d) / 4 = a * 100 + b * 25 + c := by omega
  have h100 : (a * 400 + b * 100 + c * 4 + d) / 100 = a * 4 + b := by omega
  have h400 : (a * 400 + b * 100 + c * 4 + d) / 400 = a := by omega
  rw [daysBeforeYear, Nat.add_sub_cancel, h4, h100, h400]
  omega

theorem isLeap_cycles {a b c d : ℕ} (hb : b < 4) (hc : c < 25) (hd : d < 4) :
    isLeap (a * 400 + b * 100 + c * 4 + d + 1) = true ↔ d = 3 ∧ (c ≠ 24 ∨ b = 3) := by
  have h4 : (a * 400 + b * 100 + c * 4 + d + 1) % 4 = 0 ↔ d = 3 := by omega
  have h100 : (a * 400 + b * 100 + c * 4 + d + 1) % 100 = 0 ↔ c = 24 ∧ d = 3 := by omega
  have h400 : (a * 400 + b * 100 + c * 4 + d + 1) % 400 = 0 ↔ b = 3 ∧ c = 24 ∧ d = 3 := by omega
  simp only [isLeap, Bool.and_eq_true, Bool.or_eq_true, decide_eq_true_eq, h4, ne_eq, h100, h400]
  omega

/-- **Years.** The year found for a day has that day. -/
theorem yearOf_spec (n : ℕ) : 1 ≤ (yearOf n).1 ∧ daysBeforeYear (yearOf n).1 + (yearOf n).2 = n ∧
    (yearOf n).2 < yearLength (yearOf n).1 := by
  unfold yearOf
  obtain ⟨a, ha⟩ : ∃ a, n / 146097 = a := ⟨_, rfl⟩
  obtain ⟨b, hb⟩ : ∃ b, n % 146097 / 36524 = b := ⟨_, rfl⟩
  obtain ⟨c, hc⟩ : ∃ c, n % 146097 % 36524 / 1461 = c := ⟨_, rfl⟩
  obtain ⟨d, hd⟩ : ∃ d, n % 146097 % 36524 % 1461 / 365 = d := ⟨_, rfl⟩
  obtain ⟨r, hr⟩ : ∃ r, n % 146097 % 36524 % 1461 % 365 = r := ⟨_, rfl⟩
  have hn : n = a * 146097 + b * 36524 + c * 1461 + d * 365 + r := by omega
  have hc25 : c < 25 := by omega
  simp only [ha, hb, hc, hd, hr]
  by_cases hlast : b = 4
  -- the last day of 400 years
  · have hyear : a * 400 + b * 100 + c * 4 + d + 1 - 1 = a * 400 + 3 * 100 + 24 * 4 + 3 + 1 := by omega
    have hleap := (isLeap_cycles (a := a) (b := 3) (c := 24) (d := 3) (by omega)
      (by omega) (by omega)).2 (by omega)
    rw [if_pos (.inr hlast)]
    simp only [hyear, yearLength, if_pos hleap, daysBeforeYear_cycles (a := a) (b := 3) (c := 24) (d := 3)
      (by omega) (by omega) (by omega)]
    omega
  by_cases hfour : d = 4
  -- the last day of four years, which do not end a century
  · have hyear : a * 400 + b * 100 + c * 4 + d + 1 - 1 = a * 400 + b * 100 + c * 4 + 3 + 1 := by omega
    have hleap := (isLeap_cycles (a := a) (b := b) (c := c) (d := 3) (by omega) hc25 (by omega)).2
      (by omega)
    rw [if_pos (.inl hfour)]
    simp only [hyear, yearLength, if_pos hleap, daysBeforeYear_cycles (a := a) (b := b) (c := c) (d := 3)
      (by omega) hc25 (by omega)]
    omega
  · rw [if_neg (by omega)]
    simp only [daysBeforeYear_cycles (a := a) (b := b) (c := c) (d := d) (by omega) hc25 (by omega)]
    have hlength : 365 ≤ yearLength (a * 400 + b * 100 + c * 4 + d + 1) := by
      unfold yearLength
      split <;> omega
    omega

/-! ## Dates

A date is a day of the proleptic Gregorian calendar, and its ordinal counts the days from the first
of January of year 1. The two are translated into each other by the leap-year cycles, and the order
is kept both ways. -/

/-- The days of the year before the month. -/
def daysBeforeMonth (year month : ℕ) : ℕ := Blocks.startOf (monthLengths year) (month - 1)

/-- The days of a month, counted from 1. -/
def daysInMonth (year month : ℕ) : ℕ := (monthLengths year).getD (month - 1) 0

/-- A date of the calendar, which exists. -/
structure Date where
  year : ℕ
  month : ℕ
  day : ℕ
  year_pos : 1 ≤ year
  month_pos : 1 ≤ month
  month_le : month ≤ 12
  day_pos : 1 ≤ day
  day_le : day ≤ daysInMonth year month

namespace Date

/-- `date.toordinal`: the first of January of year 1 is day 1. -/
def toOrdinal (d : Date) : ℕ := daysBeforeYear d.year + daysBeforeMonth d.year d.month + d.day

/-- The date of an ordinal. -/
def ofOrdinal (ordinal : ℕ) : Date :=
  let year := (yearOf (ordinal - 1)).1
  let dayOfYear := (yearOf (ordinal - 1)).2
  let place := Blocks.locate (monthLengths year) dayOfYear
  have hday : dayOfYear < (monthLengths year).sum := by
    rw [sum_monthLengths]
    exact (yearOf_spec _).2.2
  { year
    month := place.1 + 1
    day := place.2 + 1
    year_pos := (yearOf_spec _).1
    month_pos := Nat.le_add_left 1 _
    month_le := (Blocks.locate_lt hday).1
    day_pos := Nat.le_add_left 1 _
    day_le := by
      obtain ⟨hplace, hlt⟩ := Blocks.locate_lt hday
      rw [daysInMonth, Nat.add_sub_cancel, ← List.getElem_eq_getD (h := hplace)]
      exact hlt }

/-- **Ordinals are those of dates.** -/
theorem toOrdinal_ofOrdinal {ordinal : ℕ} (h : 1 ≤ ordinal) : (ofOrdinal ordinal).toOrdinal = ordinal := by
  have hyear := (yearOf_spec (ordinal - 1)).2.1
  have hmonth := Blocks.startOf_locate (monthLengths (yearOf (ordinal - 1)).1) (yearOf (ordinal - 1)).2
  simp only [toOrdinal, ofOrdinal, daysBeforeMonth, Nat.add_sub_cancel]
  omega

theorem month_index (d : Date) : d.month - 1 < (monthLengths d.year).length := by
  have hpos := d.month_pos
  have hle := d.month_le
  rw [length_monthLengths]
  omega

theorem daysInMonth_eq (d : Date) : ∃ h : d.month - 1 < (monthLengths d.year).length,
    daysInMonth d.year d.month = (monthLengths d.year)[d.month - 1] :=
  ⟨d.month_index, (List.getElem_eq_getD (h := d.month_index) 0).symm⟩

theorem day_le_31 (d : Date) : d.day ≤ 31 := by
  obtain ⟨hmonth, hlength⟩ := d.daysInMonth_eq
  have hall : ∀ l ∈ monthLengths d.year, l ≤ 31 := by
    unfold monthLengths
    cases isLeap d.year <;> decide
  exact Nat.le_trans (hlength ▸ d.day_le) (hall _ (List.getElem_mem hmonth))

/-- The day lies within its month. -/
theorem day_before (d : Date) : Blocks.startOf (monthLengths d.year) (d.month - 1) + (d.day - 1) <
    Blocks.startOf (monthLengths d.year) (d.month - 1 + 1) := by
  obtain ⟨hmonth, hlength⟩ := d.daysInMonth_eq
  have hday := d.day_le
  have hpos := d.day_pos
  rw [Blocks.startOf_succ hmonth]
  omega

/-- The month lies within its year. -/
theorem month_before (d : Date) : daysBeforeYear d.year + (daysBeforeMonth d.year d.month + (d.day - 1)) <
    daysBeforeYear (d.year + 1) := by
  have hmonth : d.month - 1 + 1 ≤ 12 := by
    have := d.month_pos
    have := d.month_le
    omega
  have hyear : Blocks.startOf (monthLengths d.year) 12 = yearLength d.year := by
    rw [← sum_monthLengths]
    rfl
  have hle := Blocks.startOf_monotone (monthLengths d.year) hmonth
  have hday := d.day_before
  rw [daysBeforeYear_succ d.year_pos, daysBeforeMonth]
  omega

theorem compare_pred {m m' : ℕ} (h : 1 ≤ m) (h' : 1 ≤ m') : compare (m - 1) (m' - 1) = compare m m' := by
  have hlt : m - 1 < m' - 1 ↔ m < m' := by omega
  have hgt : m' - 1 < m - 1 ↔ m' < m := by omega
  simp only [Nat.compare_eq_ite_lt, hlt, hgt]

/-- **Ordinals compare as dates.** -/
theorem compare_toOrdinal (d d' : Date) : compare d.toOrdinal d'.toOrdinal =
    (compare d.year d'.year).then ((compare d.month d'.month).then (compare d.day d'.day)) := by
  have hordinal : ∀ d : Date,
      d.toOrdinal - 1 = daysBeforeYear d.year + (daysBeforeMonth d.year d.month + (d.day - 1)) := by
    intro d
    have hday := d.day_pos
    rw [toOrdinal]
    omega
  have hpos : ∀ d : Date, 1 ≤ d.toOrdinal := fun d => Nat.le_add_left_of_le d.day_pos
  rw [← compare_pred (hpos d) (hpos d'), hordinal, hordinal,
    Blocks.compare_add daysBeforeYear_monotone d.month_before d'.month_before]
  -- the lengths of the months are compared in one year only
  rcases Nat.lt_trichotomy d.year d'.year with h | h | h
  · rw [Nat.compare_eq_lt.2 h, Ordering.lt_then, Ordering.lt_then]
  · have hday' := d'.day_before
    rw [← h] at hday'
    rw [← h, daysBeforeMonth, daysBeforeMonth,
      Blocks.compare_add (Blocks.startOf_monotone _) d.day_before hday',
        compare_pred d.month_pos d'.month_pos,
      compare_pred d.day_pos d'.day_pos]
  · rw [Nat.compare_eq_gt.2 h, Ordering.gt_then, Ordering.gt_then]

end Date

example : Date.toOrdinal ⟨9999, 12, 31, by decide, by decide, by decide, by decide, by decide⟩ =
    3652059 := rfl

end Calendar
