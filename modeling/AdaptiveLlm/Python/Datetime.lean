import AdaptiveLlm.Lib.Calendar
import AdaptiveLlm.Lib.Numerals
import Mathlib.Algebra.Order.Group.Int

set_option autoImplicit false

/-! # Dates and times as Python has them

`datetime.datetime` with microseconds, and the offset that its time zone gives for it.
`astimezone(UTC)` takes the offset off and finds the date of what is left; `isoformat` leaves the
fraction out when the microseconds are zero.

A date with a time zone is an instant in microseconds, and conversion to UTC fails only where the
instant lies beyond the years 1 to 9999. The format has four fields of fixed width and a fraction
that may be left out, so the comparison of two texts follows the numerals (`Lib/Numerals.lean`) up
to the place where one has a dot and the other a plus. -/

namespace Python

/-- The microseconds of a day. -/
def dayMicros : ℕ := 86400000000

/-- `datetime.time`. -/
structure Time where
  hour : ℕ
  minute : ℕ
  second : ℕ
  microsecond : ℕ
  hour_lt : hour < 24
  minute_lt : minute < 60
  second_lt : second < 60
  microsecond_lt : microsecond < 1000000

namespace Time

/-- The microseconds since midnight. -/
def micros (t : Time) : ℕ := 1000000 * (60 * (60 * t.hour + t.minute) + t.second) + t.microsecond

/-- The time of day so many microseconds after midnight. -/
def ofMicros (n : ℕ) (h : n < dayMicros) : Time where
  hour := n / 3600000000
  minute := n / 60000000 % 60
  second := n / 1000000 % 60
  microsecond := n % 1000000
  hour_lt := by
    unfold dayMicros at h
    omega
  minute_lt := Nat.mod_lt _ (by decide)
  second_lt := Nat.mod_lt _ (by decide)
  microsecond_lt := Nat.mod_lt _ (by decide)

@[simp] theorem micros_ofMicros (n : ℕ) (h : n < dayMicros) : (ofMicros n h).micros = n := by
  simp only [micros, ofMicros]
  omega

theorem micros_lt (t : Time) : t.micros < dayMicros := by
  have := t.hour_lt
  have := t.minute_lt
  have := t.second_lt
  have := t.microsecond_lt
  unfold micros dayMicros
  omega

theorem compare_micros (t t' : Time) : compare t.micros t'.micros =
    (compare t.hour t'.hour).then ((compare t.minute t'.minute).then
      ((compare t.second t'.second).then (compare t.microsecond t'.microsecond))) := by
  unfold micros
  rw [Blocks.compare_radix t.microsecond_lt t'.microsecond_lt,
    Blocks.compare_radix t.second_lt t'.second_lt, Blocks.compare_radix t.minute_lt t'.minute_lt,
    Ordering.then_assoc, Ordering.then_assoc]

end Time

/-- `datetime.datetime`; `tzinfo` is what `tzinfo.utcoffset` gives for it, in microseconds. -/
structure Datetime where
  date : Calendar.Date
  time : Time
  tzinfo : Option ℤ
  year_le : date.year ≤ 9999
  offset_lt : ∀ offset ∈ tzinfo, |offset| < dayMicros

namespace Datetime

/-- The microseconds of what the clock shows. -/
def clock (d : Datetime) : ℕ := dayMicros * d.date.toOrdinal + d.time.micros

/-- The instant, in microseconds of UTC; `none` without a time zone. -/
def instant (d : Datetime) : Option ℤ := d.tzinfo.map fun offset => d.clock - offset

/-- `date.max.toordinal()`. -/
def maxOrdinal : ℕ := 3652059

/-- What UTC represents: from January 1 of year 1 to the last microsecond of year 9999. -/
def Representable (instant : ℤ) : Prop := dayMicros ≤ instant ∧ instant < dayMicros * (maxOrdinal + 1)

instance (instant : ℤ) : Decidable (Representable instant) := inferInstanceAs (Decidable (_ ∧ _))

theorem representable_iff (instant : ℤ) :
    Representable instant ↔ 0 < instant / dayMicros ∧ instant / dayMicros ≤ maxOrdinal := by
  unfold Representable dayMicros maxOrdinal
  omega

theorem year_ofOrdinal_le {n : ℕ} (h : n ≤ maxOrdinal) : (Calendar.Date.ofOrdinal n).year ≤ 9999 := by
  by_contra hyear
  have hbefore : Calendar.daysBeforeYear 10000 ≤ Calendar.daysBeforeYear (Calendar.yearOf (n - 1)).1 :=
    Calendar.daysBeforeYear_monotone (Nat.lt_of_not_le hyear)
  have hday := (Calendar.yearOf_spec (n - 1)).2.1
  have hlast : Calendar.daysBeforeYear 10000 = maxOrdinal := rfl
  unfold maxOrdinal at h hlast
  omega

/-- The UTC datetime of an instant; `none` is `OverflowError`. -/
def ofInstant (instant : ℤ) : Option Datetime :=
  let days := instant / dayMicros
  let rest := instant % dayMicros
  if h : 0 < days ∧ days ≤ maxOrdinal then
    some {
      date := Calendar.Date.ofOrdinal days.toNat
      time := Time.ofMicros rest.toNat (by
        have := Int.emod_lt_of_pos instant (b := dayMicros) (by decide)
        have := Int.emod_nonneg instant (b := dayMicros) (by decide)
        omega)
      tzinfo := some 0
      year_le := year_ofOrdinal_le (by omega)
      offset_lt := by simp [dayMicros] }
  else none

theorem ofInstant_isSome {instant : ℤ} (h : Representable instant) : (ofInstant instant).isSome := by
  rw [ofInstant, dif_pos ((representable_iff instant).1 h)]
  rfl

/-- The clock of the UTC datetime shows the instant. -/
theorem clock_of_ofInstant {instant : ℤ} {d : Datetime} (h : ofInstant instant = some d) :
    d.clock = instant := by
  simp only [ofInstant] at h
  split at h
  case isTrue hdays =>
    obtain rfl := Option.some.inj h
    have hnonneg := Int.emod_nonneg instant (b := dayMicros) (by decide)
    have hdivmod := Int.mul_ediv_add_emod instant dayMicros
    have hordinal : (Calendar.Date.ofOrdinal (instant / dayMicros).toNat).toOrdinal =
        (instant / dayMicros).toNat :=
      Calendar.Date.toOrdinal_ofOrdinal (by omega)
    simp only [clock, hordinal, Time.micros_ofMicros]
    push_cast
    rw [Int.toNat_of_nonneg (by omega), Int.toNat_of_nonneg hnonneg, hdivmod]
  case isFalse => simp at h

theorem tzinfo_of_ofInstant {instant : ℤ} {d : Datetime} (h : ofInstant instant = some d) :
    d.tzinfo = some 0 := by
  simp only [ofInstant] at h
  split at h
  case isTrue => rw [← Option.some.inj h]
  case isFalse => simp at h

/-- `astimezone(UTC)`, of a datetime with a time zone. -/
def astimezoneUtc (d : Datetime) : Option Datetime := d.instant.bind ofInstant

/-- Clocks compare field by field. -/
theorem compare_clock (d d' : Datetime) : compare d.clock d'.clock =
    (compare d.date.year d'.date.year).then ((compare d.date.month d'.date.month).then
      ((compare d.date.day d'.date.day).then ((compare d.time.hour d'.time.hour).then
        ((compare d.time.minute d'.time.minute).then ((compare d.time.second d'.time.second).then
          (compare d.time.microsecond d'.time.microsecond)))))) := by
  unfold clock
  rw [Blocks.compare_radix d.time.micros_lt d'.time.micros_lt, Calendar.Date.compare_toOrdinal,
    Time.compare_micros, Ordering.then_assoc, Ordering.then_assoc]

/-! ## The text

`isoformat` writes the fraction only when it is not zero. Texts of one offset still compare as their
instants do, since the character behind the seconds is less where there is no fraction. -/

/-- The seconds with their fraction, which is left out when it is zero. -/
def fraction (microsecond : ℕ) : List Char :=
  if microsecond = 0 then [] else '.' :: Numerals.padded 6 microsecond

/-- `_format_offset`. -/
def formatOffset : Option ℤ → List Char
  | none => []
  | some offset =>
    let n := offset.natAbs
    let second := n / 1000000 % 60
    let microsecond := n % 1000000
    (if offset < 0 then '-' else '+') :: Numerals.padded 2 (n / 3600000000) ++
      ':' :: Numerals.padded 2 (n / 60000000 % 60) ++
      if second = 0 ∧ microsecond = 0 then []
      else ':' :: Numerals.padded 2 second ++ fraction microsecond

/-- `datetime.isoformat`. -/
def isoformat (d : Datetime) : String :=
  String.ofList (Numerals.padded 4 d.date.year ++ '-' :: (Numerals.padded 2 d.date.month ++
    '-' :: (Numerals.padded 2 d.date.day ++ 'T' :: (Numerals.padded 2 d.time.hour ++
      ':' :: (Numerals.padded 2 d.time.minute ++ ':' :: (Numerals.padded 2 d.time.second ++
        (fraction d.time.microsecond ++ formatOffset d.tzinfo)))))))

theorem ascii_fraction (microsecond : ℕ) : Bytes.Ascii (fraction microsecond) := by
  unfold fraction
  split
  · exact Bytes.ascii_nil
  · exact Bytes.ascii_cons.2 ⟨by decide, Numerals.ascii_padded _ _⟩

theorem ascii_formatOffset (offset : Option ℤ) : Bytes.Ascii (formatOffset offset) := by
  cases offset with
  | none => exact Bytes.ascii_nil
  | some offset =>
    have hsign : (if offset < 0 then '-' else '+').toNat < 128 := by split <;> decide
    by_cases hwhole : offset.natAbs / 1000000 % 60 = 0 ∧ offset.natAbs % 1000000 = 0
    · simp [formatOffset, hwhole, hsign, Numerals.ascii_padded]
    · simp [formatOffset, hwhole, hsign, Numerals.ascii_padded, ascii_fraction]

theorem ascii_isoformat (d : Datetime) : Bytes.Ascii d.isoformat.toList := by
  simp [isoformat, Numerals.ascii_padded, ascii_fraction, ascii_formatOffset]

theorem compare_separator (c : Char) (rest rest' : List Char) :
    compare (c :: rest) (c :: rest') = compare rest rest' := by
  rw [List.compare_cons_cons, Std.compare_self, Ordering.eq_then]

/-- A text without the fraction comes before one with it: the sign of the offset is less than a point. -/
theorem compare_fraction {n n' : ℕ} (h : n < 1000000) (h' : n' < 1000000) :
    compare (fraction n ++ formatOffset (some 0)) (fraction n' ++ formatOffset (some 0)) =
        compare n n' := by
  have hsign : formatOffset (some 0) = '+' :: "00:00".toList := by decide
  rw [hsign]
  unfold fraction
  by_cases hzero : n = 0
  · by_cases hzero' : n' = 0
    · rw [if_pos hzero, if_pos hzero', hzero, hzero']
      rfl
    · rw [if_pos hzero, if_neg hzero', List.nil_append, List.cons_append, List.compare_cons_cons,
        Nat.compare_eq_lt.2 (by omega)]
      rfl
  · by_cases hzero' : n' = 0
    · rw [if_neg hzero, if_pos hzero', List.nil_append, List.cons_append, List.compare_cons_cons,
        Nat.compare_eq_gt.2 (by omega)]
      rfl
    · rw [if_neg hzero, if_neg hzero', List.cons_append, List.cons_append, compare_separator,
        Numerals.compare_padded_append (by decide) h h', Std.compare_self, Ordering.then_eq]

/-- **Texts at UTC.** They compare as the clocks do. -/
theorem compare_isoformat {d d' : Datetime} (h : d.tzinfo = some 0) (h' : d'.tzinfo = some 0) :
    compare d.isoformat.toList d'.isoformat.toList = compare d.clock d'.clock := by
  have hmonth : ∀ d : Datetime, d.date.month < 10 ^ 2 :=
    fun d => Nat.lt_of_le_of_lt d.date.month_le (by decide)
  have hday : ∀ d : Datetime, d.date.day < 10 ^ 2 :=
    fun d => Nat.lt_of_le_of_lt d.date.day_le_31 (by decide)
  have hyear : ∀ d : Datetime, d.date.year < 10 ^ 4 := fun d => Nat.lt_of_le_of_lt d.year_le (by decide)
  have hhour : ∀ d : Datetime, d.time.hour < 10 ^ 2 := fun d => Nat.lt_trans d.time.hour_lt (by decide)
  have hminute : ∀ d : Datetime, d.time.minute < 10 ^ 2 :=
    fun d => Nat.lt_trans d.time.minute_lt (by decide)
  have hsecond : ∀ d : Datetime, d.time.second < 10 ^ 2 :=
    fun d => Nat.lt_trans d.time.second_lt (by decide)
  simp only [isoformat, String.toList_ofList, h, h', compare_separator,
    Numerals.compare_padded_append (by decide) (hyear d) (hyear d'),
    Numerals.compare_padded_append (by decide) (hmonth d) (hmonth d'),
    Numerals.compare_padded_append (by decide) (hday d) (hday d'),
    Numerals.compare_padded_append (by decide) (hhour d) (hhour d'),
    Numerals.compare_padded_append (by decide) (hminute d) (hminute d'),
    Numerals.compare_padded_append (by decide) (hsecond d) (hsecond d'),
    compare_fraction d.time.microsecond_lt d'.time.microsecond_lt, compare_clock]

end Datetime

end Python
