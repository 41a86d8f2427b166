import AdaptiveLlm.Events.Outbox
import AdaptiveLlm.Lib.Bytes
import AdaptiveLlm.Python.Datetime
import AdaptiveLlm.Storage.Store
import Mathlib.Data.Int.Order.Basic
import Mathlib.Data.String.Basic

set_option autoImplicit false

/-! # Timestamps as text

`timestamp` of `storage/sqlite.py`. The tables keep times as TEXT, and the queries compare the texts
under SQLite's BINARY collation. `Storage/Store.lean` and `Events/Outbox.lean` have instants in these
columns; here is that the comparisons of the texts are those of the instants.

All texts are in UTC, with six digits of a fraction or none, and end in the same offset. Under the
byte-wise collation the two forms compare right because of the characters that follow the seconds: a
plus comes before a dot. This is the only place where that accident of ASCII is used. -/

namespace AdaptiveLlm

open Python (Datetime)

/-- How a timestamp can be refused. -/
inductive TimestampError where
  /-- `StorageError("naive_storage_timestamp")` -/
  | naiveStorageTimestamp
  /-- `OverflowError` -/
  | overflow
  deriving DecidableEq, Repr

/-- `timestamp`. -/
def timestamp (value : Datetime) : Except TimestampError String :=
  if value.tzinfo = none then .error .naiveStorageTimestamp
  else
    match value.astimezoneUtc with
    | none => .error .overflow
    | some utc => .ok utc.isoformat

/-- The BINARY collation: the texts' bytes, compared as unsigned. -/
def binary (s t : String) : Ordering := compare (Bytes.encodeText s.toList) (Bytes.encodeText t.toList)

/-- The text is the timestamp of a datetime at the instant. -/
def Stamps (text : String) (instant : ℤ) : Prop :=
  ∃ d : Datetime, d.instant = some instant ∧ Datetime.Representable instant ∧ timestamp d = .ok text

/-- Every aware datetime that UTC represents has a timestamp. -/
theorem timestamp_stamps {d : Datetime} {instant : ℤ} (h : d.instant = some instant)
    (hrange : Datetime.Representable instant) : ∃ text, timestamp d = .ok text ∧ Stamps text instant := by
  obtain ⟨utc, hutc⟩ := Option.isSome_iff_exists.1 (Datetime.ofInstant_isSome hrange)
  have haware : d.tzinfo ≠ none := by
    intro hnone
    simp [Datetime.instant, hnone] at h
  have htext : timestamp d = .ok utc.isoformat := by
    rw [timestamp, if_neg haware, Datetime.astimezoneUtc, h, Option.bind_some, hutc]
  exact ⟨utc.isoformat, htext, d, h, hrange, htext⟩

/-- The text of a timestamp is that of a UTC datetime whose clock shows the instant. -/
theorem Stamps.isoformat {text : String} {instant : ℤ} (h : Stamps text instant) :
    ∃ utc : Datetime, text = utc.isoformat ∧ utc.tzinfo = some 0 ∧ utc.clock = instant := by
  obtain ⟨d, hinstant, -, htext⟩ := h
  unfold timestamp at htext
  rw [Datetime.astimezoneUtc, hinstant, Option.bind_some] at htext
  split at htext
  · simp at htext
  · split at htext
    · simp at htext
    case h_2 utc hutc =>
      exact ⟨utc, (Except.ok.inj htext).symm, Datetime.tzinfo_of_ofInstant hutc,
        Datetime.clock_of_ofInstant hutc⟩

section Columns

variable {s t : String} {a b : ℤ}

theorem compare_natCast (m n : ℕ) : compare (m : ℤ) (n : ℤ) = compare m n := by
  simp only [Nat.compare_eq_ite_lt, Int.compare_eq_ite_lt, Int.ofNat_lt]

theorem Stamps.compare_toList (hs : Stamps s a) (ht : Stamps t b) :
    compare s.toList t.toList = compare a b := by
  obtain ⟨d, rfl, hutc, rfl⟩ := hs.isoformat
  obtain ⟨d', rfl, hutc', rfl⟩ := ht.isoformat
  rw [Datetime.compare_isoformat hutc hutc', compare_natCast]

theorem Stamps.ascii (h : Stamps s a) : Bytes.Ascii s.toList := by
  obtain ⟨d, rfl, -, -⟩ := h.isoformat
  exact d.ascii_isoformat

/-- **SQL's comparison of two timestamps is that of the instants.** -/
theorem Stamps.binary_eq (hs : Stamps s a) (ht : Stamps t b) : binary s t = compare a b := by
  rw [binary, Bytes.compare_encodeText hs.ascii ht.ascii, hs.compare_toList ht]

end Columns

/-- **Timestamps order as times.** As `str`, and as the queries compare them. -/
theorem timestamps_ordered (a b : Datetime) {s t : ℤ} (ha : a.instant = some s) (hb : b.instant = some t)
    (hs : Datetime.Representable s) (ht : Datetime.Representable t) :
    ∃ x y, timestamp a = .ok x ∧ timestamp b = .ok y ∧ (x < y ↔ s < t) ∧ binary x y = compare s t := by
  obtain ⟨x, hx, hstamps⟩ := timestamp_stamps ha hs
  obtain ⟨y, hy, hstamps'⟩ := timestamp_stamps hb ht
  refine ⟨x, y, hx, hy, ?_, hstamps.binary_eq hstamps'⟩
  rw [String.lt_iff_toList_lt, ← List.compare_eq_lt, hstamps.compare_toList hstamps', Int.compare_eq_lt]

/-- Noon in a zone two hours ahead of UTC. -/
def noonAhead : Datetime where
  date := ⟨2024, 2, 29, by decide, by decide, by decide, by decide, by decide⟩
  time := ⟨12, 0, 0, 0, by decide, by decide, by decide, by decide⟩
  tzinfo := some 7200000000
  year_le := by decide
  offset_lt := by decide

/-- Half a second after ten, at UTC. -/
def halfPastTen : Datetime where
  date := ⟨2024, 2, 29, by decide, by decide, by decide, by decide, by decide⟩
  time := ⟨10, 0, 0, 500000, by decide, by decide, by decide, by decide⟩
  tzinfo := some 0
  year_le := by decide
  offset_lt := by decide

/-- The second has a fraction and the first has none. -/
theorem noonAhead_ordered : ∃ x y, timestamp noonAhead = .ok x ∧ timestamp halfPastTen = .ok y ∧
    (x < y ↔ (63844884000000000 : ℤ) < 63844884000500000) ∧
    binary x y = compare (63844884000000000 : ℤ) 63844884000500000 :=
  timestamps_ordered noonAhead halfPastTen (by decide) (by decide) (by decide) (by decide)

end AdaptiveLlm
