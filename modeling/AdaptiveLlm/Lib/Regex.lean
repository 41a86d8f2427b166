import Mathlib.Data.List.Basic
import Mathlib.Data.Nat.Notation
import Mathlib.Tactic.Common

set_option autoImplicit false

/-! # Backtracking patterns

A pattern looks at most one character behind and one ahead of what it takes. `ends` is the
backtracking matcher: the places where a match can stop, the preferred one first. `Matches` says
without any order which texts a pattern takes between two characters, and `mem_ends` that the two
agree.

Patterns are of characters, sequences, alternatives, greedy repetitions and the three kinds of
looking around that the repository's patterns have. The matcher returns all places in order of
preference, so `re.search` and `re.sub` take the first of them. The declarative relation has no
order: it decides what a pattern can take at all, and `LongestFirst` says when the first match is
the longest. -/

/-- A pattern on texts. -/
inductive Regex where
  | empty
  /-- one character of a class -/
  | one (p : Char → Bool)
  | seq (r s : Regex)
  /-- the left one is preferred -/
  | alt (r s : Regex)
  /-- at least `least` times and at most `extra` times more, as often as possible -/
  | rep (r : Regex) (least : ℕ) (extra : Option ℕ)
  /-- `(?<![…])` -/
  | notBehind (p : Char → Bool)
  /-- `(?![…])` -/
  | notAhead (p : Char → Bool)
  /-- `\b`, for the given `\w` -/
  | boundary (word : Char → Bool)

namespace Regex

/-- `r*`. -/
def star (r : Regex) : Regex := rep r 0 none

/-- `r+`. -/
def plus (r : Regex) : Regex := rep r 1 none

/-- `r?`. -/
def opt (r : Regex) : Regex := rep r 0 (some 1)

/-- The characters of a text, one after the other, each read by `p`. -/
def literal (p : Char → Char → Bool) : List Char → Regex
  | [] => empty
  | c :: cs => seq (one (p c)) (literal p cs)

/-- A place in a text. -/
structure Cursor where
  prev : Option Char
  rest : List Char
  deriving DecidableEq

/-! ## The matcher -/

section Matcher

variable (m : Cursor → List Cursor)

/-- Exactly so many matches, one after the other. -/
def times : ℕ → Cursor → List Cursor
  | 0, c => [c]
  | n + 1, c => (m c).flatMap (times n)

/-- A repetition that takes nothing is not repeated. -/
def upTo : ℕ → Cursor → List Cursor
  | 0, c => [c]
  | n + 1, c => ((m c).filter fun d => d.rest.length < c.rest.length).flatMap (upTo n) ++ [c]

end Matcher

/-- Where a match from the cursor can stop, the preferred place first. -/
def ends : Regex → Cursor → List Cursor
  | empty, c => [c]
  | one _, ⟨_, []⟩ => []
  | one p, ⟨_, x :: xs⟩ => if p x then [⟨some x, xs⟩] else []
  | seq r s, c => (r.ends c).flatMap s.ends
  | alt r s, c => r.ends c ++ s.ends c
  | rep r least extra, c =>
      (times r.ends least c).flatMap fun d => upTo r.ends (extra.getD d.rest.length) d
  | notBehind p, c => if c.prev.any p then [] else [c]
  | notAhead p, c => if c.rest.head?.any p then [] else [c]
  | boundary w, c => if c.prev.any w = c.rest.head?.any w then [] else [c]

/-- Where the match from the cursor stops. -/
def first (r : Regex) (c : Cursor) : Option Cursor := (r.ends c).head?

/-! ## What a pattern matches -/

/-- `n` matches, one after the other. -/
def Times (M : Option Char → List Char → Option Char → Prop) :
    ℕ → Option Char → List Char → Option Char → Prop
  | 0, _, w, _ => w = []
  | n + 1, b, w, a => ∃ u v, w = u ++ v ∧ M b u (v.head?.or a) ∧ Times M n (u.getLast?.or b) v a

/-- The pattern takes `w`, with `b` behind it and `a` ahead of it. -/
def Matches : Regex → Option Char → List Char → Option Char → Prop
  | empty, _, w, _ => w = []
  | one p, _, w, _ => ∃ x, w = [x] ∧ p x
  | seq r s, b, w, a =>
      ∃ u v, w = u ++ v ∧ r.Matches b u (v.head?.or a) ∧ s.Matches (u.getLast?.or b) v a
  | alt r s, b, w, a => r.Matches b w a ∨ s.Matches b w a
  | rep r least extra, b, w, a =>
      ∃ n, least ≤ n ∧ (∀ k ∈ extra, n ≤ least + k) ∧ Times r.Matches n b w a
  | notBehind p, b, w, _ => w = [] ∧ b.any p = false
  | notAhead p, _, w, a => w = [] ∧ a.any p = false
  | boundary p, b, w, a => w = [] ∧ b.any p ≠ a.any p

/-! ## The two agree

The matcher is sound and complete for the relation, by induction over the pattern. For a repetition
the number of rounds is bounded by the length of the text, as a round that takes nothing ends it. -/

/-- `w` lies between the two places. -/
def Cursor.Over (w : List Char) (c d : Cursor) : Prop :=
  c.rest = w ++ d.rest ∧ d.prev = w.getLast?.or c.prev

namespace Cursor.Over

variable {u v w : List Char} {c d e : Cursor}

theorem nil_iff : Over [] c d ↔ d = c := by
  cases c
  cases d
  simp [Over, eq_comm, and_comm]

theorem append_iff : Over (u ++ v) c d ↔ ∃ e, Over u c e ∧ Over v e d := by
  constructor
  · rintro ⟨hrest, hprev⟩
    refine ⟨⟨u.getLast?.or c.prev, v ++ d.rest⟩, ⟨by simp [hrest], rfl⟩, rfl, ?_⟩
    rw [hprev, List.getLast?_append, Option.or_assoc]
  · rintro ⟨e, ⟨hrest, hprev⟩, hrest', hprev'⟩
    refine ⟨by rw [hrest, hrest', List.append_assoc], ?_⟩
    rw [hprev', hprev, List.getLast?_append, Option.or_assoc]

theorem head? (h : Over w c d) : c.rest.head? = w.head?.or d.rest.head? := by
  rw [h.1, List.head?_append]

theorem length (h : Over w c d) : c.rest.length = w.length + d.rest.length := by
  rw [h.1, List.length_append]

end Cursor.Over

open Cursor (Over)

/-- What takes no text stays where it is. -/
theorem exists_over_nil {c d : Cursor} {q : Option Char → Option Char → Prop} :
    (∃ w, Over w c d ∧ w = [] ∧ q c.prev d.rest.head?) ↔ d = c ∧ q c.prev c.rest.head? := by
  constructor
  · rintro ⟨_, hw, rfl, hq⟩
    obtain rfl := Cursor.Over.nil_iff.mp hw
    exact ⟨rfl, hq⟩
  · rintro ⟨rfl, hq⟩
    exact ⟨[], Cursor.Over.nil_iff.mpr rfl, rfl, hq⟩

/-- The matcher `m` finds what `M` says. -/
def Finds (m : Cursor → List Cursor) (M : Option Char → List Char → Option Char → Prop) : Prop :=
  ∀ c d, d ∈ m c ↔ ∃ w, Over w c d ∧ M c.prev w d.rest.head?

section Repetition

variable {m : Cursor → List Cursor} {M : Option Char → List Char → Option Char → Prop}

/-- Two matches, one after the other. -/
theorem Finds.flatMap {m' : Cursor → List Cursor}
    {M' : Option Char → List Char → Option Char → Prop} (h : Finds m M) (h' : Finds m' M') :
    Finds (fun c => (m c).flatMap m') fun b w a =>
      ∃ u v, w = u ++ v ∧ M b u (v.head?.or a) ∧ M' (u.getLast?.or b) v a := by
  intro c d
  simp only [List.mem_flatMap]
  constructor
  · rintro ⟨e, he, hd⟩
    obtain ⟨u, hu, hM⟩ := (h c e).mp he
    obtain ⟨v, hv, hM'⟩ := (h' e d).mp hd
    refine ⟨u ++ v, Cursor.Over.append_iff.mpr ⟨e, hu, hv⟩, u, v, rfl, ?_, ?_⟩
    · rwa [← hv.head?]
    · rwa [← hu.2]
  · rintro ⟨_, hw, u, v, rfl, hM, hM'⟩
    obtain ⟨e, hu, hv⟩ := Cursor.Over.append_iff.mp hw
    refine ⟨e, (h c e).mpr ⟨u, hu, ?_⟩, (h' e d).mpr ⟨v, hv, ?_⟩⟩
    · rwa [hv.head?]
    · rwa [hu.2]

theorem finds_times (h : Finds m M) (n : ℕ) : Finds (times m n) (Times M n) := by
  induction n with
  | zero =>
    intro c d
    simp only [times, Times, List.mem_singleton, exists_eq_right]
    exact Cursor.Over.nil_iff.symm
  | succ n ih => exact h.flatMap ih

/-- Matches that take nothing can be left out. -/
theorem Times.exists_le_length {n : ℕ} {b a : Option Char} {w : List Char} (h : Times M n b w a) :
    ∃ k ≤ n, k ≤ w.length ∧ Times M k b w a := by
  induction n generalizing b w with
  | zero => exact ⟨0, Nat.le_refl 0, Nat.zero_le _, h⟩
  | succ n ih =>
    obtain ⟨u, v, rfl, hM, hT⟩ := h
    obtain ⟨k, hkn, hkv, hk⟩ := ih hT
    cases u with
    | nil => exact ⟨k, by omega, by simpa using hkv, by simpa using hk⟩
    | cons x xs =>
      refine ⟨k + 1, by omega, ?_, x :: xs, v, rfl, hM, hk⟩
      simp only [List.length_append, List.length_cons]
      omega

theorem Times.append {n k : ℕ} {b a : Option Char} {w : List Char} :
    Times M (n + k) b w a ↔
      ∃ u v, w = u ++ v ∧ Times M n b u (v.head?.or a) ∧ Times M k (u.getLast?.or b) v a := by
  induction n generalizing b w with
  | zero => simp [Times]
  | succ n ih =>
    rw [Nat.succ_add, Times]
    constructor
    · rintro ⟨u, v, rfl, hM, hT⟩
      obtain ⟨v₁, v₂, rfl, h₁, h₂⟩ := ih.mp hT
      refine ⟨u ++ v₁, v₂, by simp, ⟨u, v₁, rfl, ?_, h₁⟩, ?_⟩
      · rwa [List.head?_append, Option.or_assoc] at hM
      · rwa [List.getLast?_append, Option.or_assoc]
    · rintro ⟨_, v₂, rfl, ⟨u, v₁, rfl, hM, h₁⟩, h₂⟩
      refine ⟨u, v₁ ++ v₂, by simp, ?_, ih.mpr ⟨v₁, v₂, rfl, h₁, ?_⟩⟩
      · rwa [List.head?_append, Option.or_assoc]
      · rwa [List.getLast?_append, Option.or_assoc] at h₂

theorem mem_upTo (h : Finds m M) {n : ℕ} {c d : Cursor} :
    d ∈ upTo m n c ↔ ∃ k ≤ n, ∃ w, Over w c d ∧ Times M k c.prev w d.rest.head? := by
  induction n generalizing c with
  | zero =>
    simp only [upTo, List.mem_singleton, Nat.le_zero, exists_eq_left, Times, exists_eq_right]
    exact Cursor.Over.nil_iff.symm
  | succ n ih =>
    simp only [upTo, List.mem_append, List.mem_flatMap, List.mem_filter, List.mem_singleton]
    constructor
    · rintro (⟨e, ⟨he, -⟩, hd⟩ | rfl)
      · obtain ⟨u, hu, hM⟩ := (h c e).mp he
        obtain ⟨k, hk, v, hv, hT⟩ := ih.mp hd
        refine ⟨k + 1, by omega, u ++ v, Cursor.Over.append_iff.mpr ⟨e, hu, hv⟩, u, v, rfl, ?_, ?_⟩
        · rwa [← hv.head?]
        · rwa [← hu.2]
      · exact ⟨0, Nat.zero_le _, [], Cursor.Over.nil_iff.mpr rfl, rfl⟩
    · -- a piece that takes nothing is passed over, so that the first one left makes progress
      rintro ⟨k, hk, w, hw, hT⟩
      induction k generalizing w with
      | zero => exact .inr (Cursor.Over.nil_iff.mp (hT ▸ hw))
      | succ k ihk =>
        obtain ⟨u, v, rfl, hM, hT⟩ := hT
        cases u with
        | nil => exact ihk (by omega) v hw (by simpa using hT)
        | cons x xs =>
          obtain ⟨e, hu, hv⟩ := Cursor.Over.append_iff.mp hw
          refine .inl ⟨e, ⟨(h c e).mpr ⟨_, hu, ?_⟩, ?_⟩, ih.mpr ⟨k, by omega, v, hv, ?_⟩⟩
          · rwa [hv.head?]
          · have hlength := hu.length
            simp only [List.length_cons] at hlength
            exact decide_eq_true (by omega)
          · rwa [hu.2]

end Repetition

/-- **The matcher finds what the pattern matches.** -/
theorem finds_ends (r : Regex) : Finds r.ends r.Matches := by
  induction r with
  | empty =>
    intro c d
    simp only [ends, Matches, List.mem_singleton, exists_eq_right]
    exact Cursor.Over.nil_iff.symm
  | one p =>
    rintro ⟨prev, rest⟩ d
    cases rest with
    | nil => simp [ends, Matches, Cursor.Over]
    | cons x xs =>
      obtain ⟨prev', rest'⟩ := d
      by_cases hx : p x = true
      · simp only [ends, Matches, Cursor.Over, hx, if_true, List.mem_singleton, Cursor.mk.injEq]
        constructor
        · rintro ⟨rfl, rfl⟩
          exact ⟨[x], ⟨rfl, rfl⟩, x, rfl, hx⟩
        · rintro ⟨_, ⟨hrest, hprev⟩, y, rfl, -⟩
          simp only [List.singleton_append, List.cons.injEq] at hrest
          obtain ⟨rfl, rfl⟩ := hrest
          exact ⟨hprev, rfl⟩
      · simp only [ends, Matches, Cursor.Over, hx, Bool.false_eq_true, if_false,
          List.not_mem_nil, false_iff]
        rintro ⟨_, ⟨hrest, -⟩, y, rfl, hy⟩
        simp only [List.singleton_append, List.cons.injEq] at hrest
        exact hx (hrest.1 ▸ hy)
  | seq r s ihr ihs => exact ihr.flatMap ihs
  | alt r s ihr ihs =>
    intro c d
    simp only [ends, Matches, List.mem_append, ihr c d, ihs c d, and_or_left, exists_or]
  | rep r least extra ih =>
    intro c d
    simp only [ends, List.mem_flatMap, mem_upTo ih]
    constructor
    · rintro ⟨e, he, k, hk, v, hv, hT⟩
      obtain ⟨u, hu, hT'⟩ := (finds_times ih least c e).mp he
      refine ⟨u ++ v, Cursor.Over.append_iff.mpr ⟨e, hu, hv⟩, least + k, by omega, fun j hj => ?_,
        Times.append.mpr ⟨u, v, rfl, ?_, ?_⟩⟩
      · obtain rfl := Option.mem_def.mp hj
        simpa using hk
      · rwa [← hv.head?]
      · rwa [← hu.2]
    · rintro ⟨w, hw, n, hn, hmax, hT⟩
      obtain ⟨k, rfl⟩ := Nat.exists_eq_add_of_le hn
      obtain ⟨u, v, rfl, hT, hT'⟩ := Times.append.mp hT
      obtain ⟨e, hu, hv⟩ := Cursor.Over.append_iff.mp hw
      -- without a bound the rest of the text bounds the repetitions that take something
      obtain ⟨j, hjk, hjv, hj⟩ := hT'.exists_le_length
      refine ⟨e, (finds_times ih least c e).mpr ⟨u, hu, ?_⟩, j, ?_, v, hv, ?_⟩
      · rwa [hv.head?]
      · cases extra with
        | none =>
          have hlength := hv.length
          simp only [Option.getD_none]
          omega
        | some m =>
          have hm := hmax m rfl
          simp only [Option.getD_some]
          omega
      · rwa [hu.2]
  | notBehind p =>
    intro c d
    refine Iff.trans ?_ (exists_over_nil (q := fun b _ => b.any p = false)).symm
    by_cases hp : c.prev.any p = true <;> simp [ends, hp]
  | notAhead p =>
    intro c d
    refine Iff.trans ?_ (exists_over_nil (q := fun _ a => a.any p = false)).symm
    by_cases hp : c.rest.head?.any p = true <;> simp [ends, hp]
  | boundary p =>
    intro c d
    refine Iff.trans ?_ (exists_over_nil (q := fun b a => b.any p ≠ a.any p)).symm
    by_cases hp : c.prev.any p = c.rest.head?.any p <;> simp [ends, hp]

/-! ## Characters -/

theorem times_one_iff {p : Char → Bool} {n : ℕ} {b a : Option Char} {w : List Char} :
    Times (one p).Matches n b w a ↔ w.length = n ∧ ∀ x ∈ w, p x := by
  induction n generalizing b w with
  | zero => simp +contextual [Times]
  | succ n ih =>
    constructor
    · rintro ⟨u, v, rfl, ⟨x, rfl, hx⟩, hv⟩
      obtain ⟨hlength, hall⟩ := ih.1 hv
      exact ⟨by simp [hlength], by simpa [hx] using hall⟩
    · rintro ⟨hlength, hall⟩
      match w with
      | x :: w =>
        refine ⟨[x], w, rfl, ⟨x, rfl, hall x List.mem_cons_self⟩, ih.2 ⟨by simpa using hlength, ?_⟩⟩
        exact fun y hy => hall y (List.mem_cons_of_mem x hy)

/-- A repeated class takes that many characters of it. -/
theorem matches_rep_one_iff {p : Char → Bool} {least : ℕ} {extra : Option ℕ} {b a : Option Char}
    {w : List Char} : (rep (one p) least extra).Matches b w a ↔
      least ≤ w.length ∧ (∀ k ∈ extra, w.length ≤ least + k) ∧ ∀ x ∈ w, p x := by
  constructor
  · rintro ⟨n, hleast, hextra, htimes⟩
    obtain ⟨rfl, hall⟩ := times_one_iff.1 htimes
    exact ⟨hleast, hextra, hall⟩
  · rintro ⟨hleast, hextra, hall⟩
    exact ⟨w.length, hleast, hextra, times_one_iff.2 ⟨rfl, hall⟩⟩

theorem matches_rep_none_iff {p : Char → Bool} {least : ℕ} {b a : Option Char} {w : List Char} :
    (rep (one p) least none).Matches b w a ↔ least ≤ w.length ∧ ∀ x ∈ w, p x := by
  simp [matches_rep_one_iff]

/-- No match is without a character of the class. -/
def Needs (q : Char → Prop) (r : Regex) : Prop := ∀ b w a, r.Matches b w a → ∃ x ∈ w, q x

section Needs

variable {q : Char → Prop} {r s : Regex}

theorem needs_one {p : Char → Bool} (h : ∀ x, p x → q x) : (one p).Needs q := by
  rintro b w a ⟨x, rfl, hx⟩
  exact ⟨x, List.mem_singleton_self x, h x hx⟩

theorem Needs.seq_left (hr : r.Needs q) (s : Regex) : (seq r s).Needs q := by
  rintro b w a ⟨u, v, rfl, hu, -⟩
  obtain ⟨x, hx, hq⟩ := hr _ _ _ hu
  exact ⟨x, List.mem_append_left v hx, hq⟩

theorem Needs.seq_right (hs : s.Needs q) (r : Regex) : (seq r s).Needs q := by
  rintro b w a ⟨u, v, rfl, -, hv⟩
  obtain ⟨x, hx, hq⟩ := hs _ _ _ hv
  exact ⟨x, List.mem_append_right u hx, hq⟩

theorem Needs.alt (hr : r.Needs q) (hs : s.Needs q) : (alt r s).Needs q := by
  rintro b w a (h | h)
  · exact hr _ _ _ h
  · exact hs _ _ _ h

end Needs

/-! ## The longest match

The matcher prefers to repeat. When every place but the first leads nowhere else, the longest match
comes first. -/

/-- `d` is behind `e`. -/
def Cursor.Behind (d e : Cursor) : Prop := d.rest.length < e.rest.length

/-- From all places but the one furthest behind, the matcher does not go on. -/
def OneWay (m : Cursor → List Cursor) : Prop :=
  ∀ c, (m c).Pairwise fun d e => d.Behind e ∧ m e = []

/-- Longer matches come first. -/
def LongestFirst (r : Regex) : Prop := ∀ c, (r.ends c).Pairwise Cursor.Behind

/-- At most one match, of `k` characters. -/
def Takes (k : ℕ) (r : Regex) : Prop :=
  ∀ c, (r.ends c).length ≤ 1 ∧ ∀ d ∈ r.ends c, c.rest.length = d.rest.length + k

section Order

variable {m : Cursor → List Cursor}

theorem pairwise_of_length_le_one {R : Cursor → Cursor → Prop} {cs : List Cursor}
    (h : cs.length ≤ 1) : cs.Pairwise R := by
  match cs with
  | [] => exact .nil
  | [c] => exact List.pairwise_singleton _ c
  | _ :: _ :: _ => simp at h

theorem length_le_of_mem_upTo {n : ℕ} {c d : Cursor} (h : d ∈ upTo m n c) :
    d.rest.length ≤ c.rest.length := by
  induction n generalizing c with
  | zero =>
    obtain rfl := List.mem_singleton.1 h
    exact Nat.le_refl _
  | succ n ih =>
    simp only [upTo, List.mem_append, List.mem_flatMap, List.mem_filter, List.mem_singleton,
      decide_eq_true_eq] at h
    rcases h with ⟨e, ⟨-, he⟩, hd⟩ | rfl
    · exact Nat.le_trans (ih hd) (Nat.le_of_lt he)
    · exact Nat.le_refl _

theorem upTo_eq_singleton {c : Cursor} (h : m c = []) (n : ℕ) : upTo m n c = [c] := by
  cases n with
  | zero => rfl
  | succ n => simp [upTo, h]

theorem OneWay.pairwise_upTo (h : OneWay m) (n : ℕ) (c : Cursor) :
    (upTo m n c).Pairwise Cursor.Behind := by
  induction n generalizing c with
  | zero => exact List.pairwise_singleton _ _
  | succ n ih =>
    refine List.pairwise_append.2 ⟨List.pairwise_flatMap.2 ⟨fun d _ => ih d, ?_⟩,
      List.pairwise_singleton _ _, ?_⟩
    · refine ((h c).sublist List.filter_sublist).imp ?_
      rintro d e ⟨hbehind, hstop⟩ x hx y hy
      rw [upTo_eq_singleton hstop, List.mem_singleton] at hy
      exact Nat.lt_of_le_of_lt (length_le_of_mem_upTo hx) (hy ▸ hbehind)
    · intro d hd e he
      obtain rfl := List.mem_singleton.1 he
      obtain ⟨x, hx, hd⟩ := List.mem_flatMap.1 hd
      have hlt := of_decide_eq_true (List.mem_filter.1 hx).2
      exact Nat.lt_of_le_of_lt (length_le_of_mem_upTo hd) hlt

theorem OneWay.times (h : OneWay m) (k : ℕ) (c : Cursor) :
    (times m k c).Pairwise fun d e => d.Behind e ∧ m e = [] := by
  induction k generalizing c with
  | zero => exact List.pairwise_singleton _ _
  | succ k ih =>
    refine List.pairwise_flatMap.2 ⟨fun d _ => ih d, (h c).imp ?_⟩
    rintro d e ⟨hbehind, hstop⟩ x hx y hy
    cases k with
    | zero =>
      obtain rfl := List.mem_singleton.1 hx
      obtain rfl := List.mem_singleton.1 hy
      exact ⟨hbehind, hstop⟩
    | succ k => simp [Regex.times, hstop] at hy

theorem longestFirst_rep {r : Regex} (h : OneWay r.ends) (least : ℕ) (extra : Option ℕ) :
    (rep r least extra).LongestFirst := by
  intro c
  refine List.pairwise_flatMap.2 ⟨fun d _ => h.pairwise_upTo _ d, (h.times least c).imp ?_⟩
  rintro d e ⟨hbehind, hstop⟩ x hx y hy
  rw [upTo_eq_singleton hstop, List.mem_singleton] at hy
  exact Nat.lt_of_le_of_lt (length_le_of_mem_upTo hx) (hy ▸ hbehind)

theorem LongestFirst.seq_takes {r s : Regex} {k : ℕ} (hr : r.LongestFirst) (hs : s.Takes k) :
    (seq r s).LongestFirst := by
  intro c
  refine List.pairwise_flatMap.2 ⟨fun d _ => ?_, (hr c).imp ?_⟩
  · exact pairwise_of_length_le_one (hs d).1
  · intro d e hbehind x hx y hy
    have hd := (hs d).2 x hx
    have he := (hs e).2 y hy
    unfold Cursor.Behind at hbehind ⊢
    omega

theorem takes_one (p : Char → Bool) : (one p).Takes 1 := by
  rintro ⟨prev, rest⟩
  cases rest with
  | nil => simp [ends]
  | cons x xs => by_cases hx : p x = true <;> simp [ends, hx]

theorem oneWay_one (p : Char → Bool) : OneWay (one p).ends :=
  fun c => pairwise_of_length_le_one (takes_one p c).1

theorem takes_notBehind (p : Char → Bool) : (notBehind p).Takes 0 := by
  intro c
  by_cases hp : c.prev.any p = true <;> simp [ends, hp]

theorem takes_notAhead (p : Char → Bool) : (notAhead p).Takes 0 := by
  intro c
  by_cases hp : c.rest.head?.any p = true <;> simp [ends, hp]

theorem Takes.seq {r s : Regex} {j k : ℕ} (hr : r.Takes j) (hs : s.Takes k) :
    (seq r s).Takes (j + k) := by
  intro c
  obtain ⟨hlength, hends⟩ := hr c
  unfold ends
  match hc : r.ends c with
  | [] => simp
  | [d] =>
    have hd := hends d (hc ▸ List.mem_singleton_self d)
    rw [List.flatMap_cons, List.flatMap_nil, List.append_nil]
    refine ⟨(hs d).1, fun e he => ?_⟩
    have he := (hs d).2 e he
    omega
  | _ :: _ :: _ => simp [hc] at hlength

/-- At most one match. -/
def Single (r : Regex) : Prop := ∀ c, (r.ends c).length ≤ 1

theorem Takes.single {r : Regex} {k : ℕ} (hr : r.Takes k) : r.Single := fun c => (hr c).1

theorem Single.seq {r s : Regex} (hr : r.Single) (hs : s.Single) : (seq r s).Single := by
  intro c
  unfold ends
  match hc : r.ends c with
  | [] => simp
  | [d] => simpa using hs d
  | _ :: _ :: _ =>
    have hlength := hr c
    simp [hc] at hlength

theorem Single.seq_longestFirst {r s : Regex} (hr : r.Single) (hs : s.LongestFirst) :
    (Regex.seq r s).LongestFirst := by
  intro c
  exact List.pairwise_flatMap.2 ⟨fun d _ => hs d, pairwise_of_length_le_one (hr c)⟩

/-- Two patterns of which only one matches at a place. -/
theorem Single.alt {r s : Regex} (hr : r.Single) (hs : s.Single)
    (hone : ∀ c, r.ends c = [] ∨ s.ends c = []) : (alt r s).Single := by
  intro c
  unfold ends
  rcases hone c with h | h
  · simpa [h] using hs c
  · simpa [h] using hr c

/-- What may stand before a match, where the match does not begin with it. -/
theorem Single.opt_seq {p : Char → Bool} {s : Regex} (hs : s.Single)
    (hnot : ∀ b x xs, p x → s.ends ⟨b, x :: xs⟩ = []) : (Regex.seq (opt (one p)) s).Single := by
  rintro ⟨b, rest⟩
  cases rest with
  | nil => simpa [opt, ends, Regex.times, upTo] using hs ⟨b, []⟩
  | cons x xs =>
    by_cases hx : p x = true
    · simpa [opt, ends, Regex.times, upTo, hx, hnot b x xs hx] using hs ⟨some x, xs⟩
    · simpa [opt, ends, Regex.times, upTo, hx] using hs ⟨b, x :: xs⟩

theorem mem_ends_iff {r : Regex} {b : Option Char} {w v : List Char} :
    ⟨w.getLast?.or b, v⟩ ∈ r.ends ⟨b, w ++ v⟩ ↔ r.Matches b w v.head? := by
  constructor
  · intro h
    obtain ⟨w', ⟨hrest, -⟩, hM⟩ := (r.finds_ends _ _).1 h
    obtain rfl := List.append_cancel_right hrest
    exact hM
  · exact fun hM => (r.finds_ends _ _).2 ⟨w, ⟨rfl, rfl⟩, hM⟩

theorem ends_eq_nil_of_not_matches {r : Regex} {b : Option Char} {text : List Char}
    (h : ∀ w v, text = w ++ v → ¬r.Matches b w v.head?) : r.ends ⟨b, text⟩ = [] := by
  refine List.eq_nil_iff_forall_not_mem.2 fun d hd => ?_
  obtain ⟨w, ⟨hrest, -⟩, hM⟩ := (r.finds_ends _ d).1 hd
  exact h w d.rest hrest hM

/-- Where a match has only one length, there is only one. -/
theorem LongestFirst.single {r : Regex} (hr : r.LongestFirst)
    (hlength : ∀ b w v w' v', w ++ v = w' ++ v' → r.Matches b w v.head? → r.Matches b w' v'.head? →
      w.length = w'.length) : r.Single := by
  rintro ⟨b, text⟩
  match hends : r.ends ⟨b, text⟩ with
  | [] => simp
  | [d] => simp
  | d :: e :: more =>
    have hsorted := hr ⟨b, text⟩
    rw [hends] at hsorted
    have hbehind : d.rest.length < e.rest.length := List.rel_of_pairwise_cons hsorted List.mem_cons_self
    obtain ⟨w, ⟨hd, -⟩, hw⟩ := (r.finds_ends _ d).1 (hends ▸ List.mem_cons_self)
    obtain ⟨w', ⟨he, -⟩, hw'⟩ :=
      (r.finds_ends _ e).1 (hends ▸ List.mem_cons_of_mem _ List.mem_cons_self)
    have hsame := hlength b w d.rest w' e.rest (hd.symm.trans he) hw hw'
    have hrest := congrArg List.length (hd.symm.trans he)
    simp only [List.length_append] at hrest
    omega

/-- **The match is the longest.** -/
theorem LongestFirst.first_eq_some_iff {r : Regex} (hr : r.LongestFirst) {b : Option Char}
    {w v : List Char} :
    r.first ⟨b, w ++ v⟩ = some ⟨w.getLast?.or b, v⟩ ↔ r.Matches b w v.head? ∧
      ∀ w' v', w ++ v = w' ++ v' → r.Matches b w' v'.head? → w'.length ≤ w.length := by
  have hsorted := hr ⟨b, w ++ v⟩
  unfold first
  constructor
  · intro h
    refine ⟨mem_ends_iff.1 (List.mem_of_mem_head? h), fun w' v' hsplit hM => ?_⟩
    have hmem : ⟨w'.getLast?.or b, v'⟩ ∈ r.ends ⟨b, w ++ v⟩ := hsplit ▸ mem_ends_iff.2 hM
    have hlength := congrArg List.length hsplit
    simp only [List.length_append] at hlength
    obtain ⟨rest, hends⟩ := List.head?_eq_some_iff.1 h
    rw [hends] at hmem hsorted
    rcases List.mem_cons.1 hmem with heq | hrest
    · obtain rfl := (Cursor.mk.inj heq).2
      omega
    · have hbehind : v.length < v'.length := List.rel_of_pairwise_cons hsorted hrest
      omega
  · rintro ⟨hM, hlongest⟩
    have hmem := mem_ends_iff.2 hM
    cases hends : r.ends ⟨b, w ++ v⟩ with
    | nil => simp [hends] at hmem
    | cons e rest =>
      rw [hends] at hmem hsorted
      rcases List.mem_cons.1 hmem with heq | hrest
      · rw [List.head?_cons, heq]
      · have hbehind : e.rest.length < v.length := List.rel_of_pairwise_cons hsorted hrest
        obtain ⟨w', ⟨hsplit, -⟩, hM'⟩ := (r.finds_ends _ e).1 (hends ▸ List.mem_cons_self)
        have hle := hlongest w' e.rest hsplit hM'
        have hlength := congrArg List.length hsplit
        simp only [List.length_append] at hlength
        omega

end Order

/-! ## Patterns that look at nothing around them -/

/-- The pattern reads only what it takes. -/
def LookFree : Regex → Prop
  | empty => True
  | one _ => True
  | seq r s => r.LookFree ∧ s.LookFree
  | alt r s => r.LookFree ∧ s.LookFree
  | rep r _ _ => r.LookFree
  | notBehind _ => False
  | notAhead _ => False
  | boundary _ => False

theorem Times.anywhere {M : Option Char → List Char → Option Char → Prop}
    (h : ∀ {b w a} b' a', M b w a → M b' w a') {n : ℕ} {b a : Option Char} {w : List Char}
    (b' a' : Option Char)
    (hM : Times M n b w a) : Times M n b' w a' := by
  induction n generalizing b w b' with
  | zero => exact hM
  | succ n ih =>
    obtain ⟨u, v, rfl, hu, hv⟩ := hM
    exact ⟨u, v, rfl, h _ _ hu, ih _ hv⟩

/-- So what stands around does not matter. -/
theorem LookFree.matches {r : Regex} (hr : r.LookFree) {b a : Option Char} {w : List Char}
    (b' a' : Option Char)
    (h : r.Matches b w a) : r.Matches b' w a' := by
  induction r generalizing b a w b' a' with
  | empty => exact h
  | one p => exact h
  | seq r s ihr ihs =>
    obtain ⟨u, v, rfl, hu, hv⟩ := h
    exact ⟨u, v, rfl, ihr hr.1 _ _ hu, ihs hr.2 _ _ hv⟩
  | alt r s ihr ihs => exact h.imp (ihr hr.1 _ _) (ihs hr.2 _ _)
  | rep r least extra ih =>
    obtain ⟨n, hleast, hextra, htimes⟩ := h
    exact ⟨n, hleast, hextra, Times.anywhere (M := r.Matches) (ih hr) b' a' htimes⟩
  | notBehind p => cases hr
  | notAhead p => cases hr
  | boundary p => cases hr

end Regex
