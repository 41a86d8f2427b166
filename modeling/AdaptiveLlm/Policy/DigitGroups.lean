import AdaptiveLlm.Policy.Redaction
import Mathlib.Data.List.SplitBy
import Mathlib.Data.Nat.Find

set_option autoImplicit false

/-! # Groups of digits

What `_cards` takes, without the pattern. A text falls into its words (characters of `[\w-]` that stand
together) and single other characters. From each of these on, the pass takes as many as make a card
number together (13 to 19 digits, with at most one space or hyphen between two of them), and goes on
behind them; where no number of them does, it goes on with the next word. `cardSpans` computes this
from the words alone, and `cutSpans_cards` says that the scan with `_cards` finds the same places.

The grouping is of use beyond the proof, as it can be computed by hand: split the text into words,
count digits, and see which groups are long enough. The matcher's side is `Lib/Regex.lean`; that
greedy matching takes as many words as possible is the statement that the pattern's longest match
comes first, and the number of words is found by `Nat.findGreatest`. -/

namespace AdaptiveLlm

open Regex Python

namespace ProcessingRedactor

variable (wide : Char → Bool)

/-! ## The form of a card number -/

/-- How many digits the text has, if it has nothing else than one space or hyphen between two of them. -/
def groupedDigits : List Char → Option ℕ
  | [] => none
  | [d] => if d.isDigit then some 1 else none
  | d :: x :: w =>
    if d.isDigit then
      if x = ' ' ∨ x = '-' then (groupedDigits w).map (· + 1) else (groupedDigits (x :: w)).map (· + 1)
    else none

/-- 13 to 19 digits, with at most one space or hyphen between two of them. -/
def CardToken (c : List Char) : Prop := ∃ n ∈ groupedDigits c, 13 ≤ n ∧ n ≤ 19

instance (c : List Char) : Decidable (CardToken c) :=
  match h : groupedDigits c with
  | none => isFalse (by simp [CardToken, h])
  | some n => decidable_of_iff (13 ≤ n ∧ n ≤ 19) (by simp [CardToken, h])

/-! ## The card numbers of a text -/

/-- The words of a text: characters of `[\w-]` that stand together, and every other character alone. -/
def words (text : List Char) : List (List Char) := text.splitBy fun x y => joins wide x && joins wide y

/-- The greatest number of words, from the first one on, that make a card number; 0 if there is none. -/
def cardWords (ws : List (List Char)) : ℕ :=
  Nat.findGreatest (fun k => CardToken (ws.take k).flatten) ws.length

/-- Where the card numbers of the words begin and how long they are. The words begin at `n`, and the first
`taken` of them belong to a number before. A number that fails `_is_card` takes its words all the same. -/
def cardSpans : (taken n : ℕ) → List (List Char) → List (ℕ × ℕ)
  | _, _, [] => []
  | taken + 1, n, w :: ws => cardSpans taken (n + w.length) ws
  | 0, n, w :: ws =>
    let k := cardWords (w :: ws)
    let number := ((w :: ws).take k).flatten
    let later := cardSpans (k - 1) (n + w.length) ws
    if isCard number then (n, number.length) :: later else later

/-- Every place of `c` in the text shares a character with a card number of the text. -/
def Covered (c text : List Char) : Prop :=
  ∀ p < text.length, c <+: text.drop p →
    ∃ span ∈ cardSpans 0 0 (words wide text), p < span.1 + span.2 ∧ span.1 < p + c.length

instance (c text : List Char) : Decidable (Covered wide c text) :=
  inferInstanceAs (Decidable (∀ p < text.length, _))

variable {wide}

/-! ## Grouped digits

The form of a card number apart from the checksum: digits, with at most one space or hyphen between
two. It begins and ends with a digit, and every space in it stands between two of them. -/

theorem mem_of_groupedDigits {c : List Char} {n : ℕ} (h : groupedDigits c = some n) :
    ∀ x ∈ c, x.isDigit ∨ x = ' ' ∨ x = '-' := by
  fun_induction groupedDigits c generalizing n with
  | case1 => cases h
  | case2 d hd => simp [hd]
  | case3 => cases h
  | case4 d x w hd hx ih =>
    obtain ⟨k, hk, -⟩ := Option.map_eq_some_iff.1 h
    have hw := ih hk
    intro y hy
    rcases List.mem_cons.1 hy with rfl | hy
    · exact .inl hd
    · rcases List.mem_cons.1 hy with rfl | hy
      · exact .inr hx
      · exact hw y hy
  | case5 d x w hd hx ih =>
    obtain ⟨k, hk, -⟩ := Option.map_eq_some_iff.1 h
    intro y hy
    rcases List.mem_cons.1 hy with rfl | hy
    · exact .inl hd
    · exact ih hk y hy
  | case6 => cases h

theorem head?_of_groupedDigits {c : List Char} {n : ℕ} (h : groupedDigits c = some n) :
    ∃ d w, c = d :: w ∧ d.isDigit := by
  fun_cases groupedDigits c with
  | case1 => cases h
  | case2 d hd => exact ⟨d, [], rfl, hd⟩
  | case3 d hd => simp [groupedDigits, hd] at h
  | case4 d x w hd => exact ⟨d, x :: w, rfl, hd⟩
  | case5 d x w hd => exact ⟨d, x :: w, rfl, hd⟩
  | case6 d x w hd => simp [groupedDigits, hd] at h

theorem countP_of_groupedDigits {c : List Char} {n : ℕ} (h : groupedDigits c = some n) :
    c.countP Char.isDigit = n := by
  fun_induction groupedDigits c generalizing n with
  | case1 => cases h
  | case2 d hd => simpa [hd] using h
  | case3 => cases h
  | case4 d x w hd hx ih =>
    obtain ⟨k, hk, rfl⟩ := Option.map_eq_some_iff.1 h
    have hx : ¬x.isDigit := by
      rcases hx with rfl | rfl <;> decide
    rw [List.countP_cons_of_pos hd, List.countP_cons_of_neg hx, ih hk]
  | case5 d x w hd hx ih =>
    obtain ⟨k, hk, rfl⟩ := Option.map_eq_some_iff.1 h
    rw [List.countP_cons_of_pos hd, ih hk]
  | case6 => cases h

/-- A space stands between two digits. -/
theorem groupedDigits_around_space {u v : List Char} {n : ℕ} (h : groupedDigits (u ++ ' ' :: v) = some n) :
    (∃ x ∈ u.getLast?, x.isDigit) ∧ ∃ x ∈ v.head?, x.isDigit := by
  generalize hc : u ++ ' ' :: v = c at h
  fun_induction groupedDigits c generalizing n u with
  | case1 => cases h
  | case2 d hd =>
    obtain ⟨rfl, hv⟩ | ⟨u, rfl, hv⟩ := List.append_eq_cons_iff.1 hc
    · obtain rfl : d = ' ' := (List.cons.inj hv.symm).1
      exact absurd hd (by decide)
    · simp at hv
  | case3 => cases h
  | case4 d x w hd hx ih =>
    obtain ⟨k, hk, -⟩ := Option.map_eq_some_iff.1 h
    match u, hc with
    | [], hc =>
      obtain rfl : ' ' = d := (List.cons.inj hc).1
      exact absurd hd (by decide)
    | [d'], hc =>
      simp only [List.cons_append, List.nil_append, List.cons.injEq] at hc
      obtain ⟨rfl, rfl, rfl⟩ := hc
      obtain ⟨e, w, rfl, he⟩ := head?_of_groupedDigits hk
      exact ⟨⟨d', rfl, hd⟩, e, rfl, he⟩
    | d' :: x' :: u, hc =>
      simp only [List.cons_append, List.cons.injEq] at hc
      obtain ⟨hu, hv⟩ := ih hc.2.2 hk
      refine ⟨?_, hv⟩
      obtain ⟨y, hy, hdigit⟩ := hu
      have hne : u ≠ [] := by
        rintro rfl
        cases hy
      exact ⟨y, by rwa [List.getLast?_cons_of_ne_nil (by simp), List.getLast?_cons_of_ne_nil hne], hdigit⟩
  | case5 d x w hd hx ih =>
    obtain ⟨k, hk, -⟩ := Option.map_eq_some_iff.1 h
    match u, hc with
    | [], hc =>
      obtain rfl : ' ' = d := (List.cons.inj hc).1
      exact absurd hd (by decide)
    | [d'], hc =>
      simp only [List.cons_append, List.nil_append, List.cons.injEq] at hc
      exact absurd (.inl hc.2.1.symm) hx
    | d' :: x' :: u, hc =>
      simp only [List.cons_append, List.cons.injEq] at hc
      obtain ⟨hu, hv⟩ := ih (u := x' :: u) (by rw [List.cons_append, hc.2.1, hc.2.2]) hk
      exact ⟨by rwa [List.getLast?_cons_of_ne_nil (by simp)], hv⟩
  | case6 => cases h

/-! ## What the pattern takes

The pattern has a look-behind and a look-ahead for the characters that join words, and between them
13 to 19 digits. What it matches is therefore a text of the form with a break on either side. -/

/-- A digit, and a space or hyphen if there is one. -/
def digitGroup : Regex := seq (one Char.isDigit) (opt (one fun c => c = ' ' || c = '-'))

theorem matches_digitGroup_iff {b a : Option Char} {w : List Char} : digitGroup.Matches b w a ↔
    ∃ d, d.isDigit ∧ (w = [d] ∨ ∃ x, (x = ' ' ∨ x = '-') ∧ w = [d, x]) := by
  constructor
  · rintro ⟨_, v, rfl, ⟨d, rfl, hd⟩, hv⟩
    obtain ⟨-, hone, hall⟩ := matches_rep_one_iff.1 hv
    refine ⟨d, hd, ?_⟩
    match v with
    | [] => exact .inl rfl
    | [x] => exact .inr ⟨x, by simpa using hall x List.mem_cons_self, rfl⟩
    | _ :: _ :: _ => simp at hone
  · rintro ⟨d, hd, rfl | ⟨x, hx, rfl⟩⟩
    · exact ⟨[d], [], rfl, ⟨d, rfl, hd⟩, matches_rep_one_iff.2 (by simp)⟩
    · exact ⟨[d], [x], rfl, ⟨d, rfl, hd⟩, matches_rep_one_iff.2 (by simpa using hx)⟩

theorem groupedDigits_of_times {n : ℕ} {b a : Option Char} {w : List Char} {d : Char}
    (h : Times digitGroup.Matches n b w a) (hd : d.isDigit) : groupedDigits (w ++ [d]) = some (n + 1) := by
  induction n generalizing b w with
  | zero =>
    obtain rfl : w = [] := h
    simp [groupedDigits, hd]
  | succ n ih =>
    obtain ⟨u, v, rfl, hu, hv⟩ := h
    have hrest := ih hv
    obtain ⟨x, hx, rfl | ⟨y, hy, rfl⟩⟩ := matches_digitGroup_iff.1 hu
    · obtain ⟨z, more, hmore, hz⟩ := head?_of_groupedDigits hrest
      have hsep : ¬(z = ' ' ∨ z = '-') := by
        rintro (rfl | rfl) <;> exact absurd hz (by decide)
      rw [List.append_assoc, hmore, List.singleton_append, groupedDigits, if_pos hx,
        if_neg hsep, ← hmore, hrest]
      rfl
    · rw [List.append_assoc, List.cons_append, List.singleton_append, groupedDigits,
        if_pos hx, if_pos hy, hrest]
      rfl

theorem times_of_groupedDigits {c : List Char} {n : ℕ} (h : groupedDigits c = some n) :
    ∃ w d k, c = w ++ [d] ∧ d.isDigit ∧ n = k + 1 ∧ ∀ b a, Times digitGroup.Matches k b w a := by
  fun_induction groupedDigits c generalizing n with
  | case1 => cases h
  | case2 d hd =>
    obtain rfl := Option.some.inj h
    exact ⟨[], d, 0, rfl, hd, rfl, fun _ _ => rfl⟩
  | case3 => cases h
  | case4 d x w hd hx ih =>
    obtain ⟨m, hm, rfl⟩ := Option.map_eq_some_iff.1 h
    obtain ⟨w, e, k, rfl, he, rfl, htimes⟩ := ih hm
    exact ⟨d :: x :: w, e, k + 1, rfl, he, rfl, fun b a =>
      ⟨[d, x], w, rfl, matches_digitGroup_iff.2 ⟨d, hd, .inr ⟨x, hx, rfl⟩⟩, htimes _ _⟩⟩
  | case5 d x w hd hx ih =>
    obtain ⟨m, hm, rfl⟩ := Option.map_eq_some_iff.1 h
    obtain ⟨w', e, k, hw, he, rfl, htimes⟩ := ih hm
    refine ⟨d :: w', e, k + 1, by rw [hw, List.cons_append], he, rfl, fun b a =>
      ⟨[d], w', rfl, matches_digitGroup_iff.2 ⟨d, hd, .inl rfl⟩, htimes _ _⟩⟩
  | case6 => cases h

/-- **What `_cards` takes**, and between what. -/
theorem matches_cards_iff {b a : Option Char} {w : List Char} : (cards wide).Matches b w a ↔
    b.any (joins wide) = false ∧ a.any (joins wide) = false ∧ CardToken w := by
  constructor
  · rintro ⟨_, w, rfl, ⟨rfl, hb⟩, groups, _, rfl, ⟨n, hleast, hmost, htimes⟩, _,
      _, rfl, ⟨d, rfl, hd⟩, rfl, ha⟩
    have hn := hmost 6 rfl
    exact ⟨hb, ha, n + 1, groupedDigits_of_times htimes hd, by omega, by omega⟩
  · rintro ⟨hb, ha, n, hn, hleast, hmost⟩
    obtain ⟨groups, d, k, rfl, hd, rfl, htimes⟩ := times_of_groupedDigits hn
    refine ⟨[], groups ++ [d], rfl, ⟨rfl, hb⟩, groups, [d], rfl, ⟨k, by omega, ?_, htimes _ _⟩,
      [d], [], rfl, ⟨d, rfl, hd⟩, rfl, ha⟩
    rintro _ ⟨⟩
    omega

theorem cards_takesSome : (cards wide).TakesSome :=
  ((takesSome_one _).seq_left _).seq_right _ |>.seq_right _

theorem CardToken.head? {c : List Char} (hc : CardToken c) : ∃ d w, c = d :: w ∧ d.isDigit := by
  obtain ⟨n, hn, -⟩ := hc
  exact head?_of_groupedDigits hn

theorem CardToken.ne_nil {c : List Char} (hc : CardToken c) : c ≠ [] := by
  obtain ⟨d, w, rfl, -⟩ := hc.head?
  exact List.cons_ne_nil d w

theorem CardToken.getLast? {c : List Char} (hc : CardToken c) : ∃ w d, c = w ++ [d] ∧ d.isDigit := by
  obtain ⟨n, hn, -⟩ := hc
  obtain ⟨w, d, -, rfl, hd, -⟩ := times_of_groupedDigits hn
  exact ⟨w, d, rfl, hd⟩

theorem CardToken.le_countP {c : List Char} (hc : CardToken c) : 13 ≤ c.countP Char.isDigit := by
  obtain ⟨n, hn, hleast, -⟩ := hc
  rwa [countP_of_groupedDigits hn]

theorem joins_of_isDigit {x : Char} (hx : x.isDigit) : joins wide x := by
  rw [joins, isWord_of_isDigit hx]
  rfl

/-! ## Words

The breaks cut a text into words. What the pattern takes is a number of whole words, so that a scan
of the characters can be followed word by word. -/

/-- Words of a text: none is empty, and two characters that stand together are in one word exactly if both
are of `[\w-]`. -/
inductive Parted (wide : Char → Bool) : List (List Char) → Prop
  | nil : Parted wide []
  | cons {w : List Char} {ws : List (List Char)} (nonempty : w ≠ [])
      (together : w.IsChain fun x y => joins wide x && joins wide y)
      (apart : ∀ x ∈ w.getLast?, ∀ y ∈ ws.flatten.head?, (joins wide x && joins wide y) = false)
      (rest : Parted wide ws) : Parted wide (w :: ws)

theorem parted_words (text : List Char) : Parted wide (words wide text) := by
  have hwords : ∀ w ∈ words wide text, w ≠ [] ∧ w.IsChain fun x y => joins wide x && joins wide y :=
      fun w hw =>
    ⟨List.ne_nil_of_mem_splitBy hw, List.isChain_of_mem_splitBy hw⟩
  have happart := List.isChain_getLast_head_splitBy (fun x y => joins wide x && joins wide y) text
  change List.IsChain _ (words wide text) at happart
  generalize words wide text = ws at hwords happart
  induction ws with
  | nil => exact .nil
  | cons w ws ih =>
    obtain ⟨hne, htogether⟩ := hwords w List.mem_cons_self
    refine .cons hne htogether (fun x hx y hy => ?_)
      (ih (fun v hv => hwords v (List.mem_cons_of_mem w hv)) happart.of_cons)
    cases ws with
    | nil => cases hy
    | cons v ws =>
      obtain ⟨ha, hb, hsplit⟩ := List.rel_of_isChain_cons_cons happart
      rw [List.flatten_cons, List.head?_append_of_ne_nil _ hb, List.head?_eq_some_head hb] at hy
      rw [List.getLast?_eq_some_getLast ha] at hx
      obtain rfl := Option.some.inj hx
      obtain rfl := Option.some.inj hy
      exact hsplit

namespace Parted

variable {ws : List (List Char)} {w v : List Char}

theorem drop (h : Parted wide ws) (k : ℕ) : Parted wide (ws.drop k) := by
  induction h generalizing k with
  | nil => simpa using .nil
  | cons nonempty together apart rest ih =>
    cases k with
    | zero => exact .cons nonempty together apart rest
    | succ k => exact ih k

/-- Between words there is a break. -/
theorem apart_take (h : Parted wide ws) (k : ℕ) : ∀ x ∈ (ws.take k).flatten.getLast?,
    ∀ y ∈ (ws.drop k).flatten.head?, (joins wide x && joins wide y) = false := by
  induction h generalizing k with
  | nil => simp
  | @cons w ws nonempty together apart rest ih =>
    cases k with
    | zero => simp
    | succ k =>
      intro x hx y hy
      rw [List.take_succ_cons, List.flatten_cons] at hx
      rw [List.drop_succ_cons] at hy
      by_cases hnil : (ws.take k).flatten = []
      · rw [hnil, List.append_nil] at hx
        refine apart x hx y ?_
        rw [← List.take_append_drop k ws, List.flatten_append, hnil]
        exact hy
      · rw [List.getLast?_append_of_ne_nil _ hnil] at hx
        exact ih k x hx y hy

/-- A text that ends at a break is some of the words. -/
theorem exists_take (h : Parted wide ws) (hwv : ws.flatten = w ++ v) (hne : w ≠ [])
    (hbreak : v.head?.any (joins wide) = false) : ∃ k, k < ws.length ∧ w = (ws.take (k + 1)).flatten := by
  induction h generalizing w with
  | nil => exact absurd (List.append_eq_nil_iff.1 hwv.symm).1 hne
  | @cons u ws nonempty together apart rest ih =>
    rw [List.flatten_cons] at hwv
    rcases List.append_eq_append_iff.1 hwv with ⟨e, rfl, hrest⟩ | ⟨e, rfl, rfl⟩
    · by_cases he : e = []
      · exact ⟨0, by simp, by simp [he]⟩
      · obtain ⟨k, hk, rfl⟩ := ih hrest he
        exact ⟨k + 1, by simpa using hk, by simp⟩
    · -- the break would be within a word
      cases e with
      | nil => exact ⟨0, by simp, by simp⟩
      | cons y e =>
        obtain ⟨x, hx⟩ : ∃ x, w.getLast? = some x := ⟨_, List.getLast?_eq_some_getLast hne⟩
        have hboth := (List.isChain_append.1 together).2.2 x hx y rfl
        rw [Bool.and_eq_true] at hboth
        have hnot : joins wide y = false := by simpa using hbreak
        rw [hnot] at hboth
        exact absurd hboth.2 Bool.false_ne_true

end Parted

/-! ## The scan

The scan of the pattern stands at the beginning of a word when it finds a number, since the pattern
looks behind. So it goes over the text word by word, as `cardSpans` does. -/

theorem oneWay_digitGroup : OneWay digitGroup.ends := by
  rintro ⟨b, rest⟩
  match rest with
  | [] => simp [digitGroup, ends]
  | [d] => by_cases hd : d.isDigit = true <;> simp [digitGroup, ends, opt, Regex.times, upTo, hd]
  | d :: x :: rest =>
    by_cases hd : d.isDigit = true
    · by_cases hx : x = ' ' ∨ x = '-'
      · -- where the separator is not taken, no digit is next
        have hdigit : x.isDigit = false := by
          rcases hx with rfl | rfl <;> rfl
        simp [digitGroup, ends, opt, Regex.times, upTo, hd, hx, hdigit, Cursor.Behind]
      · simp [digitGroup, ends, opt, Regex.times, upTo, hd, hx]
    · simp [digitGroup, ends, hd]

theorem cards_longestFirst : (cards wide).LongestFirst :=
  (takes_notBehind _).single.seq_longestFirst
    ((longestFirst_rep oneWay_digitGroup 12 (some 6)).seq_takes ((takes_one _).seq (takes_notAhead _)))

/-- The longest card number from a place on, at a break, if there is one. -/
theorem cards_first {ws : List (List Char)} (hws : Parted wide ws) {b : Option Char}
    (hb : b.any (joins wide) = false) (hk : cardWords ws ≠ 0) :
    (cards wide).first ⟨b, (ws.take (cardWords ws)).flatten ++ (ws.drop (cardWords ws)).flatten⟩ =
      some ⟨(ws.take (cardWords ws)).flatten.getLast?.or b, (ws.drop (cardWords ws)).flatten⟩ := by
  have hcard : CardToken (ws.take (cardWords ws)).flatten := Nat.findGreatest_of_ne_zero rfl hk
  refine cards_longestFirst.first_eq_some_iff.2 ⟨matches_cards_iff.2 ⟨hb, ?_, hcard⟩,
    fun w v hsplit hmatches => ?_⟩
  · obtain ⟨w, d, hw, hd⟩ := hcard.getLast?
    have hapart := hws.apart_take (cardWords ws) d (by simp [hw])
    refine (Option.any_eq_false _ _).2 fun y hy => ?_
    simpa [joins_of_isDigit hd] using hapart y hy
  · obtain ⟨-, hbreak, hw⟩ := matches_cards_iff.1 hmatches
    rw [← List.flatten_append, List.take_append_drop] at hsplit
    obtain ⟨k, hk, rfl⟩ := hws.exists_take hsplit hw.ne_nil hbreak
    have hle : k + 1 ≤ cardWords ws := Nat.le_findGreatest hk hw
    obtain ⟨j, hj⟩ := Nat.exists_eq_add_of_le hle
    have htake : ws.take (cardWords ws) = ws.take (k + 1) ++ (ws.drop (k + 1)).take j := by
      rw [hj, List.take_add]
    rw [htake, List.flatten_append, List.length_append]
    exact Nat.le_add_right _ _

/-- There is none where no number of words makes one, -/
theorem cards_missed {ws : List (List Char)} (hws : Parted wide ws) (hk : cardWords ws = 0)
    (b : Option Char) :
    (cards wide).ends ⟨b, ws.flatten⟩ = [] := by
  refine ends_eq_nil_of_not_matches fun w v hsplit hmatches => ?_
  obtain ⟨-, hbreak, hw⟩ := matches_cards_iff.1 hmatches
  obtain ⟨k, hlt, rfl⟩ := hws.exists_take hsplit hw.ne_nil hbreak
  exact Nat.findGreatest_eq_zero_iff.1 hk (Nat.succ_pos k) hlt hw

/-- and none within a word. -/
theorem cards_within {b : Char} {w v : List Char} {ps : List Piece}
    (hw : (b :: w).IsChain fun x y => joins wide x && joins wide y)
    (h : Scans (cards wide) (some b) (w ++ v) ps) : ∃ rest, ps = w.map .kept ++ rest ∧
    Scans (cards wide) ((b :: w).getLast?) v rest := by
  induction w generalizing b ps with
  | nil => exact ⟨ps, rfl, h⟩
  | cons x w ih =>
    have hboth : (joins wide b && joins wide x) = true := (List.isChain_cons_cons.1 hw).1
    have hjoins := (Bool.and_eq_true_iff.1 hboth).1
    have hmissed : (cards wide).ends ⟨some b, x :: (w ++ v)⟩ = [] :=
      ends_eq_nil_of_not_matches fun _ _ _ hmatches => by
        have hb := (matches_cards_iff.1 hmatches).1
        rw [Option.any_some, hjoins] at hb
        cases hb
    obtain ⟨qs, rfl, hbehind⟩ := Scans.of_missed h hmissed
    obtain ⟨rest, rfl, hrest⟩ := ih hw.of_cons hbehind
    exact ⟨rest, rfl, by rwa [List.getLast?_cons_of_ne_nil (List.cons_ne_nil x w)]⟩

/-- Words that belong to a number before are passed. -/
theorem cardSpans_taken (taken n : ℕ) (ws : List (List Char)) : cardSpans taken n ws =
    cardSpans 0 (n + (ws.take taken).flatten.length) (ws.drop taken) := by
  induction taken generalizing n ws with
  | zero => simp
  | succ taken ih =>
    cases ws with
    | nil => simp [cardSpans]
    | cons w ws =>
      rw [cardSpans, ih, List.take_succ_cons, List.flatten_cons, List.length_append, List.drop_succ_cons,
        Nat.add_assoc]

/-- **The scan finds the card numbers of the words.** -/
theorem cutSpans_cards {m : ℕ} {ws : List (List Char)} (hm : ws.length ≤ m) (hws : Parted wide ws)
    {b : Option Char} {ps : List Piece} (hb : ∀ x ∈ b, ∀ y ∈ ws.flatten.head?,
    (joins wide x && joins wide y) = false)
    (h : Scans (cards wide) b ws.flatten ps) (n : ℕ) :
    cutSpans n (ps.flatMap (Piece.tokens isCard)) = cardSpans 0 n ws := by
  induction m generalizing ws b ps n with
  | zero =>
    obtain rfl := List.length_eq_zero_iff.1 (Nat.le_zero.1 hm)
    obtain rfl := Scans.eq_nil h
    rfl
  | succ m ih =>
    cases hws with
    | nil =>
      obtain rfl := Scans.eq_nil h
      rfl
    | @cons w ws nonempty together apart rest =>
      have hws : Parted wide (w :: ws) := .cons nonempty together apart rest
      unfold cardSpans
      dsimp only
      by_cases hk : cardWords (w :: ws) = 0
      · -- no card number begins with the word
        obtain ⟨x, w, rfl⟩ := List.exists_cons_of_ne_nil nonempty
        obtain ⟨qs, rfl, hbehind⟩ := Scans.of_missed h (cards_missed hws hk b)
        obtain ⟨ps, rfl, hlater⟩ := cards_within together hbehind
        have hrest := ih (by simpa using hm) rest apart hlater (n + (x :: w).length)
        rw [hk, List.take_zero, if_neg (by decide), ← hrest, List.flatMap_cons, List.flatMap_append,
          tokens_map_kept]
        have hkept : Piece.tokens isCard (.kept x) ++ (w.map Token.char ++
          ps.flatMap (Piece.tokens isCard)) =
            (x :: w).map .char ++ ps.flatMap (Piece.tokens isCard) := rfl
        rw [hkept, cutSpans_append, cutSpans_chars, List.nil_append, textOf_chars]
      · have hcard : CardToken ((w :: ws).take (cardWords (w :: ws))).flatten :=
          Nat.findGreatest_of_ne_zero rfl hk
        have hbreak : b.any (joins wide) = false := by
          refine (Option.any_eq_false _ _).2 fun x hx => ?_
          obtain ⟨d, u, hu, hd⟩ := hcard.head?
          have hhead : d ∈ (w :: ws).flatten.head? := by
            rw [← List.take_append_drop (cardWords (w :: ws)) (w :: ws), List.flatten_append, hu]
            rfl
          simpa [joins_of_isDigit hd] using hb x hx d hhead
        have hfirst := cards_first hws hbreak hk
        rw [← List.take_append_drop (cardWords (w :: ws)) (w :: ws), List.flatten_append] at h
        obtain ⟨ps, rfl, hbehind⟩ := h.of_first hcard.ne_nil hfirst
        have hpos := Nat.pos_of_ne_zero hk
        have hlength : ((w :: ws).drop (cardWords (w :: ws))).length ≤ m := by
          rw [List.length_drop]
          omega
        rw [Option.or_of_isSome (List.getLast?_isSome.2 hcard.ne_nil)] at hbehind
        have hrest := ih hlength (hws.drop _) (hws.apart_take _) hbehind
          (n + ((w :: ws).take (cardWords (w :: ws))).flatten.length)
        have hlater : cardSpans (cardWords (w :: ws) - 1) (n + w.length) ws =
            cardSpans 0 (n + ((w :: ws).take (cardWords (w :: ws))).flatten.length)
              ((w :: ws).drop (cardWords (w :: ws))) := by
          rw [← cardSpans_taken, ← Nat.sub_add_cancel hpos]
          rfl
        rw [hlater, ← hrest, List.flatMap_cons, cutSpans_append, textOf_taken]
        by_cases haccept : isCard ((w :: ws).take (cardWords (w :: ws))).flatten = true
        · rw [Piece.tokens, if_pos haccept, if_pos haccept]
          rfl
        · rw [Piece.tokens, if_neg haccept, if_neg haccept, cutSpans_chars, List.nil_append]

end ProcessingRedactor

end AdaptiveLlm
