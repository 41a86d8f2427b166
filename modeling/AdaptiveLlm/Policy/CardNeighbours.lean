import AdaptiveLlm.Policy.DigitGroups

set_option autoImplicit false

/-! # Card numbers next to other text

A card number shares its window with the groups of digits next to it, and the checksum is that of the
whole window. So a card number with groups of digits around it is replaced exactly where the words
say so (`Covered`), and one whose neighbours are no digits is always replaced, whatever else stands
before and behind it and whatever the patterns before cut out.

Two ways lead to the exact condition. Where the credential patterns leave the text alone, the words
of the text decide. Where they cut something, the words of what they leave decide, since a cut can
bring groups of digits next to each other or take them apart. A third part needs no words at all:
with neither a digit before the space in front nor behind the space after, no group reaches over, so
the number is always gone. -/

namespace AdaptiveLlm

open Regex Python

namespace ProcessingRedactor

variable {wide : Char → Bool}

/-! ## The passes before

The three patterns of credentials need a letter, so they leave a text of digits alone. -/

/-- Beyond the digits and the signs of a number. -/
abbrev High (c : Char) : Prop := 64 ≤ c.toNat

theorem high_of_ignoreCase {x c : Char} (hc : High c) (h : ignoreCase x = c) : High x := by
  by_contra hlow
  have hx : x.toNat < 64 := Nat.lt_of_not_le hlow
  have hsame : ignoreCase x = x := ignoreCase_eq_self (by omega) (by omega) (by omega) (by omega)
  rw [hsame] at h
  exact hlow (h ▸ hc)

theorem needs_keyword {word : String} {c : Char} (hword : word.toList.head? = some c) (hc : High c) :
    (keyword word).Needs High := by
  obtain ⟨cs, hcs⟩ := List.head?_eq_some_iff.1 hword
  rw [keyword, hcs]
  exact (needs_one fun x hx => high_of_ignoreCase hc (of_decide_eq_true hx)).seq_left _

theorem needs_credentials : (credentials wide).Needs High :=
  ((needs_keyword (c := 'b') rfl (by decide)).seq_left _).seq_right _

theorem needs_secrets : (secrets wide).Needs High := by
  have hnames : secretNames.Needs High :=
    ((needs_keyword (c := 'a') rfl (by decide)).seq_left _).alt
      ((needs_keyword (c := 's') rfl (by decide)).alt ((needs_keyword (c := 'p') rfl (by decide)).alt
        ((needs_keyword (c := 'a') rfl (by decide)).seq_left _)))
  exact (hnames.seq_left _).seq_right _

theorem needs_apiKeys : (apiKeys wide).Needs High := by
  have hfirst : (literal (fun c x => x = c) "sk-".toList).Needs High :=
    (needs_one fun x hx => (of_decide_eq_true hx : x = 's') ▸ (by decide : High 's')).seq_left _
  exact (hfirst.seq_left _).seq_right _

theorem redactPatterns_of_low {text : List Char} (htext : ∀ x ∈ text, ¬High x) :
    redactPatterns wide text = (text, []) := by
  simp [redactPatterns, patterns, Counts.add, subn_of_needs needs_credentials htext,
    subn_of_needs needs_secrets htext, subn_of_needs needs_apiKeys htext]

/-! ## A card number alone -/

theorem head?_redacted : redacted.head? = some '[' := by decide

theorem getLast?_redacted : redacted.getLast? = some ']' := by decide +kernel

theorem not_high_of_isDigit {x : Char} (hx : x.isDigit) : ¬High x := by
  simp only [Char.isDigit, Bool.and_eq_true, decide_eq_true_eq] at hx
  have hle : x.toNat ≤ 57 := UInt32.le_iff_toNat_le.1 hx.2
  unfold High
  omega

theorem high_of_mem_redacted : ∀ x ∈ redacted, High x := by
  have hall : redacted.all (fun x => decide (High x)) = true := by decide +kernel
  exact fun x hx => of_decide_eq_true (List.all_eq_true.1 hall x hx)

namespace CardToken

variable {c : List Char}

theorem not_high (hc : CardToken c) : ∀ x ∈ c, ¬High x := by
  obtain ⟨n, hn, -⟩ := hc
  intro x hx
  rcases mem_of_groupedDigits hn x hx with hx | rfl | rfl
  · exact not_high_of_isDigit hx
  · decide
  · decide

theorem not_mem_redacted (hc : CardToken c) : ∀ x ∈ c, x ∉ redacted :=
  fun x hx hmem => hc.not_high x hx (high_of_mem_redacted x hmem)

theorem infix_of_infix_subn {r : Regex} (hc : CardToken c) (hr : r.TakesSome) {accept : List Char → Bool}
    {text : List Char} (h : c <:+: (r.subn accept redacted text).1) : c <:+: text := by
  have htext := infix_of_infix_written redacted_ne_nil hc.ne_nil hc.not_mem_redacted h
  rwa [textOf_tokens hr] at htext

/-- It is the match where it stands, if no more digits go on behind it. -/
theorem first {b : Option Char} {v : List Char} (hc : CardToken c) (hb : b.any (joins wide) = false)
    (hv : v.head?.any (joins wide) = false)
    (hmore : ∀ y, y <+: v → y ≠ [] → ¬CardToken (c ++ y)) :
    (cards wide).first ⟨b, c ++ v⟩ = some ⟨c.getLast?.or b, v⟩ := by
  refine cards_longestFirst.first_eq_some_iff.2 ⟨matches_cards_iff.2 ⟨hb, hv, hc⟩,
    fun w v' hsplit hmatches => ?_⟩
  obtain ⟨-, -, hw⟩ := matches_cards_iff.1 hmatches
  rcases List.append_eq_append_iff.1 hsplit with ⟨y, rfl, hy⟩ | ⟨y, rfl, -⟩
  · by_cases hnil : y = []
    · simp [hnil]
    · exact absurd hw (hmore y ⟨v', hy.symm⟩ hnil)
  · simp

/-- **Alone it is replaced exactly if it is a card number.** -/
theorem redactText_eq_iff (hc : CardToken c) : (redactText wide c).1 = redacted ↔ isCard c := by
  have hscan : Scans (cards wide) none (c ++ []) ((cards wide).pieces c) := by
    simpa using scans_pieces cards_takesSome c
  obtain ⟨rest, hpieces, hrest⟩ := hscan.of_first hc.ne_nil
    (hc.first rfl rfl fun y hy hne => absurd (List.prefix_nil.1 hy) hne)
  obtain rfl := hrest.eq_nil
  rw [redactText_fst, redactPatterns_of_low hc.not_high, subn, tokens, hpieces,
    List.flatMap_cons, List.flatMap_nil, List.append_nil, written_taken]
  by_cases hcard : isCard c = true
  · simp [hcard]
  · obtain ⟨x, hx⟩ := List.exists_mem_of_ne_nil c hc.ne_nil
    rw [if_neg hcard]
    refine iff_of_false (fun heq => hc.not_mem_redacted x hx ?_) hcard
    rwa [← heq]

end CardToken

/-! ## Groups of digits around it

What the scan finds in the text that the patterns of credentials leave is `cardSpans` of its words.
So the number is gone exactly if each of its places shares a character with a span that is cut. -/

/-- What is left of a card number, by the words of the text that the patterns of credentials leave. -/
theorem infix_redactText_iff {c : List Char} (hc : CardToken c) (text : List Char) :
    ¬c <:+: (redactText wide text).1 ↔ Covered wide c (redactPatterns wide text).1 := by
  rw [redactText_fst, infix_subn_iff cards_takesSome redacted_ne_nil hc.ne_nil hc.not_mem_redacted]
  generalize (redactPatterns wide text).1 = text
  have hspans : cutSpans 0 ((cards wide).tokens isCard text) = cardSpans 0 0 (words wide text) := by
    have hflatten : (words wide text).flatten = text := List.flatten_splitBy _ text
    refine cutSpans_cards (Nat.le_refl _) (parted_words text) (b := none) (by simp) ?_ 0
    rw [hflatten]
    exact scans_pieces cards_takesSome text
  simp only [not_exists, not_and, not_not]
  simp only [overlapped_iff, hspans, Covered]
  constructor
  · rintro hcovered p - ⟨v, hv⟩
    by_cases hp : p ≤ text.length
    · have hplace := hcovered (text.take p) v (by rw [List.append_assoc, hv, List.take_append_drop])
      rwa [List.length_take_of_le hp] at hplace
    · rw [List.drop_eq_nil_of_le (by omega)] at hv
      exact absurd (List.append_eq_nil_iff.1 hv).1 hc.ne_nil
  · rintro hcovered u v rfl
    refine hcovered u.length ?_ ⟨v, by simp⟩
    have hpos := List.length_pos_iff.2 hc.ne_nil
    simp only [List.length_append]
    omega

/-! ## No digits around it

`Alone` says what is needed of the text before and behind: no group of digits can be continued into
the number. Every pass keeps it, as a replacement ends with a bracket. -/

/-- `c` stands alone between `u` and `v`: neither contains it, and no digits of theirs go on in it. -/
structure Alone (wide : Char → Bool) (c u v : List Char) : Prop where
  not_before : ¬c <:+: u
  not_behind : ¬c <:+: v
  apart_before : ∀ y e, y <:+ u → y ≠ [] → e ≠ [] → ¬CardToken (y ++ e)
  apart_behind : ∀ e y, y <+: v → y ≠ [] → e ≠ [] → ¬CardToken (e ++ y)
  break_before : u.getLast?.any (joins wide) = false
  break_behind : v.head?.any (joins wide) = false

namespace Alone

variable {c u v : List Char}

/-- It has no other place there. -/
theorem eq_of_place (h : Alone wide c u v) (hc : CardToken c) {x y : List Char}
    (hplace : u ++ c ++ v = x ++ c ++ y) : x = u := by
  rw [List.append_assoc, List.append_assoc] at hplace
  rcases List.append_eq_append_iff.1 hplace with ⟨e, rfl, hbehind⟩ | ⟨e, rfl, hbefore⟩
  · -- it would begin behind
    by_contra hne
    have he : e ≠ [] := fun hnil => hne (by rw [hnil, List.append_nil])
    rcases List.append_eq_append_iff.1 hbehind with ⟨f, rfl, rfl⟩ | ⟨f, hf, hrest⟩
    · exact h.not_behind ⟨f, y, by simp⟩
    · rcases List.append_eq_append_iff.1 hrest with ⟨g, rfl, -⟩ | ⟨g, hg, rfl⟩
      · have hlength := congrArg List.length hf
        simp only [List.length_append] at hlength
        exact he (List.length_eq_zero_iff.1 (by omega))
      · by_cases hfnil : f = []
        · rw [hfnil, List.nil_append] at hg
          exact h.not_behind ⟨[], y, by rw [hg, List.nil_append]⟩
        · by_cases hgnil : g = []
          · rw [hgnil, List.append_nil] at hg
            have hlength := congrArg List.length hf
            rw [hg, List.length_append] at hlength
            exact he (List.length_eq_zero_iff.1 (by omega))
          · exact h.apart_behind f g (List.prefix_append g y) hgnil hfnil (hg ▸ hc)
  · -- it would begin before
    by_contra hne
    have he : e ≠ [] := fun hnil => hne (by rw [hnil, List.append_nil])
    rcases List.append_eq_append_iff.1 hbefore with ⟨f, rfl, -⟩ | ⟨f, rfl, -⟩
    · exact h.not_before ⟨x, f, by simp⟩
    · by_cases hfnil : f = []
      · exact h.not_before ⟨x, [], by simp [hfnil]⟩
      · exact h.apart_before e f (List.suffix_append x e) he hfnil hc

/-- A replacement that leaves it leaves it alone. -/
theorem subn {r : Regex} {accept : List Char → Bool} (h : Alone wide c u v) (hc : CardToken c)
    (hr : r.TakesSome)
    (hkept : c <:+: (r.subn accept redacted (u ++ c ++ v)).1) :
    ∃ u' v', (r.subn accept redacted (u ++ c ++ v)).1 = u' ++ c ++ v' ∧ Alone wide c u' v' := by
  have htext := textOf_tokens hr accept (u ++ c ++ v)
  rw [Regex.subn] at hkept ⊢
  dsimp only at hkept ⊢
  generalize r.tokens accept (u ++ c ++ v) = ts at hkept htext ⊢
  obtain ⟨u', v', hwritten⟩ := hkept
  obtain ⟨T, T', rfl, rfl, rfl⟩ :=
    chars_of_written_eq redacted_ne_nil hc.ne_nil hc.not_mem_redacted hwritten.symm
  rw [textOf_append, textOf_append, textOf_chars] at htext
  obtain rfl := h.eq_of_place hc htext.symm
  obtain rfl : textOf T' = v := by simpa using htext
  have hnew : ∀ w, CardToken w → ∀ y, y ⊆ w → ∀ x ∈ y, x ∉ redacted := fun w hw y hy x hx =>
    hw.not_mem_redacted x (hy hx)
  refine ⟨_, _, hwritten.symm, ?_, ?_, fun y e hy hne he hcard => ?_, fun e y hy hne he hcard => ?_, ?_, ?_⟩
  · exact fun hc' => h.not_before (infix_of_infix_written redacted_ne_nil hc.ne_nil hc.not_mem_redacted hc')
  · exact fun hc' => h.not_behind (infix_of_infix_written redacted_ne_nil hc.ne_nil hc.not_mem_redacted hc')
  · have hsuffix := suffix_of_suffix_written redacted_ne_nil hne
      (hnew _ hcard y (List.subset_append_left y e)) hy
    exact h.apart_before y e hsuffix hne he hcard
  · have hprefix := prefix_of_prefix_written redacted_ne_nil hne
      (hnew _ hcard y (List.subset_append_right e y)) hy
    exact h.apart_behind e y hprefix hne he hcard
  · rcases List.eq_nil_or_concat T with rfl | ⟨T, token, rfl⟩
    · rfl
    · rw [List.concat_eq_append] at h ⊢
      cases token with
      | char x => simpa using h.break_before
      | cut q =>
        rw [written_append, written_cut_cons, written_nil, List.append_nil,
          List.getLast?_append_of_ne_nil _ redacted_ne_nil, getLast?_redacted]
        rfl
  · cases T' with
    | nil => rfl
    | cons token T' =>
      cases token with
      | char x => exact h.break_behind
      | cut q =>
        rw [written_cut_cons, List.head?_append_of_ne_nil _ redacted_ne_nil, head?_redacted]
        rfl

/-- The patterns of credentials leave it alone, -/
theorem redactPatterns (h : Alone wide c u v) (hc : CardToken c)
    (hkept : c <:+: (redactPatterns wide (u ++ c ++ v)).1) :
    ∃ u' v', (ProcessingRedactor.redactPatterns wide (u ++ c ++ v)).1 = u' ++ c ++ v' ∧
        Alone wide c u' v' := by
  rw [redactPatterns_eq] at hkept ⊢
  dsimp only at hkept ⊢
  have hkept₂ := hc.infix_of_infix_subn needs_apiKeys.takesSome hkept
  have hkept₁ := hc.infix_of_infix_subn needs_secrets.takesSome hkept₂
  obtain ⟨u₁, v₁, h₁, halone₁⟩ := h.subn hc needs_credentials.takesSome hkept₁
  rw [h₁] at hkept hkept₂ ⊢
  obtain ⟨u₂, v₂, h₂, halone₂⟩ := halone₁.subn hc needs_secrets.takesSome hkept₂
  rw [h₂] at hkept ⊢
  exact halone₂.subn hc needs_apiKeys.takesSome hkept

/-- and `_cards` takes it where it stands. -/
theorem tokens_cards (h : Alone wide c u v) (hc : CardToken c) (hcard : isCard c) :
    ∃ T T', (cards wide).tokens isCard (u ++ c ++ v) = T ++ .cut c :: T' ∧ textOf T = u := by
  have hscan : Scans (cards wide) none (u ++ c ++ v) _ := scans_pieces cards_takesSome _
  rw [List.append_assoc] at hscan
  obtain ⟨qs, rest, hpieces, hqs, hrest⟩ := hscan.split fun y e hy _ hyne hene b a hmatches =>
    h.apart_before y e hy hyne hene (matches_cards_iff.1 hmatches).2.2
  obtain ⟨rest, rfl, -⟩ := hrest.of_first hc.ne_nil (hc.first (by simpa using h.break_before) h.break_behind
    fun y hy hne => h.apart_behind c y hy hne hc.ne_nil)
  refine ⟨qs.flatMap (Piece.tokens isCard), rest.flatMap (Piece.tokens isCard), ?_, hqs isCard⟩
  rw [tokens, List.append_assoc, hpieces, List.flatMap_append, List.flatMap_cons,
    Piece.tokens, if_pos hcard]
  rfl

theorem removed (h : Alone wide c u v) (hc : CardToken c) (hcard : isCard c) :
    ¬c <:+: (redactText wide (u ++ c ++ v)).1 := by
  intro hkept
  rw [redactText_fst] at hkept
  obtain ⟨u', v', htext, halone⟩ := h.redactPatterns hc (hc.infix_of_infix_subn cards_takesSome hkept)
  rw [htext, infix_subn_iff cards_takesSome redacted_ne_nil hc.ne_nil hc.not_mem_redacted] at hkept
  obtain ⟨x, y, hplace, hover⟩ := hkept
  obtain rfl := halone.eq_of_place hc hplace
  obtain ⟨T, T', htokens, rfl⟩ := halone.tokens_cards hc hcard
  have hpos := List.length_pos_iff.2 hc.ne_nil
  exact hover ⟨T, c, T', htokens, by omega, by omega⟩

/-- Between spaces that no digit stands next to. -/
theorem of_spaces (hc : CardToken c) {a b : List Char} (ha : a.getLast?.any Char.isDigit = false)
    (hb : b.head?.any Char.isDigit = false) (hnota : ¬c <:+: a) (hnotb : ¬c <:+: b) :
    Alone wide c (a ++ [' ']) (' ' :: b) where
  not_before hinfix := by
    rcases List.infix_concat_iff.1 hinfix with ⟨t, ht⟩ | hinfix
    · obtain ⟨w, d, rfl, hd⟩ := hc.getLast?
      have hlast := congrArg List.getLast? ht
      simp only [← List.append_assoc, List.getLast?_concat, Option.some.injEq] at hlast
      exact absurd hd (hlast ▸ by decide)
    · exact hnota hinfix
  not_behind hinfix := by
    rcases List.infix_cons_iff.1 hinfix with ⟨t, ht⟩ | hinfix
    · obtain ⟨d, w, rfl, hd⟩ := hc.head?
      obtain rfl : d = ' ' := (List.cons.inj ht).1
      exact absurd hd (by decide)
    · exact hnotb hinfix
  apart_before y e hy hne _ hcard := by
    rcases List.suffix_concat_iff.1 hy with rfl | ⟨y, rfl, t, rfl⟩
    · exact hne rfl
    · obtain ⟨n, hn, -⟩ := hcard
      rw [List.append_assoc] at hn
      obtain ⟨⟨x, hx, hdigit⟩, -⟩ := groupedDigits_around_space hn
      rw [List.getLast?_append, Option.mem_def.1 hx, Option.some_or, Option.any_some, hdigit] at ha
      cases ha
  apart_behind e y hy hne _ hcard := by
    rcases List.prefix_cons_iff.1 hy with rfl | ⟨y, rfl, t, rfl⟩
    · exact hne rfl
    · obtain ⟨n, hn, -⟩ := hcard
      obtain ⟨-, x, hx, hdigit⟩ := groupedDigits_around_space hn
      rw [List.head?_append, Option.mem_def.1 hx, Option.some_or, Option.any_some, hdigit] at hb
      cases hb
  break_before := by
    rw [List.getLast?_concat]
    rfl
  break_behind := rfl

end Alone

/-- **A card number is gone exactly when each of its places shares a character with a card number of the
words**: of the text itself where the patterns of credentials leave it, and else of what they leave. With
no digit next to the spaces around it, it is always gone. -/
theorem card_removed_iff {c : List Char} (hc : CardToken c) (hcard : (redactText wide c).1 = redacted)
    (a b : List Char) :
    let text := a ++ ' ' :: c ++ ' ' :: b
    ((redactPatterns wide text).1 = text → (¬c <:+: (redactText wide text).1 ↔ Covered wide c text)) ∧
      (¬c <:+: (redactText wide text).1 ↔ Covered wide c (redactPatterns wide text).1) ∧
      (a.getLast?.any Char.isDigit = false → b.head?.any Char.isDigit = false → ¬c <:+: a → ¬c <:+: b →
        ¬c <:+: (redactText wide text).1) := by
  intro text
  have hiff : ¬c <:+: (redactText wide text).1 ↔ Covered wide c (redactPatterns wide text).1 :=
    infix_redactText_iff hc text
  refine ⟨fun hpatterns => by rwa [hpatterns] at hiff, hiff, fun ha hb hnota hnotb => ?_⟩
  have halone : Alone wide c (a ++ [' ']) (' ' :: b) := .of_spaces hc ha hb hnota hnotb
  have hremoved := halone.removed hc (hc.redactText_eq_iff.1 hcard)
  simpa [text] using hremoved

/-- Between two groups `1` the number makes a card number with them, and is gone; so it is between words. -/
theorem card_between_groups_removed :
    ¬"4111 1111 1111 1111".toList <:+:
        (redactText (fun _ => false) ("1".toList ++ ' ' :: "4111 1111 1111 1111".toList ++
          ' ' :: "1".toList)).1 ∧
      ¬"4111 1111 1111 1111".toList <:+: (redactText (fun _ => false)
        ("password=x, pay 20 by".toList ++ ' ' :: "4111 1111 1111 1111".toList ++ ' ' :: "now".toList)).1 :=
  ⟨((card_removed_iff (by decide +kernel) (by decide +kernel) _ _).1 (by decide +kernel)).2
    (by decide +kernel),
    (card_removed_iff (by decide +kernel) (by decide +kernel) _ _).2.2 (by decide +kernel)
    (by decide +kernel)
      (by decide +kernel) (by decide +kernel)⟩

/-- Behind the group `1` the number is no card, and stays. -/
theorem card_behind_group_survives :
    CardToken "4111 1111 1111 1111".toList ∧
      (redactText (fun _ => false) "4111 1111 1111 1111".toList).1 = redacted ∧
      ¬"4111 1111 1111 1111".toList <:+: "1".toList ∧ ¬"4111 1111 1111 1111".toList <:+: [] ∧
      "4111 1111 1111 1111".toList <:+:
        (redactText (fun _ => false)
          ("1".toList ++ ' ' :: "4111 1111 1111 1111".toList ++ ' ' :: [])).1 := by
  decide +kernel

end ProcessingRedactor

end AdaptiveLlm
