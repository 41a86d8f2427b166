import AdaptiveLlm.Lib.Regex

set_option autoImplicit false

/-! # Substitution

`scan` goes over a text as `re.sub` does: it takes the first match there is where it stands and goes
on behind it, or else keeps a character. What is taken and passes a test is cut out, for a text of its
own. A text that has no character with it in common is in the result exactly where it is in the text
and nothing of it is cut.

What was found is a list of tokens, characters kept and texts cut out, which put together are the
text (`textOf`); `written` is the result. The question of what survives is answered by tokens: a
place in the result that has no character of the replacement is a stretch of kept characters, hence
a place in the text. The other direction needs the place not to be touched by anything that is cut
(`Overlapped`). -/

namespace Regex

/-- What a scan passes: a character that no match begins with, or a match. -/
inductive Piece where
  | kept (x : Char)
  | taken (w : List Char)
  deriving DecidableEq

/-- The pieces from the cursor on, `n` at most. A match of no characters counts as none. -/
def scan (r : Regex) : ℕ → Cursor → List Piece
  | 0, _ => []
  | _ + 1, ⟨_, []⟩ => []
  | n + 1, ⟨b, x :: xs⟩ =>
    match r.first ⟨b, x :: xs⟩ with
    | none => .kept x :: scan r n ⟨some x, xs⟩
    | some d =>
      if d.rest.length ≤ xs.length then
        .taken ((x :: xs).take (xs.length + 1 - d.rest.length)) :: scan r n d
      else .kept x :: scan r n ⟨some x, xs⟩

/-- The pieces of a text. -/
def pieces (r : Regex) (text : List Char) : List Piece := scan r text.length ⟨none, text⟩

/-- What a text falls into: single characters, and the matches that are cut out. -/
inductive Token where
  | char (x : Char)
  | cut (q : List Char)
  deriving DecidableEq

/-- The tokens of a piece, of which those that `accept` says are cut out. -/
def Piece.tokens (accept : List Char → Bool) : Piece → List Token
  | kept x => [.char x]
  | taken w => if accept w then [.cut w] else w.map .char

/-- The tokens of a text. -/
def tokens (r : Regex) (accept : List Char → Bool) (text : List Char) : List Token :=
  (r.pieces text).flatMap (Piece.tokens accept)

/-- The text of tokens, -/
def textOf (ts : List Token) : List Char :=
  ts.flatMap fun
    | .char x => [x]
    | .cut q => q

/-- and what is written for it. -/
def written (s : List Char) (ts : List Token) : List Char :=
  ts.flatMap fun
    | .char x => [x]
    | .cut _ => s

/-- How much is cut out. -/
def cuts (ts : List Token) : ℕ :=
  ts.countP fun
    | .char _ => false
    | .cut _ => true

/-- The text with `s` for what `accept` says of its matches, and how many these are. -/
def subn (r : Regex) (accept : List Char → Bool) (s text : List Char) : List Char × ℕ :=
  (written s (r.tokens accept text), cuts (r.tokens accept text))

/-! ## What a scan finds

`Scans` is the scan as a relation of the rest of a text and its tokens, without fuel. What is taken
is the first match where the scan stands, and it comes there only when no earlier match goes over
the place. -/

/-- The pieces of the text behind `b`. -/
inductive Scans (r : Regex) : Option Char → List Char → List Piece → Prop
  | nil {b : Option Char} : Scans r b [] []
  | kept {b : Option Char} {x : Char} {xs : List Char} {ps : List Piece}
      (missed : r.ends ⟨b, x :: xs⟩ = []) (rest : Scans r (some x) xs ps) :
      Scans r b (x :: xs) (.kept x :: ps)
  | taken {b : Option Char} {w v : List Char} {ps : List Piece} (nonempty : w ≠ [])
      (first : r.first ⟨b, w ++ v⟩ = some ⟨w.getLast?.or b, v⟩) (rest : Scans r (w.getLast?.or b) v ps) :
      Scans r b (w ++ v) (.taken w :: ps)

/-- The pattern takes something. -/
def TakesSome (r : Regex) : Prop := ∀ b a, ¬r.Matches b [] a

theorem takesSome_one (p : Char → Bool) : (one p).TakesSome := by
  rintro b a ⟨x, hx, -⟩
  cases hx

theorem TakesSome.seq_left {r : Regex} (hr : r.TakesSome) (s : Regex) : (seq r s).TakesSome := by
  rintro b a ⟨u, v, hw, hu, -⟩
  obtain ⟨rfl, rfl⟩ := List.append_eq_nil_iff.1 hw.symm
  exact hr _ _ hu

theorem TakesSome.seq_right {s : Regex} (hs : s.TakesSome) (r : Regex) : (seq r s).TakesSome := by
  rintro b a ⟨u, v, hw, -, hv⟩
  obtain ⟨rfl, rfl⟩ := List.append_eq_nil_iff.1 hw.symm
  exact hs _ _ hv

theorem scans_scan {r : Regex} (hr : r.TakesSome) {n : ℕ} {b : Option Char} {text : List Char}
    (hn : text.length ≤ n) : Scans r b text (scan r n ⟨b, text⟩) := by
  induction n generalizing b text with
  | zero =>
    obtain rfl := List.length_eq_zero_iff.1 (Nat.le_zero.1 hn)
    exact .nil
  | succ n ih =>
    cases text with
    | nil => exact .nil
    | cons x xs =>
      have hxs : xs.length ≤ n := by simpa using hn
      unfold scan
      cases hfirst : r.first ⟨b, x :: xs⟩ with
      | none => exact .kept (List.head?_eq_none_iff.1 hfirst) (ih hxs)
      | some d =>
        obtain ⟨w, hw, hM⟩ := (r.finds_ends _ d).1 (List.mem_of_mem_head? hfirst)
        have hne : w ≠ [] := fun hnil => hr _ _ (hnil ▸ hM)
        obtain ⟨d, v⟩ := d
        obtain ⟨hrest, hprev⟩ := hw
        dsimp only at hrest hprev ⊢
        have hlength := congrArg List.length hrest
        have hpos := List.length_pos_iff.2 hne
        simp only [List.length_cons, List.length_append] at hlength
        rw [if_pos (by omega), show xs.length + 1 - v.length = w.length by omega, hrest, List.take_left]
        subst hprev
        refine .taken hne (hrest ▸ hfirst) (ih (by omega))

theorem scans_pieces {r : Regex} (hr : r.TakesSome) (text : List Char) :
    Scans r none text (r.pieces text) := scans_scan hr (Nat.le_refl _)

/-- What is cut out is a match that passes. -/
theorem Scans.of_cut_mem {r : Regex} {b : Option Char} {text : List Char} {ps : List Piece}
    (h : Scans r b text ps) {accept : List Char → Bool} {q : List Char}
    (hq : .cut q ∈ ps.flatMap (Piece.tokens accept)) : q ≠ [] ∧ accept q := by
  induction h with
  | nil => cases hq
  | kept missed rest ih =>
    rw [List.flatMap_cons, List.mem_append] at hq
    rcases hq with hq | hq
    · simp [Piece.tokens] at hq
    · exact ih hq
  | @taken _ w _ _ nonempty _ _ ih =>
    rw [List.flatMap_cons, List.mem_append] at hq
    rcases hq with hq | hq
    · by_cases haccept : accept w = true
      · simp only [Piece.tokens, haccept, if_true, List.mem_singleton, Token.cut.injEq] at hq
        exact hq ▸ ⟨nonempty, haccept⟩
      · simp [Piece.tokens, haccept] at hq
    · exact ih hq

theorem Needs.takesSome {r : Regex} {q : Char → Prop} (hr : r.Needs q) : r.TakesSome := by
  intro b a h
  obtain ⟨x, hx, -⟩ := hr _ _ _ h
  cases hx

/-- What is cut out is a match. -/
theorem Scans.matches_of_cut_mem {r : Regex} {b : Option Char} {text : List Char} {ps : List Piece}
    (h : Scans r b text ps) {accept : List Char → Bool} {q : List Char}
    (hq : .cut q ∈ ps.flatMap (Piece.tokens accept)) : ∃ b a, r.Matches b q a := by
  induction h with
  | nil => cases hq
  | kept missed rest ih =>
    rw [List.flatMap_cons, List.mem_append] at hq
    rcases hq with hq | hq
    · simp [Piece.tokens] at hq
    · exact ih hq
  | @taken b w v _ nonempty first _ ih =>
    rw [List.flatMap_cons, List.mem_append] at hq
    rcases hq with hq | hq
    · by_cases haccept : accept w = true
      · simp only [Piece.tokens, haccept, if_true, List.mem_singleton, Token.cut.injEq] at hq
        exact ⟨b, v.head?, hq ▸ mem_ends_iff.1 (List.mem_of_mem_head? first)⟩
      · simp [Piece.tokens, haccept] at hq
    · exact ih hq

theorem Scans.eq_nil {r : Regex} {b : Option Char} {ps : List Piece} (h : Scans r b [] ps) : ps = [] := by
  generalize htext : [] = text at h
  cases h with
  | nil => rfl
  | kept => cases htext
  | taken nonempty => exact absurd (List.append_eq_nil_iff.1 htext.symm).1 nonempty

/-- A scan of a text that begins with the match from its place. -/
theorem Scans.of_first {r : Regex} {b : Option Char} {w v : List Char} {ps : List Piece}
    (h : Scans r b (w ++ v) ps) (hne : w ≠ [])
    (hfirst : r.first ⟨b, w ++ v⟩ = some ⟨w.getLast?.or b, v⟩) :
    ∃ rest, ps = .taken w :: rest ∧ Scans r (w.getLast?.or b) v rest := by
  generalize htext : w ++ v = text at h hfirst
  cases h with
  | nil => exact absurd (List.append_eq_nil_iff.1 htext).1 hne
  | kept missed _ => simp [first, missed] at hfirst
  | @taken _ w' v' _ _ first' rest =>
    rw [first'] at hfirst
    obtain rfl : v' = v := (Cursor.mk.inj (Option.some.inj hfirst)).2
    obtain rfl := List.append_cancel_right htext
    exact ⟨_, rfl, rest⟩

/-- A scan of a text with no match at its place. -/
theorem Scans.of_missed {r : Regex} {b : Option Char} {x : Char} {v : List Char} {ps : List Piece}
    (h : Scans r b (x :: v) ps) (hmissed : r.ends ⟨b, x :: v⟩ = []) :
    ∃ rest, ps = .kept x :: rest ∧ Scans r (some x) v rest := by
  generalize htext : x :: v = text at h hmissed
  cases h with
  | nil => cases htext
  | kept _ rest =>
    cases htext
    exact ⟨_, rfl, rest⟩
  | taken _ first' _ => simp [first, hmissed] at first'

/-! ## Texts in the result

A substitution is given by the tokens of the text: characters that are kept and matches that are cut
out. What can be found in the result is then found in the text, where it shares no character with
what is written in place of the matches. -/

theorem getLast?_append_or (u w : List Char) (b : Option Char) :
    (u ++ w).getLast?.or b = w.getLast?.or (u.getLast?.or b) := by
  rw [List.getLast?_append, Option.or_assoc]

section Written

variable {s u v w : List Char} {ts ts' : List Token}

@[simp] theorem textOf_nil : textOf [] = [] := rfl

@[simp] theorem written_nil : written s [] = [] := rfl

@[simp] theorem textOf_char_cons (x : Char) : textOf (.char x :: ts) = x :: textOf ts := rfl

@[simp] theorem textOf_cut_cons (q : List Char) : textOf (.cut q :: ts) = q ++ textOf ts := rfl

@[simp] theorem written_char_cons (x : Char) : written s (.char x :: ts) = x :: written s ts := rfl

@[simp] theorem written_cut_cons (q : List Char) : written s (.cut q :: ts) = s ++ written s ts := rfl

@[simp] theorem textOf_append : textOf (ts ++ ts') = textOf ts ++ textOf ts' := List.flatMap_append

@[simp] theorem written_append : written s (ts ++ ts') = written s ts ++ written s ts' :=
  List.flatMap_append

@[simp] theorem textOf_chars (w : List Char) : textOf (w.map .char) = w := by
  simp [textOf, List.flatMap_map]

@[simp] theorem written_chars (w : List Char) : written s (w.map .char) = w := by
  simp [written, List.flatMap_map]

theorem written_taken (s w : List Char) (accept : List Char → Bool) :
    written s (Piece.tokens accept (.taken w)) = if accept w then s else w := by
  by_cases haccept : accept w = true
  · simp [Piece.tokens, haccept, written]
  · simp [Piece.tokens, haccept]

theorem textOf_taken (w : List Char) (accept : List Char → Bool) :
    textOf (Piece.tokens accept (.taken w)) = w := by
  by_cases haccept : accept w = true
  · simp [Piece.tokens, haccept, textOf]
  · simp [Piece.tokens, haccept]

/-- The tokens are those of the text. -/
theorem Scans.textOf_tokens {r : Regex} {b : Option Char} {text : List Char} {ps : List Piece}
    (h : Scans r b text ps) (accept : List Char → Bool) :
    textOf (ps.flatMap (Piece.tokens accept)) = text := by
  induction h with
  | nil => rfl
  | kept _ _ ih => rw [List.flatMap_cons, textOf_append, ih]; rfl
  | taken _ _ _ ih => rw [List.flatMap_cons, textOf_append, ih, textOf_taken]

/-- **A scan comes to every place that no match lies across.** What it finds before is the text up to
    there. -/
theorem Scans.split {r : Regex} {b : Option Char} {ps : List Piece} (h : Scans r b (u ++ v) ps)
    (hacross : ∀ y e, y <:+ u → e <+: v → y ≠ [] → e ≠ [] → ∀ b a, ¬r.Matches b (y ++ e) a) :
    ∃ qs rest, ps = qs ++ rest ∧ (∀ accept, textOf (qs.flatMap (Piece.tokens accept)) = u) ∧
      Scans r (u.getLast?.or b) v rest := by
  generalize htext : u ++ v = text at h
  induction h generalizing u with
  | nil =>
    obtain ⟨rfl, rfl⟩ := List.append_eq_nil_iff.1 htext
    exact ⟨[], [], rfl, fun _ => rfl, .nil⟩
  | @kept b x xs ps missed rest ih =>
    cases u with
    | nil =>
      obtain rfl : v = x :: xs := htext
      exact ⟨[], _, rfl, fun _ => rfl, .kept missed rest⟩
    | cons x' u =>
      rw [List.cons_append, List.cons.injEq] at htext
      obtain ⟨rfl, htext⟩ := htext
      obtain ⟨qs, rest', rfl, hqs, hrest⟩ :=
        ih (fun y e hy => hacross y e (hy.trans (List.suffix_cons x' u))) htext
      refine ⟨.kept x' :: qs, rest', rfl, fun accept => ?_, ?_⟩
      · rw [List.flatMap_cons, textOf_append, hqs]
        rfl
      · rw [← List.singleton_append, getLast?_append_or]
        exact hrest
  | @taken b w v' ps nonempty first rest ih =>
    have hmatches := mem_ends_iff.1 (List.mem_of_mem_head? first)
    rcases List.append_eq_append_iff.1 htext with ⟨e, rfl, rfl⟩ | ⟨u', rfl, rfl⟩
    · -- the match ends behind the place, so it begins there
      by_cases hu : u = []
      · subst hu
        exact ⟨[], _, rfl, fun _ => rfl, .taken nonempty first rest⟩
      by_cases he : e = []
      · subst he
        rw [List.append_nil] at first hmatches rest ih nonempty ⊢
        refine ⟨[.taken u], ps, rfl, fun accept => ?_, rest⟩
        rw [List.flatMap_cons, List.flatMap_nil, List.append_nil, textOf_taken]
      · exact absurd hmatches (hacross u e (List.suffix_refl u) (List.prefix_append e v') hu he _ _)
    · obtain ⟨qs, rest', rfl, hqs, hrest⟩ :=
        ih (fun y e hy => hacross y e (hy.trans (List.suffix_append w u'))) rfl
      refine ⟨.taken w :: qs, rest', rfl, fun accept => ?_, ?_⟩
      · rw [List.flatMap_cons, textOf_append, hqs, textOf_taken]
      · rw [getLast?_append_or]
        exact hrest

theorem chars_of_written_eq_append {y : Char} (hfirst : s.head? = some y) (hy : y ∉ w)
    (h : written s ts = w ++ v) : ∃ T, ts = w.map .char ++ T ∧ written s T = v := by
  induction w generalizing ts with
  | nil => exact ⟨ts, rfl, h⟩
  | cons x xs ih =>
    cases ts with
    | nil => cases h
    | cons token ts =>
      cases token with
      | char y =>
        rw [written_char_cons, List.cons_append, List.cons.injEq] at h
        obtain ⟨rfl, h⟩ := h
        obtain ⟨T, rfl, hT⟩ := ih (fun hmem => hy (List.mem_cons_of_mem _ hmem)) h
        exact ⟨T, rfl, hT⟩
      | cut q =>
        obtain ⟨s, rfl⟩ := List.head?_eq_some_iff.1 hfirst
        rw [written_cut_cons, List.cons_append, List.cons_append, List.cons.injEq] at h
        exact absurd (h.1 ▸ List.mem_cons_self) hy

/-- **What has neither the first nor the last character of `s`, and one that `s` has not,** is in the
    text if it is in the result, and nothing of it is cut. -/
theorem chars_of_written_eq_of_new {y z : Char} (hfirst : s.head? = some y) (hlast : s.getLast? = some z)
    (hy : y ∉ w) (hz : z ∉ w) (hnew : ∃ x ∈ w, x ∉ s) (h : written s ts = u ++ w ++ v) :
    ∃ T T', ts = T ++ w.map .char ++ T' ∧ written s T = u ∧ written s T' = v := by
  obtain ⟨x, hx, hxs⟩ := hnew
  induction ts generalizing u with
  | nil =>
    have hnil := List.append_eq_nil_iff.1 (List.append_eq_nil_iff.1 h.symm).1
    exact absurd hnil.2 (List.ne_nil_of_mem hx)
  | cons token ts ih =>
    cases token with
    | char x' =>
      cases u with
      | nil =>
        obtain ⟨T, hT, hv⟩ := chars_of_written_eq_append hfirst hy h
        exact ⟨[], T, hT, rfl, hv⟩
      | cons y' u =>
        rw [written_char_cons, List.cons_append, List.cons_append, List.cons.injEq] at h
        obtain ⟨rfl, h⟩ := h
        obtain ⟨T, T', rfl, hu, hv⟩ := ih h
        exact ⟨.char x' :: T, T', rfl, by rw [written_char_cons, hu], hv⟩
    | cut q =>
      rw [written_cut_cons, List.append_assoc] at h
      rcases List.append_eq_append_iff.1 h with ⟨u', rfl, hrest⟩ | ⟨more, hs, hrest⟩
      · obtain ⟨T, T', rfl, hu, hv⟩ := ih (hrest.trans (List.append_assoc ..).symm)
        exact ⟨.cut q :: T, T', rfl, by rw [written_cut_cons, hu], hv⟩
      · -- `w` would begin within `s`, and end there or go over its last character
        rcases List.append_eq_append_iff.1 hrest with ⟨more', rfl, -⟩ | ⟨w', hw, -⟩
        · exact absurd (hs ▸ List.mem_append_right u (List.mem_append_left more' hx)) hxs
        · cases more with
          | nil =>
            obtain ⟨T, T', rfl, hu, hv⟩ := @ih [] hrest.symm
            refine ⟨.cut q :: T, T', rfl, ?_, hv⟩
            rw [written_cut_cons, hu, hs, List.append_nil, List.append_nil]
          | cons y' more =>
            rw [hs, List.getLast?_append_of_ne_nil _ (List.cons_ne_nil _ _)] at hlast
            exact absurd (hw ▸ List.mem_append_left w' (List.mem_of_getLast? hlast)) hz

/-- **What is in the result and has no character of `s`** is in the text, and nothing of it is cut. -/
theorem chars_of_written_eq (hs : s ≠ []) (hne : w ≠ []) (hw : ∀ x ∈ w, x ∉ s)
    (h : written s ts = u ++ w ++ v) :
    ∃ T T', ts = T ++ w.map .char ++ T' ∧ written s T = u ∧ written s T' = v := by
  have hnew : ∃ x ∈ w, x ∉ s := by
    obtain ⟨x, hx⟩ := List.exists_mem_of_ne_nil w hne
    exact ⟨x, hx, hw x hx⟩
  exact chars_of_written_eq_of_new (List.head?_eq_some_head hs) (List.getLast?_eq_some_getLast hs)
    (fun hmem => hw _ hmem (List.head_mem hs)) (fun hmem => hw _ hmem (List.getLast_mem hs)) hnew h

theorem infix_of_infix_written (hs : s ≠ []) (hne : w ≠ []) (hnew : ∀ x ∈ w, x ∉ s)
    (h : w <:+: written s ts) : w <:+: textOf ts := by
  obtain ⟨u, v, h⟩ := h
  obtain ⟨T, T', rfl, -, -⟩ := chars_of_written_eq hs hne hnew h.symm
  exact ⟨textOf T, textOf T', by simp⟩

/-- What the result ends with, -/
theorem suffix_of_suffix_written (hs : s ≠ []) (hne : w ≠ []) (hnew : ∀ x ∈ w, x ∉ s)
    (h : w <:+ written s ts) : w <:+ textOf ts := by
  obtain ⟨u, h⟩ := h
  obtain ⟨T, T', rfl, -, hT'⟩ := chars_of_written_eq (v := []) hs hne hnew (by rw [List.append_nil, h])
  have hnil : T' = [] := by
    cases T' with
    | nil => rfl
    | cons token T' =>
      cases token with
      | char x => cases hT'
      | cut q => exact absurd (List.append_eq_nil_iff.1 hT').1 hs
  exact ⟨textOf T, by simp [hnil]⟩

/-- and what it begins with. -/
theorem prefix_of_prefix_written (hs : s ≠ []) (hne : w ≠ []) (hnew : ∀ x ∈ w, x ∉ s)
    (h : w <+: written s ts) : w <+: textOf ts := by
  obtain ⟨v, h⟩ := h
  obtain ⟨T, T', rfl, hT, -⟩ := chars_of_written_eq (u := []) hs hne hnew (by rw [List.nil_append, h])
  have hnil : T = [] := by
    cases T with
    | nil => rfl
    | cons token T =>
      cases token with
      | char x => cases hT
      | cut q => exact absurd (List.append_eq_nil_iff.1 hT).1 hs
  exact ⟨textOf T', by simp [hnil]⟩

/-! ### Overlaps

A text survives a substitution exactly where it stands clear of what is cut out. Overlaps are
counted by positions, so that two ways to find the matches can be compared by the spans that they
cut. -/

/-- What is cut out overlaps `w` behind `u`. -/
def Overlapped (ts : List Token) (u w : List Char) : Prop :=
  ∃ T q T', ts = T ++ .cut q :: T' ∧ u.length < (textOf T).length + q.length ∧
    (textOf T).length < u.length + w.length

/-- Where what is cut out begins, counted from `n` on, and how long it is. -/
def cutSpans : ℕ → List Token → List (ℕ × ℕ)
  | _, [] => []
  | n, .char _ :: ts => cutSpans (n + 1) ts
  | n, .cut q :: ts => (n, q.length) :: cutSpans (n + q.length) ts

theorem cutSpans_append (n : ℕ) (ts ts' : List Token) :
    cutSpans n (ts ++ ts') = cutSpans n ts ++ cutSpans (n + (textOf ts).length) ts' := by
  induction ts generalizing n with
  | nil => rfl
  | cons token ts ih =>
    cases token with
    | char x =>
      rw [List.cons_append, cutSpans, cutSpans, ih, textOf_char_cons, List.length_cons,
        show n + 1 + (textOf ts).length = n + ((textOf ts).length + 1) by omega]
    | cut q =>
      rw [List.cons_append, cutSpans, cutSpans, ih, textOf_cut_cons, List.length_append, List.cons_append,
        Nat.add_assoc]

@[simp] theorem cutSpans_chars (n : ℕ) (w : List Char) : cutSpans n (w.map .char) = [] := by
  induction w generalizing n with
  | nil => rfl
  | cons x w ih => exact ih (n + 1)

theorem mem_cutSpans_iff {span : ℕ × ℕ} {n : ℕ} : span ∈ cutSpans n ts ↔
    ∃ T q T', ts = T ++ .cut q :: T' ∧ span = (n + (textOf T).length, q.length) := by
  constructor
  · intro h
    induction ts generalizing n with
    | nil => cases h
    | cons token ts ih =>
      cases token with
      | char x =>
        obtain ⟨T, q, T', rfl, rfl⟩ := ih h
        refine ⟨.char x :: T, q, T', rfl, ?_⟩
        rw [textOf_char_cons, List.length_cons, Nat.add_right_comm, Nat.add_assoc]
      | cut q =>
        rcases List.mem_cons.1 h with rfl | h
        · exact ⟨[], q, ts, rfl, rfl⟩
        · obtain ⟨T, q', T', rfl, rfl⟩ := ih h
          refine ⟨.cut q :: T, q', T', rfl, ?_⟩
          rw [textOf_cut_cons, List.length_append, Nat.add_assoc]
  · rintro ⟨T, q, T', rfl, rfl⟩
    rw [cutSpans_append, cutSpans]
    exact List.mem_append_right _ List.mem_cons_self

/-- Overlaps, by the spans. -/
theorem overlapped_iff : Overlapped ts u w ↔
    ∃ span ∈ cutSpans 0 ts, u.length < span.1 + span.2 ∧ span.1 < u.length + w.length := by
  constructor
  · rintro ⟨T, q, T', hts, hbefore, hbehind⟩
    refine ⟨_, mem_cutSpans_iff.2 ⟨T, q, T', hts, rfl⟩, ?_, ?_⟩ <;> dsimp only <;> omega
  · rintro ⟨span, hspan, hbefore, hbehind⟩
    obtain ⟨T, q, T', hts, rfl⟩ := mem_cutSpans_iff.1 hspan
    dsimp only at hbefore hbehind
    exact ⟨T, q, T', hts, by omega, by omega⟩

theorem length_textOf_cons (token : Token) (ts : List Token) :
    (textOf (token :: ts)).length = (textOf [token]).length + (textOf ts).length := by
  rw [← List.singleton_append, textOf_append, List.length_append]

theorem overlapped_cons (token : Token) :
    Overlapped (token :: ts) (textOf [token] ++ u) w ↔ Overlapped ts u w := by
  constructor
  · rintro ⟨T, q, T', h, hbefore, hbehind⟩
    rw [List.length_append] at hbefore hbehind
    cases T with
    | nil =>
      rw [List.nil_append, List.cons.injEq] at h
      rw [h.1] at hbefore
      simp only [textOf, List.flatMap_cons, List.flatMap_nil, List.append_nil, List.length_nil] at hbefore
      omega
    | cons token' T =>
      rw [List.cons_append, List.cons.injEq] at h
      obtain ⟨rfl, rfl⟩ := h
      have hlength := length_textOf_cons token T
      exact ⟨T, q, T', rfl, by omega, by omega⟩
  · rintro ⟨T, q, T', rfl, hbefore, hbehind⟩
    have hlength := length_textOf_cons token T
    refine ⟨token :: T, q, T', rfl, ?_, ?_⟩ <;> rw [List.length_append] <;> omega

/-- Characters that are kept are not overlapped. -/
theorem not_overlapped_chars (T T' : List Token) (w : List Char) :
    ¬Overlapped (T ++ w.map .char ++ T') (textOf T) w := by
  induction T with
  | nil =>
    rintro ⟨A, q, B, h, -, hbehind⟩
    rw [List.nil_append] at h
    rcases List.append_eq_append_iff.1 h with ⟨A', rfl, -⟩ | ⟨z, hz, hcut⟩
    · rw [textOf_append, textOf_chars, List.length_append] at hbehind
      simp only [textOf, List.flatMap_nil, List.length_nil] at hbehind
      omega
    · cases z with
      | nil =>
        have hlength := congrArg (fun ts => (textOf ts).length) hz
        simp only [List.append_nil, textOf_chars] at hlength
        simp only [textOf, List.flatMap_nil, List.length_nil] at hbehind hlength
        omega
      | cons token z =>
        rw [List.cons_append, List.cons.injEq] at hcut
        have hmem : Token.cut q ∈ w.map Token.char := by
          rw [hz, hcut.1]
          exact List.mem_append_right _ List.mem_cons_self
        obtain ⟨x, -, hx⟩ := List.mem_map.1 hmem
        cases hx
  | cons token T ih =>
    rw [← List.singleton_append, List.append_assoc, List.append_assoc, textOf_append, List.singleton_append,
      overlapped_cons, ← List.append_assoc]
    exact ih

theorem chars_of_prefix_not_overlapped (hcuts : ∀ q, .cut q ∈ ts → q ≠ []) (h : textOf ts = w ++ v)
    (hover : ¬Overlapped ts [] w) : ∃ T, ts = w.map .char ++ T := by
  induction w generalizing ts with
  | nil => exact ⟨ts, rfl⟩
  | cons x xs ih =>
    cases ts with
    | nil => cases h
    | cons token ts =>
      cases token with
      | char y =>
        rw [textOf_char_cons, List.cons_append, List.cons.injEq] at h
        obtain ⟨rfl, h⟩ := h
        have hrest : ¬Overlapped ts [] xs := by
          rintro ⟨T, q, T', rfl, hbefore, hbehind⟩
          simp only [List.length_nil] at hbefore hbehind
          refine hover ⟨.char y :: T, q, T', rfl, ?_, ?_⟩ <;>
            simp only [textOf_char_cons, List.length_cons, List.length_nil] <;> omega
        obtain ⟨T, rfl⟩ := ih (fun q hq => hcuts q (List.mem_cons_of_mem _ hq)) h hrest
        exact ⟨T, rfl⟩
      | cut q =>
        have hpos := List.length_pos_iff.2 (hcuts q List.mem_cons_self)
        exact absurd ⟨[], q, ts, rfl, by simpa [textOf] using hpos, by simp [textOf]⟩ hover

/-- What no cut overlaps is kept. -/
theorem chars_of_not_overlapped (hcuts : ∀ q, .cut q ∈ ts → q ≠ []) (hne : w ≠ [])
    (h : textOf ts = u ++ w ++ v) (hover : ¬Overlapped ts u w) :
    ∃ T T', ts = T ++ w.map .char ++ T' ∧ textOf T = u := by
  induction ts generalizing u with
  | nil =>
    have hnil := List.append_eq_nil_iff.1 (List.append_eq_nil_iff.1 h.symm).1
    exact absurd hnil.2 hne
  | cons token ts ih =>
    by_cases hu : u = []
    · subst hu
      obtain ⟨T', hT'⟩ := chars_of_prefix_not_overlapped hcuts h hover
      exact ⟨[], T', hT', rfl⟩
    have hrest : ∀ q, Token.cut q ∈ ts → q ≠ [] := fun q hq => hcuts q (List.mem_cons_of_mem _ hq)
    -- the token is before `w`
    have hbefore : ∃ u', u = textOf [token] ++ u' := by
      have hupos := List.length_pos_iff.2 hu
      have hwpos := List.length_pos_iff.2 hne
      rw [← List.singleton_append, textOf_append, List.append_assoc] at h
      rcases List.append_eq_append_iff.1 h with ⟨u', hu', -⟩ | ⟨z, hz, -⟩
      · exact ⟨u', hu'⟩
      · have hlength := congrArg List.length hz
        rw [List.length_append] at hlength
        have hz0 : z.length = 0 := by
          cases token with
          | char x =>
            simp only [textOf, List.flatMap_cons, List.flatMap_nil, List.append_nil, List.length_singleton]
              at hlength
            omega
          | cut q =>
            by_contra hzpos
            refine hover ⟨[], q, ts, rfl, ?_,
              by simp only [textOf, List.flatMap_nil, List.length_nil]; omega⟩
            simp only [textOf, List.flatMap_cons, List.flatMap_nil, List.append_nil,
              List.length_nil] at hlength ⊢
            omega
        obtain rfl := List.length_eq_zero_iff.1 hz0
        exact ⟨[], by rw [hz, List.append_nil, List.append_nil]⟩
    obtain ⟨u', rfl⟩ := hbefore
    obtain ⟨T, T', rfl, hT⟩ := ih hrest (by
      rw [← List.singleton_append, textOf_append, List.append_assoc, List.append_assoc,
        List.append_cancel_left_eq] at h
      rw [h, List.append_assoc]) fun hover' => hover ((overlapped_cons token).2 hover')
    exact ⟨token :: T, T', rfl, by rw [← List.singleton_append, textOf_append, hT]⟩

/-- **What survives.** A text that has no character of `s` is in the result if and only if it is in the
    text with nothing that is cut out over it. -/
theorem infix_written_iff (hcuts : ∀ q, .cut q ∈ ts → q ≠ []) (hs : s ≠ []) (hne : w ≠ [])
    (hw : ∀ x ∈ w, x ∉ s) :
    w <:+: written s ts ↔ ∃ u v, textOf ts = u ++ w ++ v ∧ ¬Overlapped ts u w := by
  constructor
  · rintro ⟨u, v, h⟩
    obtain ⟨T, T', rfl, -, -⟩ := chars_of_written_eq hs hne hw h.symm
    exact ⟨textOf T, textOf T', by simp, not_overlapped_chars T T' w⟩
  · rintro ⟨u, v, h, hover⟩
    obtain ⟨T, T', rfl, -⟩ := chars_of_not_overlapped hcuts hne h hover
    exact ⟨written s T, written s T', by simp⟩

theorem textOf_tokens {r : Regex} (hr : r.TakesSome) (accept : List Char → Bool) (text : List Char) :
    textOf (r.tokens accept text) = text := (scans_pieces hr text).textOf_tokens accept

theorem infix_subn_iff {r : Regex} (hr : r.TakesSome) {accept : List Char → Bool} {text : List Char}
    (hs : s ≠ []) (hne : w ≠ []) (hw : ∀ x ∈ w, x ∉ s) :
    w <:+: (r.subn accept s text).1 ↔
      ∃ u v, text = u ++ w ++ v ∧ ¬Overlapped (r.tokens accept text) u w := by
  have hcuts : ∀ q, .cut q ∈ r.tokens accept text → q ≠ [] := fun q hq =>
    ((scans_pieces hr text).of_cut_mem hq).1
  have hiff := infix_written_iff hcuts hs hne hw
  rw [textOf_tokens hr] at hiff
  exact hiff

@[simp] theorem cuts_chars (w : List Char) : cuts (w.map .char) = 0 := by
  simp [cuts, List.countP_map]

/-- Nothing is cut out of what has no character that the pattern needs. -/
theorem Scans.tokens_of_needs {r : Regex} {q : Char → Prop} (hr : r.Needs q) {b : Option Char}
    {text : List Char} {ps : List Piece} (h : Scans r b text ps) (htext : ∀ x ∈ text, ¬q x)
    (accept : List Char → Bool) : ps.flatMap (Piece.tokens accept) = text.map .char := by
  induction h with
  | nil => rfl
  | kept _ _ ih =>
    rw [List.flatMap_cons, ih fun x hx => htext x (List.mem_cons_of_mem _ hx)]
    rfl
  | @taken b w v _ _ first _ _ =>
    obtain ⟨x, hx, hq⟩ := hr _ _ _ (mem_ends_iff.1 (List.mem_of_mem_head? first))
    exact absurd hq (htext x (List.mem_append_left v hx))

theorem subn_of_needs {r : Regex} {q : Char → Prop} (hr : r.Needs q) {text : List Char}
    (htext : ∀ x ∈ text, ¬q x) (accept : List Char → Bool) : r.subn accept s text = (text, 0) := by
  have htokens : r.tokens accept text = text.map .char :=
    (scans_pieces hr.takesSome text).tokens_of_needs hr htext accept
  rw [subn, htokens, written_chars, cuts_chars]

/-- What is written has only characters of the text and of `s`. -/
theorem mem_written {x : Char} (h : x ∈ written s ts) : x ∈ textOf ts ∨ x ∈ s := by
  induction ts with
  | nil => cases h
  | cons token ts ih =>
    cases token with
    | char y =>
      rw [written_char_cons, List.mem_cons] at h
      rw [textOf_char_cons, List.mem_cons]
      rcases h with h | h
      · exact .inl (.inl h)
      · exact (ih h).imp_left .inr
    | cut q =>
      rw [written_cut_cons, List.mem_append] at h
      rw [textOf_cut_cons, List.mem_append]
      rcases h with h | h
      · exact .inr h
      · exact (ih h).imp_left .inr

theorem chars_of_cuts_eq_zero (h : cuts ts = 0) : ts = (textOf ts).map .char := by
  induction ts with
  | nil => rfl
  | cons token ts ih =>
    cases token with
    | char y =>
      have hrest : cuts ts = 0 := by simpa [cuts] using h
      rw [textOf_char_cons, List.map_cons, ← ih hrest]
    | cut q => simp [cuts] at h

/-- Where nothing is cut out, the text stays. -/
theorem subn_fst_of_snd {r : Regex} (hr : r.TakesSome) {accept : List Char → Bool} {text : List Char}
    (h : (r.subn accept s text).2 = 0) : (r.subn accept s text).1 = text := by
  have htokens := chars_of_cuts_eq_zero h
  rw [textOf_tokens hr] at htokens
  rw [subn, htokens, written_chars]

theorem length_written (s : List Char) (ts : List Token) :
    (written s ts).length + cuts ts = cuts ts * s.length + ts.length := by
  induction ts with
  | nil => simp [written, cuts]
  | cons token ts ih =>
    cases token with
    | char y =>
      have hcuts : cuts (.char y :: ts) = cuts ts := by simp [cuts]
      rw [hcuts, written_char_cons, List.length_cons, List.length_cons]
      omega
    | cut q =>
      have hcuts : cuts (.cut q :: ts) = cuts ts + 1 := by simp [cuts]
      rw [hcuts, written_cut_cons, List.length_append, List.length_cons, Nat.add_mul]
      omega

/-- What is written has fewer of the characters that `s` has not, by those that are cut out. -/
theorem countP_written {p : Char → Bool} {k : ℕ} (hs : s.countP p = 0)
    (hcuts : ∀ q, .cut q ∈ ts → k ≤ q.countP p) :
    (written s ts).countP p + k * cuts ts ≤ (textOf ts).countP p := by
  induction ts with
  | nil => simp [cuts]
  | cons token ts ih =>
    have ih := ih fun q hq => hcuts q (List.mem_cons_of_mem _ hq)
    cases token with
    | char x =>
      have hzero : cuts (.char x :: ts) = cuts ts := by simp [cuts]
      rw [hzero, written_char_cons, textOf_char_cons, List.countP_cons, List.countP_cons]
      omega
    | cut q =>
      have hone : cuts (.cut q :: ts) = cuts ts + 1 := by simp [cuts]
      have hq := hcuts q List.mem_cons_self
      rw [hone, written_cut_cons, textOf_cut_cons, List.countP_append, List.countP_append, hs, Nat.mul_succ]
      omega

theorem eq_nil_of_textOf_eq_nil (hcuts : ∀ q, .cut q ∈ ts → q ≠ []) (h : textOf ts = []) : ts = [] := by
  cases ts with
  | nil => rfl
  | cons token ts =>
    cases token with
    | char x => cases h
    | cut q => exact absurd (List.append_eq_nil_iff.1 h).1 (hcuts q List.mem_cons_self)

/-- A text that becomes `s` by one replacement is cut out whole. -/
theorem eq_cut_of_written (h : written s ts = s) (hcuts : cuts ts = 1) : ∃ q, ts = [.cut q] := by
  have hlength := length_written s ts
  rw [h, hcuts] at hlength
  obtain ⟨token, rfl⟩ := List.length_eq_one_iff.1 (by omega : ts.length = 1)
  cases token with
  | char x => simp [cuts] at hcuts
  | cut q => exact ⟨q, rfl⟩

/-- One match is the whole text. -/
theorem matches_of_subn {r : Regex} (hr : r.TakesSome) {accept : List Char → Bool} {text : List Char}
    (h : r.subn accept s text = (s, 1)) : (∃ b a, r.Matches b text a) ∧ accept text := by
  obtain ⟨q, hq⟩ := eq_cut_of_written (congrArg Prod.fst h) (congrArg Prod.snd h)
  have htext := textOf_tokens hr accept text
  rw [hq] at htext
  obtain rfl : q = text := by simpa [textOf] using htext
  have hmem : .cut q ∈ r.tokens accept q := hq ▸ List.mem_singleton_self _
  exact ⟨(scans_pieces hr q).matches_of_cut_mem hmem, ((scans_pieces hr q).of_cut_mem hmem).2⟩

end Written

/-! ## Behind characters that are kept -/

/-- A scan over characters that no match begins with. -/
theorem Scans.of_unbegun {r : Regex} {b : Option Char} {s v : List Char} {ps : List Piece}
    (hs : ∀ x ∈ s, ∀ b v, r.ends ⟨b, x :: v⟩ = [])
    (h : Scans r b (s ++ v) ps) : ∃ rest, ps = s.map .kept ++ rest ∧ Scans r (s.getLast?.or b) v rest := by
  induction s generalizing b ps with
  | nil => exact ⟨ps, rfl, h⟩
  | cons x s ih =>
    obtain ⟨ps', rfl, h'⟩ := h.of_missed (hs x List.mem_cons_self b _)
    obtain ⟨rest, rfl, hrest⟩ := ih (fun y hy => hs y (List.mem_cons_of_mem x hy)) h'
    refine ⟨rest, rfl, ?_⟩
    rw [← List.singleton_append, getLast?_append_or]
    exact hrest

@[simp] theorem tokens_map_kept (accept : List Char → Bool) (s : List Char) :
    (s.map Piece.kept).flatMap (Piece.tokens accept) = s.map .char := by
  rw [List.flatMap_map]
  exact List.map_eq_flatMap.symm

/-- One match behind such characters is all that is replaced. -/
theorem subn_replicate {r : Regex} (hr : r.TakesSome) {x : Char}
    (hx : ∀ b v, r.ends ⟨b, x :: v⟩ = []) {k : ℕ} {w : List Char} (hne : w ≠ []) (s : List Char)
    (hfirst : r.first ⟨if k = 0 then none else some x, w⟩ =
      some ⟨w.getLast?.or (if k = 0 then none else some x), []⟩) :
    (r.subn (fun _ => true) s (List.replicate k x ++ w)).1 = List.replicate k x ++ s := by
  have hmissed : ∀ y ∈ List.replicate k x, ∀ b v, r.ends ⟨b, y :: v⟩ = [] := by
    intro y hy
    rw [List.eq_of_mem_replicate hy]
    exact hx
  obtain ⟨rest, hpieces, hrest⟩ := (scans_pieces hr (List.replicate k x ++ w)).of_unbegun hmissed
  rw [Option.or_none, List.getLast?_replicate, ← List.append_nil w] at hrest
  rw [← List.append_nil w] at hfirst
  obtain ⟨rest', rfl, hend⟩ := hrest.of_first hne (by simpa using hfirst)
  obtain rfl := hend.eq_nil
  have htaken : written s (Piece.tokens (fun _ => true) (.taken w)) = s := by rw [written_taken, if_pos rfl]
  rw [subn, tokens, hpieces, List.flatMap_append, tokens_map_kept, List.flatMap_cons, List.flatMap_nil,
    List.append_nil, written_append, written_chars, htaken]

end Regex
