import AdaptiveLlm.Policy.CardNeighbours
import AdaptiveLlm.Policy.PersistenceRedaction
import Mathlib.Data.List.SplitBy

set_option autoImplicit false

/-! # Phone numbers next to each other

`_phones` admits spaces, so numbers with spaces between them share one window, up to the next one with a
`+`: a run of them. A window with more than 15 digits is no phone number, and is kept as a whole. Before
it `_cards` has gone over the same text. Runs of at most 15 digits are gone after both, whatever the cards
take of them, and where they take nothing no other runs are.

The proof reduces a text to its runs, since neither pass crosses a space with a plus behind it.
Within a run the pass over the phones takes everything as one window, if the pass over the cards has
left it as it was. If it has not, what is left of a run with at most 15 digits has too few of them
to be a number. The other direction is exact where the cards take nothing: then a run with more than
15 digits is one window that is kept. -/

namespace AdaptiveLlm

open Regex Python

namespace LocalPersistenceRedactor

open ProcessingRedactor (CardToken High cards cards_takesSome isCard joins)

variable (wide : Char → Bool)

/-! ## What the pattern takes -/

/-- An area code in parentheses or a digit, with or without a plus. -/
def Begins (w : List Char) : Prop :=
  ∃ core, (w = core ∨ w = '+' :: core) ∧
    ((∃ d, core = [d] ∧ d.isDigit) ∨
      ∃ ds, core = '(' :: ds ++ [')'] ∧ 2 ≤ ds.length ∧ ds.length ≤ 4 ∧ ∀ x ∈ ds, x.isDigit)

/-- A text of the form of a phone number. -/
def Number (w : List Char) : Prop :=
  ∃ start mid d, w = start ++ mid ++ [d] ∧ Begins start ∧ 5 ≤ mid.length ∧ (∀ x ∈ mid, isInner x) ∧
    d.isDigit

variable {wide} {b a : Option Char} {w : List Char}

theorem matches_areaCode_iff : areaCode.Matches b w a ↔
    ∃ ds, w = '(' :: ds ++ [')'] ∧ 2 ≤ ds.length ∧ ds.length ≤ 4 ∧ ∀ x ∈ ds, x.isDigit := by
  constructor
  · rintro ⟨_, _, rfl, ⟨x, rfl, hx⟩, ds, _, rfl, hds, y, rfl, hy⟩
    obtain ⟨hleast, hmost, hall⟩ := matches_rep_one_iff.1 hds
    obtain rfl := of_decide_eq_true hx
    obtain rfl := of_decide_eq_true hy
    exact ⟨ds, rfl, hleast, hmost 2 rfl, hall⟩
  · rintro ⟨ds, rfl, hleast, hmost, hall⟩
    refine ⟨['('], ds ++ [')'], rfl, ⟨_, rfl, by decide⟩, ds, [')'], rfl,
      matches_rep_one_iff.2 ⟨hleast, ?_, hall⟩, _, rfl, by decide⟩
    rintro k ⟨⟩
    exact hmost

theorem matches_phoneStart_iff : (phoneStart wide).Matches b w a ↔
    b.any (joins wide) = false ∧ Begins w := by
  constructor
  · rintro ⟨_, w, rfl, ⟨rfl, hb⟩, sign, core, rfl, hsign, hcore⟩
    obtain ⟨-, hone, hplus⟩ := matches_rep_one_iff.1 hsign
    refine ⟨hb, core, ?_, ?_⟩
    · match sign with
      | [] => exact .inl rfl
      | [x] =>
        obtain rfl := of_decide_eq_true (hplus x List.mem_cons_self)
        exact .inr rfl
      | _ :: _ :: _ => simp at hone
    · rcases hcore with hcore | hcore
      · exact .inr (matches_areaCode_iff.1 hcore)
      · exact .inl hcore
  · rintro ⟨hb, core, hw, hcore⟩
    refine ⟨[], w, rfl, ⟨rfl, hb⟩, ?_⟩
    have hmatches : ∀ b, (alt areaCode (one Char.isDigit)).Matches b core a := fun b => by
      rcases hcore with hcore | hcore
      · exact .inr hcore
      · exact .inl (matches_areaCode_iff.2 hcore)
    rcases hw with rfl | rfl
    · exact ⟨[], _, rfl, matches_rep_one_iff.2 (by simp), hmatches _⟩
    · exact ⟨['+'], _, rfl, matches_rep_one_iff.2 (by simp), hmatches _⟩

/-- **What `_phones` takes**, and between what. -/
theorem matches_phones_iff : (phones wide).Matches b w a ↔
    b.any (joins wide) = false ∧ a.any (isWord wide) = false ∧ Number w := by
  constructor
  · rintro ⟨start, _, rfl, hstart, mid, _, rfl, hmid, _, _, rfl, ⟨d, rfl, hd⟩, rfl, ha⟩
    obtain ⟨hb, hbegins⟩ := matches_phoneStart_iff.1 hstart
    obtain ⟨hleast, -, hall⟩ := matches_rep_one_iff.1 hmid
    exact ⟨hb, ha, start, mid, d, by simp, hbegins, hleast, hall, hd⟩
  · rintro ⟨hb, ha, start, mid, d, rfl, hbegins, hleast, hall, hd⟩
    refine ⟨start, mid ++ [d], by simp, matches_phoneStart_iff.2 ⟨hb, hbegins⟩, mid, [d], rfl,
      matches_rep_one_iff.2 ⟨hleast, nofun, hall⟩, [d], [], rfl, ⟨d, rfl, hd⟩, rfl, ha⟩

/-! ## Numbers

The form of a phone number apart from the count of its digits. It is closed under joining with a
space, as long as the second has no plus, which is why neighbours fall into one window. -/

theorem Begins.split (h : Begins w) : ∃ sign core, w = sign ++ core ∧ (sign = [] ∨ sign = ['+']) ∧
    (∀ x ∈ core, isInner x) ∧ ∃ x rest, core = x :: rest ∧ x ≠ ' ' ∧ x ≠ '+' := by
  obtain ⟨core, hw, hcore⟩ := h
  have hdigit : ∀ x : Char, x.isDigit → isInner x ∧ x ≠ ' ' ∧ x ≠ '+' := by
    intro x hx
    refine ⟨by simp [isInner, hx], ?_, ?_⟩
    · rintro rfl
      exact absurd hx (by decide)
    · rintro rfl
      exact absurd hx (by decide)
  have hclass : (∀ x ∈ core, isInner x) ∧ ∃ x rest, core = x :: rest ∧ x ≠ ' ' ∧ x ≠ '+' := by
    rcases hcore with ⟨d, rfl, hd⟩ | ⟨ds, rfl, -, -, hds⟩
    · exact ⟨by simpa using (hdigit d hd).1, d, [], rfl, (hdigit d hd).2⟩
    · refine ⟨fun x hx => ?_, '(', ds ++ [')'], rfl, by decide, by decide⟩
      simp only [List.cons_append, List.mem_cons, List.mem_append, List.not_mem_nil, or_false] at hx
      rcases hx with rfl | hx | rfl
      · rfl
      · exact (hdigit x (hds x hx)).1
      · rfl
  rcases hw with rfl | rfl
  · exact ⟨[], _, rfl, .inl rfl, hclass⟩
  · exact ⟨['+'], core, rfl, .inr rfl, hclass⟩

namespace Number

theorem split (h : Number w) : ∃ sign core, w = sign ++ core ∧ (sign = [] ∨ sign = ['+']) ∧
    (∀ x ∈ core, isInner x) ∧ ∃ x rest, core = x :: rest ∧ x ≠ ' ' ∧ x ≠ '+' := by
  obtain ⟨start, mid, d, rfl, hbegins, -, hmid, hd⟩ := h
  obtain ⟨sign, core, rfl, hsign, hcore, x, rest, rfl, hx⟩ := hbegins.split
  refine ⟨sign, x :: (rest ++ mid ++ [d]), by simp, hsign, fun y hy => ?_, x, _, rfl, hx⟩
  simp only [List.mem_cons, List.mem_append, List.not_mem_nil, or_false] at hy
  rcases hy with rfl | (hy | hy) | rfl
  · exact hcore y List.mem_cons_self
  · exact hcore y (List.mem_cons_of_mem x hy)
  · exact hmid y hy
  · simp [isInner, hd]

theorem ne_nil (h : Number w) : w ≠ [] := by
  obtain ⟨start, mid, d, rfl, -⟩ := h
  simp

theorem head?_ne_space (h : Number w) : w.head? ≠ some ' ' := by
  obtain ⟨sign, core, rfl, rfl | rfl, -, x, rest, rfl, hx, -⟩ := h.split
  · simpa using hx
  · simp

/-- A plus stands in front only. -/
theorem isInner_of_mem_tail (h : Number w) : ∀ x ∈ w.tail, isInner x := by
  obtain ⟨sign, core, rfl, rfl | rfl, hcore, -⟩ := h.split
  · exact fun x hx => hcore x (List.mem_of_mem_tail hx)
  · exact hcore

theorem isInner_of_mem (h : Number w) (hplus : w.head? ≠ some '+') : ∀ x ∈ w, isInner x := by
  obtain ⟨sign, core, rfl, rfl | rfl, hcore, -⟩ := h.split
  · exact hcore
  · exact absurd rfl hplus

theorem getLast?_isDigit (h : Number w) : ∃ d, w.getLast? = some d ∧ d.isDigit := by
  obtain ⟨start, mid, d, rfl, -, -, -, hd⟩ := h
  exact ⟨d, by simp, hd⟩

/-- A number and more of its characters, up to a digit, have the form of a number. -/
theorem extend {u : List Char} {d : Char} (h : Number w) (hu : ∀ x ∈ u, isInner x)
    (hlast : u.getLast? = some d)
    (hd : d.isDigit) : Number (w ++ u) := by
  obtain ⟨start, mid, d', rfl, hbegins, hleast, hmid, hd'⟩ := h
  obtain ⟨u, rfl⟩ := List.getLast?_eq_some_iff.1 hlast
  refine ⟨start, mid ++ d' :: u, d, by simp, hbegins, ?_, fun x hx => ?_, hd⟩
  · rw [List.length_append]
    omega
  · rcases List.mem_append.1 hx with hx | hx
    · exact hmid x hx
    · rcases List.mem_cons.1 hx with rfl | hx
      · simp [isInner, hd']
      · exact hu x (List.mem_append_left _ hx)

/-- A number and one without a plus, with a space between them, have the form of a number. -/
theorem append {t u : List Char} (ht : Number t) (hu : Number u) (hplus : u.head? ≠ some '+') :
    Number (t ++ ' ' :: u) := by
  obtain ⟨d, hlast, hd⟩ := hu.getLast?_isDigit
  refine ht.extend (fun x hx => ?_) ((List.getLast?_cons_of_ne_nil hu.ne_nil).trans hlast) hd
  rcases List.mem_cons.1 hx with rfl | hx
  · rfl
  · exact hu.isInner_of_mem hplus x hx

end Number

/-- `" ".join`. -/
def spaced (ts : List (List Char)) : List Char := [' '].intercalate ts

theorem spaced_cons_cons (t u : List Char) (ts : List (List Char)) :
    spaced (t :: u :: ts) = t ++ ' ' :: spaced (u :: ts) := by
  simp [spaced, List.intercalate_cons_cons]

theorem head?_spaced {t : List Char} (ht : t ≠ []) (ts : List (List Char)) :
    (spaced (t :: ts)).head? = t.head? := by
  cases ts with
  | nil => simp [spaced]
  | cons u ts => rw [spaced_cons_cons, List.head?_append_of_ne_nil _ ht]

theorem spaced_append {ts us : List (List Char)} (hts : ts ≠ []) (hus : us ≠ []) :
    spaced (ts ++ us) = spaced ts ++ ' ' :: spaced us := by
  induction ts with
  | nil => exact absurd rfl hts
  | cons t ts ih =>
    cases ts with
    | nil =>
      obtain ⟨u, us, rfl⟩ := List.exists_cons_of_ne_nil hus
      rw [List.singleton_append, spaced_cons_cons]
      simp [spaced]
    | cons t' ts =>
      rw [List.cons_append, List.cons_append, spaced_cons_cons, ← List.cons_append,
        ih (List.cons_ne_nil _ _), spaced_cons_cons, List.append_assoc, List.cons_append]

/-- Joining what has been joined. -/
theorem spaced_map_spaced {gs : List (List (List Char))} (hgs : ∀ g ∈ gs, g ≠ []) :
    spaced (gs.map spaced) = spaced gs.flatten := by
  induction gs with
  | nil => rfl
  | cons g gs ih =>
    cases gs with
    | nil => simp [spaced]
    | cons g' gs =>
      have hrest : (g' :: gs).flatten ≠ [] := by
        simp [hgs g' (List.mem_cons_of_mem g List.mem_cons_self)]
      rw [List.map_cons, List.map_cons, spaced_cons_cons, ← List.map_cons,
        ih fun g hg => hgs g (List.mem_cons_of_mem _ hg)]
      exact (spaced_append (hgs g List.mem_cons_self) hrest).symm

theorem mem_spaced {x : Char} {ts : List (List Char)} (h : x ∈ spaced ts) : x = ' ' ∨ ∃ t ∈ ts, x ∈ t := by
  induction ts with
  | nil => cases h
  | cons t ts ih =>
    cases ts with
    | nil => exact .inr ⟨t, List.mem_cons_self, by simpa [spaced] using h⟩
    | cons u ts =>
      rw [spaced_cons_cons, List.mem_append, List.mem_cons] at h
      rcases h with h | h | h
      · exact .inr ⟨t, List.mem_cons_self, h⟩
      · exact .inl h
      · exact (ih h).imp_right fun ⟨v, hv, hx⟩ => ⟨v, List.mem_cons_of_mem t hv, hx⟩

theorem infix_spaced {t : List Char} {ts : List (List Char)} (h : t ∈ ts) : t <:+: spaced ts := by
  induction ts with
  | nil => cases h
  | cons u ts ih =>
    cases ts with
    | nil =>
      obtain rfl := List.mem_singleton.1 h
      simp [spaced]
    | cons v ts =>
      rw [spaced_cons_cons]
      rcases List.mem_cons.1 h with rfl | h
      · exact (List.prefix_append t _).isInfix
      · exact (ih h).trans ((List.suffix_cons ' ' _).trans (List.suffix_append u _)).isInfix

theorem countP_spaced (ts : List (List Char)) :
    (spaced ts).countP Char.isDigit = ts.flatten.countP Char.isDigit := by
  induction ts with
  | nil => rfl
  | cons t ts ih =>
    cases ts with
    | nil => simp [spaced]
    | cons u ts =>
      rw [spaced_cons_cons, List.countP_append, List.countP_cons_of_neg (by decide), ih]
      exact List.countP_append.symm

/-- Numbers of which only the first may have a plus have the form of one number. -/
theorem number_spaced {t : List Char} {ts : List (List Char)} (ht : Number t)
    (hts : ∀ u ∈ ts, Number u ∧ u.head? ≠ some '+') : Number (spaced (t :: ts)) := by
  induction ts generalizing t with
  | nil => simpa [spaced] using ht
  | cons u ts ih =>
    obtain ⟨hu, hplus⟩ := hts u List.mem_cons_self
    rw [spaced_cons_cons]
    refine ht.append (ih hu fun v hv => hts v (List.mem_cons_of_mem u hv)) ?_
    rwa [head?_spaced hu.ne_nil]

/-! ## Which match it takes -/

theorem areaCode_single : areaCode.Single := by
  have hdigits := (longestFirst_rep (oneWay_one Char.isDigit) 2 (some 2)).seq_takes
    (takes_one fun c => c = ')')
  refine ((takes_one fun c => c = '(').single.seq_longestFirst hdigits).single ?_
  intro b w v w' v' hsplit hw hw'
  obtain ⟨ds, rfl, -, -, hds⟩ := matches_areaCode_iff.1 hw
  obtain ⟨ds', rfl, -, -, hds'⟩ := matches_areaCode_iff.1 hw'
  have htake : ∀ ds v : List Char, (∀ x ∈ ds, x.isDigit) →
      (ds ++ ')' :: v).takeWhile Char.isDigit = ds := fun ds v hall => by
    rw [List.takeWhile_append_of_pos hall]
    simp [show ')'.isDigit = false by decide]
  have hrest : ds ++ ')' :: v = ds' ++ ')' :: v' := by simpa using hsplit
  have htaken := congrArg (List.takeWhile Char.isDigit) hrest
  rw [htake ds v hds, htake ds' v' hds'] at htaken
  rw [htaken]

theorem phoneStart_single : (phoneStart wide).Single := by
  have hcore : (alt areaCode (one Char.isDigit)).Single := by
    refine areaCode_single.alt (takes_one _).single fun ⟨b, text⟩ => ?_
    cases text with
    | nil => exact .inl rfl
    | cons x xs =>
      by_cases hx : x = '('
      · subst hx
        exact .inr rfl
      · exact .inl (by simp [areaCode, ends, hx])
  refine (takes_notBehind _).single.seq (hcore.opt_seq fun b x xs hx => ?_)
  obtain rfl := of_decide_eq_true hx
  rfl

theorem phones_longestFirst : (phones wide).LongestFirst :=
  phoneStart_single.seq_longestFirst ((longestFirst_rep (oneWay_one _) 5 none).seq_takes
    ((takes_one _).seq (takes_notAhead _)))

/-- **The window is as wide as it can be**: to the end of the text, or to the next number with a plus. -/
theorem phones_first {v : List Char} (hw : Number w) (hb : b.any (joins wide) = false)
    (hv : v = [] ∨ ∃ z, v = ' ' :: '+' :: z) :
    (phones wide).first ⟨b, w ++ v⟩ = some ⟨w.getLast?.or b, v⟩ := by
  have hnext : v.head?.any (isWord wide) = false := by
    rcases hv with rfl | ⟨z, rfl⟩ <;> rfl
  refine phones_longestFirst.first_eq_some_iff.2
    ⟨matches_phones_iff.2 ⟨hb, hnext, hw⟩, fun w' v' hsplit hmatches => ?_⟩
  obtain ⟨-, -, hw'⟩ := matches_phones_iff.1 hmatches
  by_contra hlonger
  obtain ⟨e, rfl, he⟩ | ⟨e, rfl, -⟩ := List.append_eq_append_iff.1 hsplit
  · obtain ⟨d, hlast, hd⟩ := hw'.getLast?_isDigit
    have htail := hw'.isInner_of_mem_tail
    match e with
    | [] => simp at hlonger
    | [x] =>
      rcases hv with rfl | ⟨z, rfl⟩
      · cases he
      · obtain rfl : ' ' = x := (List.cons.inj he).1
        obtain rfl : ' ' = d := by simpa using hlast
        exact absurd hd (by decide)
    | x :: y :: e =>
      rcases hv with rfl | ⟨z, rfl⟩
      · cases he
      · obtain rfl : '+' = y := (List.cons.inj (List.cons.inj he).2).1
        have hmem : '+' ∈ (w ++ x :: '+' :: e).tail := by
          rw [List.tail_append_of_ne_nil hw.ne_nil]
          simp
        exact absurd (htail _ hmem) (by decide)
  · simp at hlonger

theorem phones_takesSome : (phones wide).TakesSome := by
  intro b a h
  exact (matches_phones_iff.1 h).2.2.ne_nil rfl

/-! ## Runs

Neither `_cards` nor `_phones` goes over a space with a plus behind it, so the texts between such spaces are
gone over one by one. -/

/-- No match goes over a space and a plus behind it, and none begins or ends with the space. -/
def WithinRuns (r : Regex) : Prop := ∀ b w a, r.Matches b w a →
  (∃ x u, w = x :: u ∧ x ≠ ' ' ∧ '+' ∉ u) ∧ w.getLast? ≠ some ' '

theorem withinRuns_cards : WithinRuns (cards wide) := by
  intro b w a hmatches
  have hw := (ProcessingRedactor.matches_cards_iff.1 hmatches).2.2
  have hchars : '+' ∉ w := fun hplus => by
    obtain ⟨n, hn, -⟩ := hw
    exact absurd (ProcessingRedactor.mem_of_groupedDigits hn _ hplus) (by decide)
  constructor
  · obtain ⟨d, u, rfl, hd⟩ := hw.head?
    refine ⟨d, u, rfl, ?_, fun hplus => hchars (List.mem_cons_of_mem d hplus)⟩
    rintro rfl
    exact absurd hd (by decide)
  · obtain ⟨u, d, rfl, hd⟩ := hw.getLast?
    rw [List.getLast?_concat]
    rintro ⟨⟩
    exact absurd hd (by decide)

theorem withinRuns_phones : WithinRuns (phones wide) := by
  intro b w a hmatches
  have hw := (matches_phones_iff.1 hmatches).2.2
  constructor
  · obtain ⟨x, u, rfl⟩ := List.exists_cons_of_ne_nil hw.ne_nil
    refine ⟨x, u, rfl, fun hspace => hw.head?_ne_space (by rw [hspace]; rfl), fun hplus => ?_⟩
    exact absurd (hw.isInner_of_mem_tail _ hplus) (by decide)
  · obtain ⟨d, hlast, hd⟩ := hw.getLast?_isDigit
    rw [hlast]
    rintro ⟨⟩
    exact absurd hd (by decide)

namespace WithinRuns

variable {r : Regex} {ps : List Piece}

/-- Such a space is kept, and the scan goes on from the plus. -/
theorem split (hr : WithinRuns r) {h z : List Char} (hscan : Scans r b (h ++ ' ' :: '+' :: z) ps) :
    ∃ qs rest, ps = qs ++ .kept ' ' :: rest ∧ (∀ accept, textOf (qs.flatMap (Piece.tokens accept)) = h) ∧
      Scans r (some ' ') ('+' :: z) rest := by
  obtain ⟨qs, rest, rfl, hqs, hrest⟩ := hscan.split fun y e _ he hyne hene b a hmatches => by
    obtain ⟨⟨x, u, hu, -, hplus⟩, hlast⟩ := hr _ _ _ hmatches
    obtain ⟨x', y, rfl⟩ := List.exists_cons_of_ne_nil hyne
    match e, hene with
    | [x''], _ =>
      obtain rfl : x'' = ' ' := (List.cons_prefix_cons.1 he).1
      exact hlast List.getLast?_concat
    | x'' :: y' :: e, _ =>
      obtain rfl : y' = '+' := (List.cons_prefix_cons.1 (List.cons_prefix_cons.1 he).2).1
      obtain ⟨-, rfl⟩ := List.cons.inj hu
      simp at hplus
  have hmissed : r.ends ⟨h.getLast?.or b, ' ' :: '+' :: z⟩ = [] := by
    refine ends_eq_nil_of_not_matches fun w v hsplit hmatches => ?_
    obtain ⟨⟨x, u, rfl, hx, -⟩, -⟩ := hr _ _ _ hmatches
    exact hx (List.cons.inj hsplit).1.symm
  obtain ⟨rest, rfl, hafter⟩ := hrest.of_missed hmissed
  exact ⟨qs, rest, rfl, hqs, hafter⟩

/-- **A pass goes over the runs one by one.** What holds of the tokens of each text that ends at such
a space or with the whole holds of every one of them. -/
theorem parts (wide : Char → Bool) (hr : WithinRuns r) {accept : List Char → Bool}
    {s : List Char} {Q : List Char → List Token → Prop}
    (hQ : ∀ b h v qs rest, b.any (joins wide) = false → (v = [] ∨ ∃ z, v = ' ' :: '+' :: z) →
      Scans r b (h ++ v) (qs ++ rest) → textOf (qs.flatMap (Piece.tokens accept)) = h →
      Q h (qs.flatMap (Piece.tokens accept)))
    {hs : List (List Char)} (hplus : ∀ h ∈ hs.tail, h.head? = some '+') (hb : b.any (joins wide) = false)
    (hscan : Scans r b (spaced hs) ps) :
    ∃ parts : List (List Char × List Token), parts.map Prod.fst = hs ∧ (∀ part ∈ parts, Q part.1 part.2) ∧
      written s (ps.flatMap (Piece.tokens accept)) = spaced (parts.map fun part => written s part.2) := by
  induction hs generalizing b ps with
  | nil =>
    obtain rfl := Scans.eq_nil hscan
    exact ⟨[], rfl, nofun, rfl⟩
  | cons h hs ih =>
    cases hs with
    | nil =>
      have hone : spaced [h] = h ++ [] := by simp [spaced]
      rw [hone] at hscan
      have htext := hscan.textOf_tokens accept
      rw [List.append_nil] at htext
      rw [← List.append_nil ps] at hscan
      refine ⟨[(h, ps.flatMap (Piece.tokens accept))], rfl, fun part hpart => ?_, by simp [spaced]⟩
      obtain rfl := List.mem_singleton.1 hpart
      exact hQ b h [] ps [] hb (.inl rfl) hscan htext
    | cons h' hs =>
      have hhead := hplus h' List.mem_cons_self
      have hne : h' ≠ [] := by
        rintro rfl
        cases hhead
      obtain ⟨z, hz⟩ := List.head?_eq_some_iff.1 ((head?_spaced hne hs).trans hhead)
      rw [spaced_cons_cons, hz] at hscan
      obtain ⟨qs, rest, rfl, hqs, hrest⟩ := hr.split hscan
      have hfirst := hQ b h _ qs _ hb (.inr ⟨z, rfl⟩) hscan (hqs accept)
      rw [← hz] at hrest
      obtain ⟨parts, hparts, hall, hwritten⟩ := ih (fun h hh => hplus h (List.mem_of_mem_tail hh)) rfl hrest
      refine ⟨(h, qs.flatMap (Piece.tokens accept)) :: parts, by rw [List.map_cons, hparts], ?_, ?_⟩
      · intro part hpart
        rcases List.mem_cons.1 hpart with rfl | hpart
        · exact hfirst
        · exact hall part hpart
      · obtain ⟨part, parts, rfl⟩ : ∃ part parts', parts = part :: parts' := by
          cases parts with
          | nil => cases hparts
          | cons part parts => exact ⟨part, parts, rfl⟩
        rw [List.flatMap_append, List.flatMap_cons, written_append, written_append, hwritten]
        exact (spaced_cons_cons _ _ _).symm

end WithinRuns

/-- The pass over the cards leaves a run, or takes 13 digits of it at least. -/
theorem cards_parts (wide : Char → Bool) {hs : List (List Char)}
    (hplus : ∀ h ∈ hs.tail, h.head? = some '+') : ∃ parts : List (List Char × List Token),
    parts.map Prod.fst = hs ∧
      (∀ part ∈ parts, textOf part.2 = part.1 ∧ ∀ q, .cut q ∈ part.2 → CardToken q) ∧
      ((cards wide).subn isCard redacted (spaced hs)).1 =
      spaced (parts.map fun part => written redacted part.2) := by
  refine withinRuns_cards.parts wide (Q := fun h T => textOf T = h ∧ ∀ q, .cut q ∈ T → CardToken q)
    (fun b h v qs rest _ _ hscan htext => ⟨htext, fun q hq => ?_⟩) hplus (b := none) rfl
    (scans_pieces cards_takesSome _)
  have hmem : .cut q ∈ (qs ++ rest).flatMap (Piece.tokens isCard) := by
    rw [List.flatMap_append]
    exact List.mem_append_left _ hq
  obtain ⟨b, a, hmatches⟩ := hscan.matches_of_cut_mem hmem
  exact (ProcessingRedactor.matches_cards_iff.1 hmatches).2.2

/-- **The pass over the phones takes each run that has the form of a number as one window.** -/
theorem phones_parts (wide : Char → Bool) {hs : List (List Char)}
    (hplus : ∀ h ∈ hs.tail, h.head? = some '+') : ∃ parts : List (List Char × List Token),
    parts.map Prod.fst = hs ∧
      (∀ part ∈ parts, textOf part.2 = part.1 ∧ (∀ q, .cut q ∈ part.2 → q ≠ []) ∧
        (Number part.1 → part.2 = Piece.tokens isPhone (.taken part.1))) ∧
      ((phones wide).subn isPhone redacted (spaced hs)).1 =
      spaced (parts.map fun part => written redacted part.2) := by
  refine withinRuns_phones.parts wide (Q := fun h T => textOf T = h ∧ (∀ q, .cut q ∈ T → q ≠ []) ∧
    (Number h → T = Piece.tokens isPhone (.taken h)))
    (fun b h v qs rest hb hv hscan htext => ?_) hplus (b := none) rfl (scans_pieces phones_takesSome _)
  have hcuts : ∀ q, .cut q ∈ qs.flatMap (Piece.tokens isPhone) → q ≠ [] := by
    intro q hq
    have hmem : .cut q ∈ (qs ++ rest).flatMap (Piece.tokens isPhone) := by
      rw [List.flatMap_append]
      exact List.mem_append_left _ hq
    exact (hscan.of_cut_mem hmem).1
  refine ⟨htext, hcuts, fun hnumber => ?_⟩
  obtain ⟨rest', hpieces, -⟩ := hscan.of_first hnumber.ne_nil (phones_first hnumber hb hv)
  cases qs with
  | nil => exact absurd htext.symm hnumber.ne_nil
  | cons piece qs =>
    obtain ⟨rfl, -⟩ := List.cons.inj hpieces
    rw [List.flatMap_cons, textOf_append, textOf_taken] at htext
    have hnil : qs.flatMap (Piece.tokens isPhone) = [] :=
      eq_nil_of_textOf_eq_nil (fun q hq => hcuts q (List.mem_append_right _ hq))
        (List.append_right_eq_self.1 htext)
    rw [List.flatMap_cons, hnil, List.append_nil]

/-- A number, and numbers without a plus. -/
def IsRun : List (List Char) → Prop
  | [] => False
  | t :: ts => Number t ∧ ∀ u ∈ ts, Number u ∧ u.head? ≠ some '+'

theorem IsRun.number {g : List (List Char)} (h : IsRun g) : Number (spaced g) := by
  cases g with
  | nil => cases h
  | cons t ts => exact number_spaced h.1 h.2

/-- The numbers, cut before each with a plus. -/
def runs (ts : List (List Char)) : List (List (List Char)) := ts.splitBy fun _ t => t.head? ≠ some '+'

theorem mem_of_mem_runs {ts g : List (List Char)} {t : List Char} (hg : g ∈ runs ts)
    (ht : t ∈ g) : t ∈ ts := by
  rw [← List.flatten_splitBy (fun _ t : List Char => t.head? ≠ some '+') ts]
  exact List.mem_flatten.2 ⟨g, hg, ht⟩

theorem exists_rel_of_mem_tail {α : Type*} {R : α → α → Prop} {l : List α} {x : α} (h : l.IsChain R)
    (hx : x ∈ l.tail) : ∃ y, R y x := by
  induction h with
  | nil => cases hx
  | singleton => cases hx
  | cons_cons hrel _ ih =>
    rcases List.mem_cons.1 hx with rfl | hx
    · exact ⟨_, hrel⟩
    · exact ih hx

theorem isRun_of_mem_runs {ts g : List (List Char)} (hts : ∀ t ∈ ts, Number t) (hg : g ∈ runs ts) :
    IsRun g := by
  have hmem : ∀ t ∈ g, Number t := fun t ht => hts t (mem_of_mem_runs hg ht)
  have hchain := List.isChain_of_mem_splitBy hg
  cases g with
  | nil => exact absurd hg (List.nil_notMem_splitBy _ ts)
  | cons t us =>
    refine ⟨hmem t List.mem_cons_self, fun u hu => ⟨hmem u (List.mem_cons_of_mem t hu), ?_⟩⟩
    obtain ⟨_, hplus⟩ := exists_rel_of_mem_tail hchain hu
    exact of_decide_eq_true hplus

theorem head?_of_mem_tail_runs {ts g : List (List Char)} (hts : ∀ t ∈ ts, Number t)
    (hg : g ∈ (runs ts).tail) : (spaced g).head? = some '+' := by
  have hrun := isRun_of_mem_runs hts (List.mem_of_mem_tail hg)
  obtain ⟨_, _, hne, hplus⟩ := exists_rel_of_mem_tail (List.isChain_getLast_head_splitBy _ ts) hg
  cases g with
  | nil => exact absurd rfl hne
  | cons t us =>
    rw [head?_spaced hrun.1.ne_nil]
    exact Decidable.of_not_not (of_decide_eq_false hplus)

theorem spaced_runs (ts : List (List Char)) : spaced ((runs ts).map spaced) = spaced ts := by
  have hne : ∀ g ∈ runs ts, g ≠ [] := fun g hg => List.ne_nil_of_mem_splitBy hg
  rw [spaced_map_spaced hne, runs, List.flatten_splitBy]

/-! ## What is left of the numbers -/

/-- The numbers are gone if every run is a phone number as a whole, and only then. -/
theorem removed_iff {ts : List (List Char)} (hts : ∀ t ∈ ts, Number t) :
    (∀ t ∈ ts, ¬t <:+: spaced ((runs ts).map fun g => if isPhone (spaced g) then redacted else spaced g)) ↔
      ∀ g ∈ runs ts, isPhone (spaced g) := by
  constructor
  · intro hgone g hg
    by_contra hkept
    cases g with
    | nil => exact absurd hg (List.nil_notMem_splitBy _ ts)
    | cons t us =>
      have ht : t ∈ ts := mem_of_mem_runs hg List.mem_cons_self
      have hinfix : spaced (t :: us) <:+:
          spaced ((runs ts).map fun g => if isPhone (spaced g) then redacted else spaced g) :=
        infix_spaced (List.mem_map.2 ⟨t :: us, hg, if_neg hkept⟩)
      exact hgone t ht ((infix_spaced List.mem_cons_self).trans hinfix)
  · intro hphones t ht hinfix
    obtain ⟨d, hlast, hd⟩ := (hts t ht).getLast?_isDigit
    have hmem : d ∈ spaced _ := hinfix.subset (List.mem_of_getLast? hlast)
    rcases mem_spaced hmem with rfl | ⟨u, hu, hdu⟩
    · exact absurd hd (by decide)
    · obtain ⟨g, hg, rfl⟩ := List.mem_map.1 hu
      rw [if_pos (hphones g hg)] at hdu
      have hletters : redacted.all (fun x => !x.isDigit) = true := by decide +kernel
      have hletter := List.all_eq_true.1 hletters d hdu
      rw [Bool.not_eq_true'] at hletter
      rw [hletter] at hd
      cases hd

/-- The digits of a run are those of its numbers. -/
theorem isPhone_spaced_iff {g : List (List Char)} (hne : g ≠ []) (hg : ∀ t ∈ g, isPhone t) :
    isPhone (spaced g) ↔ g.flatten.countP Char.isDigit ≤ 15 := by
  have hleast : 7 ≤ g.flatten.countP Char.isDigit := by
    obtain ⟨t, us, rfl⟩ := List.exists_cons_of_ne_nil hne
    have ht := hg t List.mem_cons_self
    simp only [isPhone, Bool.and_eq_true, decide_eq_true_eq] at ht
    rw [List.flatten_cons, List.countP_append]
    omega
  simp only [isPhone, countP_spaced, Bool.and_eq_true, decide_eq_true_eq]
  omega

/-! ## The passes before -/

theorem needs_emails : (emails wide).Needs fun x => x = '@' :=
  (((needs_one fun _ hx => of_decide_eq_true hx).seq_left _).seq_right _).seq_right _

/-- A text that is replaced as a phone number as a whole. -/
def PhoneToken (wide : Char → Bool) (t : List Char) : Prop :=
  redactText wide t = (redacted, [("phones", 1)])

instance (wide : Char → Bool) (t : List Char) : Decidable (PhoneToken wide t) :=
  inferInstanceAs (Decidable (_ = _))

theorem add_eq_nil {counts : Counts} {name : String} {n : ℕ} (h : counts.add name n = []) :
    counts = [] ∧ n = 0 := by
  unfold Counts.add at h
  split at h
  · exact ⟨h, ‹n = 0›⟩
  · simp at h

theorem add_eq_singleton {counts : Counts} {name name' : String} {n k : ℕ}
    (h : counts.add name n = [(name', k)]) :
    counts = [(name', k)] ∧ n = 0 ∨ counts = [] ∧ name = name' ∧ n = k := by
  unfold Counts.add at h
  split at h
  · exact .inl ⟨h, ‹n = 0›⟩
  · obtain ⟨hcounts, hentry⟩ := List.append_eq_singleton_iff.1 h |>.resolve_right (by simp)
    simp only [List.cons.injEq, Prod.mk.injEq, and_true] at hentry
    exact .inr ⟨hcounts, hentry⟩

/-- Of what was counted under another name nothing is a phone number. -/
theorem add_ne_phones {counts : Counts} {name : String} {n k : ℕ} (hname : name ≠ "phones")
    (hcounts : counts ≠ [("phones", k)]) : counts.add name n ≠ [("phones", k)] := by
  intro h
  obtain ⟨h, -⟩ | ⟨-, h, -⟩ := add_eq_singleton h
  · exact hcounts h
  · exact hname h

theorem processing_ne_phones {t : List Char} {k : ℕ} :
    (ProcessingRedactor.redactText wide t).2 ≠ [("phones", k)] := by
  rw [ProcessingRedactor.redactText_snd, ProcessingRedactor.redactPatterns_eq]
  dsimp only
  refine add_ne_phones (by decide) (add_ne_phones (by decide) (add_ne_phones (by decide) ?_))
  exact add_ne_phones (by decide) nofun

/-- A text for which nothing is counted stays. -/
theorem processing_of_nil {t : List Char} (h : (ProcessingRedactor.redactText wide t).2 = []) :
    (ProcessingRedactor.redactText wide t).1 = t := by
  rw [ProcessingRedactor.redactText_snd] at h
  obtain ⟨h, hcards⟩ := add_eq_nil h
  have hpatterns : (ProcessingRedactor.redactPatterns wide t).1 = t := by
    rw [ProcessingRedactor.redactPatterns_eq] at h ⊢
    dsimp only at h ⊢
    obtain ⟨h, hkeys⟩ := add_eq_nil h
    obtain ⟨h, hsecrets⟩ := add_eq_nil h
    obtain ⟨-, hcredentials⟩ := add_eq_nil h
    have hcredentials := subn_fst_of_snd ProcessingRedactor.needs_credentials.takesSome hcredentials
    have hsecrets := (subn_fst_of_snd ProcessingRedactor.needs_secrets.takesSome hsecrets).trans
      hcredentials
    exact (subn_fst_of_snd ProcessingRedactor.needs_apiKeys.takesSome hkeys).trans hsecrets
  rw [ProcessingRedactor.redactText_fst, subn_fst_of_snd cards_takesSome hcards,
    hpatterns]

/-- The other passes leave a phone number alone. -/
theorem PhoneToken.subn_eq {t : List Char} (h : PhoneToken wide t) :
    (phones wide).subn isPhone redacted t = (redacted, 1) := by
  rw [PhoneToken, redactText_eq] at h
  dsimp only at h
  obtain ⟨htext, hcounts⟩ := Prod.mk.inj h
  obtain ⟨hcounts, -⟩ | ⟨hcounts, -, hphones⟩ := add_eq_singleton hcounts
  · exact absurd hcounts (add_ne_phones (by decide) processing_ne_phones)
  · obtain ⟨hcounts, hemails⟩ := add_eq_nil hcounts
    have hbefore := (subn_fst_of_snd needs_emails.takesSome hemails).trans (processing_of_nil hcounts)
    rw [hbefore] at htext hphones
    exact Prod.ext htext hphones

theorem PhoneToken.number {t : List Char} (h : PhoneToken wide t) : Number t ∧ isPhone t := by
  obtain ⟨⟨b, a, hmatches⟩, haccept⟩ := matches_of_subn phones_takesSome h.subn_eq
  exact ⟨(matches_phones_iff.1 hmatches).2.2, haccept⟩

/-! ## Numbers with spaces between them

Tokens joined by blanks make a window of digits and marks that goes on to the next plus. The digits
of a run are those of its tokens together. -/

theorem not_high_of_isInner {x : Char} (h : isInner x) : ¬High x := by
  simp only [isInner, Bool.or_eq_true, decide_eq_true_eq] at h
  rcases h with ((((h | rfl) | rfl) | rfl) | rfl) | rfl
  · exact ProcessingRedactor.not_high_of_isDigit h
  all_goals decide

theorem Number.not_high (h : Number w) : ∀ x ∈ w, ¬High x := by
  obtain ⟨sign, core, rfl, hsign, hcore, -⟩ := h.split
  intro x hx
  rcases List.mem_append.1 hx with hx | hx
  · rcases hsign with rfl | rfl
    · cases hx
    · obtain rfl := List.mem_singleton.1 hx
      decide
  · exact not_high_of_isInner (hcore x hx)

theorem not_high_of_mem_spaced {ts : List (List Char)} (hts : ∀ t ∈ ts, Number t) :
    ∀ x ∈ spaced ts, ¬High x := by
  intro x hx
  rcases mem_spaced hx with rfl | ⟨t, ht, hx⟩
  · decide
  · exact (hts t ht).not_high x hx

/-- Of the passes before, only that over the cards may change such a text. -/
theorem redactText_spaced {ts : List (List Char)} (hts : ∀ t ∈ ts, Number t) :
    (redactText wide (spaced ts)).1 = ((phones wide).subn isPhone redacted
      ((cards wide).subn isCard redacted (spaced ts)).1).1 := by
  have hlow := not_high_of_mem_spaced hts
  have hat : ∀ x ∈ ((cards wide).subn isCard redacted
      (spaced ts)).1, ¬x = '@' := by
    rintro x hx rfl
    rcases mem_written hx with hx | hx
    · rw [textOf_tokens cards_takesSome] at hx
      exact hlow '@' hx (by decide)
    · exact absurd hx (by decide)
  rw [redactText_eq]
  dsimp only
  rw [ProcessingRedactor.redactText_fst, ProcessingRedactor.redactPatterns_of_low hlow,
    subn_of_needs needs_emails hat]

/-! ## Short runs

A run with at most 15 digits is a phone number when it is met as one window. If the cards have taken
a part of it, at most two digits are left over, and no number has so few. -/

/-- A text with no plus and bracket behind its beginning is within one of the texts, where each from the
second on begins with one of these. -/
theorem infix_of_infix_spaced {t : List Char} (hne : t ≠ []) (hfirst : t.head? ≠ some ' ')
    (hlast : t.getLast? ≠ some ' ') {os : List (List Char)} (hos : ∀ o ∈ os.tail,
      ∃ x, o.head? = some x ∧ x ∉ t.tail)
    (h : t <:+: spaced os) : ∃ o ∈ os, t <:+: o := by
  induction os with
  | nil => exact absurd (List.infix_nil.1 h) hne
  | cons o os ih =>
    cases os with
    | nil => exact ⟨o, List.mem_cons_self, by simpa [spaced] using h⟩
    | cons o' os =>
      obtain ⟨x, hx, hnot⟩ := hos o' List.mem_cons_self
      have ho' : o' ≠ [] := by
        rintro rfl
        cases hx
      obtain ⟨z, hz⟩ := List.head?_eq_some_iff.1 ((head?_spaced ho' os).trans hx)
      obtain ⟨u, v, huv⟩ := h
      rw [spaced_cons_cons, List.append_assoc] at huv
      rcases List.append_eq_append_iff.1 huv with ⟨e, rfl, he⟩ | ⟨e, rfl, he⟩
      · -- it begins in the first text
        rcases List.append_eq_append_iff.1 he with ⟨f, rfl, -⟩ | ⟨f, rfl, hf⟩
        · exact ⟨_, List.mem_cons_self, ⟨u, f, by simp⟩⟩
        · match f with
          | [] => exact ⟨_, List.mem_cons_self, ⟨u, [], by simp⟩⟩
          | [y] =>
            obtain rfl := (List.cons.inj hf).1
            exact absurd List.getLast?_concat hlast
          | y :: y' :: f =>
            rw [hz] at hf
            obtain rfl := (List.cons.inj (List.cons.inj hf).2).1
            cases e with
            | nil =>
              obtain rfl := (List.cons.inj hf).1
              exact absurd rfl hfirst
            | cons y'' e => simp at hnot
      · -- it begins behind it
        cases e with
        | nil =>
          cases t with
          | nil => exact absurd rfl hne
          | cons y t =>
            obtain rfl := (List.cons.inj he).1
            exact absurd rfl hfirst
        | cons y e =>
          obtain ⟨o, ho, hinfix⟩ := ih (fun o ho => hos o (List.mem_of_mem_tail ho)) ⟨e, v, by
            rw [List.append_assoc]
            exact (List.cons.inj he).2.symm⟩
          exact ⟨o, List.mem_cons_of_mem _ ho, hinfix⟩

theorem countP_redacted : redacted.countP Char.isDigit = 0 := by decide +kernel

/-- What begins with a plus does so behind a pass, or with what is written. -/
theorem head?_written {T : List Token} (h : (textOf T).head? = some '+')
    (hcuts : ∀ q, .cut q ∈ T → q ≠ []) :
    (written redacted T).head? = some '+' ∨ (∃ q, .cut q ∈ T ∧ q.head? = some '+') ∧
      (written redacted T).head? = some '[' := by
  cases T with
  | nil => cases h
  | cons token T =>
    cases token with
    | char x => exact .inl h
    | cut q =>
      rw [textOf_cut_cons, List.head?_append_of_ne_nil _ (hcuts q List.mem_cons_self)] at h
      refine .inr ⟨⟨q, List.mem_cons_self, h⟩, ?_⟩
      rw [written_cut_cons, List.head?_append_of_ne_nil _ redacted_ne_nil]
      exact ProcessingRedactor.head?_redacted

/-- The runs from the second on begin with a plus. -/
theorem head?_of_mem_tail_map {ts : List (List Char)} (hts : ∀ t ∈ ts, Number t) :
    ∀ h ∈ ((runs ts).map spaced).tail, h.head? = some '+' := by
  intro h hh
  rw [← List.map_tail] at hh
  obtain ⟨g, hg, rfl⟩ := List.mem_map.1 hh
  exact head?_of_mem_tail_runs hts hg

/-- The pass over the cards leaves a short run as it is, or too few digits of it for a number. -/
theorem left_of_cards {h : List Char} {T : List Token} (htext : textOf T = h)
    (hcuts : ∀ q, .cut q ∈ T → CardToken q)
    (hnumber : Number h) (hphone : isPhone h) :
    Number (written redacted T) ∧ isPhone (written redacted T) ∨
        (written redacted T).countP Char.isDigit ≤ 6 := by
  by_cases hnone : cuts T = 0
  · have hchars := chars_of_cuts_eq_zero hnone
    rw [htext] at hchars
    rw [hchars, written_chars]
    exact .inl ⟨hnumber, hphone⟩
  · have hcount := countP_written (p := Char.isDigit) countP_redacted fun q hq => (hcuts q hq).le_countP
    simp only [isPhone, Bool.and_eq_true, decide_eq_true_eq] at hphone
    rw [htext] at hcount
    exact .inr (by omega)

/-- What a pass writes for a part behind the first begins with the part's plus, or is what replaces a
match. -/
theorem head?_of_mem_tail_written {parts : List (List Char × List Token)}
    (hplus : ∀ h ∈ (parts.map Prod.fst).tail, h.head? = some '+')
    (hall : ∀ part ∈ parts, textOf part.2 = part.1 ∧ ∀ q, .cut q ∈ part.2 → q ≠ []) {o : List Char}
    (ho : o ∈ (parts.map fun part => written redacted part.2).tail) :
    o.head? = some '+' ∨ (∃ part ∈ parts, ∃ q, .cut q ∈ part.2 ∧ q.head? = some '+') ∧
      o.head? = some '[' := by
  rw [← List.map_tail] at ho
  obtain ⟨part, hpart, rfl⟩ := List.mem_map.1 ho
  have hmem : part ∈ parts := List.mem_of_mem_tail hpart
  have hhead : part.1.head? = some '+' := by
    refine hplus part.1 ?_
    rw [← List.map_tail]
    exact List.mem_map_of_mem hpart
  rw [← (hall part hmem).1] at hhead
  rcases head?_written hhead (hall part hmem).2 with hhead | ⟨⟨q, hq, hqplus⟩, hhead⟩
  · exact .inl hhead
  · exact .inr ⟨⟨part, hmem, q, hq, hqplus⟩, hhead⟩

/-- The pass over the cards keeps the plus of a run. -/
theorem head?_of_mem_tail_cards {parts : List (List Char × List Token)}
    (hplus : ∀ h ∈ (parts.map Prod.fst).tail, h.head? = some '+')
    (hall : ∀ part ∈ parts, textOf part.2 = part.1 ∧ ∀ q, .cut q ∈ part.2 → CardToken q) :
    ∀ l ∈ (parts.map fun part => written redacted part.2).tail, l.head? = some '+' := by
  intro l hl
  rcases head?_of_mem_tail_written hplus (fun part hpart =>
    ⟨(hall part hpart).1, fun q hq => ((hall part hpart).2 q hq).ne_nil⟩) hl with
    hhead | ⟨⟨part, hpart, q, hq, hqplus⟩, -⟩
  · exact hhead
  · -- a card number begins with a digit
    obtain ⟨d, w, rfl, hd⟩ := ((hall part hpart).2 q hq).head?
    obtain rfl := Option.some.inj hqplus
    exact absurd hd (by decide)

/-- A number that is still there is within what is written for one of the parts. -/
theorem Number.infix_written {t : List Char} (ht : Number t) {parts : List (List Char × List Token)}
    (hplus : ∀ h ∈ (parts.map Prod.fst).tail, h.head? = some '+')
    (hall : ∀ part ∈ parts, textOf part.2 = part.1 ∧ ∀ q, .cut q ∈ part.2 → q ≠ [])
    (h : t <:+: spaced (parts.map fun part => written redacted part.2)) :
    ∃ part ∈ parts, t <:+: written redacted part.2 := by
  have hbegins : ∀ o ∈ (parts.map fun part => written redacted part.2).tail, ∃ x,
      o.head? = some x ∧ x ∉ t.tail := by
    intro o ho
    rcases head?_of_mem_tail_written hplus hall ho with hhead | ⟨-, hhead⟩
    · exact ⟨'+', hhead, fun hmem => absurd (ht.isInner_of_mem_tail _ hmem) (by decide)⟩
    · exact ⟨'[', hhead, fun hmem => absurd (ht.isInner_of_mem_tail _ hmem) (by decide)⟩
  have hlast : t.getLast? ≠ some ' ' := by
    obtain ⟨d, hd, hdigit⟩ := ht.getLast?_isDigit
    rw [hd]
    rintro ⟨⟩
    exact absurd hdigit (by decide)
  obtain ⟨o, ho, hto⟩ := infix_of_infix_spaced ht.ne_nil ht.head?_ne_space hlast hbegins h
  obtain ⟨part, hpart, rfl⟩ := List.mem_map.1 ho
  exact ⟨part, hpart, hto⟩

/-- The pass over the phone numbers leaves too few digits for a number, of a phone number and of what has
too few before it. -/
theorem few_of_phones {l : List Char} {T : List Token} (htext : textOf T = l)
    (htaken : Number l → T = Piece.tokens isPhone (.taken l))
    (hl : Number l ∧ isPhone l ∨ l.countP Char.isDigit ≤ 6) :
    (written redacted T).countP Char.isDigit ≤ 6 := by
  rcases hl with ⟨hnumber, hphone⟩ | hfew
  · rw [htaken hnumber, written_taken, if_pos hphone, countP_redacted]
    exact Nat.zero_le 6
  · have hcount : (written redacted T).countP Char.isDigit + 0 * cuts T ≤
        (textOf T).countP Char.isDigit := countP_written countP_redacted fun _ _ => Nat.zero_le _
    rw [htext] at hcount
    omega

/-- **Runs of at most 15 digits are gone**, whatever the pass over the cards takes of them: a card
number has 13 digits at least, and what it leaves of the run is too little for a number. -/
theorem removed_of_short {ts : List (List Char)} (hts : ∀ t ∈ ts, Number t ∧ isPhone t)
    (hshort : ∀ g ∈ runs ts, g.flatten.countP Char.isDigit ≤ 15) :
    ∀ t ∈ ts, ¬t <:+: (redactText wide (spaced ts)).1 := by
  have hnumbers : ∀ t ∈ ts, Number t := fun t ht => (hts t ht).1
  have hruns : ∀ g ∈ runs ts, Number (spaced g) ∧ isPhone (spaced g) := fun g hg =>
    ⟨(isRun_of_mem_runs hnumbers hg).number, (isPhone_spaced_iff (List.ne_nil_of_mem_splitBy hg) fun t ht =>
      (hts t (mem_of_mem_runs hg ht)).2).2 (hshort g hg)⟩
  rw [redactText_spaced hnumbers, ← spaced_runs]
  -- the pass over the cards, run by run
  obtain ⟨parts, hparts, hall, htext⟩ := cards_parts wide (head?_of_mem_tail_map hnumbers)
  rw [htext]
  have hleft : ∀ l ∈ parts.map fun part => written redacted part.2,
      Number l ∧ isPhone l ∨ l.countP Char.isDigit ≤ 6 := by
    intro l hl
    obtain ⟨part, hpart, rfl⟩ := List.mem_map.1 hl
    obtain ⟨g, hg, hgpart⟩ := List.mem_map.1 (hparts ▸ List.mem_map_of_mem hpart)
    obtain ⟨hnumber, hphone⟩ := hruns g hg
    rw [hgpart] at hnumber hphone
    exact left_of_cards (hall part hpart).1 (hall part hpart).2 hnumber hphone
  have hplus := head?_of_mem_tail_cards (hparts ▸ head?_of_mem_tail_map hnumbers) hall
  -- the pass over the phone numbers, on what is left of each run
  obtain ⟨parts', hparts', hall', htext'⟩ := phones_parts wide hplus
  rw [htext']
  intro t ht hinfix
  obtain ⟨hnumber, hphone⟩ := hts t ht
  obtain ⟨part, hpart, hto⟩ := hnumber.infix_written (hparts' ▸ hplus)
    (fun part hpart => ⟨(hall' part hpart).1, (hall' part hpart).2.1⟩) hinfix
  obtain ⟨hpartText, -, htaken⟩ := hall' part hpart
  have hfew : (written redacted part.2).countP Char.isDigit ≤ 6 :=
    few_of_phones hpartText htaken (hleft part.1 (hparts' ▸ List.mem_map_of_mem hpart))
  have hmany : t.countP Char.isDigit ≤ (written redacted part.2).countP Char.isDigit :=
    hto.sublist.countP_le
  simp only [isPhone, Bool.and_eq_true, decide_eq_true_eq] at hphone
  omega

/-- Where no card number is replaced, each run is replaced or kept as a whole. -/
theorem subn_phones_runs {ts : List (List Char)} (hts : ∀ t ∈ ts, Number t) :
    ((phones wide).subn isPhone redacted (spaced ts)).1 =
      spaced ((runs ts).map fun g => if isPhone (spaced g) then redacted else spaced g) := by
  obtain ⟨parts, hparts, hall, hwritten⟩ := phones_parts wide (head?_of_mem_tail_map hts)
  have heach : ∀ part ∈ parts, written redacted part.2 = if isPhone part.1 then redacted else part.1 := by
    intro part hpart
    obtain ⟨g, hg, hgpart⟩ := List.mem_map.1 (hparts ▸ List.mem_map_of_mem hpart)
    have hnumber : Number part.1 := hgpart ▸ (isRun_of_mem_runs hts hg).number
    rw [(hall part hpart).2.2 hnumber, written_taken]
  have hmap : (parts.map fun part => written redacted part.2) =
      (parts.map Prod.fst).map fun h => if isPhone h then redacted else h := by
    rw [List.map_map]
    exact List.map_congr_left heach
  rw [← spaced_runs ts, hwritten, hmap, hparts, List.map_map]
  rfl

/-- **Phone numbers next to each other.** They are gone when no run of them has more than 15 digits, and
where the joined text has no card number in it, only then. -/
theorem phones_removed_iff {ts : List (List Char)} (hts : ∀ t ∈ ts, PhoneToken wide t) :
    ((∀ g ∈ runs ts, g.flatten.countP Char.isDigit ≤ 15) → ∀ t ∈ ts,
      ¬t <:+: (redactText wide (spaced ts)).1) ∧
      (((cards wide).subn isCard redacted (spaced ts)).2 = 0 →
        ((∀ t ∈ ts, ¬t <:+: (redactText wide (spaced ts)).1) ↔
          ∀ g ∈ runs ts, g.flatten.countP Char.isDigit ≤ 15)) := by
  have hnumbers : ∀ t ∈ ts, Number t := fun t ht => (hts t ht).number.1
  refine ⟨removed_of_short fun t ht => (hts t ht).number, fun hcards => ?_⟩
  rw [redactText_spaced hnumbers, subn_fst_of_snd cards_takesSome hcards, subn_phones_runs hnumbers,
    removed_iff hnumbers]
  exact forall₂_congr fun g hg => isPhone_spaced_iff (List.ne_nil_of_mem_splitBy hg) fun t ht =>
    (hts t (mem_of_mem_runs hg ht)).number.2

/-- Two numbers of seven digits are gone together, also as the card number they make, and the one with
a plus behind them. -/
theorem short_phones_removed :
    let ts := ["5551234".toList, "5551236".toList, "+15551234567".toList]
    ((cards fun _ => false).subn isCard redacted (spaced ts)).2 = 1 ∧
      ∀ t ∈ ts, ¬t <:+: (redactText (fun _ => false) (spaced ts)).1 :=
  ⟨by decide +kernel, (phones_removed_iff (by decide +kernel)).1 (by decide +kernel)⟩

/-- Two numbers of ten digits share a window of 20 digits, and both stay. -/
theorem long_phones_survive :
    (∀ t ∈ ["5551234567".toList, "5551234567".toList], PhoneToken (fun _ => false) t) ∧
      ∃ t ∈ ["5551234567".toList, "5551234567".toList], t <:+: (redactText (fun _ => false)
        (spaced ["5551234567".toList, "5551234567".toList])).1 := by
  decide +kernel

end LocalPersistenceRedactor

end AdaptiveLlm
