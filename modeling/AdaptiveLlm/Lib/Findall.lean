import AdaptiveLlm.Lib.Substitution

set_option autoImplicit false

/-! # Finding every match

`findall` keeps the matches of a scan. For a pattern of delimited marks, each opened by a character that
no mark has again, what is found does not depend on where the scan stands: `Reads` says it by the text
alone, and `findall_eq_iff` that the two agree. A mark is found wherever it stands, and a character that
no mark has parts a text into two that are read on their own.

The conditions on the marks are few (`Delimited`): the pattern looks at nothing around a mark, a
mark begins with the opening character and has it nowhere else, and no mark is the beginning of
another. They hold of bracketed references of any kind. What is proved from them is how `findall`
behaves under concatenation, which is what is needed where a text is put together from parts that
may hold marks themselves. -/

namespace Regex

/-- `re.findall`, of whole matches. -/
def findall (r : Regex) (text : List Char) : List (List Char) :=
  (r.pieces text).filterMap fun
    | .kept _ => none
    | .taken w => some w

/-- The texts of a pattern that looks at nothing around it. -/
def Texts (r : Regex) (w : List Char) : Prop := r.Matches none w none

/-- The matches of a pattern are marks. -/
structure Delimited (r : Regex) (opening : Char) : Prop where
  lookFree : r.LookFree
  opened : ∀ w, r.Texts w → ∃ v, w = opening :: v ∧ opening ∉ v
  /-- no mark goes on to another -/
  closed : ∀ w w', r.Texts w → r.Texts w' → w <+: w' → w = w'

/-- The marks of a text, from its start. -/
inductive Reads (r : Regex) : List Char → List (List Char) → Prop
  | nil : Reads r [] []
  | mark {w v : List Char} {ws : List (List Char)} (text : r.Texts w) (rest : Reads r v ws) :
      Reads r (w ++ v) (w :: ws)
  | other {x : Char} {v : List Char} {ws : List (List Char)}
      (missed : ∀ w, r.Texts w → ¬w <+: x :: v) (rest : Reads r v ws) : Reads r (x :: v) ws

section Delimited

variable {r : Regex} {opening : Char} {text u v w : List Char} {us vs ws : List (List Char)}

theorem Delimited.ne_nil (h : r.Delimited opening) (hw : r.Texts w) : w ≠ [] := by
  obtain ⟨v, rfl, -⟩ := h.opened w hw
  exact List.cons_ne_nil _ _

theorem Delimited.takesSome (h : r.Delimited opening) : r.TakesSome := fun _ _ hM =>
  h.ne_nil (h.lookFree.matches _ _ hM) rfl

/-- Two marks that a text begins with are one. -/
theorem Delimited.eq_of_prefixes (h : r.Delimited opening) (hu : r.Texts u) (hw : r.Texts w)
    (hu' : u <+: text) (hw' : w <+: text) : u = w := by
  rcases List.prefix_or_prefix_of_prefix hu' hw' with hp | hp
  · exact h.closed u w hu hw hp
  · exact (h.closed w u hw hu hp).symm

/-! ## What a scan finds

Where marks are delimited by characters that they do not contain, a text has one reading as marks
and single characters, and the scan finds this reading. So its results can be told from the text,
without following the scan. -/

theorem Delimited.reads_of_scans (h : r.Delimited opening) {b : Option Char} {ps : List Piece}
    (hs : Scans r b text ps) :
    Reads r text (ps.filterMap fun
      | .kept _ => none
      | .taken w => some w) := by
  induction hs with
  | nil => exact .nil
  | @kept b x xs ps missed rest ih =>
    refine .other (fun w hw ⟨v, hv⟩ => ?_) ih
    have hmem := mem_ends_iff.2 (h.lookFree.matches b v.head? hw)
    rw [hv, missed] at hmem
    cases hmem
  | taken nonempty first rest ih =>
    exact .mark (h.lookFree.matches _ _ (mem_ends_iff.1 (List.mem_of_mem_head? first))) ih

theorem Delimited.reads_findall (h : r.Delimited opening) (text : List Char) :
    Reads r text (r.findall text) :=
  h.reads_of_scans (scans_pieces h.takesSome text)

/-- A text is read in one way. -/
theorem Delimited.reads_unique (h : r.Delimited opening) (hu : Reads r text us) (hv : Reads r text vs) :
    us = vs := by
  induction hu generalizing vs with
  | nil =>
    generalize ht : ([] : List Char) = t at hv
    cases hv with
    | nil => rfl
    | mark hw _ => exact absurd (List.append_eq_nil_iff.1 ht.symm).1 (h.ne_nil hw)
    | other _ _ => cases ht
  | @mark w v ws hw _ ih =>
    generalize ht : w ++ v = t at hv
    cases hv with
    | nil => exact absurd (List.append_eq_nil_iff.1 ht).1 (h.ne_nil hw)
    | @mark w' v' _ hw' rest =>
      obtain rfl := h.eq_of_prefixes hw hw' ⟨v, ht⟩ ⟨v', rfl⟩
      obtain rfl := List.append_cancel_left ht
      rw [ih rest]
    | other missed _ => exact absurd (ht ▸ List.prefix_append w v) (missed w hw)
  | @other x v ws missed _ ih =>
    generalize ht : x :: v = t at hv
    cases hv with
    | nil => cases ht
    | mark hw _ => exact absurd (ht ▸ List.prefix_append _ _) (missed _ hw)
    | other _ rest =>
      obtain ⟨rfl, rfl⟩ := List.cons.inj ht
      exact ih rest

theorem Delimited.findall_eq_iff (h : r.Delimited opening) : r.findall text = ws ↔ Reads r text ws :=
  ⟨fun hw => hw ▸ h.reads_findall text, h.reads_unique (h.reads_findall text)⟩

theorem Delimited.mem_iff_of_reads (h : r.Delimited opening) (hreads : Reads r text ws) :
    w ∈ ws ↔ r.Texts w ∧ w <:+: text := by
  induction hreads with
  | nil =>
    refine ⟨fun hmem => absurd hmem List.not_mem_nil, fun ⟨hw, hin⟩ => ?_⟩
    exact absurd (List.infix_nil.1 hin) (h.ne_nil hw)
  | @mark q v ws hq _ ih =>
    rw [List.mem_cons, ih]
    constructor
    · rintro (rfl | ⟨hw, hin⟩)
      · exact ⟨hq, (List.prefix_append w v).isInfix⟩
      · exact ⟨hw, hin.trans (List.suffix_append q v).isInfix⟩
    · rintro ⟨hw, a, c, heq⟩
      obtain ⟨w', rfl, -⟩ := h.opened w hw
      obtain ⟨q', rfl, hq'⟩ := h.opened q hq
      cases a with
      | nil =>
        exact .inl (h.eq_of_prefixes hw hq ⟨c, by simpa using heq⟩ (List.prefix_append _ _))
      | cons y a =>
        -- the opening character of the mark stands behind the first one, so not in it
        rw [List.cons_append, List.cons_append, List.cons_append, List.cons.injEq, List.append_assoc] at heq
        rcases List.append_eq_append_iff.1 heq.2 with ⟨a', hqa, hrest⟩ | ⟨c', hac, hv⟩
        · cases a' with
          | nil => exact .inr ⟨hw, ⟨[], c, hrest⟩⟩
          | cons z a' =>
            have hz : z = opening := by simpa using (congrArg List.head? hrest).symm
            exact absurd (by rw [hqa, hz]; simp) hq'
        · exact .inr ⟨hw, ⟨c', c, by rw [hv, List.append_assoc]⟩⟩
  | @other x v ws missed _ ih =>
    rw [ih]
    refine and_congr_right fun hw => ⟨fun hin => hin.trans (List.suffix_cons x v).isInfix, fun hin => ?_⟩
    rcases List.infix_cons_iff.1 hin with hp | hin
    · exact absurd hp (missed w hw)
    · exact hin

/-- **A mark is found exactly where it stands.** -/
theorem Delimited.mem_findall_iff (h : r.Delimited opening) :
    w ∈ r.findall text ↔ r.Texts w ∧ w <:+: text := h.mem_iff_of_reads (h.reads_findall text)

/-! ## Texts put together -/

/-- Characters that open no mark are passed over. -/
theorem Delimited.findall_unopened (h : r.Delimited opening) (hu : opening ∉ u) :
    r.findall (u ++ v) = r.findall v := by
  induction u with
  | nil => rfl
  | cons x u ih =>
    obtain ⟨hx, hu⟩ := not_or.1 (mt List.mem_cons.2 hu)
    rw [← ih hu]
    refine h.findall_eq_iff.2 (.other (fun w hw hp => hx ?_) (h.reads_findall _))
    obtain ⟨w', rfl, -⟩ := h.opened w hw
    exact (List.cons_prefix_cons.1 hp).1

theorem Delimited.findall_mark (h : r.Delimited opening) (hw : r.Texts w) :
    r.findall (w ++ v) = w :: r.findall v :=
  h.findall_eq_iff.2 (.mark hw (h.reads_findall v))

theorem Delimited.reads_part (h : r.Delimited opening) {s : Char} (hs : ∀ w, r.Texts w → s ∉ w)
    (hu : Reads r u us) (hv : Reads r v vs) : Reads r (u ++ s :: v) (us ++ vs) := by
  induction hu with
  | nil =>
    refine .other (fun w hw hp => ?_) hv
    obtain ⟨w', rfl, -⟩ := h.opened w hw
    exact hs _ hw ((List.cons_prefix_cons.1 hp).1 ▸ List.mem_cons_self)
  | @mark w u us hw _ ih =>
    rw [List.append_assoc]
    exact .mark hw ih
  | @other x u us missed _ ih =>
    refine .other (fun w hw ⟨v', hp⟩ => ?_) ih
    rcases List.append_eq_append_iff.1 (show w ++ v' = (x :: u) ++ s :: v from hp) with
      ⟨a, hu, -⟩ | ⟨c, hw', hv⟩
    · exact missed w hw ⟨a, hu.symm⟩
    · cases c with
      | nil => exact missed w hw ⟨[], by simp [hw']⟩
      | cons y c =>
        obtain rfl := (List.cons.inj hv).1
        exact hs w hw (by simp [hw'])

/-- **A character that no mark has parts the text.** -/
theorem Delimited.findall_part (h : r.Delimited opening) {s : Char} (hs : ∀ w, r.Texts w → s ∉ w)
    (u v : List Char) : r.findall (u ++ s :: v) = r.findall u ++ r.findall v :=
  h.findall_eq_iff.2 (h.reads_part hs (h.reads_findall u) (h.reads_findall v))

/-- Characters of no mark may be written by others, as long as the first of these is of no mark and the
    rest opens none. -/
theorem Delimited.findall_flatMap (h : r.Delimited opening) {write : Char → List Char}
    (hwrite : ∀ x, write x = [x] ∨ (∀ w, r.Texts w → x ∉ w) ∧
      ∃ s v, write x = s :: v ∧ opening ∉ v ∧ ∀ w, r.Texts w → s ∉ w) (u text : List Char) :
    r.findall (u ++ text.flatMap write) = r.findall (u ++ text) := by
  induction text generalizing u with
  | nil => rfl
  | cons x text ih =>
    rw [List.flatMap_cons]
    rcases hwrite x with hx | ⟨hx, s, v, hv, hopening, hs⟩
    · rw [hx, ← List.append_assoc, ih, List.append_assoc, List.singleton_append]
    · rw [hv, List.cons_append, h.findall_part hs, h.findall_unopened hopening, h.findall_part hx]
      exact congrArg (r.findall u ++ ·) (ih [])

end Delimited

end Regex
