import Mathlib.Data.List.Infix

set_option autoImplicit false

/-! # Replacing in a text

`str.replace`: the occurrences from left to right, none overlapping the one before. A text that has
nothing in common with what is written is in the result only if it was in the text, and what is
replaced is in it no more.

The scan skips over what it has replaced, so the inductions are on the text together with how many
characters are still to be skipped. The results are the ones a neutraliser needs: the replacement
creates nothing that was not there, as long as what is looked for has no character in common with
what is written, and where both are of one length the text keeps its length. -/

namespace Python

variable {α : Type*} [DecidableEq α]

/-- The text behind `skip` elements of an occurrence. -/
def replaceFrom (old new : List α) : ℕ → List α → List α
  | _, [] => []
  | skip + 1, _ :: rest => replaceFrom old new skip rest
  | 0, c :: rest =>
    if old.isPrefixOf (c :: rest) then new ++ replaceFrom old new (old.length - 1) rest
    else c :: replaceFrom old new 0 rest

/-- `text.replace(old, new)` of an `old` that is not empty. -/
def replace (old new text : List α) : List α := replaceFrom old new 0 text

section Infix

variable {old new p : List α}

/-- Nothing that is in `new` begins the result, so the result begins as the text does. -/
theorem prefix_of_prefix_replaceFrom (hp : ∀ c ∈ p, c ∉ new) (hnew : new ≠ []) {text : List α}
    (h : p <+: replaceFrom old new 0 text) : p <+: text := by
  induction text generalizing p with
  | nil => exact h
  | cons c rest ih =>
    cases p with
    | nil => exact List.nil_prefix
    | cons d p =>
      rw [replaceFrom] at h
      split at h
      · obtain ⟨e, new, rfl⟩ := List.exists_cons_of_ne_nil hnew
        rw [List.cons_append, List.cons_prefix_cons] at h
        exact absurd (h.1 ▸ List.mem_cons_self) (hp d List.mem_cons_self)
      · rw [List.cons_prefix_cons] at h
        rw [List.cons_prefix_cons]
        exact ⟨h.1, ih (fun c hc => hp c (List.mem_cons_of_mem d hc)) h.2⟩

omit [DecidableEq α] in
theorem infix_of_infix_append (hp : ∀ c ∈ p, c ∉ new) (hne : p ≠ []) {text : List α}
    (h : p <:+: new ++ text) : p <:+: text := by
  induction new with
  | nil => exact h
  | cons e new ih =>
    rw [List.cons_append, List.infix_cons_iff] at h
    rcases h with h | h
    · obtain ⟨d, p, rfl⟩ := List.exists_cons_of_ne_nil hne
      rw [List.cons_prefix_cons] at h
      exact absurd (h.1 ▸ List.mem_cons_self) (hp d List.mem_cons_self)
    · exact ih (fun c hc hmem => hp c hc (List.mem_cons_of_mem e hmem)) h

/-- What is in the result was in the text. -/
theorem infix_of_infix_replaceFrom (hp : ∀ c ∈ p, c ∉ new) (hne : p ≠ []) (hnew : new ≠ []) {skip : ℕ}
    {text : List α} (h : p <:+: replaceFrom old new skip text) : p <:+: text := by
  induction text generalizing skip with
  | nil => cases skip <;> exact h
  | cons c rest ih =>
    cases skip with
    | succ skip => exact (ih h).trans (List.suffix_cons c rest).isInfix
    | zero =>
      by_cases hprefix : p <+: replaceFrom old new 0 (c :: rest)
      · exact (prefix_of_prefix_replaceFrom hp hnew hprefix).isInfix
      rw [replaceFrom] at h hprefix
      split at h
      · exact (ih (infix_of_infix_append hp hne h)).trans (List.suffix_cons c rest).isInfix
      · rename_i hoccurs
        rw [if_neg hoccurs] at hprefix
        rcases List.infix_cons_iff.1 h with h | h
        · exact absurd h hprefix
        · exact (ih h).trans (List.suffix_cons c rest).isInfix

theorem infix_of_infix_replace (hp : ∀ c ∈ p, c ∉ new) (hne : p ≠ []) (hnew : new ≠ []) {text : List α}
    (h : p <:+: replace old new text) : p <:+: text := infix_of_infix_replaceFrom hp hne hnew h

theorem not_infix_replaceFrom (hold : ∀ c ∈ old, c ∉ new) (hne : old ≠ []) (hnew : new ≠ []) (skip : ℕ)
    (text : List α) : ¬old <:+: replaceFrom old new skip text := by
  induction text generalizing skip with
  | nil =>
    cases skip <;> simp [replaceFrom, hne]
  | cons c rest ih =>
    cases skip with
    | succ skip => exact ih skip
    | zero =>
      rw [replaceFrom]
      split
      · exact fun h => ih _ (infix_of_infix_append hold hne h)
      · rename_i hoccurs
        intro h
        rcases List.infix_cons_iff.1 h with h | h
        -- an occurrence in front would be one in the text
        · have hresult : replaceFrom old new 0 (c :: rest) = c :: replaceFrom old new 0 rest := by
            rw [replaceFrom, if_neg hoccurs]
          rw [← hresult] at h
          exact hoccurs (List.isPrefixOf_iff_prefix.2 (prefix_of_prefix_replaceFrom hold hnew h))
        · exact ih 0 h

/-- **What is replaced is gone.** -/
theorem not_infix_replace (hold : ∀ c ∈ old, c ∉ new) (hne : old ≠ []) (hnew : new ≠ []) (text : List α) :
    ¬old <:+: replace old new text := not_infix_replaceFrom hold hne hnew 0 text

end Infix

theorem length_replaceFrom {old new : List α} (hne : old ≠ []) (h : new.length = old.length) (skip : ℕ)
    (text : List α) : (replaceFrom old new skip text).length = text.length - skip := by
  induction text generalizing skip with
  | nil => cases skip <;> simp [replaceFrom]
  | cons c rest ih =>
    cases skip with
    | succ skip => rw [replaceFrom, ih, List.length_cons, Nat.succ_sub_succ]
    | zero =>
      rw [replaceFrom]
      split
      · rename_i hoccurs
        have hpos := List.length_pos_iff.2 hne
        have hle := (List.isPrefixOf_iff_prefix.1 hoccurs).length_le
        rw [List.length_cons] at hle ⊢
        rw [List.length_append, ih, h]
        omega
      · rw [List.length_cons, ih, List.length_cons]
        omega

/-- A replacement by a text of the same length keeps the length. -/
theorem length_replace {old new : List α} (hne : old ≠ []) (h : new.length = old.length) (text : List α) :
    (replace old new text).length = text.length := length_replaceFrom hne h 0 text

example : String.ofList (replace "<<".toList "‹‹".toList "a<<<b".toList) = "a‹‹<b" := by decide

end Python
