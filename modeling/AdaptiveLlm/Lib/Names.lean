import Mathlib.Data.String.Basic
import Mathlib.Data.Nat.Notation

set_option autoImplicit false

/-! # Dotted names

A name is a key with a dot behind it, and then the rest. A key that has no dot is read off the name, and
the decimal of a number is such a key.

Files of one directory are often named by a number or by a digest with a fixed ending. Two such
names are equal only if the keys and the endings are, which is all that is needed to write many
files under names of this kind without one taking another's place. -/

namespace Names

/-- `name.startswith(pre)`. -/
def startsWith (pre name : String) : Bool := pre.toList.isPrefixOf name.toList

theorem startsWith_append (pre name : String) : startsWith pre (pre ++ name) = true := by
  rw [startsWith, List.isPrefixOf_iff_prefix, String.toList_append]
  exact List.prefix_append _ _

/-- What is behind a prefix: `name[len(pre):]`. -/
def behind (pre name : String) : String := String.ofList (name.toList.drop pre.length)

theorem behind_append (pre name : String) : behind pre (pre ++ name) = name := by
  rw [behind, String.toList_append, ← String.length_toList, List.drop_left, String.ofList_toList]

theorem append_behind {pre name : String} (h : startsWith pre name = true) :
    pre ++ behind pre name = name := by
  rw [startsWith, List.isPrefixOf_iff_prefix] at h
  obtain ⟨rest, hrest⟩ := h
  refine String.toList_injective ?_
  rw [behind, ← hrest, String.toList_append, String.toList_ofList, ← String.length_toList, List.drop_left]

theorem append_injective (pre : String) : Function.Injective (pre ++ · : String → String) :=
  fun _ _ h => (String.append_right_inj _).1 h

theorem ne_of_head {a b : String} (h : a.toList.head? ≠ b.toList.head?) : a ≠ b := by
  rintro rfl
  exact h rfl

/-- A key without the separator is read off a name. -/
theorem eq_of_append_separator {c : Char} {a b rest : List Char} (ha : c ∉ a) (hb : c ∉ b)
    (h : a ++ [c] <+: b ++ c :: rest) : a = b := by
  induction a generalizing b with
  | nil =>
    cases b with
    | nil => rfl
    | cons c' b =>
      rw [List.nil_append, List.cons_append, List.cons_prefix_cons] at h
      rw [← h.1] at hb
      exact absurd List.mem_cons_self hb
  | cons c' a ih =>
    cases b with
    | nil =>
      rw [List.nil_append, List.cons_append, List.cons_prefix_cons] at h
      rw [h.1] at ha
      exact absurd List.mem_cons_self ha
    | cons c'' b =>
      rw [List.cons_append, List.cons_append, List.cons_prefix_cons] at h
      rw [h.1, ih (fun hmem => ha (List.mem_cons_of_mem _ hmem))
        (fun hmem => hb (List.mem_cons_of_mem _ hmem)) h.2]

theorem dot_notMem_toString (n : ℕ) : '.' ∉ (toString n).toList := by
  intro h
  rw [Nat.toString_eq_repr, Nat.toList_repr] at h
  have hdigit := Nat.isDigit_of_mem_toDigits (by decide) (by decide) h
  exact absurd hdigit (by decide)

theorem toString_injective : Function.Injective (toString : ℕ → String) := by
  intro a b h
  rw [Nat.toString_eq_repr, Nat.toString_eq_repr] at h
  have hdigits := congrArg (fun s => Nat.ofDigitChars 10 (String.toList s) 0) h
  simpa only [Nat.toList_repr, Nat.ofDigitChars_ten_toDigits] using hdigits

theorem numbered_injective (pre : String) : Function.Injective fun n : ℕ => pre ++ toString n :=
  (append_injective pre).comp toString_injective

/-- Two numbered names, one a beginning of the other, have one number. -/
theorem eq_of_startsWith {pre : String} {i j : ℕ} {name : String}
    (h : startsWith (pre ++ toString i ++ ".") (pre ++ toString j ++ "." ++ name) = true) : i = j := by
  rw [startsWith, List.isPrefixOf_iff_prefix] at h
  simp only [String.toList_append, List.append_assoc] at h
  have hrest := (List.prefix_append_right_inj _).1 h
  exact toString_injective (String.toList_injective
    (eq_of_append_separator (dot_notMem_toString i) (dot_notMem_toString j) hrest))

end Names
