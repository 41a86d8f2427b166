import Mathlib.Data.Nat.Notation

set_option autoImplicit false

/-! # Text as Python has it

A `str` is a sequence of code points. `isSpace` is the whitespace of `str.isspace`, of `str.strip`
and of the pattern class `\s`, `isWord` is the class `\w`.

White space is listed in full. Of the letters and digits beyond ASCII nothing is needed but that
they are told apart from the rest in one way throughout, so the class of these is a parameter. Case
is ignored as `re.IGNORECASE` does it, under which four characters beyond ASCII pass for a
letter. -/

namespace Python

/-- `str.isspace` of one character. -/
def isSpace (c : Char) : Bool :=
  let n := c.toNat
  (9 ≤ n && n ≤ 13) || (28 ≤ n && n ≤ 32) || n = 0x85 || n = 0xa0 || n = 0x1680 ||
    (0x2000 ≤ n && n ≤ 0x200a) || n = 0x2028 || n = 0x2029 || n = 0x202f || n = 0x205f ||
    n = 0x3000

/-- `\w`; `wide` says which characters beyond ASCII are of it. -/
def isWord (wide : Char → Bool) (c : Char) : Bool :=
  if c.toNat < 128 then c.isAlphanum || c = '_' else wide c

/-- The ASCII letter that `(?i)` takes the character for, or the character. Beyond the capitals these are
    the Kelvin sign, the capital i with a dot, the small one without and the long s. -/
def ignoreCase (c : Char) : Char :=
  let n := c.toNat
  if n = 0x212a then 'k' else if n = 0x130 || n = 0x131 then 'i' else if n = 0x17f then 's' else c.toLower

/-- `not text.strip()`. -/
def isBlank (text : String) : Bool := text.toList.all isSpace

/-! ## Characters of these classes -/

section Characters

variable {x : Char}

theorem ignoreCase_eq_self (hupper : ¬(65 ≤ x.toNat ∧ x.toNat ≤ 90)) (hkelvin : x.toNat ≠ 0x212a)
    (hi : x.toNat ≠ 0x130 ∧ x.toNat ≠ 0x131) (hlong : x.toNat ≠ 0x17f) : ignoreCase x = x := by
  have hupper : ¬(x.val ≥ 'A'.val ∧ x.val ≤ 'Z'.val) := fun ⟨hA, hZ⟩ =>
    hupper ⟨UInt32.le_iff_toNat_le.1 hA, UInt32.le_iff_toNat_le.1 hZ⟩
  have hlower : x.toLower = x := dif_neg hupper
  rw [ignoreCase, if_neg hkelvin, if_neg (by simp [hi]), if_neg hlong, hlower]

theorem isWord_of_isDigit {wide : Char → Bool} (h : x.isDigit) : isWord wide x := by
  have hsmall : x.toNat ≤ 57 := by
    simp only [Char.isDigit, Bool.and_eq_true, decide_eq_true_eq] at h
    exact UInt32.le_iff_toNat_le.1 h.2
  simp [isWord, show x.toNat < 128 by omega, Char.isAlphanum, h]

/-- The digits are the first characters of `\w`. -/
theorem isWord_eq_false_of_lt {wide : Char → Bool} (h : x.toNat < 48) : isWord wide x = false := by
  have hlt (y : Char) (hy : 48 ≤ y.toNat) : decide (x.val ≥ y.val) = false := decide_eq_false fun hge => by
    have hle : y.toNat ≤ x.toNat := UInt32.le_iff_toNat_le.1 hge
    omega
  have hne : x ≠ '_' := by
    rintro rfl
    exact absurd h (by decide)
  have hupper : x.isUpper = false :=
    decide_eq_false fun ⟨hge, _⟩ => of_decide_eq_false (hlt 'A' (by decide)) hge
  have hlower : x.isLower = false := Bool.and_eq_false_iff.2 (.inl (hlt 'a' (by decide)))
  have hdigit : x.isDigit = false := Bool.and_eq_false_iff.2 (.inl (hlt '0' (by decide)))
  have halphanum : x.isAlphanum = false := by
    show ((x.isUpper || x.isLower) || x.isDigit) = false
    rw [hupper, hlower, hdigit]
    rfl
  simp [isWord, show x.toNat < 128 by omega, halphanum, hne]

end Characters

end Python
