import AdaptiveLlm.Policy.Redaction

set_option autoImplicit false

/-! # Redaction before storing

`LocalPersistenceRedactor` (`policy/persistence.py`). It goes over what `ProcessingRedactor` leaves.

The pattern of phone numbers begins with a digit or an area code in brackets, behind a plus or not,
and goes on over digits, spaces and a few marks. What it takes is a number only if it has 7 to 15
digits (`isPhone`), so a window that is too long is kept as a whole. `Policy/PhoneNeighbours.lean`
is about what this does to numbers that stand next to each other. -/

namespace AdaptiveLlm

open Regex Python

namespace LocalPersistenceRedactor

variable (wide : Char → Bool)

/-- `_emails`. -/
def emails : Regex :=
  let name c := isWord wide c || c = '.' || c = '+' || c = '-'
  let host c := isWord wide c || c = '.' || c = '-'
  seq (notBehind name) (seq (plus (one name)) (seq (one fun c => c = '@') (seq (plus (one host))
    (seq (one fun c => c = '.') (seq (rep (one fun c => (ignoreCase c).isLower) 2 none)
      (notAhead host))))))

/-- `[0-9 ().-]`. -/
def isInner (c : Char) : Bool :=
  c.isDigit || c = ' ' || c = '(' || c = ')' || c = '.' || c = '-'

/-- `\([0-9]{2,4}\)`. -/
def areaCode : Regex :=
  seq (one fun c => c = '(') (seq (rep (one Char.isDigit) 2 (some 2)) (one fun c => c = ')'))

/-- What a number begins with. -/
def phoneStart : Regex :=
  seq (notBehind (ProcessingRedactor.joins wide))
    (seq (opt (one fun c => c = '+')) (alt areaCode (one Char.isDigit)))

/-- `_phones`. -/
def phones : Regex :=
  seq (phoneStart wide)
    (seq (rep (one isInner) 5 none) (seq (one Char.isDigit) (notAhead (isWord wide))))

/-- The test of `phone`. -/
def isPhone (value : List Char) : Bool :=
  let digits := value.countP Char.isDigit
  7 ≤ digits && digits ≤ 15

/-- `redact_text`. -/
def redactText (content : List Char) : List Char × Counts :=
  let (text, counts) := ProcessingRedactor.redactText wide content
  let (text, n) := (emails wide).subn (fun _ => true) redacted text
  let counts := counts.add "emails" n
  let (text, n) := (phones wide).subn isPhone redacted text
  (text, counts.add "phones" n)

theorem redactText_eq (text : List Char) : redactText wide text =
    let before := ProcessingRedactor.redactText wide text
    let second := (emails wide).subn (fun _ => true) redacted before.1
    let third := (phones wide).subn isPhone redacted second.1
    (third.1, (before.2.add "emails" second.2).add "phones" third.2) := by
  simp only [redactText]

end LocalPersistenceRedactor

end AdaptiveLlm
