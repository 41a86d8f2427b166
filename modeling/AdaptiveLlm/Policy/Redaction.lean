import AdaptiveLlm.Lib.Substitution
import AdaptiveLlm.Python.Text
import Mathlib.Algebra.GroupWithZero.Nat

set_option autoImplicit false

/-! # Redaction before processing

`ProcessingRedactor` (`policy/__init__.py`). A text is the list of its characters, and `wide` says
which of those beyond ASCII are in `\w`.

The patterns are transcribed from the source piece by piece, case-insensitive where they are, with
the look-arounds as the pattern language has them. A pass is `subn` of one pattern with the
replacement, counted under the name of the pattern; card numbers are the one pattern whose matches
are tested before they are replaced, by their checksum. -/

namespace AdaptiveLlm

open Regex Python

/-! ## The patterns -/

/-- What stands in the place of what is cut out. -/
def redacted : List Char := "[REDACTED]".toList

theorem redacted_ne_nil : redacted ≠ [] := by decide

/-- A word of a `(?i)` pattern. -/
def keyword (word : String) : Regex := literal (fun c x => ignoreCase x = c) word.toList

/-- `"[^"]*"`, for a quote. -/
def quoted (quote : Char) : Regex :=
  seq (one fun c => c = quote) (seq (star (one fun c => c ≠ quote)) (one fun c => c = quote))

namespace ProcessingRedactor

variable (wide : Char → Bool)

/-- `[\w-]`. -/
def joins (c : Char) : Bool := isWord wide c || c = '-'

/-- The pattern of bearer tokens. -/
def credentials : Regex :=
  let token c := let d := ignoreCase c; d.isLower || d.isDigit || "._~+/=-".toList.contains d
  seq (boundary (isWord wide)) (seq (keyword "bearer") (seq (plus (one isSpace)) (plus (one token))))

/-- The names that a secret stands behind. -/
def secretNames : Regex :=
  alt (seq (keyword "api") (seq (opt (one fun c => c = '_' || c = '-')) (keyword "key")))
    (alt (keyword "secret") (alt (keyword "password")
      (seq (keyword "access") (seq (opt (one fun c => c = '_' || c = '-')) (keyword "token")))))

/-- A quoted value, or one up to the next separator. -/
def secretValue : Regex :=
  alt (quoted '"') (alt (quoted '\x27') (plus (one fun c => !(isSpace c || c = ',' || c = ';'))))

/-- The pattern of named secrets. -/
def secrets : Regex :=
  seq (boundary (isWord wide)) (seq secretNames (seq (star (one isSpace))
    (seq (one fun c => c = ':' || c = '=') (seq (star (one isSpace)) secretValue))))

/-- The pattern of keys that begin with `sk-`. -/
def apiKeys : Regex :=
  let token c := c.isAlphanum || c = '_' || c = '-'
  seq (boundary (isWord wide)) (seq (literal (fun c x => x = c) "sk-".toList)
    (seq (rep (one token) 8 none) (boundary (isWord wide))))

/-- `_patterns`. -/
def patterns : List (String × Regex) :=
  [("credentials", credentials wide), ("secrets", secrets wide), ("api_keys", apiKeys wide)]

/-- `_cards`. -/
def cards : Regex :=
  seq (notBehind (joins wide))
    (seq (rep (seq (one Char.isDigit) (opt (one fun c => c = ' ' || c = '-'))) 12 (some 6))
      (seq (one Char.isDigit) (notAhead (joins wide))))

/-! ## Texts -/

/-- `_is_card`. -/
def isCard (value : List Char) : Bool :=
  let digits := (value.filter Char.isDigit).map fun c => c.toNat - '0'.toNat
  let summand : ℕ × ℕ → ℕ := fun (digit, position) =>
    if position % 2 = 0 then digit else if 2 * digit > 9 then 2 * digit - 9 else 2 * digit
  let total := (digits.reverse.zipIdx.map summand).sum
  total ≠ 0 && total % 10 = 0

end ProcessingRedactor

/-- What was replaced, by name. -/
abbrev Counts := List (String × ℕ)

/-- A replacement that was not made has no entry. The names are different ones. -/
def Counts.add (counts : Counts) (name : String) (n : ℕ) : Counts :=
  if n = 0 then counts else counts ++ [(name, n)]

namespace ProcessingRedactor

variable (wide : Char → Bool)

/-- The loop over `_patterns`. -/
def redactPatterns (content : List Char) : List Char × Counts :=
  (patterns wide).foldl (fun (text, counts) (name, pattern) =>
    let (text, n) := pattern.subn (fun _ => true) redacted text
    (text, counts.add name n)) (content, [])

/-- `redact_text`. -/
def redactText (content : List Char) : List Char × Counts :=
  let (text, counts) := redactPatterns wide content
  let (text, n) := (cards wide).subn isCard redacted text
  (text, counts.add "card_numbers" n)

theorem redactPatterns_eq (text : List Char) : redactPatterns wide text =
    let first := (credentials wide).subn (fun _ => true) redacted text
    let second := (secrets wide).subn (fun _ => true) redacted first.1
    let third := (apiKeys wide).subn (fun _ => true) redacted second.1
    (third.1, ((Counts.add [] "credentials" first.2).add "secrets" second.2).add "api_keys" third.2) := by
  simp only [redactPatterns, patterns, List.foldl_cons, List.foldl_nil]

theorem redactText_snd (text : List Char) : (redactText wide text).2 = (redactPatterns wide text).2.add
    "card_numbers" ((cards wide).subn isCard redacted (redactPatterns wide text).1).2 := by
  simp only [redactText]

theorem redactText_fst (text : List Char) : (redactText wide text).1 =
    ((cards wide).subn isCard redacted (redactPatterns wide text).1).1 := by
  simp only [redactText]

end ProcessingRedactor

end AdaptiveLlm
