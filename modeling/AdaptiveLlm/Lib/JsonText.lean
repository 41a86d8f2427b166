import AdaptiveLlm.Lib.Json
import Mathlib.Data.List.Sort
import Mathlib.Tactic.FinCases

set_option autoImplicit false

/-! # JSON as text

`dump` writes a value the way `json.dumps` does: with or without the escapes that keep the text ASCII,
with or without a space after the separators. `loads` reads a text by recursive descent, as
`json.loads` does; of two fields with one name the last wins. A float is written and read by a
`FloatFormat`.

Numbers and the characters of a string are read back from what is written of them, whatever escape
stands for a character.

A `FloatFormat` has what the reader relies on: the text of a float is a number with a fraction or an
exponent, and it is read as the float that was written. No digits are prescribed, so it stands for
the shortest decimals of Python as well as for any other exact notation. -/

namespace JsonText

/-! ## Numbers -/

/-- `0`, or digits of which the first is not `0`. -/
def scanWhole : List Char → Option (List Char × List Char)
  | [] => none
  | c :: rest =>
    if c = '0' then some (['0'], rest)
    else if c.isDigit then
      some (c :: rest.takeWhile Char.isDigit, rest.dropWhile Char.isDigit)
    else none

/-- A point with digits after it, or nothing. -/
def scanFraction (text : List Char) : List Char × List Char :=
  match text with
  | [] => ([], [])
  | c :: rest =>
    if c = '.' ∧ rest.takeWhile Char.isDigit ≠ [] then
      ('.' :: rest.takeWhile Char.isDigit, rest.dropWhile Char.isDigit)
    else ([], text)

/-- A sign, if there is one. -/
def scanSign (plus : Bool) (text : List Char) : List Char × List Char :=
  match text with
  | [] => ([], [])
  | c :: rest => if c = '-' ∨ plus ∧ c = '+' then ([c], rest) else ([], text)

/-- An exponent, or nothing. -/
def scanExponent (text : List Char) : List Char × List Char :=
  match text with
  | [] => ([], [])
  | c :: rest =>
    let (sign, digits) := scanSign true rest
    if (c = 'e' ∨ c = 'E') ∧ digits.takeWhile Char.isDigit ≠ [] then
      (c :: sign ++ digits.takeWhile Char.isDigit, digits.dropWhile Char.isDigit)
    else ([], text)

/-- The number a text begins with, and whether it is a float. -/
structure Scanned where
  lexeme : List Char
  isFloat : Bool
  rest : List Char

/-- A number of the JSON grammar and the text behind it. -/
def scanNumber (text : List Char) : Option Scanned := do
  let (sign, text) := scanSign false text
  let (whole, rest) ← scanWhole text
  let (fraction, rest) := scanFraction rest
  let (exponent, rest) := scanExponent rest
  some
    { lexeme := sign ++ whole ++ fraction ++ exponent
      isFloat := !(fraction ++ exponent).isEmpty
      rest }

/-- A number ends before this text. -/
def Follow (rest : List Char) : Prop :=
  ∀ c ∈ rest.head?, c.isDigit = false ∧ c ∉ ['.', 'e', 'E']

/-- How floats are written and read; `none` is what a double cannot hold. -/
structure FloatFormat where
  repr : Double → List Char
  read : List Char → Option Double
  scan_repr : ∀ x rest, Follow rest →
    scanNumber (repr x ++ rest) = some { lexeme := repr x, isFloat := true, rest }
  read_repr : ∀ x, read (repr x) = some x

/-- An integer in decimal. -/
def dumpInt (n : ℤ) : List Char :=
  (if n < 0 then ['-'] else []) ++ Nat.toDigits 10 n.natAbs

/-- `int(lexeme)`. -/
def readInt : List Char → ℤ
  | [] => 0
  | c :: rest => if c = '-' then -(Nat.ofDigitChars 10 rest 0) else Nat.ofDigitChars 10 (c :: rest) 0

/-! ## Characters of a string -/

/-- Four hexadecimal digits. -/
def hexDigits (n : ℕ) : List Char :=
  [(n / 4096 % 16).digitChar, (n / 256 % 16).digitChar, (n / 16 % 16).digitChar, (n % 16).digitChar]

/-- `\uXXXX`. -/
def unicodeEscape (n : ℕ) : List Char := '\\' :: 'u' :: hexDigits n

/-- The characters with an escape of their own, and its letter. -/
def shortEscapes : List (Char × Char) :=
  [('"', '"'), ('\\', '\\'), ('\n', 'n'), ('\r', 'r'), ('\t', 't'), ('\x08', 'b'), ('\x0c', 'f')]

/-- How a character is written in a string. -/
def escapeChar (ascii : Bool) (c : Char) : List Char :=
  match shortEscapes.lookup c with
  | some letter => ['\\', letter]
  | none =>
    if c.toNat < 0x20 then unicodeEscape c.toNat
    else if ascii = true ∧ 0x7e < c.toNat then
      if c.toNat < 0x10000 then unicodeEscape c.toNat
      else unicodeEscape (0xd800 + (c.toNat - 0x10000) / 1024) ++
        unicodeEscape (0xdc00 + (c.toNat - 0x10000) % 1024)
    else [c]

/-- The value of a hexadecimal digit of either case. -/
def hexValue (c : Char) : Option ℕ :=
  if c.isDigit then some (c.toNat - 48)
  else if 'a' ≤ c ∧ c ≤ 'f' then some (c.toNat - 87)
  else if 'A' ≤ c ∧ c ≤ 'F' then some (c.toNat - 55)
  else none

/-- The value of four of them. -/
def readHexDigits : List Char → Option (ℕ × List Char)
  | a :: b :: c :: d :: rest => do
    some ((← hexValue a) * 4096 + (← hexValue b) * 256 + (← hexValue c) * 16 + (← hexValue d), rest)
  | _ => none

/-- What follows `\u`. The code units of a surrogate pair are one character; half a pair is none. -/
def readUnicode (text : List Char) : Option (Char × List Char) := do
  let (unit, rest) ← readHexDigits text
  if unit < 0xd800 ∨ 0xe000 ≤ unit then some (Char.ofNat unit, rest)
  else if 0xdc00 ≤ unit then none
  else match rest with
    | '\\' :: 'u' :: rest => do
      let (low, rest) ← readHexDigits rest
      if 0xdc00 ≤ low ∧ low < 0xe000 then
        some (Char.ofNat (0x10000 + (unit - 0xd800) * 1024 + (low - 0xdc00)), rest)
      else none
    | _ => none

/-- What follows a backslash. -/
def readEscape : List Char → Option (Char × List Char)
  | [] => none
  | c :: rest =>
    if c = 'u' then readUnicode rest
    else if c = '/' then some ('/', rest)
    else (shortEscapes.find? (·.2 = c)).map fun escape => (escape.1, rest)

/-- A character of a string, of which control characters are none. -/
def readChar : List Char → Option (Char × List Char)
  | [] => none
  | c :: rest =>
    if c = '\\' then readEscape rest else if c.toNat < 0x20 then none else some (c, rest)

/-- A string to its closing quote. -/
def readString : ℕ → List Char → Option (List Char × List Char)
  | 0, _ => none
  | fuel + 1, text =>
    if text.head? = some '"' then some ([], text.tail)
    else do
      let (c, rest) ← readChar text
      let (cs, rest) ← readString fuel rest
      some (c :: cs, rest)

/-! ## Writing -/

/-- How a dump writes: with `ensure_ascii` or not, with spaces after the separators or not. -/
structure Style where
  ascii : Bool
  spaced : Bool

/-- `separators=(",", ":"), ensure_ascii=False`. -/
def Style.compact : Style := { ascii := false, spaced := false }

/-- The style of `json.dumps` without arguments. -/
def Style.default : Style := { ascii := true, spaced := true }

section Dump

variable (fmt : FloatFormat) (style : Style)

/-- The space behind a separator, if there is one. -/
def space : List Char := if style.spaced then [' '] else []

/-- A text in quotes, with its escapes. -/
def quote (s : List Char) : List Char := '"' :: s.flatMap (escapeChar style.ascii) ++ ['"']

mutual

/-- `json.dumps`. -/
def dump : Json → List Char
  | .null => "null".toList
  | .bool true => "true".toList
  | .bool false => "false".toList
  | .num n => dumpInt n
  | .float x => fmt.repr x
  | .str s => quote style s.toList
  | .arr [] => "[]".toList
  | .arr (j :: rest) => '[' :: dump j ++ dumpItems rest
  | .obj [] => "{}".toList
  | .obj ((name, j) :: rest) =>
    '{' :: quote style name.toList ++ ':' :: space style ++ dump j ++ dumpFields rest

/-- The items after the first, and the bracket. -/
def dumpItems : List Json → List Char
  | [] => [']']
  | j :: rest => ',' :: space style ++ dump j ++ dumpItems rest

/-- The fields behind the first one, to the closing brace. -/
def dumpFields : List (String × Json) → List Char
  | [] => ['}']
  | (name, j) :: rest =>
    ',' :: space style ++ quote style name.toList ++ ':' :: space style ++ dump j ++ dumpFields rest

end

end Dump

/-! ## Reading

The reader is `json.loads` without its hooks: whitespace between the parts, one value, nothing
behind it. Fuel stands in for the recursion, and one more than the length of the text is enough for
all that the writer prints. -/

/-- The whitespace of JSON. -/
def isSpace (c : Char) : Bool := c = ' ' || c = '\t' || c = '\n' || c = '\r'

/-- The text behind the whitespace. -/
def skip (text : List Char) : List Char := text.dropWhile isSpace

/-- A word that stands for a value. -/
def literal (word : List Char) (j : Json) (text : List Char) : Option (Json × List Char) :=
  if word.isPrefixOf text then some (j, text.drop word.length) else none

section Load

variable (fmt : FloatFormat)

/-- A number: an integer, or a float that the format reads. -/
def readNumber (text : List Char) : Option (Json × List Char) := do
  let scanned ← scanNumber text
  if scanned.isFloat then some (.float (← fmt.read scanned.lexeme), scanned.rest)
  else some (.num (readInt scanned.lexeme), scanned.rest)

/-- A value that is no text, array or object. -/
def readScalar (text : List Char) : Option (Json × List Char) :=
  literal "null".toList .null text <|> literal "true".toList (.bool true) text <|>
    literal "false".toList (.bool false) text <|> readNumber fmt text

mutual

/-- A value and the text behind it. The fuel bounds the depth and the number of items. -/
def readValue : ℕ → List Char → Option (Json × List Char)
  | 0, _ => none
  | fuel + 1, text =>
    match skip text with
    | [] => none
    | c :: rest =>
      if c = '"' then do
        let (s, rest) ← readString (rest.length + 1) rest
        some (.str (String.ofList s), rest)
      else if c = '[' then
        if (skip rest).head? = some ']' then some (.arr [], (skip rest).tail)
        else do
          let (j, rest) ← readValue fuel rest
          let (items, rest) ← readItems fuel rest
          some (.arr (j :: items), rest)
      else if c = '{' then
        if (skip rest).head? = some '}' then some (.obj [], (skip rest).tail)
        else do
          let (f, rest) ← readField fuel rest
          let (fields, rest) ← readFields fuel rest
          some (.obj (Json.setFields (f :: fields) []), rest)
      else readScalar fmt (c :: rest)

/-- The items after the first, and the bracket. -/
def readItems : ℕ → List Char → Option (List Json × List Char)
  | 0, _ => none
  | fuel + 1, text =>
    match skip text with
    | [] => none
    | c :: rest =>
      if c = ']' then some ([], rest)
      else if c = ',' then do
        let (j, rest) ← readValue fuel rest
        let (items, rest) ← readItems fuel rest
        some (j :: items, rest)
      else none

/-- A field of an object, -/
def readField : ℕ → List Char → Option ((String × Json) × List Char)
  | 0, _ => none
  | fuel + 1, text =>
    match skip text with
    | [] => none
    | c :: rest =>
      if c = '"' then do
        let (name, rest) ← readString (rest.length + 1) rest
        match skip rest with
        | [] => none
        | c :: rest =>
          if c = ':' then do
            let (j, rest) ← readValue fuel rest
            some ((String.ofList name, j), rest)
          else none
      else none

/-- and all of them, to the closing brace. -/
def readFields : ℕ → List Char → Option (List (String × Json) × List Char)
  | 0, _ => none
  | fuel + 1, text =>
    match skip text with
    | [] => none
    | c :: rest =>
      if c = '}' then some ([], rest)
      else if c = ',' then do
        let (f, rest) ← readField fuel rest
        let (fields, rest) ← readFields fuel rest
        some (f :: fields, rest)
      else none

end

/-- `json.loads`: one value and whitespace around it. -/
def loads (text : List Char) : Option Json := do
  let (j, rest) ← readValue fmt (text.length + 1) text
  if skip rest = [] then some j else none

end Load

/-! ## Numbers come back

A number ends where a character follows that no number has. This is so for what the writer puts
behind one, a comma, a bracket or the end, so the digits that are read are those that were written.
-/

theorem follow_nil : Follow [] := by
  intro c hc
  cases hc

theorem follow_cons {c : Char} {rest : List Char}
    (h : c.isDigit = false ∧ c ∉ ['.', 'e', 'E']) : Follow (c :: rest) := by
  intro d hd
  cases hd
  exact h

/-- Digits end before a text that begins with none. -/
theorem span_digits {digits rest : List Char} (hdigits : ∀ c ∈ digits, c.isDigit = true)
    (hrest : ∀ c ∈ rest.head?, c.isDigit = false) :
    (digits ++ rest).takeWhile Char.isDigit = digits ∧
      (digits ++ rest).dropWhile Char.isDigit = rest := by
  induction digits with
  | nil =>
    cases rest with
    | nil => exact ⟨rfl, rfl⟩
    | cons c rest =>
      have hc : c.isDigit = false := hrest c rfl
      simp [hc]
  | cons c digits ih =>
    have hc : c.isDigit = true := hdigits c List.mem_cons_self
    have hdigits' := ih fun d hd => hdigits d (List.mem_cons_of_mem c hd)
    simp [hc, hdigits'.1, hdigits'.2]

theorem scanFraction_follow {rest : List Char} (h : Follow rest) : scanFraction rest = ([], rest) := by
  cases rest with
  | nil => rfl
  | cons c rest =>
    have hc : c ≠ '.' := fun hc => (h c rfl).2 (by simp [hc])
    simp [scanFraction, hc]

theorem scanExponent_follow {rest : List Char} (h : Follow rest) : scanExponent rest = ([], rest) := by
  cases rest with
  | nil => rfl
  | cons c rest =>
    have he : c ≠ 'e' := fun hc => (h c rfl).2 (by simp [hc])
    have hE : c ≠ 'E' := fun hc => (h c rfl).2 (by simp [hc])
    simp [scanExponent, he, hE]

/-- The first digit is `0` of zero only. -/
theorem toDigits_cons (n : ℕ) :
    ∃ c rest, Nat.toDigits 10 n = c :: rest ∧ c.isDigit = true ∧ (c = '0' → rest = []) := by
  induction n using Nat.strong_induction_on with
  | _ n ih =>
    by_cases hn : n < 10
    · refine ⟨n.digitChar, [], Nat.toDigits_of_lt_base hn, ?_, fun _ => rfl⟩
      exact Nat.isDigit_of_mem_toDigits (by decide) (le_refl 10)
        (by rw [Nat.toDigits_of_lt_base hn]; exact List.mem_singleton_self _)
    · obtain ⟨c, rest, hdigits, hc, hzero⟩ := ih (n / 10) (by omega)
      refine ⟨c, rest ++ [(n % 10).digitChar], ?_, hc, fun h => ?_⟩
      · rw [Nat.toDigits_of_base_le (by decide) (by omega), hdigits]
        rfl
      · -- then `n / 10` would be `0`
        exfalso
        have hvalue := Nat.ofDigitChars_ten_toDigits (n := n / 10)
        rw [hdigits, hzero h, h] at hvalue
        have : (0 : ℕ) = n / 10 := hvalue
        omega

theorem scanWhole_toDigits (n : ℕ) {rest : List Char} (h : ∀ c ∈ rest.head?, c.isDigit = false) :
    scanWhole (Nat.toDigits 10 n ++ rest) = some (Nat.toDigits 10 n, rest) := by
  have hdigits : ∀ c ∈ Nat.toDigits 10 n, c.isDigit = true := fun c hc =>
    Nat.isDigit_of_mem_toDigits (by decide) (le_refl 10) hc
  obtain ⟨c, digits, hcons, hc, hzero⟩ := toDigits_cons n
  rw [hcons] at hdigits ⊢
  have hspan := span_digits (fun d hd => hdigits d (List.mem_cons_of_mem c hd)) h
  rw [List.cons_append, scanWhole]
  by_cases hc0 : c = '0'
  · rw [if_pos hc0, hzero hc0, hc0]
    rfl
  · rw [if_neg hc0, if_pos hc, hspan.1, hspan.2]

theorem scanNumber_dumpInt (n : ℤ) {rest : List Char} (h : Follow rest) :
    scanNumber (dumpInt n ++ rest) = some { lexeme := dumpInt n, isFloat := false, rest } := by
  have hwhole := scanWhole_toDigits n.natAbs fun c hc => (h c hc).1
  have hsign : scanSign false (dumpInt n ++ rest) =
      (if n < 0 then ['-'] else [], Nat.toDigits 10 n.natAbs ++ rest) := by
    unfold dumpInt
    split
    · rfl
    · obtain ⟨c, digits, hcons, hc, -⟩ := toDigits_cons n.natAbs
      have hminus : c ≠ '-' := by
        rintro rfl
        cases hc
      rw [hcons]
      simp [scanSign, hminus]
  simp only [scanNumber, hsign, hwhole, Option.bind_eq_bind, Option.bind_some]
  rw [scanFraction_follow h, scanExponent_follow h]
  simp [dumpInt]

theorem readInt_dumpInt (n : ℤ) : readInt (dumpInt n) = n := by
  have hvalue := Nat.ofDigitChars_ten_toDigits (n := n.natAbs)
  unfold dumpInt
  split
  · show -((Nat.ofDigitChars 10 (Nat.toDigits 10 n.natAbs) 0 : ℕ) : ℤ) = n
    rw [hvalue]
    omega
  · obtain ⟨c, digits, hcons, hc, -⟩ := toDigits_cons n.natAbs
    have hminus : c ≠ '-' := by
      rintro rfl
      cases hc
    rw [hcons] at hvalue ⊢
    rw [List.nil_append, readInt, if_neg hminus, hvalue]
    omega

/-- A number begins with a sign or a digit. -/
theorem head_of_scanNumber {text : List Char} {scanned : Scanned}
    (h : scanNumber text = some scanned) :
    ∃ c rest, text = c :: rest ∧ (c = '-' ∨ c.isDigit = true) := by
  cases text with
  | nil => cases h
  | cons c rest =>
    refine ⟨c, rest, rfl, ?_⟩
    by_contra hc
    obtain ⟨hminus, hdigit⟩ := not_or.1 hc
    have hzero : c ≠ '0' := by
      rintro rfl
      exact hdigit rfl
    simp [scanNumber, scanSign, scanWhole, hminus, hdigit, hzero] at h

/-! ## Characters come back

A character is written as itself, with a short escape, or with its code in four digits, twice where
it lies beyond the basic plane. The reader joins the two halves again, and since a character is
never half a pair there is no other way to read them. -/

theorem hexValue_digitChar : ∀ d < 16, hexValue d.digitChar = some d := by
  decide

theorem readHexDigits_hexDigits {n : ℕ} (h : n < 0x10000) (rest : List Char) :
    readHexDigits (hexDigits n ++ rest) = some (n, rest) := by
  have h4 := hexValue_digitChar (n / 4096 % 16) (by omega)
  have h3 := hexValue_digitChar (n / 256 % 16) (by omega)
  have h2 := hexValue_digitChar (n / 16 % 16) (by omega)
  have h1 := hexValue_digitChar (n % 16) (by omega)
  have hsum : n / 4096 % 16 * 4096 + n / 256 % 16 * 256 + n / 16 % 16 * 16 + n % 16 = n := by omega
  simp [hexDigits, readHexDigits, h4, h3, h2, h1, hsum]

theorem toNat_lt (c : Char) : c.toNat < 0x110000 := by
  rcases c.valid with h | h
  · exact lt_trans h (by decide)
  · exact h.2

/-- A character is no half of a surrogate pair. -/
theorem toNat_surrogate (c : Char) : c.toNat < 0xd800 ∨ 0xe000 ≤ c.toNat := by
  rcases c.valid with h | h
  · exact .inl h
  · exact .inr h.1

theorem readUnicode_unit {c : Char} (h : c.toNat < 0x10000) (rest : List Char) :
    readUnicode (hexDigits c.toNat ++ rest) = some (c, rest) := by
  rw [readUnicode, readHexDigits_hexDigits h]
  show (if c.toNat < 0xd800 ∨ 0xe000 ≤ c.toNat then some (Char.ofNat c.toNat, rest) else _) = _
  rw [if_pos (toNat_surrogate c), Char.ofNat_toNat]

/-- Two escapes with the halves of a surrogate pair are one character. -/
theorem readUnicode_surrogates {high low : ℕ} (hhigh : 0xd800 ≤ high ∧ high < 0xdc00)
    (hlow : 0xdc00 ≤ low ∧ low < 0xe000) (rest : List Char) :
    readUnicode (hexDigits high ++ (unicodeEscape low ++ rest)) =
      some (Char.ofNat (0x10000 + (high - 0xd800) * 1024 + (low - 0xdc00)), rest) := by
  have hreadHigh := readHexDigits_hexDigits (n := high) (by omega) (unicodeEscape low ++ rest)
  have hreadLow := readHexDigits_hexDigits (n := low) (by omega) rest
  simp only [readUnicode, hreadHigh, Option.bind_eq_bind, Option.bind_some]
  rw [if_neg (by omega), if_neg (by omega)]
  simp only [unicodeEscape, List.cons_append, hreadLow, Option.bind_some]
  rw [if_pos hlow]

theorem readUnicode_pair {c : Char} (h : 0x10000 ≤ c.toNat) (rest : List Char) :
    readUnicode (hexDigits (0xd800 + (c.toNat - 0x10000) / 1024) ++
      (unicodeEscape (0xdc00 + (c.toNat - 0x10000) % 1024) ++ rest)) = some (c, rest) := by
  have hc := toNat_lt c
  have hsum : 0x10000 + (0xd800 + (c.toNat - 0x10000) / 1024 - 0xd800) * 1024 +
      (0xdc00 + (c.toNat - 0x10000) % 1024 - 0xdc00) = c.toNat := by omega
  rw [readUnicode_surrogates (by omega) (by omega), hsum, Char.ofNat_toNat]

theorem readEscape_short : ∀ escape ∈ shortEscapes, ∀ rest,
    readEscape (escape.2 :: rest) = some (escape.1, rest) := by
  intro escape hescape rest
  fin_cases hescape <;> rfl

theorem mem_of_lookup {escapes : List (Char × Char)} {c letter : Char}
    (h : escapes.lookup c = some letter) : (c, letter) ∈ escapes := by
  obtain ⟨before, after, rfl, -⟩ := List.lookup_eq_some_iff.1 h
  simp

/-- **Characters.** Whatever escape a character is written with, it is read back. -/
theorem readChar_escapeChar (ascii : Bool) (c : Char) (rest : List Char) :
    readChar (escapeChar ascii c ++ rest) = some (c, rest) := by
  unfold escapeChar
  split
  next letter hletter => exact readEscape_short (c, letter) (mem_of_lookup hletter) rest
  next hletter =>
    have hbackslash : c ≠ '\\' := by
      rintro rfl
      cases hletter
    split_ifs with hcontrol hascii hunit
    · exact readUnicode_unit (lt_trans hcontrol (by decide)) rest
    · exact readUnicode_unit hunit rest
    · rw [List.append_assoc]
      exact readUnicode_pair (Nat.le_of_not_lt hunit) rest
    · show (if c = '\\' then _ else if c.toNat < 0x20 then none else some (c, rest)) = _
      rw [if_neg hbackslash, if_neg hcontrol]

theorem head_escapeChar (ascii : Bool) (c : Char) :
    ∃ d rest, escapeChar ascii c = d :: rest ∧ d ≠ '"' := by
  unfold escapeChar
  split
  next => exact ⟨_, _, rfl, by decide⟩
  next hletter =>
    have hquote : c ≠ '"' := by
      rintro rfl
      cases hletter
    split_ifs
    · exact ⟨_, _, rfl, by decide⟩
    · exact ⟨_, _, rfl, by decide⟩
    · exact ⟨_, _, rfl, by decide⟩
    · exact ⟨_, _, rfl, hquote⟩

theorem readString_escaped (ascii : Bool) (s rest : List Char) {fuel : ℕ} (h : s.length < fuel) :
    readString fuel (s.flatMap (escapeChar ascii) ++ '"' :: rest) = some (s, rest) := by
  induction s generalizing fuel with
  | nil =>
    obtain ⟨fuel, rfl⟩ := Nat.exists_eq_succ_of_ne_zero (Nat.ne_of_gt h)
    rfl
  | cons c s ih =>
    obtain ⟨fuel, rfl⟩ := Nat.exists_eq_succ_of_ne_zero (Nat.ne_of_gt (Nat.zero_lt_of_lt h))
    obtain ⟨d, tail, hhead, hd⟩ := head_escapeChar ascii c
    have hquote : ¬ (escapeChar ascii c ++ (s.flatMap (escapeChar ascii) ++ '"' :: rest)).head? =
        some '"' := by
      rw [hhead]
      simpa using hd
    rw [List.flatMap_cons, List.append_assoc, readString, if_neg hquote, readChar_escapeChar]
    show (readString fuel _).bind _ = _
    rw [ih (Nat.lt_of_succ_lt_succ h)]
    rfl

end JsonText
