import Mathlib.Data.List.Basic
import Mathlib.Data.UInt

set_option autoImplicit false

/-! # Text as bytes

UTF-8, the lines of a byte string, hexadecimal digests and base64, on lists of bytes. Each encoding has
its inverse, and lines without a control character in them are the lines of their concatenation.

A decoder is partial: it gives `none` on bytes that no text has, and the inverse laws are of the
form "what was encoded is decoded". Each encoding is injective for that reason. What a file on disk
has of a text goes through these functions, so that a result about files is one about bytes. -/

namespace Bytes

/-! ## UTF-8

Texts are encoded by the core library's own encoder. What is added is that the encoding can be
undone, and that for ASCII texts the order of the bytes is that of the characters, as a column of a
database compares them. -/

/-- `text.encode()`. -/
def encodeText (text : List Char) : List UInt8 := text.flatMap String.utf8EncodeChar

/-- `bytes.decode()`, or nothing where it is no UTF-8. -/
def decodeText (bytes : List UInt8) : Option (List Char) :=
  bytes.toByteArray.utf8Decode?.map Array.toList

theorem decodeText_encodeText (text : List Char) : decodeText (encodeText text) = some text := by
  show (text.utf8Encode.utf8Decode?).map Array.toList = some text
  rw [List.utf8Decode?_utf8Encode]
  rfl

theorem encodeText_injective : Function.Injective encodeText := by
  intro text text' h
  have hdecode := congrArg decodeText h
  rw [decodeText_encodeText, decodeText_encodeText] at hdecode
  exact Option.some.inj hdecode

/-- The bytes of a character that is no control character are none either. -/
theorem le_of_mem_utf8EncodeChar {c : Char} (h : 0x20 ≤ c.toNat) {b : UInt8}
    (hb : b ∈ String.utf8EncodeChar c) : 0x20 ≤ b.toNat := by
  have hc : 0x20 ≤ c.val.toNat := h
  unfold String.utf8EncodeChar at hb
  dsimp only at hb
  split_ifs at hb <;> simp only [List.mem_cons, List.not_mem_nil, or_false] at hb
  · subst hb
    rw [UInt8.toNat_ofNat']
    omega
  · rcases hb with rfl | rfl <;> rw [UInt8.toNat_ofNat'] <;> omega
  · rcases hb with rfl | rfl | rfl <;> rw [UInt8.toNat_ofNat'] <;> omega
  · rcases hb with rfl | rfl | rfl | rfl <;> rw [UInt8.toNat_ofNat'] <;> omega

theorem le_of_mem_encodeText {text : List Char} (h : ∀ c ∈ text, 0x20 ≤ c.toNat) :
    ∀ b ∈ encodeText text, 0x20 ≤ b.toNat := by
  intro b hb
  obtain ⟨c, hc, hb⟩ := List.mem_flatMap.1 hb
  exact le_of_mem_utf8EncodeChar (h c hc) hb

/-- All characters are ASCII. -/
def Ascii (text : List Char) : Prop := ∀ c ∈ text, c.toNat < 128

@[simp] theorem ascii_nil : Ascii [] := by simp [Ascii]

@[simp] theorem ascii_cons {c : Char} {text : List Char} : Ascii (c :: text) ↔ c.toNat < 128 ∧ Ascii text :=
  List.forall_mem_cons

@[simp] theorem ascii_append {text text' : List Char} : Ascii (text ++ text') ↔ Ascii text ∧ Ascii text' :=
  List.forall_mem_append

/-- An ASCII character is one byte. -/
theorem utf8EncodeChar_of_lt {c : Char} (h : c.toNat < 128) :
    String.utf8EncodeChar c = [c.toNat.toUInt8] := by
  have hc : c.val.toNat ≤ 127 := Nat.le_of_lt_succ h
  unfold String.utf8EncodeChar
  rw [if_pos hc]
  rfl

theorem compare_toUInt8 {c d : Char} (hc : c.toNat < 128) (hd : d.toNat < 128) :
    compare c.toNat.toUInt8 d.toNat.toUInt8 = compare c d := by
  show compareOfLessAndEq c.toNat.toUInt8 d.toNat.toUInt8 = compareOfLessAndEq c d
  have hbyte : ∀ {c : Char}, c.toNat < 128 → c.toNat.toUInt8.toNat = c.toNat := fun h => by
    rw [UInt8.toNat_ofNat', Nat.mod_eq_of_lt (by omega)]
  have hlt : c.toNat.toUInt8 < d.toNat.toUInt8 ↔ c < d := by
    rw [UInt8.lt_iff_toNat_lt, hbyte hc, hbyte hd]
    exact Iff.rfl
  have heq : c.toNat.toUInt8 = d.toNat.toUInt8 ↔ c = d := by
    rw [← UInt8.toNat_inj, hbyte hc, hbyte hd]
    exact Char.toNat_inj
  simp only [compareOfLessAndEq, hlt, heq]

/-- The bytes of ASCII texts compare as the texts do. -/
theorem compare_encodeText {text text' : List Char} (h : Ascii text) (h' : Ascii text') :
    compare (encodeText text) (encodeText text') = compare text text' := by
  induction text generalizing text' with
  | nil =>
    cases text' with
    | nil => rfl
    | cons d text' => simp [encodeText, utf8EncodeChar_of_lt (ascii_cons.1 h').1]
  | cons c text ih =>
    obtain ⟨hc, htext⟩ := ascii_cons.1 h
    cases text' with
    | nil => simp [encodeText, utf8EncodeChar_of_lt hc]
    | cons d text' =>
      obtain ⟨hd, htext'⟩ := ascii_cons.1 h'
      have hrest := ih htext htext'
      simp only [encodeText] at hrest
      simp only [encodeText, List.flatMap_cons, utf8EncodeChar_of_lt hc, utf8EncodeChar_of_lt hd,
        List.singleton_append, List.compare_cons_cons, compare_toUInt8 hc hd, hrest]

/-- The line ends of a text file, as a text-mode read leaves them. -/
def universalNewlines : List Char → List Char
  | [] => []
  | '\r' :: '\n' :: rest => '\n' :: universalNewlines rest
  | c :: rest => (if c = '\r' then '\n' else c) :: universalNewlines rest

theorem universalNewlines_of_not_mem {text : List Char} (h : '\r' ∉ text) :
    universalNewlines text = text := by
  induction text with
  | nil => rfl
  | cons c rest ih =>
    rw [List.mem_cons, not_or] at h
    rw [universalNewlines, ih h.2, if_neg (Ne.symm h.1)]
    rintro rest' rfl
    exact absurd rfl h.1

/-- `path.read_text()`. -/
def readText (bytes : List UInt8) : Option (List Char) := (decodeText bytes).map universalNewlines

theorem readText_encodeText {text : List Char} (h : '\r' ∉ text) :
    readText (encodeText text) = some text := by
  rw [readText, decodeText_encodeText, Option.map_some, universalNewlines_of_not_mem h]

/-! ## Lines

A line is ended by the line feed, and `splitlines` ends lines at other control characters as well.
So lines can be framed if they have no character below the blank. -/

/-- `bytes.splitlines`, with the line read so far. -/
def splitlinesFrom : List UInt8 → List UInt8 → List (List UInt8)
  | [], [] => []
  | b :: line, [] => [b :: line]
  | line, 13 :: 10 :: rest => line :: splitlinesFrom [] rest
  | line, b :: rest =>
    if b = 10 ∨ b = 13 then line :: splitlinesFrom [] rest else splitlinesFrom (line ++ [b]) rest

/-- `bytes.splitlines()`. -/
def splitlines (bytes : List UInt8) : List (List UInt8) := splitlinesFrom [] bytes

theorem splitlinesFrom_line (line rest : List UInt8) {more : List UInt8}
    (h : ∀ b ∈ more, 0x20 ≤ b.toNat) :
    splitlinesFrom line (more ++ 10 :: rest) = (line ++ more) :: splitlinesFrom [] rest := by
  induction more generalizing line with
  | nil =>
    rw [List.nil_append, List.append_nil, splitlinesFrom, if_pos (.inl rfl)]
    simp
  | cons b more ih =>
    have hb := h b List.mem_cons_self
    have h13 : b ≠ 13 := by
      rintro rfl
      exact absurd hb (by decide)
    have h10 : b ≠ 10 := by
      rintro rfl
      exact absurd hb (by decide)
    rw [List.cons_append, splitlinesFrom, if_neg (by simp [h10, h13]),
      ih _ fun b hb => h b (List.mem_cons_of_mem _ hb)]
    · simp
    · rintro rest' rfl
      exact absurd rfl h13

/-- **Framing.** Lines without control characters, each ended by a line feed, are split again. -/
theorem splitlines_flatMap {lines : List (List UInt8)}
    (h : ∀ line ∈ lines, ∀ b ∈ line, 0x20 ≤ b.toNat) :
    splitlines (lines.flatMap fun line => line ++ [10]) = lines := by
  unfold splitlines
  induction lines with
  | nil => rfl
  | cons line lines ih =>
    rw [List.flatMap_cons, List.append_assoc, List.singleton_append,
      splitlinesFrom_line [] _ (h line List.mem_cons_self), List.nil_append,
      ih fun line hline => h line (List.mem_cons_of_mem _ hline)]

/-! ## Digests -/

/-- `digest.hex()`. -/
def hex (bytes : List UInt8) : List Char :=
  bytes.flatMap fun b => [(b.toNat / 16).digitChar, (b.toNat % 16).digitChar]

theorem length_hex (bytes : List UInt8) : (hex bytes).length = 2 * bytes.length := by
  induction bytes with
  | nil => rfl
  | cons b bytes ih =>
    rw [hex, List.flatMap_cons, ← hex, List.length_append, ih, List.length_cons]
    simp
    omega

theorem exists_of_mem_hex {bytes : List UInt8} {c : Char} (h : c ∈ hex bytes) :
    ∃ d < 16, c = d.digitChar := by
  obtain ⟨b, -, hc⟩ := List.mem_flatMap.1 h
  have hb := b.toNat_lt
  rcases List.mem_cons.1 hc with rfl | hc
  · exact ⟨_, by omega, rfl⟩
  · exact ⟨_, by omega, List.mem_singleton.1 hc⟩

theorem digitChar_injOn : ∀ d < 16, ∀ e < 16, d.digitChar = e.digitChar → d = e := by
  decide

theorem hex_injective : Function.Injective hex := by
  intro bytes bytes' h
  induction bytes generalizing bytes' with
  | nil =>
    cases bytes' with
    | nil => rfl
    | cons b bytes' => cases h
  | cons b bytes ih =>
    cases bytes' with
    | nil => cases h
    | cons b' bytes' =>
      simp only [hex, List.flatMap_cons, List.cons_append, List.nil_append, List.cons.injEq] at h
      obtain ⟨hhigh, hlow, hrest⟩ := h
      have hb := b.toNat_lt
      have hb' := b'.toNat_lt
      have hhigh := digitChar_injOn _ (by omega) _ (by omega) hhigh
      have hlow := digitChar_injOn _ (by omega) _ (by omega) hlow
      rw [ih hrest, UInt8.toNat_inj.1 (by omega : b.toNat = b'.toNat)]

/-! ## Base64

Three bytes are four characters of six bits, and the padding says how many bytes the last group has.
Decoding is strict, as with `validate=True`. -/

/-- The character of six bits. -/
def base64Char (n : ℕ) : Char :=
  if n < 26 then Char.ofNat (65 + n)
  else if n < 52 then Char.ofNat (71 + n)
  else if n < 62 then Char.ofNat (n - 4)
  else if n = 62 then '+' else '/'

/-- The six bits of a character. -/
def base64Value (c : Char) : Option ℕ :=
  if 'A' ≤ c ∧ c ≤ 'Z' then some (c.toNat - 65)
  else if 'a' ≤ c ∧ c ≤ 'z' then some (c.toNat - 71)
  else if '0' ≤ c ∧ c ≤ '9' then some (c.toNat + 4)
  else if c = '+' then some 62
  else if c = '/' then some 63
  else none

/-- `base64.b64encode`. -/
def base64 : List UInt8 → List Char
  | [] => []
  | [a] => [base64Char (a.toNat / 4), base64Char (a.toNat % 4 * 16), '=', '=']
  | [a, b] =>
    [base64Char (a.toNat / 4), base64Char (a.toNat % 4 * 16 + b.toNat / 16),
      base64Char (b.toNat % 16 * 4), '=']
  | a :: b :: c :: rest =>
    base64Char (a.toNat / 4) :: base64Char (a.toNat % 4 * 16 + b.toNat / 16) ::
      base64Char (b.toNat % 16 * 4 + c.toNat / 64) :: base64Char (c.toNat % 64) :: base64 rest

/-- `base64.b64decode(text, validate=True)`. -/
def unbase64 : List Char → Option (List UInt8)
  | [] => some []
  | p :: q :: r :: s :: rest => do
    let p ← base64Value p
    let q ← base64Value q
    let a := UInt8.ofNat (p * 4 + q / 16)
    if s = '=' ∧ rest = [] then
      if r = '=' then some [a]
      else do
        let r ← base64Value r
        some [a, UInt8.ofNat (q % 16 * 16 + r / 4)]
    else do
      let r ← base64Value r
      let s ← base64Value s
      let more ← unbase64 rest
      some (a :: UInt8.ofNat (q % 16 * 16 + r / 4) :: UInt8.ofNat (r % 4 * 64 + s) :: more)
  | _ => none

theorem base64Value_base64Char : ∀ n < 64, base64Value (base64Char n) = some n := by
  decide

theorem base64Char_ne : ∀ n < 64, base64Char n ≠ '=' := by
  decide

theorem ofNat_eq_of_toNat {b : UInt8} {n : ℕ} (h : n = b.toNat) : UInt8.ofNat n = b := by
  rw [h, UInt8.ofNat_toNat]

theorem unbase64_base64 (bytes : List UInt8) : unbase64 (base64 bytes) = some bytes := by
  fun_induction base64 bytes with
  | case1 => rfl
  | case2 a =>
    have ha := a.toNat_lt
    simp only [unbase64, base64Value_base64Char _ (by omega : a.toNat / 4 < 64),
      base64Value_base64Char _ (by omega : a.toNat % 4 * 16 < 64), Option.bind_eq_bind,
      Option.bind_some, and_self, if_true]
    rw [ofNat_eq_of_toNat (by omega : _ = a.toNat)]
  | case3 a b =>
    have ha := a.toNat_lt
    have hb := b.toNat_lt
    simp only [unbase64, base64Value_base64Char _ (by omega : a.toNat / 4 < 64),
      base64Value_base64Char _ (by omega : a.toNat % 4 * 16 + b.toNat / 16 < 64),
      base64Value_base64Char _ (by omega : b.toNat % 16 * 4 < 64), Option.bind_eq_bind,
      Option.bind_some, and_self, if_true]
    rw [if_neg (base64Char_ne _ (by omega)),
      ofNat_eq_of_toNat (by omega : _ = a.toNat), ofNat_eq_of_toNat (by omega : _ = b.toNat)]
  | case4 a b c rest ih =>
    have ha := a.toNat_lt
    have hb := b.toNat_lt
    have hc := c.toNat_lt
    simp only [unbase64, base64Value_base64Char _ (by omega : a.toNat / 4 < 64),
      base64Value_base64Char _ (by omega : a.toNat % 4 * 16 + b.toNat / 16 < 64),
      base64Value_base64Char _ (by omega : b.toNat % 16 * 4 + c.toNat / 64 < 64),
      base64Value_base64Char _ (by omega : c.toNat % 64 < 64), ih, Option.bind_eq_bind,
      Option.bind_some]
    rw [if_neg fun h => base64Char_ne _ (by omega) h.1, ofNat_eq_of_toNat (by omega : _ = a.toNat),
      ofNat_eq_of_toNat (by omega : _ = b.toNat), ofNat_eq_of_toNat (by omega : _ = c.toNat)]

end Bytes
