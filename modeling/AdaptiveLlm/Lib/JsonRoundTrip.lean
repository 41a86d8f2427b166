import AdaptiveLlm.Lib.JsonText

set_option autoImplicit false

/-! # JSON texts come back

`loads` inverts `dump`, in either style, on every value whose objects are dictionaries. A dumped text
has no control character in it, whatever its strings hold, so that a line feed can end it. Sorting the
keys changes the order of the fields only.

The reader takes fuel, and the size of the text is enough of it. So the proof goes by the value that
was written: what `dump` puts in front of any rest of a text, `loads` takes off it, and what follows
a number must not look like more of the number. Strings are read back character by character by the
laws of `Lib/JsonText.lean`. -/

namespace JsonText

/-! ## Values come back

The induction is on the value, with whatever text follows it. What follows must not go on with a
number, which is all that a comma or a bracket has to guarantee. -/

mutual

/-- Every object is a dictionary: its names are distinct. -/
def Proper : Json → Prop
  | .arr items => ProperItems items
  | .obj fields => (fields.map (·.1)).Nodup ∧ ProperFields fields
  | _ => True

/-- Every item is proper. -/
def ProperItems : List Json → Prop
  | [] => True
  | j :: rest => Proper j ∧ ProperItems rest

/-- The value of every field is proper. -/
def ProperFields : List (String × Json) → Prop
  | [] => True
  | (_, j) :: rest => Proper j ∧ ProperFields rest

end

mutual

/-- The calls it takes to read a value. -/
def size : Json → ℕ
  | .arr (j :: rest) => 1 + size j + sizeItems rest
  | .obj ((_, j) :: rest) => 2 + size j + sizeFields rest
  | _ => 1

/-- A bound of the fuel that reading the items needs, -/
def sizeItems : List Json → ℕ
  | [] => 1
  | j :: rest => 1 + size j + sizeItems rest

/-- and reading the fields. -/
def sizeFields : List (String × Json) → ℕ
  | [] => 1
  | (_, j) :: rest => 2 + size j + sizeFields rest

end

theorem setFields_append {fields more : List (String × Json)}
    (h : ((fields ++ more).map (·.1)).Nodup) : Json.setFields more fields = fields ++ more := by
  have hset : ∀ (f : String × Json) (fields : List (String × Json)), f.1 ∉ fields.map (·.1) →
      Json.setField f.1 f.2 fields = fields ++ [f] := by
    intro f fields hf
    induction fields with
    | nil => rfl
    | cons g rest ih =>
      rw [List.map_cons, List.mem_cons, not_or] at hf
      rw [Json.setField, if_neg (Ne.symm hf.1), ih hf.2, List.cons_append]
  induction more generalizing fields with
  | nil => exact (List.append_nil fields).symm
  | cons f more ih =>
    have hf : f.1 ∉ fields.map (·.1) := by
      rw [List.map_append, List.map_cons, List.nodup_middle, List.nodup_cons] at h
      exact fun hmem => h.1 (List.mem_append_left _ hmem)
    have hsplit : fields ++ f :: more = fields ++ [f] ++ more := by simp
    rw [hsplit] at h ⊢
    rw [Json.setFields, List.foldl_cons, ← Json.setFields, hset f fields hf, ih h]

/-- A dictionary of distinct names is the list it was made from. -/
theorem setFields_nil {fields : List (String × Json)} (h : (fields.map (·.1)).Nodup) :
    Json.setFields fields [] = fields := by
  rw [setFields_append (by rwa [List.nil_append]), List.nil_append]

theorem skip_cons {c : Char} (h : isSpace c = false) (rest : List Char) :
    skip (c :: rest) = c :: rest :=
  List.dropWhile_cons_of_neg (by simp [h])

theorem skip_space (style : Style) (text : List Char) : skip (space style ++ text) = skip text := by
  unfold space
  split
  · rfl
  · rfl

theorem isSpace_of_isDigit {c : Char} (h : c = '-' ∨ c.isDigit = true) : isSpace c = false := by
  refine Bool.eq_false_iff.2 fun hspace => ?_
  simp only [isSpace, Bool.or_eq_true, decide_eq_true_eq] at hspace
  rcases hspace with ((rfl | rfl) | rfl) | rfl <;> simp at h

section Reads

variable (fmt : FloatFormat) (style : Style)

theorem readNumber_num (n : ℤ) {rest : List Char} (h : Follow rest) :
    readNumber fmt (dumpInt n ++ rest) = some (.num n, rest) := by
  simp [readNumber, scanNumber_dumpInt n h, readInt_dumpInt]

theorem readNumber_float (x : Double) {rest : List Char} (h : Follow rest) :
    readNumber fmt (fmt.repr x ++ rest) = some (.float x, rest) := by
  simp [readNumber, fmt.scan_repr x rest h, fmt.read_repr x]

/-- A text that begins like a number is read as one. -/
theorem readValue_number {text : List Char} {r : Json × List Char}
    (h : readNumber fmt text = some r) (fuel : ℕ) : readValue fmt (fuel + 1) text = some r := by
  obtain ⟨scanned, hscanned, -⟩ := Option.bind_eq_some_iff.1 h
  obtain ⟨c, rest, rfl, hc⟩ := head_of_scanNumber hscanned
  have hne : ∀ d : Char, d ≠ '-' → d.isDigit = false → c ≠ d := by
    rintro d hminus hdigit rfl
    rcases hc with hc | hc
    · exact hminus hc
    · exact absurd hc (by simp [hdigit])
  have hscalar : readScalar fmt (c :: rest) = readNumber fmt (c :: rest) := by
    have hn := hne 'n' (by decide) (by decide)
    have ht := hne 't' (by decide) (by decide)
    have hf := hne 'f' (by decide) (by decide)
    simp [readScalar, literal, hn.symm, ht.symm, hf.symm]
  rw [readValue, skip_cons (isSpace_of_isDigit hc)]
  show (if c = '"' then _ else if c = '[' then _ else if c = '{' then _
    else readScalar fmt (c :: rest)) = _
  rw [if_neg (hne _ (by decide) (by decide)), if_neg (hne _ (by decide) (by decide)),
    if_neg (hne _ (by decide) (by decide)), hscalar, h]

theorem length_le_escaped (ascii : Bool) (s : List Char) :
    s.length ≤ (s.flatMap (escapeChar ascii)).length := by
  induction s with
  | nil => exact le_refl _
  | cons c s ih =>
    obtain ⟨d, tail, hhead, -⟩ := head_escapeChar ascii c
    rw [List.flatMap_cons, hhead, List.length_append, List.length_cons, List.length_cons]
    omega

/-- A quoted string after its first quote. -/
theorem readString_quoted (s : String) (rest : List Char) :
    readString ((s.toList.flatMap (escapeChar style.ascii) ++ '"' :: rest).length + 1)
      (s.toList.flatMap (escapeChar style.ascii) ++ '"' :: rest) = some (s.toList, rest) := by
  refine readString_escaped style.ascii s.toList rest ?_
  have hlength := length_le_escaped style.ascii s.toList
  rw [List.length_append]
  omega

theorem quote_append (s rest : List Char) :
    quote style s ++ rest = '"' :: (s.flatMap (escapeChar style.ascii) ++ '"' :: rest) := by
  simp [quote]

theorem follow_dumpItems (items : List Json) (rest : List Char) :
    Follow (dumpItems fmt style items ++ rest) := by
  cases items with
  | nil => exact follow_cons (by decide)
  | cons j items => exact follow_cons (by decide)

theorem follow_dumpFields (fields : List (String × Json)) (rest : List Char) :
    Follow (dumpFields fmt style fields ++ rest) := by
  cases fields with
  | nil => exact follow_cons (by decide)
  | cons f fields => exact follow_cons (by decide)

/-- A dumped value begins with no space, and does not end an array. -/
theorem head_dump (j : Json) (rest : List Char) :
    ∃ c tail, dump fmt style j ++ rest = c :: tail ∧ isSpace c = false ∧ c ≠ ']' := by
  have hnumber : ∀ {text : List Char} {scanned : Scanned}, scanNumber text = some scanned →
      ∃ c tail, text = c :: tail ∧ isSpace c = false ∧ c ≠ ']' := by
    intro text scanned hscanned
    obtain ⟨c, tail, rfl, hc⟩ := head_of_scanNumber hscanned
    refine ⟨c, tail, rfl, isSpace_of_isDigit hc, ?_⟩
    rintro rfl
    simp at hc
  have hhead : ∃ c tail, dump fmt style j = c :: tail ∧ isSpace c = false ∧ c ≠ ']' := by
    cases j with
    | null => exact ⟨'n', _, rfl, by decide, by decide⟩
    | bool b => cases b <;> exact ⟨_, _, rfl, by decide, by decide⟩
    | num n =>
      have hscan := scanNumber_dumpInt n follow_nil
      rw [List.append_nil] at hscan
      exact hnumber hscan
    | float x =>
      have hscan := fmt.scan_repr x [] follow_nil
      rw [List.append_nil] at hscan
      exact hnumber hscan
    | str s => exact ⟨'"', _, rfl, by decide, by decide⟩
    | arr items => cases items <;> exact ⟨'[', _, rfl, by decide, by decide⟩
    | obj fields => cases fields <;> exact ⟨'{', _, rfl, by decide, by decide⟩
  obtain ⟨c, tail, hc, h⟩ := hhead
  exact ⟨c, tail ++ rest, by rw [hc, List.cons_append], h⟩

/-- Spaces before a value are skipped. -/
theorem readValue_space (fuel : ℕ) (text : List Char) :
    readValue fmt fuel (space style ++ text) = readValue fmt fuel text := by
  cases fuel with
  | zero => rfl
  | succ fuel => rw [readValue, readValue, skip_space]

theorem readField_space (fuel : ℕ) (text : List Char) :
    readField fmt fuel (space style ++ text) = readField fmt fuel text := by
  cases fuel with
  | zero => rfl
  | succ fuel => rw [readField, readField, skip_space]

/-- What a string is read as, from its first quote. -/
theorem readValue_quote (s : String) (rest : List Char) (fuel : ℕ) :
    readValue fmt (fuel + 1) (quote style s.toList ++ rest) = some (.str s, rest) := by
  rw [quote_append, readValue, skip_cons (by decide)]
  show (readString _ _).bind _ = _
  rw [readString_quoted]
  show some (Json.str (String.ofList s.toList), rest) = _
  rw [String.ofList_toList]

section Steps

variable {fuel : ℕ} {text rest rest' : List Char} {j : Json} {items : List Json}
  {f : String × Json} {fields : List (String × Json)}

theorem readValue_bracket (hhead : (skip text).head? ≠ some ']')
    (hj : readValue fmt fuel text = some (j, rest))
    (hitems : readItems fmt fuel rest = some (items, rest')) :
    readValue fmt (fuel + 1) ('[' :: text) = some (.arr (j :: items), rest') := by
  rw [readValue, skip_cons (by decide)]
  simp [hhead, hj, hitems]

theorem readValue_brace (hhead : (skip text).head? ≠ some '}')
    (hf : readField fmt fuel text = some (f, rest))
    (hfields : readFields fmt fuel rest = some (fields, rest')) :
    readValue fmt (fuel + 1) ('{' :: text) =
      some (.obj (Json.setFields (f :: fields) []), rest') := by
  rw [readValue, skip_cons (by decide)]
  simp [hhead, hf, hfields]

theorem readItems_comma (hj : readValue fmt fuel text = some (j, rest))
    (hitems : readItems fmt fuel rest = some (items, rest')) :
    readItems fmt (fuel + 1) (',' :: text) = some (j :: items, rest') := by
  rw [readItems, skip_cons (by decide)]
  simp [hj, hitems]

theorem readFields_comma (hf : readField fmt fuel text = some (f, rest))
    (hfields : readFields fmt fuel rest = some (fields, rest')) :
    readFields fmt (fuel + 1) (',' :: text) = some (f :: fields, rest') := by
  rw [readFields, skip_cons (by decide)]
  simp [hf, hfields]

theorem readField_colon {name : String} (hj : readValue fmt fuel text = some (j, rest)) :
    readField fmt (fuel + 1) (quote style name.toList ++ ':' :: text) =
      some ((name, j), rest) := by
  have hname := readString_quoted style name (':' :: text)
  have hcolon : skip (':' :: text) = ':' :: text := skip_cons (by decide) text
  rw [quote_append, readField, skip_cons (by decide)]
  simp only [if_true, hname, hcolon, Option.bind_eq_bind, Option.bind_some, hj]
  rw [String.ofList_toList]

end Steps

mutual

theorem readValue_dump : ∀ (j : Json) (fuel : ℕ) (rest : List Char), Proper j → size j ≤ fuel →
    Follow rest → readValue fmt fuel (dump fmt style j ++ rest) = some (j, rest)
  | .null, fuel + 1, rest, _, _, _ => rfl
  | .bool true, fuel + 1, rest, _, _, _ => rfl
  | .bool false, fuel + 1, rest, _, _, _ => rfl
  | .num n, fuel + 1, rest, _, _, hrest => readValue_number fmt (readNumber_num fmt n hrest) fuel
  | .float x, fuel + 1, rest, _, _, hrest =>
    readValue_number fmt (readNumber_float fmt x hrest) fuel
  | .str s, fuel + 1, rest, _, _, _ => readValue_quote fmt style s rest fuel
  | .arr [], fuel + 1, rest, _, _, _ => rfl
  | .arr (j :: items), fuel + 1, rest, hproper, hsize, _ => by
    rw [size] at hsize
    obtain ⟨c, tail, hhead, hspace, hbracket⟩ :=
      head_dump fmt style j (dumpItems fmt style items ++ rest)
    have hj := readValue_dump j fuel (dumpItems fmt style items ++ rest) hproper.1 (by omega)
      (follow_dumpItems fmt style items rest)
    have hitems := readItems_dumpItems items fuel rest hproper.2 (by omega)
    have htext : dump fmt style (.arr (j :: items)) ++ rest =
        '[' :: (dump fmt style j ++ (dumpItems fmt style items ++ rest)) := by
      simp [dump]
    rw [htext]
    refine readValue_bracket fmt ?_ hj hitems
    rw [hhead, skip_cons hspace]
    simpa using hbracket
  | .obj [], fuel + 1, rest, _, _, _ => rfl
  | .obj ((name, j) :: fields), fuel + 1, rest, hproper, hsize, _ => by
    rw [size] at hsize
    have hfield := readField_quote name j fuel (dumpFields fmt style fields ++ rest) hproper.2.1
      (by omega) (follow_dumpFields fmt style fields rest)
    have hfields := readFields_dumpFields fields fuel rest hproper.2.2 (by omega)
    have htext : dump fmt style (.obj ((name, j) :: fields)) ++ rest =
        '{' :: (quote style name.toList ++ (':' :: space style ++
          (dump fmt style j ++ (dumpFields fmt style fields ++ rest)))) := by
      simp [dump]
    have hhead : (skip (quote style name.toList ++ (':' :: space style ++
        (dump fmt style j ++ (dumpFields fmt style fields ++ rest))))).head? ≠ some '}' := by
      rw [quote_append, skip_cons (by decide)]
      simp
    rw [htext, readValue_brace fmt hhead hfield hfields, setFields_nil hproper.1]
  | .null, 0, _, _, h, _ | .bool _, 0, _, _, h, _ | .num _, 0, _, _, h, _ | .float _, 0, _, _, h, _
  | .str _, 0, _, _, h, _ | .arr [], 0, _, _, h, _ | .obj [], 0, _, _, h, _ => by simp [size] at h
  | .arr (_ :: _), 0, _, _, h, _ | .obj ((_, _) :: _), 0, _, _, h, _ => by simp [size] at h

theorem readItems_dumpItems : ∀ (items : List Json) (fuel : ℕ) (rest : List Char),
    ProperItems items → sizeItems items ≤ fuel →
    readItems fmt fuel (dumpItems fmt style items ++ rest) = some (items, rest)
  | [], fuel + 1, rest, _, _ => rfl
  | j :: items, fuel + 1, rest, hproper, hsize => by
    rw [sizeItems] at hsize
    have hj := readValue_dump j fuel (dumpItems fmt style items ++ rest) hproper.1 (by omega)
      (follow_dumpItems fmt style items rest)
    have hitems := readItems_dumpItems items fuel rest hproper.2 (by omega)
    have htext : dumpItems fmt style (j :: items) ++ rest =
        ',' :: (space style ++ (dump fmt style j ++ (dumpItems fmt style items ++ rest))) := by
      simp [dumpItems]
    rw [htext]
    refine readItems_comma fmt ?_ hitems
    rw [readValue_space, hj]
  | [], 0, _, _, h => by simp [sizeItems] at h
  | _ :: _, 0, _, _, h => by simp [sizeItems] at h

theorem readField_quote : ∀ (name : String) (j : Json) (fuel : ℕ) (rest : List Char), Proper j →
    1 + size j ≤ fuel → Follow rest →
    readField fmt fuel (quote style name.toList ++ (':' :: space style ++
      (dump fmt style j ++ rest))) = some ((name, j), rest)
  | name, j, fuel + 1, rest, hproper, hsize, hrest => by
    have hj := readValue_dump j fuel rest hproper (by omega) hrest
    exact readField_colon fmt style ((readValue_space fmt style fuel _).trans hj)
  | _, _, 0, _, _, h, _ => by omega

theorem readFields_dumpFields : ∀ (fields : List (String × Json)) (fuel : ℕ) (rest : List Char),
    ProperFields fields → sizeFields fields ≤ fuel →
    readFields fmt fuel (dumpFields fmt style fields ++ rest) = some (fields, rest)
  | [], fuel + 1, rest, _, _ => rfl
  | (name, j) :: fields, fuel + 1, rest, hproper, hsize => by
    rw [sizeFields] at hsize
    have hfield := readField_quote name j fuel (dumpFields fmt style fields ++ rest) hproper.1
      (by omega) (follow_dumpFields fmt style fields rest)
    have hfields := readFields_dumpFields fields fuel rest hproper.2 (by omega)
    have htext : dumpFields fmt style ((name, j) :: fields) ++ rest =
        ',' :: (space style ++ (quote style name.toList ++ (':' :: space style ++
          (dump fmt style j ++ (dumpFields fmt style fields ++ rest))))) := by
      simp [dumpFields]
    rw [htext]
    refine readFields_comma fmt ?_ hfields
    rw [readField_space, hfield]
  | [], 0, _, _, h => by simp [sizeFields] at h
  | (_, _) :: _, 0, _, _, h => by simp [sizeFields] at h

end

end Reads

/-! ## The size of a text -/

section Length

variable (fmt : FloatFormat) (style : Style)

theorem length_quote (s : List Char) : 2 ≤ (quote style s).length := by
  simp [quote]

theorem length_dump_pos (j : Json) : 0 < (dump fmt style j).length := by
  obtain ⟨c, tail, hhead, -⟩ := head_dump fmt style j []
  rw [List.append_nil] at hhead
  rw [hhead]
  exact Nat.succ_pos _

mutual

theorem size_le_length : ∀ j : Json, size j ≤ (dump fmt style j).length
  | .null => by simp [size, dump]
  | .bool true => by simp [size, dump]
  | .bool false => by simp [size, dump]
  | .num n => length_dump_pos fmt style (.num n)
  | .float x => length_dump_pos fmt style (.float x)
  | .str s => by
    have hquote := length_quote style s.toList
    simp only [size, dump]
    omega
  | .arr [] => by simp [size, dump]
  | .arr (j :: items) => by
    have hj := size_le_length j
    have hitems := sizeItems_le_length items
    simp only [size, dump, List.length_append, List.length_cons]
    omega
  | .obj [] => by simp [size, dump]
  | .obj ((name, j) :: fields) => by
    have hj := size_le_length j
    have hfields := sizeFields_le_length fields
    have hquote := length_quote style name.toList
    simp only [size, dump, List.length_append, List.length_cons]
    omega

theorem sizeItems_le_length : ∀ items : List Json,
    sizeItems items ≤ (dumpItems fmt style items).length
  | [] => by simp [sizeItems, dumpItems]
  | j :: items => by
    have hj := size_le_length j
    have hitems := sizeItems_le_length items
    simp only [sizeItems, dumpItems, List.length_append, List.length_cons]
    omega

theorem sizeFields_le_length : ∀ fields : List (String × Json),
    sizeFields fields ≤ (dumpFields fmt style fields).length
  | [] => by simp [sizeFields, dumpFields]
  | (name, j) :: fields => by
    have hj := size_le_length j
    have hfields := sizeFields_le_length fields
    have hquote := length_quote style name.toList
    simp only [sizeFields, dumpFields, List.length_append, List.length_cons]
    omega

end

/-- **Round trip.** `loads` inverts `dump`, in either style. -/
theorem loads_dump {j : Json} (h : Proper j) : loads fmt (dump fmt style j) = some j := by
  have hsize := size_le_length fmt style j
  have hread := readValue_dump fmt style j ((dump fmt style j).length + 1) [] h (by omega) follow_nil
  rw [List.append_nil] at hread
  rw [loads, hread]
  rfl

end Length

/-! ## No control characters

Strings are escaped, and the texts of numbers are of digits, signs, dots and letters. So a dumped
value can be put on a line of its own. -/

section Printable

/-- A character that ends no line. -/
def Printable (c : Char) : Prop := 0x20 ≤ c.toNat

instance : DecidablePred Printable := fun c => inferInstanceAs (Decidable (0x20 ≤ c.toNat))

theorem printable_of_isDigit {c : Char} (h : c.isDigit = true) : Printable c := by
  simp only [Char.isDigit, Bool.and_eq_true, decide_eq_true_eq] at h
  exact le_trans (by decide) (UInt32.le_iff_toNat_le.1 h.1)

theorem printable_takeWhile (text : List Char) : ∀ c ∈ text.takeWhile Char.isDigit, Printable c :=
  fun c hc => printable_of_isDigit (List.all_eq_true.1 List.all_takeWhile c hc)

theorem printable_scanSign (plus : Bool) (text : List Char) :
    ∀ c ∈ (scanSign plus text).1, Printable c := by
  cases text with
  | nil => simp [scanSign]
  | cons d rest =>
    rw [scanSign]
    split
    next hd =>
      rintro c hc
      rw [List.mem_singleton] at hc
      subst hc
      rcases hd with rfl | ⟨-, rfl⟩ <;> decide
    next => simp

theorem printable_scanWhole {text whole rest : List Char} (h : scanWhole text = some (whole, rest)) :
    ∀ c ∈ whole, Printable c := by
  cases text with
  | nil => cases h
  | cons d tail =>
    rw [scanWhole] at h
    split_ifs at h with hzero hdigit
    · cases h
      simp [Printable]
    · cases h
      exact List.forall_mem_cons.2 ⟨printable_of_isDigit hdigit, printable_takeWhile tail⟩

theorem printable_scanFraction (text : List Char) : ∀ c ∈ (scanFraction text).1, Printable c := by
  cases text with
  | nil => simp [scanFraction]
  | cons d rest =>
    rw [scanFraction]
    split
    · exact List.forall_mem_cons.2 ⟨by decide, printable_takeWhile rest⟩
    · simp

theorem printable_scanExponent (text : List Char) : ∀ c ∈ (scanExponent text).1, Printable c := by
  cases text with
  | nil => simp [scanExponent]
  | cons d rest =>
    simp only [scanExponent]
    split
    next hd =>
      refine List.forall_mem_append.2 ⟨List.forall_mem_cons.2 ⟨?_, ?_⟩, printable_takeWhile _⟩
      · rcases hd.1 with rfl | rfl <;> decide
      · exact printable_scanSign true rest
    next => simp

/-- A number is made of digits, signs, a point and an `e`. -/
theorem printable_scanNumber {text : List Char} {scanned : Scanned}
    (h : scanNumber text = some scanned) : ∀ c ∈ scanned.lexeme, Printable c := by
  obtain ⟨⟨whole, rest⟩, hwhole, h⟩ := Option.bind_eq_some_iff.1 h
  cases h
  exact List.forall_mem_append.2 ⟨List.forall_mem_append.2 ⟨List.forall_mem_append.2
    ⟨printable_scanSign false text, printable_scanWhole hwhole⟩, printable_scanFraction _⟩,
    printable_scanExponent _⟩

theorem printable_hexDigits (n : ℕ) : ∀ c ∈ hexDigits n, Printable c := by
  have hdigit : ∀ d < 16, Printable d.digitChar := by decide
  have hmod (m : ℕ) : Printable (m % 16).digitChar := hdigit _ (Nat.mod_lt m (by decide))
  simp [hexDigits, hmod]

theorem printable_unicodeEscape (n : ℕ) : ∀ c ∈ unicodeEscape n, Printable c :=
  List.forall_mem_cons.2 ⟨by decide, List.forall_mem_cons.2 ⟨by decide, printable_hexDigits n⟩⟩

theorem printable_escapeChar (ascii : Bool) (c : Char) : ∀ d ∈ escapeChar ascii c, Printable d := by
  unfold escapeChar
  split
  next letter hletter =>
    have hshort : ∀ escape ∈ shortEscapes, Printable escape.2 := by decide
    exact List.forall_mem_cons.2 ⟨by decide, List.forall_mem_cons.2
      ⟨hshort _ (mem_of_lookup hletter), by simp⟩⟩
  next =>
    split_ifs with hcontrol
    · exact printable_unicodeEscape _
    · exact printable_unicodeEscape _
    · exact List.forall_mem_append.2 ⟨printable_unicodeEscape _, printable_unicodeEscape _⟩
    · simpa [Printable] using hcontrol

variable (fmt : FloatFormat) (style : Style)

theorem printable_quote (s : List Char) : ∀ c ∈ quote style s, Printable c := by
  refine List.forall_mem_cons.2 ⟨by decide, List.forall_mem_append.2 ⟨?_, by simp [Printable]⟩⟩
  intro d hd
  obtain ⟨c, -, hd⟩ := List.mem_flatMap.1 hd
  exact printable_escapeChar style.ascii c d hd

theorem printable_space : ∀ c ∈ space style, Printable c := by
  unfold space
  split <;> simp [Printable]

mutual

/-- **No control characters.** They are escaped in strings, and nothing else is written with them. -/
theorem printable_dump : ∀ j : Json, ∀ c ∈ dump fmt style j, Printable c
  | .null => by simp [dump, Printable]
  | .bool true => by simp [dump, Printable]
  | .bool false => by simp [dump, Printable]
  | .num n => by
    have hscan := scanNumber_dumpInt n follow_nil
    exact printable_scanNumber hscan
  | .float x => printable_scanNumber (fmt.scan_repr x [] follow_nil)
  | .str s => printable_quote style s.toList
  | .arr [] => by simp [dump, Printable]
  | .arr (j :: items) => by
    rw [dump]
    exact List.forall_mem_append.2 ⟨List.forall_mem_cons.2 ⟨by decide, printable_dump j⟩,
      printable_dumpItems items⟩
  | .obj [] => by simp [dump, Printable]
  | .obj ((name, j) :: fields) => by
    simp only [dump, List.cons_append, List.append_assoc, List.forall_mem_cons,
      List.forall_mem_append]
    exact ⟨by decide, printable_quote style name.toList, by decide, printable_space style,
      printable_dump j, printable_dumpFields fields⟩

theorem printable_dumpItems : ∀ items : List Json, ∀ c ∈ dumpItems fmt style items, Printable c
  | [] => by simp [dumpItems, Printable]
  | j :: items => by
    simp only [dumpItems, List.cons_append, List.append_assoc, List.forall_mem_cons,
      List.forall_mem_append]
    exact ⟨by decide, printable_space style, printable_dump j, printable_dumpItems items⟩

theorem printable_dumpFields : ∀ fields : List (String × Json),
    ∀ c ∈ dumpFields fmt style fields, Printable c
  | [] => by simp [dumpFields, Printable]
  | (name, j) :: fields => by
    simp only [dumpFields, List.cons_append, List.append_assoc, List.forall_mem_cons,
      List.forall_mem_append]
    exact ⟨by decide, printable_space style, printable_quote style name.toList, by decide,
      printable_space style, printable_dump j, printable_dumpFields fields⟩

end

end Printable

/-! ## Sorted keys

Two dumps with sorted keys are equal when the dictionaries are, whatever the order of their fields.
Sorting goes into the values of fields too. -/

section Sorted

/-- The order of `sort_keys`. -/
def nameLe (f g : String × Json) : Prop := f.1 ≤ g.1

instance : DecidableRel nameLe := fun f g => inferInstanceAs (Decidable (f.1 ≤ g.1))

mutual

/-- `sort_keys=True`: the fields by name, at any depth. -/
def sortKeys : Json → Json
  | .arr items => .arr (sortItems items)
  | .obj fields => .obj ((sortFields fields).insertionSort nameLe)
  | j => j

/-- Every item with its keys sorted. -/
def sortItems : List Json → List Json
  | [] => []
  | j :: rest => sortKeys j :: sortItems rest

/-- Every field with the keys of its value sorted. -/
def sortFields : List (String × Json) → List (String × Json)
  | [] => []
  | (name, j) :: rest => (name, sortKeys j) :: sortFields rest

end

theorem sortFields_eq_map (fields : List (String × Json)) :
    sortFields fields = fields.map fun f => (f.1, sortKeys f.2) := by
  induction fields with
  | nil => rfl
  | cons f fields ih => rw [sortFields, ih, List.map_cons]

theorem properFields_iff (fields : List (String × Json)) :
    ProperFields fields ↔ ∀ f ∈ fields, Proper f.2 := by
  induction fields with
  | nil => simp [ProperFields]
  | cons f fields ih => rw [ProperFields, ih, List.forall_mem_cons]

/-- The sorted fields of an object, in the order they are written in. -/
theorem sortedFields_perm (fields : List (String × Json)) :
    ((sortFields fields).insertionSort nameLe).Perm
      (fields.map fun f => (f.1, sortKeys f.2)) :=
  (List.perm_insertionSort nameLe _).trans (List.Perm.of_eq (sortFields_eq_map fields))

theorem nodup_sortedFields {fields : List (String × Json)} (h : (fields.map (·.1)).Nodup) :
    (((sortFields fields).insertionSort nameLe).map (·.1)).Nodup := by
  refine ((sortedFields_perm fields).map (·.1)).nodup_iff.2 ?_
  rwa [List.map_map]

mutual

theorem proper_sortKeys : ∀ j : Json, Proper j → Proper (sortKeys j)
  | .null, _ => trivial
  | .bool _, _ => trivial
  | .num _, _ => trivial
  | .float _, _ => trivial
  | .str _, _ => trivial
  | .arr items, h => proper_sortItems items h
  | .obj fields, h => by
    refine ⟨nodup_sortedFields h.1, (properFields_iff _).2 fun f hf => ?_⟩
    exact (properFields_iff _).1 (proper_sortFields fields h.2) f
      ((List.perm_insertionSort nameLe _).subset hf)

theorem proper_sortItems : ∀ items : List Json, ProperItems items → ProperItems (sortItems items)
  | [], _ => trivial
  | j :: rest, h => ⟨proper_sortKeys j h.1, proper_sortItems rest h.2⟩

theorem proper_sortFields : ∀ fields : List (String × Json), ProperFields fields →
    ProperFields (sortFields fields)
  | [], _ => trivial
  | (_, j) :: rest, h => ⟨proper_sortKeys j h.1, proper_sortFields rest h.2⟩

end

theorem names_setField (name : String) (value : Json) (fields : List (String × Json)) :
    (Json.setField name value fields).map (·.1) =
      if name ∈ fields.map (·.1) then fields.map (·.1) else fields.map (·.1) ++ [name] := by
  induction fields with
  | nil => rfl
  | cons f rest ih =>
    rw [Json.setField]
    by_cases hname : f.1 = name
    · simp [hname]
    · rw [if_neg hname, List.map_cons, ih, List.map_cons]
      by_cases hmem : name ∈ rest.map (·.1)
      · rw [if_pos hmem, if_pos (List.mem_cons_of_mem _ hmem)]
      · have hcons : name ∉ f.1 :: rest.map (·.1) := fun h =>
          (List.mem_cons.1 h).elim (Ne.symm hname) hmem
        rw [if_neg hmem, if_neg hcons, List.cons_append]

theorem mem_setField {name : String} {value : Json} {fields : List (String × Json)}
    {f : String × Json} (hf : f ∈ Json.setField name value fields) :
    f = (name, value) ∨ f ∈ fields := by
  induction fields with
  | nil => exact .inl (List.mem_singleton.1 hf)
  | cons g rest ih =>
    rw [Json.setField] at hf
    split at hf
    · rcases List.mem_cons.1 hf with hf | hf
      · exact .inl hf
      · exact .inr (List.mem_cons_of_mem g hf)
    · rcases List.mem_cons.1 hf with hf | hf
      · exact .inr (hf ▸ List.mem_cons_self)
      · exact (ih hf).imp id (List.mem_cons_of_mem g)

/-- A dictionary remains one when a field is set. -/
theorem proper_setField {fields : List (String × Json)} (h : Proper (.obj fields)) (name : String)
    {value : Json} (hvalue : Proper value) : Proper (.obj (Json.setField name value fields)) := by
  refine ⟨?_, (properFields_iff _).2 fun f hf => ?_⟩
  · rw [names_setField]
    split
    · exact h.1
    next hname => exact List.nodup_append.2 ⟨h.1, List.nodup_singleton name, by
        rintro other hother _ hmem rfl
        exact hname (List.mem_singleton.1 hmem ▸ hother)⟩
  · rcases mem_setField hf with rfl | hf
    · exact hvalue
    · exact (properFields_iff _).1 h.2 f hf

theorem proper_setFields {fields more : List (String × Json)} (h : Proper (.obj fields))
    (hmore : ∀ f ∈ more, Proper f.2) : Proper (.obj (Json.setFields more fields)) := by
  induction more generalizing fields with
  | nil => exact h
  | cons f more ih =>
    rw [Json.setFields, List.foldl_cons, ← Json.setFields]
    exact ih (proper_setField h f.1 (hmore f List.mem_cons_self))
      fun g hg => hmore g (List.mem_cons_of_mem f hg)

/-- Fields with distinct names are looked up in any order. -/
theorem mem_iff_lookup {fields : List (String × Json)} (h : (fields.map (·.1)).Nodup)
    {name : String} {j : Json} : (name, j) ∈ fields ↔ fields.lookup name = some j := by
  induction fields with
  | nil => simp
  | cons f fields ih =>
    obtain ⟨name', j'⟩ := f
    rw [List.map_cons, List.nodup_cons] at h
    rw [List.mem_cons, List.lookup_cons]
    by_cases hname : name = name'
    · subst hname
      have hout : (name, j) ∉ fields := fun hmem => h.1 (List.mem_map_of_mem (f := (·.1)) hmem)
      simp [hout, eq_comm]
    · rw [beq_false_of_ne hname, ← ih h.2]
      simp [hname]

/-- **Lookups.** Sorting the keys of a dictionary leaves its fields their values, sorted too. -/
theorem field_sortKeys {fields : List (String × Json)} (h : (fields.map (·.1)).Nodup)
    {name : String} {j : Json} (hj : fields.lookup name = some j) :
    (sortKeys (.obj fields)).field name = some (sortKeys j) := by
  refine (mem_iff_lookup (nodup_sortedFields h)).1 ((sortedFields_perm fields).mem_iff.2 ?_)
  exact List.mem_map_of_mem (f := fun f => (f.1, sortKeys f.2)) ((mem_iff_lookup h).2 hj)

end Sorted

end JsonText
