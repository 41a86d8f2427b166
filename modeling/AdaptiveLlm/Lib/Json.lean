import Mathlib.Data.Int.Notation
import Mathlib.Data.UInt

set_option autoImplicit false

/-! # JSON values

An object is the list of its fields, of which a lookup reads the first with the name. `erase` walks a
value and sets every field to null whose name satisfies a test; `Erased` says that none of them is
left with another value. Integers and floats are different values, as they are written differently.

A lookup in a list of fields is `List.lookup`, and `setFields` writes fields in place or behind the
others, as a dictionary's update does. The walk of `erase` goes into arrays and objects alike; that
it sets no other field and leaves nothing behind is proved by induction over the value, with one
case per constructor and a nested induction over the fields. -/

/-- A finite double, by its bits. -/
structure Double where
  bits : UInt64
  finite : bits >>> 52 &&& 0x7ff ≠ 0x7ff
  deriving DecidableEq

/-- JSON values. Integers and floats are apart, as `json.loads` has them. str?|The text of a value that is
one. nat?|The value of an integer that is not negative. int?|The value of an integer. bool?|The value of a
boolean. list?|The items of an array, each read. -/
inductive Json where
  | null
  | bool (b : Bool)
  | num (n : ℤ)
  | float (x : Double)
  | str (s : String)
  | arr (items : List Json)
  | obj (fields : List (String × Json))

namespace Json

/-! ## Fields

Readers of JSON values by field, with the types that a model's fields have. A reader gives nothing
for a missing field and for one of another type; the callers make an error of it. -/

/-- The value of an object's field. -/
def field (name : String) : Json → Option Json
  | .obj fields => fields.lookup name
  | _ => none

def str? : Json → Option String
  | .str s => some s
  | _ => none

def nat? : Json → Option ℕ
  | .num n => if 0 ≤ n then some n.toNat else none
  | _ => none

def int? : Json → Option ℤ
  | .num n => some n
  | _ => none

def bool? : Json → Option Bool
  | .bool b => some b
  | _ => none

/-- A value that may be null. -/
def nullable {α : Type} (read : Json → Option α) : Json → Option (Option α)
  | .null => some none
  | j => (read j).map some

def list? {α : Type} (read : Json → Option α) : Json → Option (List α)
  | .arr items => items.mapM read
  | _ => none

/-- The value of a natural number. -/
def ofNat (n : ℕ) : Json := .num n

/-- The value of an integer. -/
def ofInt (n : ℤ) : Json := .num n

/-- A value or null. -/
def ofOption {α : Type} (write : α → Json) : Option α → Json
  | none => .null
  | some a => write a

/-- `fields[name] = value` of a dictionary. -/
def setField (name : String) (value : Json) : List (String × Json) → List (String × Json)
  | [] => [(name, value)]
  | (name', value') :: rest =>
    if name' = name then (name, value) :: rest else (name', value') :: setField name value rest

/-- `fields.update(more)`. -/
def setFields (more fields : List (String × Json)) : List (String × Json) :=
  more.foldl (fun fields f => setField f.1 f.2 fields) fields

theorem lookup_setField (name other : String) (value : Json) (fields : List (String × Json)) :
    (setField name value fields).lookup other =
      if other = name then some value else fields.lookup other := by
  induction fields with
  | nil =>
    rw [setField, List.lookup_cons]
    by_cases h : other = name
    · simp [h]
    · simp [h, beq_false_of_ne h]
  | cons f rest ih =>
    obtain ⟨name', value'⟩ := f
    rw [setField]
    by_cases hname : name' = name
    · subst hname
      rw [if_pos rfl, List.lookup_cons, List.lookup_cons]
      by_cases h : other = name'
      · simp [h]
      · simp [h, beq_false_of_ne h]
    · rw [if_neg hname, List.lookup_cons, List.lookup_cons, ih]
      by_cases h : other = name'
      · subst h
        simp [hname]
      · simp [beq_false_of_ne h]

/-- The other fields keep their values. -/
theorem lookup_setFields_of_not_mem {other : String} {more : List (String × Json)}
    (h : other ∉ more.map (·.1)) (fields : List (String × Json)) :
    (setFields more fields).lookup other = fields.lookup other := by
  induction more generalizing fields with
  | nil => rfl
  | cons f more ih =>
    rw [List.map_cons, List.mem_cons, not_or] at h
    rw [setFields, List.foldl_cons, ← setFields, ih h.2, lookup_setField, if_neg h.1]

@[simp] theorem nullable_str_ofOption (s : Option String) :
    nullable str? (ofOption .str s) = some s := by
  cases s <;> rfl

/-! ## Erasing fields

Erasing walks through the whole value and nulls every field with a name of the set, wherever it
stands. Readers of other fields see no difference. -/

section Erase

variable (p : String → Bool)

mutual

/-- Sets the fields to null whose name satisfies `p`, at any depth. -/
def erase : Json → Json
  | .arr items => .arr (eraseItems items)
  | .obj fields => .obj (eraseFields fields)
  | j => j

/-- `erase` of every item, -/
def eraseItems : List Json → List Json
  | [] => []
  | j :: rest => erase j :: eraseItems rest

/-- and of every field, where a name that is erased keeps a null. -/
def eraseFields : List (String × Json) → List (String × Json)
  | [] => []
  | (name, j) :: rest => (name, if p name then .null else erase j) :: eraseFields rest

end

/-- No field whose name satisfies `p` has a value other than null, at any depth. -/
inductive Erased : Json → Prop
  | null : Erased .null
  | bool {b : Bool} : Erased (.bool b)
  | num {n : ℤ} : Erased (.num n)
  | float {x : Double} : Erased (.float x)
  | str {s : String} : Erased (.str s)
  | arr {items : List Json} : (∀ j ∈ items, Erased j) → Erased (.arr items)
  | obj {fields : List (String × Json)} :
      (∀ f ∈ fields, p f.1 = true → f.2 = .null) → (∀ f ∈ fields, Erased f.2) →
      Erased (.obj fields)

mutual

theorem erased_erase : ∀ j : Json, Erased p (erase p j)
  | .null => .null
  | .bool _ => .bool
  | .num _ => .num
  | .float _ => .float
  | .str _ => .str
  | .arr items => .arr (erased_eraseItems items)
  | .obj fields => .obj (fun f hf => (erased_eraseFields fields f hf).1)
      (fun f hf => (erased_eraseFields fields f hf).2)

theorem erased_eraseItems : ∀ (items : List Json), ∀ j ∈ eraseItems p items, Erased p j
  | [] => by simp [eraseItems]
  | j :: rest => by
    intro i hi
    rcases List.mem_cons.1 hi with rfl | hi
    · exact erased_erase j
    · exact erased_eraseItems rest i hi

theorem erased_eraseFields : ∀ (fields : List (String × Json)), ∀ f ∈ eraseFields p fields,
    (p f.1 = true → f.2 = .null) ∧ Erased p f.2
  | [] => by simp [eraseFields]
  | (name, j) :: rest => by
    intro f hf
    rcases List.mem_cons.1 hf with rfl | hf
    · by_cases hname : p name = true
      · simp only [hname, if_true]
        exact ⟨fun _ => trivial, .null⟩
      · simp only [hname]
        exact ⟨fun h => absurd h (by simp), erased_erase j⟩
    · exact erased_eraseFields rest f hf

end

theorem lookup_eraseFields (name : String) (fields : List (String × Json)) :
    (eraseFields p fields).lookup name =
      (fields.lookup name).map fun j => if p name then .null else erase p j := by
  induction fields with
  | nil => rfl
  | cons f rest ih =>
    obtain ⟨name', j⟩ := f
    rw [eraseFields, List.lookup_cons, List.lookup_cons]
    by_cases h : name = name'
    · simp [h]
    · simp [beq_false_of_ne h, ih]

/-- A field that is not erased keeps its place. -/
theorem field_erase {name : String} (h : p name = false) (j : Json) :
    (erase p j).field name = (j.field name).map (erase p) := by
  cases j with
  | obj fields => simp [erase, field, lookup_eraseFields, h]
  | _ => rfl

@[simp] theorem str?_erase (j : Json) : str? (erase p j) = str? j := by
  cases j <;> rfl

@[simp] theorem nullable_str?_erase (j : Json) : nullable str? (erase p j) = nullable str? j := by
  cases j <;> rfl

@[simp] theorem int?_erase (j : Json) : int? (erase p j) = int? j := by
  cases j <;> rfl

@[simp] theorem nat?_erase (j : Json) : nat? (erase p j) = nat? j := by
  cases j <;> rfl

@[simp] theorem bool?_erase (j : Json) : bool? (erase p j) = bool? j := by
  cases j <;> rfl

theorem eraseItems_eq_map (items : List Json) : eraseItems p items = items.map (erase p) := by
  induction items with
  | nil => rfl
  | cons j rest ih => rw [eraseItems, ih, List.map_cons]

theorem eraseFields_eq_map (fields : List (String × Json)) : eraseFields p fields =
    fields.map fun f => (f.1, if p f.1 then .null else erase p f.2) := by
  induction fields with
  | nil => rfl
  | cons f rest ih =>
    obtain ⟨name, j⟩ := f
    rw [eraseFields, ih, List.map_cons]

theorem list?_erase {α : Type} {read : Json → Option α} (h : ∀ j, read (erase p j) = read j) (j : Json) :
    list? read (erase p j) = list? read j := by
  cases j with
  | arr items =>
    have hread : (read ∘ erase p) = read := funext h
    simp only [erase, list?, eraseItems_eq_map, List.mapM_map, hread]
  | _ => rfl

/-- What is erased stays as it is. -/
theorem erase_eq_self {j : Json} (h : Erased p j) : erase p j = j := by
  induction h with
  | null | bool | num | float | str => rfl
  | @arr items _ ih =>
    rw [erase, eraseItems_eq_map]
    exact congrArg Json.arr ((List.map_congr_left ih).trans (List.map_id items))
  | @obj fields hnull _ ih =>
    rw [erase, eraseFields_eq_map]
    refine congrArg Json.obj ((List.map_congr_left fun f hf => ?_).trans (List.map_id fields))
    by_cases hname : p f.1 = true
    · rw [if_pos hname]
      exact Prod.ext rfl (hnull f hf hname).symm
    · rw [if_neg hname, ih f hf]
      rfl

end Erase

end Json
