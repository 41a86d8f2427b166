import AdaptiveLlm.Lib.Bytes
import AdaptiveLlm.Lib.JsonRoundTrip
import AdaptiveLlm.Lib.Names
import AdaptiveLlm.Lib.Worklist

set_option autoImplicit false

/-! # Schemas with local references

`check_schema` (`structured/__init__.py`) bounds the text of a JSON schema, has it validated and walks it
with a stack of pending values for references that leave it.

The source walks with a stack, which reaches every value in the schema, including those under
keywords it does not know. `Lib/Worklist.lean` says that such a walk ends and tests everything
exactly once, so the order makes no difference. A reference is what stands under `$ref` or
`$dynamicRef`; it is local if it is a text that begins with the fragment sign, and anything else
there is refused. -/

namespace AdaptiveLlm

namespace Structured

/-- What `check_schema` relies on. -/
structure SchemaServices where
  floats : JsonText.FloatFormat
  /-- the recursion of `json.dumps` does not end in an exception -/
  encodes : Json → Bool
  /-- `Draft202012Validator.check_schema` returns -/
  conforms : Json → Bool

/-- A schema is refused. -/
inductive SchemaError where
  | invalidJsonSchema
  deriving DecidableEq, Repr

section Check

variable (sv : SchemaServices)

/-- The schema with its keys sorted, as it is compared. -/
def canonical (value : Json) : List Char :=
  JsonText.dump sv.floats .compact (JsonText.sortKeys value)

/-- `key in {"$ref", "$dynamicRef"}`. -/
def isReference (key : String) : Bool := key = "$ref" || key = "$dynamicRef"

/-- `isinstance(value, str) and value.startswith("#")`. -/
def isLocal : Json → Bool
  | .str text => Names.startsWith "#" text
  | _ => false

/-- The loop over `item.items()`; `none` is its exception. -/
def pushFields : List (String × Json) → List Json → Option (List Json)
  | [], pending => some pending
  | (key, value) :: rest, pending =>
    if isReference key && !isLocal value then none else pushFields rest (value :: pending)

/-- `while pending`, for `n` iterations at most; `none` where it takes more. The top of the stack comes
    first. -/
def loop : ℕ → List Json → Option (Except SchemaError Unit)
  | _, [] => some (.ok ())
  | 0, _ :: _ => none
  | n + 1, item :: pending =>
    match item with
    | .obj fields =>
      match pushFields fields pending with
      | none => some (.error .invalidJsonSchema)
      | some pending => loop n pending
    | .arr items => loop n (items.reverse ++ pending)
    | _ => loop n pending

/-- `check_schema`, with `n` iterations of its loop. -/
def checkSchema (n : ℕ) (schema : Json) : Option (Except SchemaError Unit) :=
  if !sv.encodes schema || 8192 < (Bytes.encodeText (canonical sv schema)).length then
    some (.error .invalidJsonSchema)
  else if !sv.conforms schema then some (.error .invalidJsonSchema)
  else loop n [schema]

end Check

/-! ## References -/

/-- A value occurs in another, at any depth. -/
inductive Occurs (j : Json) : Json → Prop
  | self : Occurs j j
  | item {items : List Json} {i : Json} : i ∈ items → Occurs j i → Occurs j (.arr items)
  | value {fields : List (String × Json)} {f : String × Json} :
      f ∈ fields → Occurs j f.2 → Occurs j (.obj fields)

/-- Every value under a key of a reference, wherever it is in the schema, is a string that starts
    with `#`. -/
def LocalReferences (schema : Json) : Prop :=
  ∀ fields, Occurs (.obj fields) schema → ∀ f ∈ fields, f.1 = "$ref" ∨ f.1 = "$dynamicRef" →
    ∃ text, f.2 = .str text ∧ Names.startsWith "#" text = true

/-! ## The walk -/

/-- What the walk requires of a value. -/
def fieldsLocal : Json → Bool
  | .obj fields => fields.all fun f => !(isReference f.1 && !isLocal f.2)
  | _ => true

/-- What it pushes for a value. -/
def pushed : Json → List Json
  | .obj fields => (fields.map (·.2)).reverse
  | .arr items => items.reverse
  | _ => []

theorem pushFields_eq (fields : List (String × Json)) (pending : List Json) :
    pushFields fields pending =
      if fieldsLocal (.obj fields) then some (pushed (.obj fields) ++ pending) else none := by
  induction fields generalizing pending with
  | nil => rfl
  | cons f rest ih =>
    have hlocal : fieldsLocal (.obj (f :: rest)) =
        (!(isReference f.1 && !isLocal f.2) && fieldsLocal (.obj rest)) := rfl
    rw [pushFields, ih, hlocal]
    cases isReference f.1 && !isLocal f.2 with
    | true => rfl
    | false => simp [pushed]

/-- The loop is the run of a worklist. -/
theorem loop_eq (n : ℕ) (pending : List Json) :
    loop n pending = (Worklist.run fieldsLocal pushed n pending).map fun passed =>
      if passed then .ok () else .error .invalidJsonSchema := by
  induction n generalizing pending with
  | zero => cases pending <;> rfl
  | succ n ih =>
    cases pending with
    | nil => rfl
    | cons item pending =>
      rw [Worklist.run]
      cases item with
      | obj fields =>
        rw [loop, pushFields_eq]
        split_ifs
        · exact ih _
        · rfl
      | arr items => exact ih _
      | null | bool | num | float | str => exact ih _

theorem sum_size_items (items : List Json) : (items.map JsonText.size).sum ≤ JsonText.sizeItems items := by
  induction items with
  | nil => exact Nat.zero_le _
  | cons j rest ih =>
    rw [List.map_cons, List.sum_cons, JsonText.sizeItems]
    omega

theorem sum_size_fields (fields : List (String × Json)) :
    ((fields.map (·.2)).map JsonText.size).sum ≤ JsonText.sizeFields fields := by
  induction fields with
  | nil => exact Nat.zero_le _
  | cons f rest ih =>
    rw [List.map_cons, List.map_cons, List.sum_cons, JsonText.sizeFields]
    omega

/-- What is pushed for a value is together smaller than the value. -/
theorem sum_size_pushed (j : Json) : ((pushed j).map JsonText.size).sum < JsonText.size j := by
  cases j with
  | arr items =>
    rw [pushed, List.map_reverse, List.sum_reverse]
    cases items with
    | nil => exact Nat.one_pos
    | cons j rest =>
      have hrest := sum_size_items rest
      rw [List.map_cons, List.sum_cons, JsonText.size]
      omega
  | obj fields =>
    rw [pushed, List.map_reverse, List.sum_reverse]
    cases fields with
    | nil => exact Nat.one_pos
    | cons f rest =>
      have hrest := sum_size_fields rest
      rw [List.map_cons, List.map_cons, List.sum_cons, JsonText.size]
      omega
  | null | bool | num | float | str => exact Nat.one_pos

/-- The walk comes to all that occurs in a value. -/
theorem within_iff_occurs {schema j : Json} : Worklist.Within pushed schema j ↔ Occurs j schema := by
  constructor
  · intro h
    induction h using Relation.ReflTransGen.head_induction_on with
    | refl => exact .self
    | @head a b hpart _ ih =>
      cases a with
      | arr items => exact .item (List.mem_reverse.1 hpart) ih
      | obj fields =>
        obtain ⟨f, hf, rfl⟩ := List.mem_map.1 (List.mem_reverse.1 hpart)
        exact .value hf ih
      | null | bool | num | float | str => exact absurd hpart List.not_mem_nil
  · intro h
    induction h with
    | self => exact .refl
    | item hi _ ih => exact .head (List.mem_reverse.2 hi) ih
    | value hf _ ih => exact .head (List.mem_reverse.2 (List.mem_map_of_mem hf)) ih

theorem isLocal_iff {j : Json} :
    isLocal j = true ↔ ∃ text, j = .str text ∧ Names.startsWith "#" text = true := by
  cases j <;> simp [isLocal]

theorem localReferences_iff {schema : Json} :
    LocalReferences schema ↔ ∀ j, Worklist.Within pushed schema j → fieldsLocal j = true := by
  constructor
  · intro h j hj
    cases j with
    | obj fields =>
      refine List.all_eq_true.2 fun f hf => ?_
      have hlocal := h fields (within_iff_occurs.1 hj) f hf
      rw [← isLocal_iff] at hlocal
      cases href : isReference f.1 with
      | false => rfl
      | true =>
        rw [hlocal (by simpa [isReference] using href)]
        rfl
    | arr | null | bool | num | float | str => rfl
  · intro h fields hoccurs f hf hkey
    have hall := List.all_eq_true.1 (h _ (within_iff_occurs.2 hoccurs)) f hf
    have href : isReference f.1 = true := by simpa [isReference] using hkey
    rw [← isLocal_iff]
    simpa [href] using hall

/-- **References stay local.** On every value `check_schema` comes to an end, whatever it is nested
    like, and it accepts a schema exactly when its text is within the bound, the validator accepts it,
    and every reference anywhere in it stays in it. -/
theorem checkSchema_local (sv : SchemaServices) (schema : Json) :
    ∃ result, (∀ n ≥ JsonText.size schema, checkSchema sv n schema = some result) ∧
      (∀ n r, checkSchema sv n schema = some r → r = result) ∧
      (result = .ok () → LocalReferences schema) ∧
      (result = .ok () ↔ sv.encodes schema = true ∧
        (Bytes.encodeText (canonical sv schema)).length ≤ 8192 ∧ sv.conforms schema = true ∧
        LocalReferences schema) := by
  by_cases hbound : (!sv.encodes schema || 8192 < (Bytes.encodeText (canonical sv schema)).length) = true
  · have hcheck : ∀ n, checkSchema sv n schema = some (.error .invalidJsonSchema) := fun n => if_pos hbound
    refine ⟨_, fun n _ => hcheck n, fun n r hr => Option.some.inj (hr.symm.trans (hcheck n)),
      nofun, nofun, ?_⟩
    rintro ⟨hencodes, hlength, -⟩
    simp [hencodes, Nat.not_lt.2 hlength] at hbound
  by_cases hconforms : sv.conforms schema = true
  · have hcheck : ∀ n, checkSchema sv n schema = loop n [schema] := fun n => by
      rw [checkSchema, if_neg hbound, if_neg (by simp [hconforms])]
    obtain ⟨passed, hruns, hunique, hpassed⟩ :=
      @Worklist.run_eq Json fieldsLocal pushed JsonText.size sum_size_pushed [schema]
    have haccepts : passed = true ↔ LocalReferences schema := by
      rw [hpassed, localReferences_iff]
      simp
    have hresult : (if passed then .ok () else .error .invalidJsonSchema : Except SchemaError Unit) =
      .ok () ↔
        passed = true := by
      cases passed <;> simp
    refine ⟨if passed then .ok () else .error .invalidJsonSchema, fun n hn => ?_, fun n r hr => ?_,
      fun hok => haccepts.1 (hresult.1 hok), ?_⟩
    · rw [hcheck, loop_eq, hruns n (by simpa using hn)]
      rfl
    · rw [hcheck, loop_eq, Option.map_eq_some_iff] at hr
      obtain ⟨passed', hrun, rfl⟩ := hr
      rw [hunique n passed' hrun]
    · rw [hresult, haccepts]
      simp only [Bool.or_eq_true, not_or, Bool.not_eq_true', Bool.not_eq_false, decide_eq_true_eq,
        Nat.not_lt] at hbound
      exact ⟨fun h => ⟨hbound.1, hbound.2, hconforms, h⟩, fun h => h.2.2.2⟩
  · have hcheck : ∀ n, checkSchema sv n schema = some (.error .invalidJsonSchema) := fun n => by
      rw [checkSchema, if_neg hbound, if_pos (by simpa using hconforms)]
    exact ⟨_, fun n _ => hcheck n, fun n r hr => Option.some.inj (hr.symm.trans (hcheck n)), nofun, nofun,
      fun h => absurd h.2.2.1 hconforms⟩

end Structured

end AdaptiveLlm
