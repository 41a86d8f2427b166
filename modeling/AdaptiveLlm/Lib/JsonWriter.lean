import AdaptiveLlm.Lib.JsonRoundTrip
import Mathlib.Data.String.Basic

set_option autoImplicit false

/-! # Injective writers of JSON

A `JsonWriter` writes the values of a type as JSON from whose form with sorted keys the value can be told.
Writers of lists, dictionaries, values that may be null and records are made of those of their parts. A
record is a list of named fields, and a dump of it may exclude some: two dumps that agree exclude the
same fields, and agree on every other.

A dump of a record with sorted keys is a dictionary, so its fields can be looked up again. From two
equal dumps one looks up each field in both; where the writers of the fields are injective the
fields agree, and where only one side had the field the dumps could not have been equal. A
`JsonWriter` carries this law as a field, so that a writer for a new type is made by giving the
writers of its parts. -/

open JsonText

/-! ## Dictionaries -/

/-- A dictionary with text keys, up to its order. -/
structure JsonDict (α : Type) where
  entries : List (String × α)
  sorted : (entries.map Prod.fst).Pairwise (· < ·)
  deriving DecidableEq

/-! ## Writers

A writer comes with the proof that two values with the same sorted text are the same value. Writers
are put together from others, and the proof with them, so that a record of many fields has it from
its fields. -/

/-- A way to write values of a type as JSON that can be told apart once keys are sorted. -/
structure JsonWriter (α : Type) where
  json : α → Json
  proper : ∀ a, Proper (json a)
  injective : ∀ a b, sortKeys (json a) = sortKeys (json b) → a = b

theorem properItems_iff (items : List Json) : ProperItems items ↔ ∀ j ∈ items, Proper j := by
  induction items with
  | nil => simp [ProperItems]
  | cons j items ih => rw [ProperItems, ih, List.forall_mem_cons]

theorem sortItems_eq_map (items : List Json) : sortItems items = items.map sortKeys := by
  induction items with
  | nil => rfl
  | cons j items ih => rw [sortItems, ih, List.map_cons]

theorem eq_null_of_sortKeys {j : Json} (h : sortKeys j = .null) : j = .null := by
  cases j <;> simp_all [sortKeys]

namespace JsonWriter

variable {α β : Type}

/-- Texts. -/
def str : JsonWriter String where
  json := .str
  proper _ := trivial
  injective a b h := by simpa [sortKeys] using h

/-- Integers. -/
def int : JsonWriter ℤ where
  json := .num
  proper _ := trivial
  injective a b h := by simpa [sortKeys] using h

/-- Booleans. -/
def bool : JsonWriter Bool where
  json := .bool
  proper _ := trivial
  injective a b h := by simpa [sortKeys] using h

/-- Floats. -/
def float : JsonWriter Double where
  json := .float
  proper _ := trivial
  injective a b h := by simpa [sortKeys] using h

/-- Through a map that loses nothing. -/
def comap (w : JsonWriter β) (f : α → β) (h : ∀ a b, f a = f b → a = b) : JsonWriter α where
  json a := w.json (f a)
  proper a := w.proper (f a)
  injective a b hab := h a b (w.injective _ _ hab)

/-- Values of either kind, which are written differently. -/
def either (v : JsonWriter α) (w : JsonWriter β)
    (h : ∀ a b, sortKeys (v.json a) ≠ sortKeys (w.json b)) : JsonWriter (α ⊕ β) where
  json := Sum.elim v.json w.json
  proper x := by
    cases x with
    | inl a => exact v.proper a
    | inr b => exact w.proper b
  injective x y hxy := by
    rcases x with a | b <;> rcases y with a' | b'
    · exact congrArg Sum.inl (v.injective _ _ hxy)
    · exact absurd hxy (h a b')
    · exact absurd hxy.symm (h a' b)
    · exact congrArg Sum.inr (w.injective _ _ hxy)

/-- Values that may be missing, where none is written as a null. -/
def nullable (w : JsonWriter α) (h : ∀ a, w.json a ≠ .null) : JsonWriter (Option α) where
  json := Json.ofOption w.json
  proper x := by
    cases x with
    | none => trivial
    | some a => exact w.proper a
  injective x y hxy := by
    rcases x with _ | a <;> rcases y with _ | b
    · rfl
    · exact absurd (eq_null_of_sortKeys hxy.symm) (h b)
    · exact absurd (eq_null_of_sortKeys hxy) (h a)
    · exact congrArg some (w.injective _ _ hxy)

/-- Lists. -/
def list (w : JsonWriter α) : JsonWriter (List α) where
  json as := .arr (as.map w.json)
  proper as := (properItems_iff _).2 (List.forall_mem_map.2 fun a _ => w.proper a)
  injective as bs h := by
    simp only [sortKeys, sortItems_eq_map, List.map_map, Json.arr.injEq] at h
    exact List.map_injective_iff.2 (fun a b hab => w.injective a b hab) h

/-- The keys of a dictionary are sorted already. -/
theorem sortKeys_dict (w : JsonWriter α) (d : JsonDict α) :
    sortKeys (.obj (d.entries.map fun e => (e.1, w.json e.2))) =
      .obj (d.entries.map fun e => (e.1, sortKeys (w.json e.2))) := by
  rw [sortKeys, sortFields_eq_map, List.map_map]
  refine congrArg Json.obj (List.Pairwise.insertionSort_eq (List.pairwise_map.2 ?_))
  exact (List.pairwise_map.1 d.sorted).imp fun {e e'} (hlt : e.1 < e'.1) => show e.1 ≤ e'.1 from hlt.le

/-- Dictionaries, whose order is not written. -/
def dict (w : JsonWriter α) : JsonWriter (JsonDict α) where
  json d := .obj (d.entries.map fun e => (e.1, w.json e.2))
  proper d := by
    refine ⟨?_, (properFields_iff _).2 (List.forall_mem_map.2 fun e _ => w.proper e.2)⟩
    rw [List.map_map]
    exact d.sorted.imp fun hlt => hlt.ne
  injective d d' h := by
    rw [sortKeys_dict, sortKeys_dict, Json.obj.injEq] at h
    have hentries : d.entries = d'.entries := by
      refine List.map_injective_iff.2 (fun e e' he => ?_) h
      obtain ⟨hname, hvalue⟩ := Prod.mk.inj he
      exact Prod.ext hname (w.injective _ _ hvalue)
    cases d
    cases d'
    cases hentries
    rfl

end JsonWriter

/-! ## Records

Some fields of a record are left out of a dump, depending on the record. The text shows which, and
so two records with one text leave out the same fields and have the others in common. -/

/-- A named field of a record, and what it is for two records to agree on it. -/
structure RecordField (α : Type) where
  name : String
  json : α → Json
  Agrees : α → α → Prop
  proper : ∀ a, Proper (json a)
  injective : ∀ a b, sortKeys (json a) = sortKeys (json b) → Agrees a b

namespace RecordField

variable {α β : Type}

/-- A field that is written by its type's writer. -/
def of (name : String) (get : α → β) (w : JsonWriter β) : RecordField α where
  name
  json a := w.json (get a)
  Agrees a b := get a = get b
  proper a := w.proper (get a)
  injective _ _ h := w.injective _ _ h

/-- A field of one value. -/
def const (name value : String) : RecordField α where
  name
  json _ := .str value
  Agrees _ _ := True
  proper _ := trivial
  injective := fun _ _ _ => trivial

/-- `model_dump` of a record, without some fields. -/
def dump (fields : List (RecordField α)) (excluded : List String) (a : α) : Json :=
  .obj ((fields.filter fun f => f.name ∉ excluded).map fun f => (f.name, f.json a))

variable {fields : List (RecordField α)}

theorem proper_dump (hnames : (fields.map (·.name)).Nodup) (excluded : List String) (a : α) :
    Proper (dump fields excluded a) := by
  refine ⟨?_, (properFields_iff _).2 (List.forall_mem_map.2 fun f _ => f.proper a)⟩
  rw [List.map_map]
  exact (List.filter_sublist.map _).nodup hnames

/-- A field of one dump is a field of the other. -/
theorem exists_of_sortKeys_dump {excluded excluded' : List String} {a b : α}
    (h : sortKeys (dump fields excluded a) = sortKeys (dump fields excluded' b)) {f : RecordField α}
    (hf : f ∈ fields) (hname : f.name ∉ excluded) :
    ∃ g ∈ fields, g.name ∉ excluded' ∧ g.name = f.name ∧
      sortKeys (g.json b) = sortKeys (f.json a) := by
  have hperm : ∀ (ex : List String) (x : α), ∃ written, sortKeys (dump fields ex x) = .obj written ∧
      written.Perm ((fields.filter fun f => f.name ∉ ex).map fun f => (f.name, sortKeys (f.json x))) :=
    fun ex x => ⟨_, rfl, (sortedFields_perm _).trans (.of_eq (by rw [List.map_map]; rfl))⟩
  obtain ⟨written, hwritten, hperm₁⟩ := hperm excluded a
  obtain ⟨written', hwritten', hperm₂⟩ := hperm excluded' b
  have hsame : written = written' := by
    rw [hwritten, hwritten'] at h
    exact Json.obj.inj h
  have hmem : (f.name, sortKeys (f.json a)) ∈ written :=
    hperm₁.mem_iff.2 (List.mem_map.2 ⟨f, List.mem_filter.2 ⟨hf, by simpa using hname⟩, rfl⟩)
  obtain ⟨g, hg, heq⟩ := List.mem_map.1 (hperm₂.mem_iff.1 (hsame ▸ hmem))
  obtain ⟨hgfields, hgname⟩ := List.mem_filter.1 hg
  exact ⟨g, hgfields, by simpa using hgname, (Prod.mk.inj heq).1, (Prod.mk.inj heq).2⟩

/-- **Two dumps that agree exclude the same fields, and agree on the others.** -/
theorem agrees_of_sortKeys_dump (hnames : (fields.map (·.name)).Nodup)
    {excluded excluded' : List String} {a b : α}
    (h : sortKeys (dump fields excluded a) = sortKeys (dump fields excluded' b)) {f : RecordField α}
    (hf : f ∈ fields) :
    (f.name ∈ excluded ↔ f.name ∈ excluded') ∧ (f.name ∉ excluded → f.Agrees a b) := by
  refine ⟨?_, fun hname => ?_⟩
  · rw [← not_iff_not]
    constructor
    · intro hname
      obtain ⟨g, -, hg, hsame, -⟩ := exists_of_sortKeys_dump h hf hname
      exact hsame ▸ hg
    · intro hname
      obtain ⟨g, -, hg, hsame, -⟩ := exists_of_sortKeys_dump h.symm hf hname
      exact hsame ▸ hg
  · obtain ⟨g, hg, -, hsame, hjson⟩ := exists_of_sortKeys_dump h hf hname
    obtain rfl : g = f := List.inj_on_of_nodup_map hnames hg hf hsame
    exact g.injective a b hjson.symm

end RecordField

/-- The writer of a record that its fields determine. -/
def JsonWriter.record {α : Type} (fields : List (RecordField α)) (hnames : (fields.map (·.name)).Nodup)
    (ext : ∀ a b, (∀ f ∈ fields, f.Agrees a b) → a = b) : JsonWriter α where
  json := RecordField.dump fields []
  proper := RecordField.proper_dump hnames []
  injective a b h := ext a b fun _ hf =>
    (RecordField.agrees_of_sortKeys_dump hnames h hf).2 List.not_mem_nil

theorem JsonWriter.record_json_ne_null {α : Type} {fields : List (RecordField α)}
    (hnames : (fields.map (·.name)).Nodup) (ext : ∀ a b, (∀ f ∈ fields, f.Agrees a b) → a = b) (a : α) :
    (JsonWriter.record fields hnames ext).json a ≠ .null := by
  simp [JsonWriter.record, RecordField.dump]
