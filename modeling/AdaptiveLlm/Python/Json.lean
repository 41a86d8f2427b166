import AdaptiveLlm.Lib.Bytes
import AdaptiveLlm.Lib.JsonRoundTrip

set_option autoImplicit false

/-! # JSON as Python reads it

`json.loads` takes a text, or bytes whose encoding it detects. It reads more than a `Json` can hold:
halves of surrogate pairs, `NaN` and the infinities, and bytes in UTF-16 or UTF-32. What it makes of
these is a parameter, which is asked after the reader of JSON in UTF-8.

So a result about a file that was written here is about the reader of `Lib/JsonText.lean`, and one
about any file has this function between the bytes and what is said of them. -/

namespace Python

/-- What `json.loads` does with a text: floats by a format, and what is no JSON by the two further
    fields. -/
structure JsonReader where
  floats : JsonText.FloatFormat
  /-- texts that are no JSON, or none that a `Json` can hold -/
  otherText : List Char → Option Json
  otherBytes : List UInt8 → Option Json

namespace JsonReader

variable (r : JsonReader)

/-- `json.loads(text)`; `none` is an exception. -/
def loads (text : List Char) : Option Json :=
  (JsonText.loads r.floats text).or (r.otherText text)

/-- `json.loads(bytes)`. -/
def loadsBytes (bytes : List UInt8) : Option Json :=
  ((Bytes.decodeText bytes).bind (JsonText.loads r.floats)).or (r.otherBytes bytes)

/-- `json.dumps(value)`. -/
def dumps (j : Json) : List Char := JsonText.dump r.floats .default j

theorem loads_dumps {j : Json} (h : JsonText.Proper j) : r.loads (r.dumps j) = some j := by
  rw [loads, dumps, JsonText.loads_dump r.floats .default h, Option.some_or]

/-- A dumped text is one line of a file. -/
theorem readText_dumps (j : Json) : Bytes.readText (Bytes.encodeText (r.dumps j)) = some (r.dumps j) := by
  refine Bytes.readText_encodeText fun hmem => ?_
  exact absurd (JsonText.printable_dump r.floats .default j _ hmem) (by decide)

end JsonReader

end Python
