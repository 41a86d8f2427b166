import AdaptiveLlm.Lib.Json

set_option autoImplicit false

/-! # Contracts of a request

The bounds of `contracts.py` on identifiers and contents, a message of a conversation, and what
`InferenceRequest` asks of the messages together.

The patterns of the contracts are not matched by Python's `re`: pydantic has its own engine, whose
`\w` takes combining marks and joiners that Python's does not, and lacks numerals that Python's has.
Within ASCII the two agree. So the characters beyond it have a class of their own here.

`isIdentifier` takes this class as `letters`. A result about what is read of an answer has the class
of `CITATION_PATTERN` beside it, and assumes nothing of how the two lie to each other. -/

namespace AdaptiveLlm

/-- `\w` of a contract's pattern; `letters` says which characters beyond ASCII are of it. -/
def isContractWord (letters : Char → Bool) (c : Char) : Bool :=
  if c.toNat < 128 then c.isAlphanum || c = '_' else letters c

/-- `Identifier`: `^[\w.-]+$`, of at most 100 characters. -/
def isIdentifier (letters : Char → Bool) (text : String) : Bool :=
  1 ≤ text.length && text.length ≤ 100 &&
    text.toList.all fun c => isContractWord letters c || c = '.' || c = '-'

/-- The `max_length` of `Content`. -/
def contentLimit : ℕ := 32000

/-- The roles of the messages of a request. -/
inductive Role where
  | system
  | user
  | assistant
  deriving DecidableEq, Repr

/-- The role as JSON writes it. -/
def Role.name : Role → String
  | .system => "system"
  | .user => "user"
  | .assistant => "assistant"

/-- The role of a name, if it is one. -/
def Role.ofName (name : String) : Option Role := [Role.system, .user, .assistant].find? (·.name = name)

@[simp] theorem Role.ofName_name (r : Role) : ofName r.name = some r := by cases r <;> decide

/-- A role and a content, as they stand in a row. -/
structure Message where
  role : Role
  content : String
  deriving DecidableEq, Repr

namespace Message

/-- The checks of `Message`. -/
def valid (m : Message) : Bool :=
  m.content.length ≤ contentLimit && !(m.role = .system && 8000 < m.content.length)

/-- `model_dump` of a message. -/
def toJson (m : Message) : Json := .obj [("role", .str m.role.name), ("content", .str m.content)]

/-- `Message.model_validate`; an unknown field is an error. -/
def ofJson (j : Json) : Option Message :=
  match j with
  | .obj fields =>
    if fields.all fun f => f.1 ∈ ["schema_version", "role", "content"] then do
      if ((fields.lookup "schema_version").getD (.str "1.0")).str? ≠ some "1.0" then none
      let role ← ((fields.lookup "role").bind Json.str?).bind Role.ofName
      let content ← (fields.lookup "content").bind Json.str?
      let m : Message := { role, content }
      if m.valid then some m else none
    else none
  | _ => none

theorem ofJson_toJson (m : Message) : ofJson m.toJson = if m.valid then some m else none := by
  simp [ofJson, toJson, List.lookup_cons, Json.str?]

end Message

/-- `bounded_messages` of `InferenceRequest`, and the bounds on their number. -/
def boundedMessages (messages : List Message) : Bool :=
  1 ≤ messages.length && messages.length ≤ 32 && !messages.tail.any (·.role = .system) &&
    (messages.map (·.content.length)).sum ≤ contentLimit && (messages.getLast?.map (·.role) = some .user)

end AdaptiveLlm
