import AdaptiveLlm.Contracts.Attempts
import AdaptiveLlm.Lib.JsonText
import AdaptiveLlm.Providers.Citations

set_option autoImplicit false

/-! # The fake provider

`FakeProvider` (`providers/__init__.py`) answers with its context, as text or as a JSON object, as far
as the limit of tokens goes. `LocalValidator` (`validation/__init__.py`) asks of an answer that it
cites what was supplied and nothing else.

Tokens are the maximal stretches without whitespace, and the answer is cut behind one of them. A
mark has no blank, so it lies within one token and is never cut in two: the citations read in a cut
answer are the first ones of the context's. As a JSON object the answer has the same citations,
since what is written around and between the texts has neither a bracket nor a character of an id
next to one. -/

namespace AdaptiveLlm

namespace Providers

open Python

/-! ## Requests and results -/

/-- The `type` of a `ResponseFormat`. -/
inductive FormatType where
  | text
  | jsonObject
  | jsonSchema
  deriving DecidableEq

/-- What `FakeProvider` reads of a `ProviderRequest`. -/
structure FakeRequest where
  messages : List Message
  context : List Rag.Chunk
  responseFormat : FormatType := .text
  maxOutputTokens : ℕ

/-- The property `input_tokens`. -/
def FakeRequest.inputTokens (request : FakeRequest) : ℕ :=
  (request.messages.map fun m => Rag.tokenCount m.content).sum +
    (request.context.map fun c => Rag.tokenCount c.content).sum

/-- A `ProviderResult` with its citations. -/
structure CitedResult extends ProviderResult where
  citations : List Citation
  deriving DecidableEq

/-! ## FakeProvider -/

/-- The ends of the matches of `\S+` in a text that begins at `n`. -/
def tokenEnds : ℕ → List Char → List ℕ
  | _, [] => []
  | n, c :: text =>
    if !isSpace c && text.head?.all isSpace then (n + 1) :: tokenEnds (n + 1) text
    else tokenEnds (n + 1) text

/-- The style of `json.dumps(value, ensure_ascii=False)`. -/
def unescaped : JsonText.Style := { ascii := false, spaced := true }

/-- `json.dumps({"answer": content}, ensure_ascii=False)`. -/
def dumpAnswer (content : List Char) : List Char :=
  '{' :: JsonText.quote unescaped "answer".toList ++ ':' :: JsonText.space unescaped ++
    JsonText.quote unescaped content ++ ['}']

theorem dumpAnswer_eq (fmt : JsonText.FloatFormat) (content : String) :
    dumpAnswer content.toList = JsonText.dump fmt unescaped (.obj [("answer", .str content)]) := by
  simp only [dumpAnswer, JsonText.dump, JsonText.dumpFields]

/-- `test_only_failure`. -/
inductive TestFailure where
  | error
  | deadlineExceeded
  deriving DecidableEq

/-- The finish reason of an injected failure. -/
def TestFailure.finishReason : TestFailure → FinishReason
  | error => .error
  | deadlineExceeded => .deadlineExceeded

namespace FakeProvider

/-- The answer as text. -/
def answerText (request : FakeRequest) : List Char :=
  "SYNTHETIC ANSWER: ".toList ++
    if request.context = [] then "No context supplied.".toList else renderContext request.context

/-- The answer before it is cut off. -/
def answer (request : FakeRequest) : List Char :=
  if request.responseFormat = .jsonObject then dumpAnswer (answerText request) else answerText request

/-- `tokens[limit - 1]`; an index of -1 is the last token's. -/
def tokenAt (limit : ℕ) (tokens : List ℕ) : Option ℕ :=
  if limit = 0 then tokens.getLast? else tokens[limit - 1]?

/-- The answer within the limit. -/
def cutOff (limit : ℕ) (content : List Char) : List Char × FinishReason :=
  let tokens := tokenEnds 0 content
  if limit < tokens.length then (content.take ((tokenAt limit tokens).getD 0), .length)
  else (content, .stop)

/-- `generate`. -/
def generate (testOnlyFailure : Option TestFailure) (request : FakeRequest) : CitedResult :=
  let (content, finish) := cutOff request.maxOutputTokens (answer request)
  let (content, finish) := match testOnlyFailure with
    | some failure => ([], failure.finishReason)
    | none => (content, finish)
  { content := String.ofList content
    citations := (request.context.map citationOf).filter fun x => x.mark <:+: content
    usage :=
      { inputTokens := request.inputTokens
        outputTokens := Rag.tokenCount (String.ofList content) }
    finishReason := finish }

end FakeProvider

/-! ## LocalValidator -/

namespace LocalValidator

variable (wide : Char → Bool)

/-- The citations of the chunks that were supplied. -/
def supplied (request : FakeRequest) : List Citation := request.context.map citationOf

/-- All citations of a result: its own and those that its text is marked with. -/
def cited (result : CitedResult) : List Citation := result.citations ++ citations wide result.content.toList

/-- The check `citation_ids`. -/
def citationIds (request : FakeRequest) (result : CitedResult) : Bool :=
  (cited wide result).all fun x => x ∈ supplied request

/-- The check `citation_required`. -/
def citationRequired (request : FakeRequest) (result : CitedResult) : Bool :=
  (supplied request).isEmpty || !(cited wide result).isEmpty

end LocalValidator

/-! ## Tokens

Tokens are what stands between whitespace. The provider cuts its answer at the end of a token, so
that the answer has the first tokens as they were and the space between them too. -/

section Tokens

variable {n e : ℕ} {text p rest : List Char}

theorem exists_of_mem_tokenEnds (h : e ∈ tokenEnds n text) :
    ∃ p rest, text = p ++ rest ∧ p ≠ [] ∧ e = n + p.length ∧ rest.head?.all isSpace = true := by
  induction text generalizing n with
  | nil => cases h
  | cons c text ih =>
    have hlater (h : e ∈ tokenEnds (n + 1) text) :
        ∃ p rest, c :: text = p ++ rest ∧ p ≠ [] ∧ e = n + p.length ∧ rest.head?.all isSpace = true := by
      obtain ⟨p, rest, rfl, -, rfl, hrest⟩ := ih h
      exact ⟨c :: p, rest, rfl, List.cons_ne_nil c p, by rw [List.length_cons]; omega, hrest⟩
    rw [tokenEnds] at h
    split_ifs at h with hend
    · rcases List.mem_cons.1 h with rfl | h
      · exact ⟨[c], text, rfl, List.cons_ne_nil c [], rfl, (Bool.and_eq_true_iff.1 hend).2⟩
      · exact hlater h
    · exact hlater h

theorem lt_of_mem_tokenEnds (h : e ∈ tokenEnds n text) : n < e := by
  obtain ⟨p, rest, -, hp, rfl, -⟩ := exists_of_mem_tokenEnds h
  have hpos := List.length_pos_iff.2 hp
  omega

/-- The text up to the end of a token has the tokens so far. -/
theorem length_tokenEnds_take {k : ℕ} (h : (tokenEnds n text)[k]? = some e) :
    (tokenEnds n (text.take (e - n))).length = k + 1 := by
  induction text generalizing n k with
  | nil => cases h
  | cons c text ih =>
    -- behind this character the text is cut as from its own start
    have htake (hlt : n + 1 < e) : tokenEnds n ((c :: text).take (e - n)) =
        if !isSpace c && text.head?.all isSpace then (n + 1) :: tokenEnds (n + 1) (text.take (e - (n + 1)))
        else tokenEnds (n + 1) (text.take (e - (n + 1))) := by
      rw [show e - n = e - (n + 1) + 1 by omega, List.take_succ_cons, tokenEnds, List.head?_take,
        if_neg (show e - (n + 1) ≠ 0 by omega)]
    rw [tokenEnds] at h
    split_ifs at h with hend
    · cases k with
      | zero =>
        obtain rfl := Option.some.inj h
        simp [tokenEnds, (Bool.and_eq_true_iff.1 hend).1]
      | succ k =>
        replace h : (tokenEnds (n + 1) text)[k]? = some e := h
        rw [htake (lt_of_mem_tokenEnds (List.mem_of_getElem? h)), if_pos hend, List.length_cons, ih h]
    · rw [htake (lt_of_mem_tokenEnds (List.mem_of_getElem? h)), if_neg hend, ih h]

/-- The words of a text, and the one it begins with if it begins with one. -/
theorem splitOnP_tokens (text : List Char) : ∃ w ws, text.splitOnP isSpace = w :: ws ∧
    (w = [] ↔ text.head?.all isSpace = true) := by
  cases text with
  | nil => exact ⟨[], [], by simp, by simp⟩
  | cons c text =>
    obtain ⟨w, ws, h⟩ := List.exists_cons_of_ne_nil (List.splitOnP_ne_nil isSpace text)
    rw [List.splitOnP_cons_eq_if_modifyHead]
    by_cases hc : isSpace c = true
    · exact ⟨[], text.splitOnP isSpace, by rw [if_pos hc], by simp [hc]⟩
    · exact ⟨c :: w, ws, by rw [if_neg hc, h, List.modifyHead_cons], by simp [hc]⟩

/-- `token_count` counts the ends of tokens. -/
theorem length_tokenEnds (n : ℕ) (text : List Char) :
    (tokenEnds n text).length = (Rag.findall (fun c => !isSpace c) text).length := by
  induction text generalizing n with
  | nil => simp [tokenEnds, Rag.findall]
  | cons c text ih =>
    obtain ⟨w, ws, hsplit, hw⟩ := splitOnP_tokens text
    simp only [Rag.findall, Bool.not_not] at ih ⊢
    rw [tokenEnds, List.splitOnP_cons_eq_if_modifyHead]
    by_cases hc : isSpace c = true
    · rw [if_neg (by simp [hc]), if_pos hc, ih, List.filter_cons_of_neg (by simp)]
    · rw [if_neg hc, hsplit, List.modifyHead_cons, List.filter_cons_of_pos (by simp), List.length_cons]
      by_cases hend : text.head?.all isSpace = true
      · rw [if_pos (by simp [hc, hend]), List.length_cons, ih, hsplit,
          List.filter_cons_of_neg (by simp [hw.2 hend])]
      · rw [if_neg (by simp [hend]), ih, hsplit, List.filter_cons_of_pos (by simp [mt hw.1 hend]),
          List.length_cons]

/-- Tokens on either side of a space. -/
theorem tokens_append (p : List Char) (hrest : rest.head?.all isSpace = true) :
    Rag.findall (fun c => !isSpace c) (p ++ rest) =
      Rag.findall (fun c => !isSpace c) p ++ Rag.findall (fun c => !isSpace c) rest := by
  cases rest with
  | nil => simp [Rag.findall]
  | cons c rest =>
    have hc : isSpace c = true := hrest
    simp only [Rag.findall, Bool.not_not]
    rw [List.splitOnP_append_cons p rest hc, List.filter_append,
      List.splitOnP_cons_eq_if_modifyHead, if_pos hc, List.filter_cons_of_neg (by simp)]

end Tokens

/-! ## The answer within its limit

The answer is cut behind the token that reaches the limit, or not at all where it has no more tokens
than that. -/

namespace FakeProvider

variable {wide : Char → Bool} {limit : ℕ} {content : List Char}

/-- Where an answer that is too long is cut off. -/
theorem exists_tokenAt (h : limit < (tokenEnds 0 content).length) :
    ∃ e k, cutOff limit content = (content.take e, .length) ∧ (tokenEnds 0 content)[k]? = some e ∧
      (1 ≤ limit → k + 1 = limit) := by
  have hcut (e : ℕ) (he : tokenAt limit (tokenEnds 0 content) = some e) :
      cutOff limit content = (content.take e, .length) := by
    rw [cutOff, if_pos h, he, Option.getD_some]
  by_cases hzero : limit = 0
  · obtain ⟨k, hk⟩ : ∃ k, (tokenEnds 0 content).length = k + 1 :=
      ⟨_, (Nat.succ_pred_eq_of_pos (by omega)).symm⟩
    have hlast : (tokenEnds 0 content)[k]? = some ((tokenEnds 0 content)[k]) := List.getElem?_eq_getElem _
    refine ⟨_, k, hcut _ ?_, hlast, by omega⟩
    rw [tokenAt, if_pos hzero, List.getLast?_eq_getElem?, show (tokenEnds 0 content).length - 1 =
      k by omega]
    exact hlast
  · have hat : (tokenEnds 0 content)[limit - 1]? = some ((tokenEnds 0 content)[limit - 1]) :=
      List.getElem?_eq_getElem _
    exact ⟨_, limit - 1, hcut _ (by rw [tokenAt, if_neg hzero, hat]), hat, by omega⟩

/-- An answer is cut off before a space, or not at all. -/
theorem exists_cutOff (limit : ℕ) (content : List Char) :
    ∃ rest, content = (cutOff limit content).1 ++ rest ∧ rest.head?.all isSpace = true := by
  by_cases h : limit < (tokenEnds 0 content).length
  · obtain ⟨e, k, hcut, hk, -⟩ := exists_tokenAt h
    obtain ⟨p, rest, hsplit, -, he, hrest⟩ := exists_of_mem_tokenEnds (List.mem_of_getElem? hk)
    refine ⟨rest, ?_, hrest⟩
    rw [hcut, he, Nat.zero_add]
    conv_rhs => rw [hsplit, List.take_left]
    exact hsplit
  · exact ⟨[], by rw [cutOff, if_neg h, List.append_nil], rfl⟩

theorem cutOff_of_stop (h : (cutOff limit content).2 = .stop) : (cutOff limit content).1 = content := by
  by_cases hlimit : limit < (tokenEnds 0 content).length
  · rw [cutOff, if_pos hlimit] at h
    cases h
  · rw [cutOff, if_neg hlimit]

/-- **The tokens of the answer are the first ones of the uncut answer, as many as the limit.** -/
theorem tokens_cutOff (hlimit : 1 ≤ limit) :
    Rag.findall (fun c => !isSpace c) (cutOff limit content).1 =
      (Rag.findall (fun c => !isSpace c) content).take limit := by
  by_cases h : limit < (tokenEnds 0 content).length
  · obtain ⟨rest, hsplit, hrest⟩ := exists_cutOff limit content
    obtain ⟨e, k, hcut, hk, hlast⟩ := exists_tokenAt h
    have hlength : (Rag.findall (fun c => !isSpace c) (cutOff limit content).1).length = limit := by
      rw [← length_tokenEnds 0, hcut, ← hlast hlimit]
      exact length_tokenEnds_take hk
    conv_rhs => rw [hsplit, tokens_append _ hrest]
    exact (List.take_left' hlength).symm
  · rw [length_tokenEnds, Nat.not_lt] at h
    rw [List.take_of_length_le h, cutOff, if_neg (by rw [length_tokenEnds]; omega)]

/-! ## What it cites

The answer is the rendered context with some words around it, as text or as a JSON string. No escape
of JSON opens a mark or closes one, so the marks are read alike in both, up to the place where the
answer is cut off. -/

/-- A letter that stands for a character in JSON opens no mark. -/
theorem not_mem_hexDigits (n : ℕ) : '[' ∉ JsonText.hexDigits n := by
  have hdigit (m : ℕ) : '[' ≠ (m % 16).digitChar := fun h => by
    have hvalue := JsonText.hexValue_digitChar (m % 16) (Nat.mod_lt m (by decide))
    rw [← h, show JsonText.hexValue '[' = none by decide] at hvalue
    cases hvalue
  simp [JsonText.hexDigits, hdigit]

/-- JSON writes the characters of no mark anew, and none of them opens one. -/
theorem citations_escaped (content : List Char) :
    citations wide (content.flatMap (JsonText.escapeChar false)) = citations wide content := by
  have hbackslash (w : List Char) (hw : (citationPattern wide).Texts w) : '\\' ∉ w :=
    not_mem_mark hw (by decide) (isName_eq_false (by decide))
  refine congrArg (List.map groups) (delimited_citationPattern.findall_flatMap (fun x => ?_) [] content)
  unfold JsonText.escapeChar
  split
  · rename_i letter hletter
    obtain ⟨l₁, l₂, hescapes, -⟩ := List.lookup_eq_some_iff.1 hletter
    have hmem : (x, letter) ∈ JsonText.shortEscapes := by simp [hescapes]
    simp only [JsonText.shortEscapes, List.mem_cons, Prod.mk.injEq, List.not_mem_nil, or_false] at hmem
    refine .inr ⟨fun w hw => not_mem_mark hw ?_ ?_, '\\', [letter], rfl, ?_, hbackslash⟩ <;>
      rcases hmem with ⟨rfl, rfl⟩ | ⟨rfl, rfl⟩ | ⟨rfl, rfl⟩ | ⟨rfl, rfl⟩ | ⟨rfl, rfl⟩ |
        ⟨rfl, rfl⟩ | ⟨rfl, rfl⟩ <;>
      first | decide | rfl
  · split_ifs with hcontrol hascii hunit
    · refine .inr ⟨fun w hw => not_mem_mark hw ?_ ?_, '\\', _, rfl, ?_, hbackslash⟩
      · simp only [List.mem_cons, List.not_mem_nil, or_false]
        rintro (rfl | rfl | rfl) <;> exact absurd hcontrol (by decide)
      · have hne (y : Char) (hy : 0x20 ≤ y.toNat) : x ≠ y := by
          rintro rfl
          omega
        simp [isName, isWord_eq_false_of_lt (show x.toNat < 48 by omega), hne '.' (by decide),
          hne '-' (by decide)]
      · simp [not_mem_hexDigits]
    · cases hascii.1
    · cases hascii.1
    · exact .inl rfl

theorem citations_dumpAnswer (content : List Char) :
    citations wide (dumpAnswer content) = citations wide content := by
  have hsplit : dumpAnswer content =
      "\x7b\"answer\": \"".toList ++ (content.flatMap (JsonText.escapeChar false) ++ '"' :: ['}']) := by
    have hname : JsonText.quote unescaped "answer".toList = "\"answer\"".toList := by decide
    rw [dumpAnswer, hname]
    simp [JsonText.quote, JsonText.space, unescaped]
  have hopening : '[' ∉ "\x7b\"answer\": \"".toList := by decide
  rw [hsplit, citations_unopened hopening, citations_part (by decide) (isName_eq_false (by decide)),
    citations_escaped]
  exact List.append_nil _

theorem citations_answer (request : FakeRequest) :
    citations wide (answer request) = citations wide (renderContext request.context) := by
  have htext : citations wide (answerText request) = citations wide (renderContext request.context) := by
    have hopening : '[' ∉ "SYNTHETIC ANSWER: ".toList := by decide
    refine (citations_unopened hopening _).trans ?_
    by_cases hcontext : request.context = []
    · have hnone : '[' ∉ "No context supplied.".toList := by decide
      rw [if_pos hcontext, hcontext, ← List.append_nil "No context supplied.".toList,
        citations_unopened hnone]
      rfl
    · rw [if_neg hcontext]
  rw [answer]
  split_ifs
  · rw [citations_dumpAnswer, htext]
  · exact htext

theorem isName_of_isSpace (hwide : ∀ c, isSpace c → wide c = false) {c : Char} (hc : isSpace c = true) :
    isName wide c = false := by
  have hword : isWord wide c = false := by
    by_cases hascii : c.toNat < 128
    · simp only [isSpace, Bool.or_eq_true, Bool.and_eq_true, decide_eq_true_eq] at hc
      exact isWord_eq_false_of_lt (by omega)
    · rw [isWord, if_neg hascii, hwide c hc]
  have hne (y : Char) (hy : isSpace y = false) : c ≠ y := by
    rintro rfl
    rw [hc] at hy
    cases hy
  simp [isName, hword, hne '.' (by decide), hne '-' (by decide)]

/-- An answer that is cut off cites what comes first. -/
theorem citations_cutOff (hwide : ∀ c, isSpace c → wide c = false) (limit : ℕ) (content : List Char) :
    citations wide (cutOff limit content).1 <+: citations wide content := by
  obtain ⟨rest, hsplit, hrest⟩ := exists_cutOff limit content
  cases rest with
  | nil =>
    rw [List.append_nil] at hsplit
    rw [← hsplit]
  | cons c rest =>
    refine ⟨citations wide rest, ?_⟩
    conv_rhs => rw [hsplit]
    refine (citations_part ?_ (isName_of_isSpace hwide hrest) _ _).symm
    rintro hmem
    simp only [List.mem_cons, List.not_mem_nil, or_false] at hmem
    rcases hmem with rfl | rfl | rfl <;> cases hrest

theorem generate_none (request : FakeRequest) :
    (generate none request).content.toList = (cutOff request.maxOutputTokens (answer request)).1 ∧
      (generate none request).finishReason = (cutOff request.maxOutputTokens (answer request)).2 :=
  ⟨String.toList_ofList, rfl⟩

theorem generate_failed (failure : TestFailure) (request : FakeRequest) :
    (generate (some failure) request).content.toList = [] := String.toList_ofList

/-! ## Marks in an answer

A mark in a content is in the context, and in the answer made of it; as JSON too, since no character
of a mark is escaped. -/

/-- A mark of the contract's ids is written in JSON as it is. -/
theorem escapeChar_eq_self {c : Char} (hquoted : c ∉ ['"', '\\']) (hcontrol : 0x20 ≤ c.toNat) :
    JsonText.escapeChar false c = [c] := by
  have hshort : JsonText.shortEscapes.lookup c = none := by
    rw [List.lookup_eq_none_iff]
    intro entry hentry
    have hescaped : entry.1 ∈ ['"', '\\'] ∨ entry.1.toNat < 0x20 := by
      revert entry
      decide
    have hne : c ≠ entry.1 := by
      rintro rfl
      rcases hescaped with hmem | hlt
      · exact hquoted hmem
      · omega
    simpa using hne
  rw [JsonText.escapeChar, hshort]
  simp [Nat.not_lt.2 hcontrol]

theorem infix_dumpAnswer {x : Citation} {letters : Char → Bool} (hd : isIdentifier letters x.documentId)
    (hc : isIdentifier letters x.chunkId) {content : List Char} (h : x.mark <:+: content) :
    x.mark <:+: dumpAnswer content := by
  have hid {text : String} (htext : isIdentifier letters text) :
      ∀ c ∈ text.toList, JsonText.escapeChar false c = [c] := by
    intro c hmem
    obtain ⟨hchars, hcontrol⟩ := isIdentifier_chars htext hmem
    exact escapeChar_eq_self (fun h => hchars (by simp at h ⊢; tauto)) hcontrol
  have hself : x.mark.flatMap (JsonText.escapeChar false) = x.mark := by
    have hchars : ∀ c ∈ x.mark, JsonText.escapeChar false c = [c] := by
      intro c hmem
      simp only [Citation.mark, List.mem_cons, List.mem_append, List.not_mem_nil, or_false] at hmem
      rcases hmem with rfl | hmem | rfl | hmem | rfl
      · exact escapeChar_eq_self (by decide) (by decide)
      · exact hid hd c hmem
      · exact escapeChar_eq_self (by decide) (by decide)
      · exact hid hc c hmem
      · exact escapeChar_eq_self (by decide) (by decide)
    rw [List.flatMap_congr hchars, List.flatMap_singleton']
  obtain ⟨u, v, rfl⟩ := h
  have hquoted : x.mark <:+: (u ++ x.mark ++ v).flatMap (JsonText.escapeChar false) := by
    rw [List.flatMap_append, List.flatMap_append, hself]
    exact List.infix_append _ _ _
  have hdump : ∀ text, text.flatMap (JsonText.escapeChar false) <:+: dumpAnswer text := fun text =>
    ⟨'{' :: JsonText.quote unescaped "answer".toList ++ ':' :: JsonText.space unescaped ++
        ['"'], ['"', '}'], by
      rw [dumpAnswer, JsonText.quote.eq_def unescaped text]
      simp only [unescaped, List.append_assoc, List.cons_append, List.nil_append]⟩
  exact hquoted.trans (hdump _)

/-- The mark of the first chunk stands in the answer. -/
theorem infix_answer {request : FakeRequest} {c : Rag.Chunk} {context : List Rag.Chunk}
    (hcontext : request.context = c :: context) {letters : Char → Bool}
    (hd : isIdentifier letters c.documentId) (hc : isIdentifier letters c.chunkId) :
    (citationOf c).mark <:+: answer request := by
  have hchunk : (citationOf c).mark <:+: renderChunk c :=
    ((List.suffix_cons _ _).trans (List.suffix_append _ _)).isInfix
  have hfirst : (citationOf c).mark <:+: renderContext request.context := by
    rw [hcontext]
    cases context with
    | nil => simpa [renderContext] using hchunk
    | cons d context =>
      refine hchunk.trans (List.IsPrefix.isInfix ⟨' ' :: renderContext (d :: context), ?_⟩)
      simp [renderContext, List.intercalate_cons_cons]
  have htext : (citationOf c).mark <:+: answerText request := by
    have hsupplied : request.context ≠ [] := by simp [hcontext]
    unfold answerText
    rw [if_neg hsupplied]
    exact hfirst.trans (List.suffix_append _ _).isInfix
  rw [answer]
  split_ifs
  · exact infix_dumpAnswer (x := citationOf c) hd hc htext
  · exact htext

section Checks

variable {request : FakeRequest} {letters : Char → Bool}

theorem unbracketed_of_contract
    (hids : ∀ c ∈ request.context, isIdentifier letters c.documentId ∧ isIdentifier letters c.chunkId) :
    ∀ c ∈ request.context, (citationOf c).Unbracketed :=
  fun c hc => unbracketed_of_isIdentifier (hids c hc).1 (hids c hc).2

/-- The substring test reports the supplied chunks whose marks stand in the content. -/
theorem mem_reported_iff {failure : Option TestFailure} {x : Citation} :
    x ∈ (generate failure request).citations ↔
      x ∈ LocalValidator.supplied request ∧ x.mark <:+: (generate failure request).content.toList := by
  simp only [generate, LocalValidator.supplied, List.mem_filter, decide_eq_true_eq, String.toList_ofList]

/-- An answer is read as its context, from the start, -/
theorem citations_generate_subset (hwide : ∀ c, isSpace c → wide c = false) (failure : Option TestFailure) :
    citations wide (generate failure request).content.toList <+: citations wide
        (renderContext request.context) := by
  cases failure with
  | none =>
    rw [(generate_none request).1, ← citations_answer]
    exact citations_cutOff hwide _ _
  | some failure =>
    rw [generate_failed]
    exact List.nil_prefix

/-- and to its end where it is not cut off. -/
theorem citations_generate_of_stop (hstop : (generate none request).finishReason = .stop) :
    citations wide (generate none request).content.toList =
        citations wide (renderContext request.context) := by
  obtain ⟨hcontent, hfinish⟩ := generate_none request
  rw [hcontent, ← citations_answer, cutOff_of_stop (hfinish ▸ hstop)]

/-- What is reported is supplied, so `LocalValidator` asks it of what is read. -/
theorem citationIds_generate_iff {failure : Option TestFailure} :
    LocalValidator.citationIds wide request (generate failure request) = true ↔
      ∀ x ∈ citations wide (generate failure request).content.toList,
          x ∈ LocalValidator.supplied request := by
  simp only [LocalValidator.citationIds, LocalValidator.cited, List.all_append,
    Bool.and_eq_true, List.all_eq_true, decide_eq_true_eq]
  exact and_iff_right fun x hx => (mem_reported_iff.1 hx).1

theorem mem_own {x y : Citation} (h : x ∈ y.own wide) : x = y := by
  rw [Citation.own] at h
  split_ifs at h
  · exact List.mem_singleton.1 h
  · cases h

theorem supplied_iff (hids : ∀ c ∈ request.context, (citationOf c).Unbracketed) :
    (∀ x ∈ citations wide (renderContext request.context), x ∈ LocalValidator.supplied request) ↔
      ∀ c ∈ request.context, ∀ x ∈ citations wide c.content.toList,
          x ∈ LocalValidator.supplied request := by
  simp only [citations_renderContext hids, List.mem_flatMap, List.mem_append]
  constructor
  · exact fun h c hc x hx => h x ⟨c, hc, .inl hx⟩
  · rintro h x ⟨c, hc, hx | hx⟩
    · exact h c hc x hx
    · rw [mem_own hx]
      exact List.mem_map_of_mem hc

/-- The first chunk of a context that is not cut off is reported. -/
theorem citationRequired_generate
    (hids : ∀ c ∈ request.context, isIdentifier letters c.documentId ∧ isIdentifier letters c.chunkId)
    (hstop : (generate none request).finishReason = .stop) :
    LocalValidator.citationRequired wide request (generate none request) = true := by
  simp only [LocalValidator.citationRequired, LocalValidator.cited, Bool.or_eq_true, Bool.not_eq_true']
  cases hcontext : request.context with
  | nil => exact .inl (by rw [LocalValidator.supplied, hcontext]; rfl)
  | cons c context =>
    obtain ⟨hcontent, hfinish⟩ := generate_none request
    obtain ⟨hd, hc⟩ := hids c (by simp [hcontext])
    have hreported : citationOf c ∈ (generate none request).citations := by
      rw [mem_reported_iff, hcontent, cutOff_of_stop (hfinish ▸ hstop)]
      exact ⟨by simp [LocalValidator.supplied, hcontext], infix_answer hcontext hd hc⟩
    refine .inr ?_
    rw [List.isEmpty_eq_false_iff]
    exact List.ne_nil_of_mem (List.mem_append_left _ hreported)

/-- **The citations a fake answer comes with are the supplied ones among those that are read in it, of
    the ids that the pattern takes, and these are the first that are read in its context, all of them
    where it is not cut off.** No space is of Python's `\w`. -/
theorem citations_generate (hwide : ∀ c, isSpace c → wide c = false)
    (hids : ∀ c ∈ request.context, isIdentifier letters c.documentId ∧ isIdentifier letters c.chunkId)
    (failure : Option TestFailure) :
    (∀ x : Citation, x.Named wide → (x ∈ (generate failure request).citations ↔
      x ∈ LocalValidator.supplied request ∧
        x ∈ citations wide (generate failure request).content.toList)) ∧
    citations wide (generate failure request).content.toList <+:
      request.context.flatMap (fun c => citations wide c.content.toList ++ (citationOf c).own wide) ∧
    ((generate none request).finishReason = .stop → citations wide (generate none request).content.toList =
      request.context.flatMap fun c => citations wide c.content.toList ++ (citationOf c).own wide) := by
  have hplain := unbracketed_of_contract hids
  refine ⟨fun x hx => ?_, ?_, fun hstop => ?_⟩
  · rw [mem_reported_iff, mem_citations_iff, and_iff_right hx]
  · rw [← citations_renderContext hplain]
    exact citations_generate_subset hwide failure
  · rw [← citations_renderContext hplain, citations_generate_of_stop hstop]

/-- **A fake answer that is not cut off passes the checks of citations exactly if no chunk cites
    anything that was not supplied; then one that is cut off or has failed passes `citation_ids` as
    well.** No space is of Python's `\w`, and the ids are any that the contract takes. -/
theorem citation_checks_generate (hwide : ∀ c, isSpace c → wide c = false)
    (hids : ∀ c ∈ request.context, isIdentifier letters c.documentId ∧ isIdentifier letters c.chunkId) :
    ((∀ c ∈ request.context, ∀ x ∈ citations wide c.content.toList, x ∈ LocalValidator.supplied request) →
      ∀ failure, LocalValidator.citationIds wide request (generate failure request) = true) ∧
    ((generate none request).finishReason = .stop →
      (LocalValidator.citationIds wide request (generate none request) = true ↔
        ∀ c ∈ request.context, ∀ x ∈ citations wide c.content.toList, x ∈ LocalValidator.supplied request) ∧
      LocalValidator.citationRequired wide request (generate none request) = true) := by
  have hplain := unbracketed_of_contract hids
  refine ⟨fun hchunks failure => ?_, fun hstop => ⟨?_, citationRequired_generate hids hstop⟩⟩
  · rw [citationIds_generate_iff]
    exact fun x hx => (supplied_iff hplain).2 hchunks x
      ((citations_generate_subset hwide failure).subset hx)
  · rw [citationIds_generate_iff, citations_generate_of_stop hstop, supplied_iff hplain]

end Checks

/-! ## What it costs -/

/-- **A fake answer has the first tokens of the uncut one, as many as are asked for at most, its usage says
    so, and it ends with `length` exactly if the uncut one has more.** -/
theorem usage_generate (failure : Option TestFailure) (request : FakeRequest)
    (hlimit : 1 ≤ request.maxOutputTokens) :
    (generate failure request).usage.inputTokens = request.inputTokens ∧
    (generate failure request).usage.outputTokens ≤ request.maxOutputTokens ∧
    Rag.findall (fun c => !isSpace c) (generate none request).content.toList =
      (Rag.findall (fun c => !isSpace c) (answer request)).take request.maxOutputTokens ∧
    ((generate none request).finishReason = .length ↔
      request.maxOutputTokens < (Rag.findall (fun c => !isSpace c) (answer request)).length) := by
  have htokens := @tokens_cutOff _ (answer request) hlimit
  refine ⟨rfl, ?_, ?_, ?_⟩
  · have husage : (generate failure request).usage.outputTokens =
        (Rag.findall (fun c => !isSpace c) (generate failure request).content.toList).length := rfl
    rw [husage]
    cases failure with
    | none =>
      rw [(generate_none request).1, htokens]
      exact List.length_take_le _ _
    | some failure =>
      rw [generate_failed]
      exact Nat.zero_le _
  · rw [(generate_none request).1, htokens]
  · rw [(generate_none request).2, cutOff, length_tokenEnds]
    split_ifs with h
    · exact iff_of_true rfl h
    · exact iff_of_false (fun hlength => by cases hlength) h

end FakeProvider

namespace Samples

/-- A question over the sample chunks. -/
def request (maxOutputTokens : ℕ) : FakeRequest :=
  { messages := [⟨.user, "How?"⟩], context, maxOutputTokens }

end Samples

open Samples in
theorem request_cites : citations (fun _ => false)
    (FakeProvider.generate none (request 100)).content.toList = [⟨"guide", "2"⟩,
    ⟨"guide", "1"⟩, ⟨"guide", "2"⟩] :=
  ((FakeProvider.citations_generate (fun _ _ => rfl) context_identifiers none).2.2
    (by decide +kernel)).trans context_marks

open Samples in
/-- The second chunk is cited before its own mark is cut off. -/
theorem request_checked : LocalValidator.citationIds (fun _ => false) (request 5)
    (FakeProvider.generate none (request 5)) = true :=
  (FakeProvider.citation_checks_generate (fun _ _ => rfl) context_identifiers).1 (by decide +kernel) none

open Samples in
theorem request_cut_off : (FakeProvider.generate none (request 5)).finishReason = .length :=
  (FakeProvider.usage_generate none (request 5) (by decide)).2.2.2.2 (by decide)

end Providers

end AdaptiveLlm
