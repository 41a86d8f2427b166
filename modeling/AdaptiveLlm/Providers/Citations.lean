import AdaptiveLlm.Contracts.Attempts
import AdaptiveLlm.Contracts.Messages
import AdaptiveLlm.Lib.Findall
import AdaptiveLlm.Lib.JsonText
import AdaptiveLlm.Retrieval.Retriever

set_option autoImplicit false

/-! # Citations

The providers of `providers/__init__.py` show a model its context with a mark behind each chunk, and
read the citations of an answer back as the marks in it. `FakeProvider` answers with its context, as
far as the limit of tokens goes, and `LocalValidator` (`validation/__init__.py`) asks of an answer
that it cites what was supplied.

A text is the list of its characters, `wide` says which of those beyond ASCII are in the `\w` of
Python's `re`, and `letters` which are in that of the contract's identifiers. The two differ: a
document whose id has a combining mark is a valid one, and its mark is not read as a citation. What is
read of a context is said for all ids of the contract, of each chunk with or without its own mark.

The marks are delimited in the sense of `Lib/Findall.lean`, so what is read of a context can be
computed chunk by chunk: a blank parts the chunks, and no mark has a blank. A mark whose ids the
pattern does not take is still written into the context and still found there as a text; it is only
not read as a citation. -/

namespace AdaptiveLlm

namespace Providers

open Regex Python

/-! ## The pattern -/

/-- The ids of a document and of one of its chunks. -/
structure Citation where
  documentId : String
  chunkId : String
  deriving DecidableEq

/-- How a citation stands in a text. -/
def Citation.mark (x : Citation) : List Char :=
  '[' :: (x.documentId.toList ++ '/' :: (x.chunkId.toList ++ [']']))

section Pattern

variable (wide : Char → Bool)

/-- `[\w.-]`. -/
def isName (c : Char) : Bool := isWord wide c || c = '.' || c = '-'

/-- `CITATION_PATTERN`. -/
def citationPattern : Regex :=
  seq (one fun c => c = '[') (seq (plus (one (isName wide)))
    (seq (one fun c => c = '/') (seq (plus (one (isName wide))) (one fun c => c = ']'))))

/-- The groups of a match. -/
def groups (w : List Char) : Citation where
  documentId := String.ofList (w.tail.takeWhile fun c => c ≠ '/')
  chunkId := String.ofList (w.tail.dropWhile fun c => c ≠ '/').tail.dropLast

/-- `CITATION_PATTERN.findall`. -/
def citations (text : List Char) : List Citation := ((citationPattern wide).findall text).map groups

/-- Both ids are of characters that the pattern takes. -/
def Citation.Named (x : Citation) : Prop :=
  (x.documentId.toList ≠ [] ∧ ∀ c ∈ x.documentId.toList, isName wide c) ∧
    x.chunkId.toList ≠ [] ∧ ∀ c ∈ x.chunkId.toList, isName wide c

instance (x : Citation) : Decidable (x.Named wide) :=
  decidable_of_iff ((x.documentId.toList ≠ [] ∧ x.documentId.toList.all (isName wide)) ∧
    x.chunkId.toList ≠ [] ∧ x.chunkId.toList.all (isName wide)) (by simp [Citation.Named])

/-- What is read of a mark: the citation, if the pattern takes its ids. -/
def Citation.own (x : Citation) : List Citation := if x.Named wide then [x] else []

/-- The ids have no character of the mark around them. -/
def Citation.Unbracketed (x : Citation) : Prop :=
  ∀ c ∈ ['[', '/', ']'], c ∉ x.documentId.toList ∧ c ∉ x.chunkId.toList

end Pattern

/-- The citation of a chunk. -/
def citationOf (c : Rag.Chunk) : Citation := ⟨c.documentId, c.chunkId⟩

/-- One chunk of `render_context`. -/
def renderChunk (c : Rag.Chunk) : List Char := c.content.toList ++ ' ' :: (citationOf c).mark

/-- `render_context`. -/
def renderContext (context : List Rag.Chunk) : List Char :=
  [' '].intercalate (context.map renderChunk)

/-! ## Marks

A mark is an opening bracket, an id, a slash, another id and a closing bracket, and the ids have
none of these characters. So a mark is read off a text in one way only. -/

section Marks

variable {wide : Char → Bool}

theorem isName_eq_false {c : Char} (h : c ∈ ['[', '/', ']', ' ', '"', '\\', '{', '}', ':']) :
    isName wide c = false := by
  simp only [List.mem_cons, List.not_mem_nil, or_false] at h
  rcases h with rfl | rfl | rfl | rfl | rfl | rfl | rfl | rfl | rfl <;> rfl

theorem texts_iff {w : List Char} :
    (citationPattern wide).Texts w ↔ ∃ x : Citation, x.Named wide ∧ w = x.mark := by
  constructor
  · rintro ⟨_, _, rfl, ⟨_, rfl, h₁⟩, d, _, rfl, hd, _, _, rfl, ⟨_, rfl, h₂⟩, c, _, rfl, hc, _, rfl, h₃⟩
    obtain rfl := of_decide_eq_true h₁
    obtain rfl := of_decide_eq_true h₂
    obtain rfl := of_decide_eq_true h₃
    obtain ⟨hd, hd'⟩ := matches_rep_none_iff.1 hd
    obtain ⟨hc, hc'⟩ := matches_rep_none_iff.1 hc
    refine ⟨⟨String.ofList d, String.ofList c⟩, ?_, by simp [Citation.mark]⟩
    simpa [Citation.Named] using ⟨⟨List.length_pos_iff.1 hd, hd'⟩, List.length_pos_iff.1 hc, hc'⟩
  · rintro ⟨x, ⟨⟨hd, hd'⟩, hc, hc'⟩, rfl⟩
    refine ⟨['['], _, rfl, ⟨'[', rfl, rfl⟩, x.documentId.toList, _, rfl,
      matches_rep_none_iff.2 ⟨List.length_pos_iff.2 hd, hd'⟩, ['/'], _, rfl, ⟨'/', rfl, rfl⟩,
      x.chunkId.toList, [']'], rfl, matches_rep_none_iff.2 ⟨List.length_pos_iff.2 hc, hc'⟩, ']', rfl, rfl⟩

/-- A character of a mark is one of its brackets, the slash, or of an id. -/
theorem mem_mark {x : Citation} (hx : x.Named wide) {c : Char} (hc : c ∈ x.mark) :
    c = '[' ∨ c = '/' ∨ c = ']' ∨ isName wide c := by
  simp only [Citation.mark, List.mem_cons, List.mem_append, List.not_mem_nil, or_false] at hc
  rcases hc with h | h | h | h | h
  · exact .inl h
  · exact .inr (.inr (.inr (hx.1.2 c h)))
  · exact .inr (.inl h)
  · exact .inr (.inr (.inr (hx.2.2 c h)))
  · exact .inr (.inr (.inl h))

theorem not_mem_of_names {d : List Char} (hd : ∀ c ∈ d, isName wide c) {s : Char}
    (hs : isName wide s = false) : s ∉ d := by
  intro hmem
  simp [hd s hmem] at hs

theorem Citation.Named.unbracketed {x : Citation} (hx : x.Named wide) : x.Unbracketed := by
  intro c hc
  have hname : isName wide c = false := by
    refine isName_eq_false ?_
    simp only [List.mem_cons, List.not_mem_nil, or_false] at hc ⊢
    rcases hc with rfl | rfl | rfl <;> simp
  exact ⟨not_mem_of_names hx.1.2 hname, not_mem_of_names hx.2.2 hname⟩

/-- What stands before the first of a character. -/
theorem takeWhile_id {d v : List Char} {s : Char} (hd : s ∉ d) :
    (d ++ s :: v).takeWhile (fun c => c ≠ s) = d := by
  have hne : ∀ c ∈ d, decide (c ≠ s) = true := fun c hc => decide_eq_true fun h => hd (h ▸ hc)
  rw [List.takeWhile_append_of_pos hne, List.takeWhile_cons_of_neg (by simp), List.append_nil]

theorem ids_eq {d e u v : List Char} {s : Char} (hd : s ∉ d) (he : s ∉ e)
    (h : d ++ s :: u = e ++ s :: v) : d = e ∧ u = v := by
  have hde : d = e := by rw [← takeWhile_id (v := u) hd, h, takeWhile_id he]
  subst hde
  exact ⟨rfl, (List.cons.inj (List.append_cancel_left h)).2⟩

/-- A mark ends where its bracket closes, whatever follows. -/
theorem eq_of_prefix_mark {x y : Citation} (hx : x.Unbracketed) (hy : y.Unbracketed) {v : List Char}
    (h : x.mark <+: y.mark ++ v) : x = y := by
  obtain ⟨u, hu⟩ := h
  simp only [Citation.mark, List.cons_append, List.append_assoc, List.cons.injEq, true_and] at hu
  obtain ⟨hd, hu⟩ := ids_eq (hx '/' (by decide)).1 (hy '/' (by decide)).1 hu
  obtain ⟨hc, -⟩ := ids_eq (hx ']' (by decide)).2 (hy ']' (by decide)).2 hu
  cases x
  cases y
  simp_all [String.toList_inj]

/-- The groups of a mark are its ids. -/
theorem groups_mark {x : Citation} (hx : x.Named wide) : groups x.mark = x := by
  have hslash : '/' ∉ x.documentId.toList := (hx.unbracketed '/' (by decide)).1
  have hne : ∀ c ∈ x.documentId.toList, decide (c ≠ '/') = true := fun c hc =>
    decide_eq_true fun h => hslash (h ▸ hc)
  simp only [groups, Citation.mark, List.tail_cons]
  rw [takeWhile_id hslash, List.dropWhile_append_of_pos hne, List.dropWhile_cons_of_neg (by simp),
    List.tail_cons, List.dropLast_concat]
  simp

/-- A mark ends where its bracket closes. -/
theorem delimited_citationPattern : (citationPattern wide).Delimited '[' where
  lookFree := ⟨trivial, ⟨trivial, ⟨trivial, ⟨trivial, trivial⟩⟩⟩⟩
  opened w hw := by
    obtain ⟨x, hx, rfl⟩ := texts_iff.1 hw
    obtain ⟨hd, hc⟩ := hx.unbracketed '[' (by decide)
    exact ⟨_, rfl, by simp [hd, hc]⟩
  closed w w' hw hw' hp := by
    obtain ⟨x, hx, rfl⟩ := texts_iff.1 hw
    obtain ⟨y, hy, rfl⟩ := texts_iff.1 hw'
    rw [eq_of_prefix_mark hx.unbracketed hy.unbracketed (v := []) (by rwa [List.append_nil])]

/-- **A citation is read exactly where its mark stands.** -/
theorem mem_citations_iff {x : Citation} {text : List Char} :
    x ∈ citations wide text ↔ x.Named wide ∧ x.mark <:+: text := by
  simp only [citations, List.mem_map, delimited_citationPattern.mem_findall_iff, texts_iff]
  constructor
  · rintro ⟨_, ⟨⟨y, hy, rfl⟩, hin⟩, rfl⟩
    rw [groups_mark hy]
    exact ⟨hy, hin⟩
  · rintro ⟨hx, hin⟩
    exact ⟨x.mark, ⟨⟨x, hx, rfl⟩, hin⟩, groups_mark hx⟩

/-! ## The context of a request

The context is rendered chunk by chunk, each content followed by a mark with the two ids. An id of
the contract has none of the characters of a mark, so the mark is read as a whole or, where the
pattern does not take the ids, passed over. -/

/-- An identifier of the contract has none of the characters that stand around it or that JSON escapes. -/
theorem isIdentifier_chars {letters : Char → Bool} {text : String}
    (h : isIdentifier letters text) {c : Char}
    (hc : c ∈ text.toList) : c ∉ ['[', '/', ']', '"', '\\'] ∧ 0x20 ≤ c.toNat := by
  simp only [isIdentifier, Bool.and_eq_true, List.all_eq_true] at h
  have hclass := h.2 c hc
  refine ⟨fun hmem => ?_, ?_⟩
  · simp only [List.mem_cons, List.not_mem_nil, or_false] at hmem
    rcases hmem with rfl | rfl | rfl | rfl | rfl <;> exact absurd hclass (by simp [isContractWord])
  · by_contra hlt
    have hne (y : Char) (hy : 0x20 ≤ y.toNat) : c ≠ y := by
      rintro rfl
      exact hlt hy
    have hword : isContractWord letters c = Python.isWord letters c := rfl
    rw [hword, isWord_eq_false_of_lt (show c.toNat < 48 by omega)] at hclass
    simp [hne '.' (by decide), hne '-' (by decide)] at hclass

theorem unbracketed_of_isIdentifier {letters : Char → Bool} {x : Citation}
    (hd : isIdentifier letters x.documentId) (hc : isIdentifier letters x.chunkId) : x.Unbracketed := by
  have hsub : ['[', '/', ']'] ⊆ ['[', '/', ']', '"', '\\'] := by simp
  exact fun c hmem => ⟨fun h => (isIdentifier_chars hd h).1 (hsub hmem),
    fun h => (isIdentifier_chars hc h).1 (hsub hmem)⟩

theorem not_mem_mark {w : List Char} (hw : (citationPattern wide).Texts w) {s : Char}
    (hs : s ∉ ['[', '/', ']']) (hname : isName wide s = false) : s ∉ w := by
  obtain ⟨x, hx, rfl⟩ := texts_iff.1 hw
  intro hmem
  rcases mem_mark hx hmem with h | h | h | h
  · exact hs (by simp [h])
  · exact hs (by simp [h])
  · exact hs (by simp [h])
  · simp [h] at hname

theorem citations_part {s : Char} (hs : s ∉ ['[', '/', ']']) (hname : isName wide s = false)
    (u v : List Char) : citations wide (u ++ s :: v) = citations wide u ++ citations wide v := by
  rw [citations, delimited_citationPattern.findall_part fun w hw => not_mem_mark hw hs hname,
    List.map_append]
  rfl

theorem citations_unopened {u : List Char} (hu : '[' ∉ u) (v : List Char) :
    citations wide (u ++ v) = citations wide v := by
  rw [citations, delimited_citationPattern.findall_unopened hu]
  rfl

/-- A mark is read or passed over as a whole. -/
theorem citations_mark {x : Citation} (hx : x.Unbracketed) (v : List Char) :
    citations wide (x.mark ++ v) = x.own wide ++ citations wide v := by
  by_cases hnamed : x.Named wide
  · rw [citations, delimited_citationPattern.findall_mark (texts_iff.2 ⟨x, hnamed, rfl⟩), List.map_cons,
      groups_mark hnamed, Citation.own, if_pos hnamed]
    rfl
  · obtain ⟨hd, hc⟩ := hx '[' (by decide)
    have hrest : '[' ∉ x.documentId.toList ++ '/' :: (x.chunkId.toList ++ [']']) := by simp [hd, hc]
    have hmissed : citations wide (x.mark ++ v) =
        citations wide ((x.documentId.toList ++ '/' :: (x.chunkId.toList ++ [']'])) ++ v) := by
      refine congrArg (List.map groups) (delimited_citationPattern.findall_eq_iff.2 (.other ?_
        (delimited_citationPattern.reads_findall _)))
      intro w hw hp
      obtain ⟨y, hy, rfl⟩ := texts_iff.1 hw
      exact hnamed (eq_of_prefix_mark hy.unbracketed hx hp ▸ hy)
    rw [hmissed, citations_unopened hrest, Citation.own, if_neg hnamed, List.nil_append]

theorem citations_renderChunk {c : Rag.Chunk} (hc : (citationOf c).Unbracketed) (v : List Char) :
    citations wide (renderChunk c ++ v) =
      citations wide c.content.toList ++ ((citationOf c).own wide ++ citations wide v) := by
  rw [renderChunk, List.append_assoc, List.cons_append,
    citations_part (by decide) (isName_eq_false (by decide)), citations_mark hc]

theorem citations_renderContext {context : List Rag.Chunk}
    (hids : ∀ c ∈ context, (citationOf c).Unbracketed) : citations wide (renderContext context) =
      context.flatMap fun c => citations wide c.content.toList ++ (citationOf c).own wide := by
  induction context with
  | nil => rfl
  | cons c context ih =>
    have hc := hids c List.mem_cons_self
    replace ih := ih fun d hd => hids d (List.mem_cons_of_mem c hd)
    cases context with
    | nil =>
      have hrest : citations wide (renderChunk c ++ []) = _ := citations_renderChunk hc []
      rw [List.append_nil] at hrest
      simp only [renderContext, List.map_cons, List.map_nil, List.intercalate_singleton, List.flatMap_cons,
        List.flatMap_nil, List.append_nil]
      rw [hrest]
      exact congrArg _ (List.append_nil _)
    | cons d context =>
      have hsplit : renderContext (c :: d :: context) = renderChunk c ++ ' ' ::
          renderContext (d :: context) := by
        simp [renderContext, List.intercalate_cons_cons]
      rw [hsplit, citations_renderChunk hc, List.flatMap_cons, ← ih, List.append_assoc]
      exact congrArg _ (congrArg _ (citations_part (u := []) (by decide) (isName_eq_false (by decide)) _))

/-- **What is read back of a rendered context is, chunk by chunk, what its content cites and then the
    chunk, if the pattern takes its ids. So a mark of such ids stands in it exactly if it is a chunk's
    own or stands in a content.** -/
theorem context_read_back {letters : Char → Bool} {context : List Rag.Chunk}
    (hids : ∀ c ∈ context, isIdentifier letters c.documentId ∧ isIdentifier letters c.chunkId) :
    citations wide (renderContext context) =
      context.flatMap (fun c => citations wide c.content.toList ++ (citationOf c).own wide) ∧
    ∀ x : Citation, x.Named wide → (x.mark <:+: renderContext context ↔
      ∃ c ∈ context, x.mark <:+: c.content.toList ∨ x = citationOf c) := by
  have hread : citations wide (renderContext context) = _ :=
    citations_renderContext fun c hc => unbracketed_of_isIdentifier (hids c hc).1 (hids c hc).2
  refine ⟨hread, fun x hx => ?_⟩
  have hmem : x ∈ citations wide (renderContext context) ↔ x.mark <:+: renderContext context := by
    rw [mem_citations_iff, and_iff_right hx]
  have hown (y : Citation) : x ∈ y.own wide ↔ x = y := by
    rw [Citation.own]
    split_ifs with hy
    · exact List.mem_singleton
    · exact iff_of_false List.not_mem_nil fun h => hy (h ▸ hx)
  rw [← hmem, hread]
  simp only [List.mem_flatMap, List.mem_append, hown, mem_citations_iff, and_iff_right hx]

end Marks

/-! Three chunks, of which the first cites the second. The id of the last has a combining mark, which the
contract takes and the pattern does not. -/

namespace Samples

/-- A chunk of the sample. -/
def chunk (documentId chunkId content : String) : Rag.Chunk where
  tenantId := "acme"
  allowedApplications := ["support"]
  indexId := "manual"
  documentId := documentId
  documentVersion := "1"
  documentFamily := "guides"
  chunkId := chunkId
  content := content
  indexVersion := "1"

/-- Three chunks, of which one has a mark in its text and one an id that the pattern of citations does not
take. -/
def context : List Rag.Chunk :=
  [chunk "guide" "1" "Plants grow [guide/2].", chunk "guide" "2" "Water them.",
    chunk "cafe\u0301" "1" "Closed."]

/-- A combining mark counts as a letter of the contract. -/
def combining (c : Char) : Bool := c = '\u0301'

theorem context_identifiers :
    ∀ c ∈ context, isIdentifier combining c.documentId ∧ isIdentifier combining c.chunkId := by
  decide

/-- What is read of its texts and its marks. -/
theorem context_marks : context.flatMap (fun c => citations (fun _ => false) c.content.toList ++
    (citationOf c).own fun _ => false) = [⟨"guide", "2"⟩, ⟨"guide", "1"⟩, ⟨"guide", "2"⟩] := by
  decide +kernel

end Samples

open Samples in
theorem context_citations : citations (fun _ => false) (renderContext context) =
    [⟨"guide", "2"⟩, ⟨"guide", "1"⟩, ⟨"guide", "2"⟩] :=
  (context_read_back context_identifiers).1.trans context_marks

end Providers

end AdaptiveLlm
