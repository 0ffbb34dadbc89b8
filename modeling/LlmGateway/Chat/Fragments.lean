import LlmGateway.Chat.Chunk
import LlmGateway.Chat.ThinkChunks

namespace LlmGateway

open List InlineThinkState

/-- A piece of text in a delta. -/
inductive Fragment
  | reasoning (text : Str)
  | content (text : Str)
  | refusal (text : Str)

namespace Fragment

def text : Fragment → Str
  | reasoning text | content text | refusal text => text

def content? : Fragment → Option Str
  | content text => some text
  | _ => none

end Fragment

def ChatStreamDelta.fragments (delta : ChatStreamDelta) : List Fragment :=
  delta.reasoningText.toList.map .reasoning ++
    (delta.contentText.toList.map .content ++ delta.refusalText.toList.map .refusal)

def fragments (chunks : List ChatStreamChunk) : List Fragment :=
  chunks.flatMap fun chunk => chunk.choices.flatMap (·.delta.fragments)

theorem ChatStreamDelta.fragments_filled {delta : ChatStreamDelta} {fragment : Fragment}
    (mem : fragment ∈ delta.fragments) : fragment.text ≠ [] := by
  rw [fragments, mem_append, mem_append] at mem
  rcases mem with thought | said | refused
  · obtain ⟨text, held, rfl⟩ := mem_map.mp thought
    have filled : (!text.isEmpty) = true := (Option.filter_eq_some_iff.mp (Option.mem_toList.mp held)).2
    simpa [Fragment.text] using filled
  · obtain ⟨text, held, rfl⟩ := mem_map.mp said
    have filled : (!text.isEmpty) = true := (Option.filter_eq_some_iff.mp (Option.mem_toList.mp held)).2
    simpa [Fragment.text] using filled
  · obtain ⟨text, held, rfl⟩ := mem_map.mp refused
    obtain ⟨raw, -, solid⟩ := Option.bind_eq_some_iff.mp (Option.mem_toList.mp held)
    obtain ⟨rfl, filled⟩ := Text.nonBlank_eq_some_iff.mp solid
    simpa [Fragment.text] using filled

theorem fragments_filled {chunks : List ChatStreamChunk} {fragment : Fragment} (mem : fragment ∈ fragments chunks) :
    fragment.text ≠ [] := by
  obtain ⟨chunk, -, inside⟩ := mem_flatMap.mp mem
  obtain ⟨choice, -, given⟩ := mem_flatMap.mp inside
  exact ChatStreamDelta.fragments_filled given

/-- The pieces that have been sent, and the separator of inline reasoning. -/
structure Speech where
  thoughts : List Str
  texts : List Str
  think : InlineThinkState

namespace Speech

def new : Speech := ⟨[], [], .new⟩

def add (speech : Speech) (pieces : List Str × List Str) (think : InlineThinkState) : Speech :=
  ⟨speech.thoughts ++ pieces.1, speech.texts ++ pieces.2, think⟩

def hear (speech : Speech) : Fragment → Speech
  | .reasoning text => speech.add ([text], []) speech.think
  | .content text => speech.add (speech.think.feed text).1 (speech.think.feed text).2
  | .refusal text => speech.add ([], [text]) speech.think

def ended (speech : Speech) : Speech := speech.add speech.think.flush.1 speech.think.flush.2

def Silent (speech : Speech) : Prop := speech.thoughts = [] ∧ speech.texts = []

end Speech

section Pieces

variable {state : InlineThinkState} {text : Str}

theorem partialCloseSuffixLen_le (buffer : Str) : partialCloseSuffixLen buffer ≤ buffer.length := by
  rw [partialCloseSuffixLen]
  cases found : (List.range' 1 (min thinkClose.length buffer.length)).reverse.find? fun k =>
      buffer.drop (buffer.length - k) == thinkClose.take k with
  | none => exact Nat.zero_le _
  | some length =>
    have mem := mem_of_find?_eq_some found
    rw [mem_reverse, mem_range'_1] at mem
    rw [Option.getD_some]
    omega

theorem nil_mem_unlessEmpty (text : Str) : [] ∉ if text.isEmpty then [] else [text] := by
  cases text <;> simp

theorem emitReasoning_filled (state : InlineThinkState) :
    [] ∉ state.emitReasoning.1.1 ∧ [] ∉ state.emitReasoning.1.2 := by
  rw [emitReasoning]
  split
  · exact ⟨nil_mem_unlessEmpty _, nil_mem_unlessEmpty _⟩
  · dsimp only
    split
    · exact ⟨not_mem_nil, not_mem_nil⟩
    next waiting =>
      have short := partialCloseSuffixLen_le state.buffer
      have filled : state.buffer.take (state.buffer.length - partialCloseSuffixLen state.buffer) ≠ [] := by
        rw [Ne, ← length_eq_zero_iff, length_take]
        omega
      exact ⟨by simpa using filled.symm, not_mem_nil⟩

theorem feed_filled (filled : text ≠ []) : [] ∉ (state.feed text).1.1 ∧ [] ∉ (state.feed text).1.2 := by
  rw [feed]
  split
  · exact ⟨not_mem_nil, by simpa using filled.symm⟩
  · dsimp only
    split
    · exact ⟨not_mem_nil, not_mem_nil⟩
    · exact emitReasoning_filled _
    · exact ⟨not_mem_nil, by simp [filled]⟩
  · exact emitReasoning_filled _

theorem flush_filled : [] ∉ state.flush.1.1 ∧ [] ∉ state.flush.1.2 := by
  rw [flush]
  split
  · exact ⟨not_mem_nil, not_mem_nil⟩
  · exact ⟨not_mem_nil, nil_mem_unlessEmpty _⟩
  · exact ⟨nil_mem_unlessEmpty _, not_mem_nil⟩

theorem flatten_eq_nil_of_filled {pieces : List Str} (filled : [] ∉ pieces) :
    pieces.flatten = [] ↔ pieces = [] := by
  cases pieces with
  | nil => simp
  | cons piece rest => simp_all

end Pieces

namespace Speech

variable {speech : Speech} {pieces : List Str × List Str}

theorem add_silent_iff (think : InlineThinkState) (filled : [] ∉ pieces.1 ∧ [] ∉ pieces.2) :
    (speech.add pieces think).Silent ↔ speech.Silent ∧ pieces.1.flatten = [] ∧ pieces.2.flatten = [] := by
  rw [flatten_eq_nil_of_filled filled.1, flatten_eq_nil_of_filled filled.2]
  simp only [Silent, add, append_eq_nil_iff]
  tauto

theorem foldl_hear (speech : Speech) (fragments : List Fragment)
    (filled : ∀ fragment ∈ fragments, fragment.text ≠ []) :
    (fragments.foldl hear speech).think = (speech.think.feedAll (fragments.filterMap Fragment.content?)).2 ∧
      ((fragments.foldl hear speech).Silent ↔ speech.Silent ∧ (∀ fragment ∈ fragments, fragment.content?.isSome) ∧
        (speech.think.feedAll (fragments.filterMap Fragment.content?)).1 = ([], [])) := by
  induction fragments generalizing speech with
  | nil => simp [feedAll]
  | cons fragment rest ih =>
    obtain ⟨solid, later⟩ := forall_mem_cons.mp filled
    obtain ⟨think, silent⟩ := ih (speech.hear fragment) later
    rw [foldl_cons]
    cases fragment with
    | reasoning text => exact ⟨think, silent.trans (by simp [hear, add, Silent, Fragment.content?])⟩
    | refusal text => exact ⟨think, silent.trans (by simp [hear, add, Silent, Fragment.content?])⟩
    | content text =>
      have filled : [] ∉ (speech.think.feed text).1.1 ∧ [] ∉ (speech.think.feed text).1.2 := feed_filled solid
      refine ⟨think, silent.trans ?_⟩
      rw [hear, add_silent_iff _ filled, forall_mem_cons, filterMap_cons_some (f := Fragment.content?) rfl, feedAll]
      simp only [add, Fragment.content?, Option.isSome_some, true_and, Prod.ext_iff, append_eq_nil_iff]
      tauto

/-- A stream says nothing if it has neither reasoning nor a refusal, and of its content only tags. -/
theorem silent_iff (fragments : List Fragment) (filled : ∀ fragment ∈ fragments, fragment.text ≠ []) :
    (fragments.foldl hear new).ended.Silent ↔ (∀ fragment ∈ fragments, fragment.content?.isSome) ∧
      streamedThink (fragments.filterMap Fragment.content?).flatten = ([], []) := by
  obtain ⟨think, silent⟩ := foldl_hear new fragments filled
  rw [ended, add_silent_iff _ flush_filled, silent, think, ← separate_eq, separate]
  simp only [new, Silent, Prod.ext_iff, append_eq_nil_iff]
  tauto

end Speech

end LlmGateway
