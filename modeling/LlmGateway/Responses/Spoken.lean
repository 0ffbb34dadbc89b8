import LlmGateway.Chat.Fragments
import LlmGateway.Responses.ToolCalls

namespace LlmGateway

open Emitter List

namespace ChatToResponsesStreamState

/-- The outputs of the state are open as far as the speech has pieces for them. -/
structure Utters (s : ChatToResponsesStreamState) (speech : Speech) : Prop where
  think : s.inlineThink = speech.think
  text : s.textStarted = !speech.texts.isEmpty
  reasoning : s.reasoningStarted = !speech.thoughts.isEmpty

section Utters

variable {s : ChatToResponsesStreamState} {speech : Speech}

theorem Utters.appendTextDelta (utters : s.Utters speech) (delta : Str) :
    (appendTextDelta delta s).2.Utters (speech.add ([], [delta]) speech.think) := by
  obtain ⟨next, order, index, same⟩ := appendTextDelta_frame s delta
  rw [same]
  exact ⟨utters.think, by simp [Speech.add], by simp [Speech.add, utters.reasoning]⟩

theorem Utters.appendReasoningDelta (utters : s.Utters speech) (delta : Str) :
    (appendReasoningDelta delta s).2.Utters (speech.add ([delta], []) speech.think) := by
  obtain ⟨next, order, index, same⟩ := appendReasoningDelta_frame s delta
  rw [same]
  exact ⟨utters.think, by simp [Speech.add, utters.text], by simp [Speech.add]⟩

theorem Utters.appendPieces (utters : s.Utters speech) (pieces : List Str × List Str) :
    (appendPieces pieces s).2.Utters (speech.add pieces speech.think) := by
  obtain ⟨thoughts, texts⟩ := pieces
  have thought : (forEach ChatToResponsesStreamState.appendReasoningDelta thoughts s).2.Utters
      (speech.add (thoughts, []) speech.think) := by
    induction thoughts generalizing s speech with
    | nil => simpa [forEach, quiet, Speech.add] using utters
    | cons delta rest ih =>
      have later := ih (utters.appendReasoningDelta delta)
      simpa [forEach, followedBy_state, Speech.add] using later
  rw [ChatToResponsesStreamState.appendPieces, followedBy_state]
  generalize (forEach ChatToResponsesStreamState.appendReasoningDelta thoughts s).2 = t at thought
  clear utters
  induction texts generalizing t speech with
  | nil => exact thought
  | cons delta rest ih =>
    have first : (ChatToResponsesStreamState.appendTextDelta delta t).2.Utters
        ((speech.add ([], [delta]) speech.think).add (thoughts, []) speech.think) := by
      simpa [Speech.add] using thought.appendTextDelta delta
    simpa [forEach, followedBy_state, Speech.add] using ih _ first

theorem Utters.processTexts (utters : s.Utters speech) (delta : ChatStreamDelta) :
    (processTexts delta s).2.Utters (delta.fragments.foldl Speech.hear speech) := by
  rw [ChatToResponsesStreamState.processTexts, followedBy_state, followedBy_state, ChatStreamDelta.fragments,
    foldl_append, foldl_append]
  have thought : (whenSome ChatToResponsesStreamState.appendReasoningDelta delta.reasoningText s).2.Utters
      ((delta.reasoningText.toList.map Fragment.reasoning).foldl Speech.hear speech) := by
    cases delta.reasoningText with
    | none => exact utters
    | some text => exact utters.appendReasoningDelta text
  generalize (whenSome _ delta.reasoningText s).2 = t at thought
  generalize (delta.reasoningText.toList.map Fragment.reasoning).foldl Speech.hear speech = before at thought
  have said : (whenSome appendContent delta.contentText t).2.Utters
      ((delta.contentText.toList.map Fragment.content).foldl Speech.hear before) := by
    cases delta.contentText with
    | none => exact thought
    | some text =>
      have fed : Utters { t with inlineThink := (t.inlineThink.feed text).2 } { before with
        think := (t.inlineThink.feed text).2 } := { thought with think := rfl }
      have sent := fed.appendPieces (t.inlineThink.feed text).1
      rw [thought.think] at sent
      rw [whenSome, appendContent, thought.think]
      exact sent
  generalize (whenSome appendContent delta.contentText t).2 = u at said
  cases delta.refusalText with
  | none => exact said
  | some refusal => exact said.appendTextDelta refusal

variable [FloatText]

theorem Utters.doneDeltaEvents (utters : s.Utters speech) : (doneDeltaEvents s).2.Utters speech := by
  obtain ⟨next, order, tools, dropped, same⟩ := doneDeltaEvents_frame s
  rw [same]
  exact { utters with }

theorem Utters.closed (utters : s.Utters speech) : s.closed.Utters speech.ended := by
  have flushed : Utters { s with finalized := true, inlineThink := s.inlineThink.flush.2 }
      { speech with think := s.inlineThink.flush.2 } := { utters with think := rfl }
  have sent := (flushed.appendPieces s.inlineThink.flush.1).doneDeltaEvents
  rw [utters.think] at sent
  rw [ChatToResponsesStreamState.closed, followedBy_state, flushContent]
  dsimp only
  rw [utters.think]
  exact sent

variable [TableOrder]

theorem Utters.choice (utters : s.Utters speech) (choice : ChatStreamChoice) :
    (processChoice choice s).2.Utters (choice.delta.fragments.foldl Speech.hear speech) := by
  have called := forEach_invariant (fun t : ChatToResponsesStreamState =>
      t.Utters (choice.delta.fragments.foldl Speech.hear speech)) (fun call t held => by
    obtain ⟨next, order, tools, key, same⟩ := appendToolCallDelta_frame t call
    rw [same]
    exact { held with }) choice.delta.toolCalls (utters.processTexts choice.delta)
  rw [processChoice, followedBy_state, followedBy_state]
  cases choice.finishReason.bind Text.nonBlank with
  | none => exact called
  | some reason =>
    rw [whenSome, finishChoice_state]
    refine Utters.doneDeltaEvents ?_
    unfold applyFinishReason
    dsimp only
    split <;> exact { called with }

theorem Utters.chunk (utters : s.Utters speech) (healthy : s.failedError = none) {chunk : ChatStreamChunk}
    (fine : chunk.error = none) : (processChunk chunk s).2.Utters
      ((chunk.choices.flatMap (·.delta.fragments)).foldl Speech.hear speech) := by
  have begun : (ensureCreated (noteHeader chunk s)).2.Utters speech := by
    unfold ensureCreated
    split <;> exact { utters with }
  simp only [processChunk, healthy, fine, Option.isSome_none, Bool.false_eq_true, if_false, followedBy_state,
    quiet_state]
  generalize (ensureCreated (noteHeader chunk s)).2 = t at begun
  clear utters
  induction chunk.choices generalizing t speech with
  | nil => exact begun
  | cons choice rest ih =>
    rw [forEach, followedBy_state, flatMap_cons, foldl_append]
    exact ih _ (begun.choice choice)

end Utters

end ChatToResponsesStreamState

/-- The upstream has sent something that a response shows: reasoning, a refusal, content that is more than tags, or
a call that has its name and its id. -/
def Speaks (frames : List (Option (Int × ToolCallDelta))) (fragments : List Fragment) : Prop :=
  (∃ fragment ∈ fragments, fragment.content? = none) ∨
    streamedThink (fragments.filterMap Fragment.content?).flatten ≠ ([], []) ∨
    ∃ key, HasName frames key ∧ Identified frames key

namespace ChatToResponsesStreamState

variable [FloatText] [TableOrder] {s : ChatToResponsesStreamState} {ctx : ToolContext}
  {frames : List (Option (Int × ToolCallDelta))} {fragments : List Fragment}

theorem closed_order_nil_iff (follows : s.Follows ctx frames) (utters : s.Utters (fragments.foldl Speech.hear .new))
    (filled : ∀ fragment ∈ fragments, fragment.text ≠ []) :
    s.closed.outputOrder = [] ↔ ¬Speaks frames fragments := by
  have placed := follows.placed.closed
  have spoken := utters.closed
  have tools (key : Int) : .tool key ∈ s.closed.outputOrder ↔ HasName frames key ∧ Identified frames key := by
    have told : Later ChatTool.Told s s.closed := .closed ChatTool.Told.stages
    rw [← mem_toolKeys, placed.mem_toolKeys_iff (AllReleased.closed s), (told.tools key).started,
      (follows.heard key).started]
  have texts : .message ∈ s.closed.outputOrder ↔ (fragments.foldl Speech.hear .new).ended.texts ≠ [] := by
    rw [placed.mem_order_iff, placeOf, spoken.text]
    cases (fragments.foldl Speech.hear .new).ended.texts <;> simp
  have thoughts : .reasoning ∈ s.closed.outputOrder ↔ (fragments.foldl Speech.hear .new).ended.thoughts ≠ [] := by
    rw [placed.mem_order_iff, placeOf, spoken.reasoning]
    cases (fragments.foldl Speech.hear .new).ended.thoughts <;> simp
  have silent := Speech.silent_iff fragments filled
  have all : s.closed.outputOrder = [] ↔ (fragments.foldl Speech.hear .new).ended.Silent ∧
      ∀ key, ¬(HasName frames key ∧ Identified frames key) := by
    rw [eq_nil_iff_forall_not_mem, Speech.Silent]
    constructor
    · intro none
      exact ⟨⟨not_not.mp (mt thoughts.mpr (none _)), not_not.mp (mt texts.mpr (none _))⟩,
        fun key => mt (tools key).mpr (none _)⟩
    · rintro ⟨⟨unthought, unsaid⟩, uncalled⟩ (_ | _ | key)
      · exact mt texts.mp (not_not.mpr unsaid)
      · exact mt thoughts.mp (not_not.mpr unthought)
      · exact mt (tools key).mp (uncalled key)
  rw [all, silent, Speaks, not_or, not_or, not_exists, not_not, and_assoc]
  refine and_congr ?_ (and_congr_right' not_exists.symm)
  simp [Option.isSome_iff_ne_none]

theorem closed_output_nil_iff (follows : s.Follows ctx frames)
    (utters : s.Utters (fragments.foldl Speech.hear .new)) (filled : ∀ fragment ∈ fragments, fragment.text ≠ [])
    (truncated : Bool) : (s.closed.verdict truncated).2.finalResponse.output = [] ↔ ¬Speaks frames fragments := by
  rw [← closed_order_nil_iff follows utters filled]
  have placed := follows.placed.closed
  generalize s.closed = t at placed
  obtain ⟨status, reason, same⟩ := t.verdict_frame truncated
  have moved : Placed { t with status := status, incompleteReason := reason } := { placed with }
  rw [same, moved.output_eq, map_eq_nil_iff]

end ChatToResponsesStreamState

end LlmGateway
