import LlmGateway.Anthropic.BlockTurns
import LlmGateway.Anthropic.ConvertResponse
import LlmGateway.Responses.RoundTrip

namespace LlmGateway

open Json Text List AnthropicBlock

def AnthropicBlock.toJson : AnthropicBlock → Json
  | .thinking thought => .obj [("thinking", .str thought), ("type", .str "thinking".toList)]
  | .text said => .obj [("text", .str said), ("type", .str "text".toList)]
  | .toolUse id name input =>
    .obj [("id", .str id), ("input", input), ("name", .str name), ("type", .str "tool_use".toList)]

def AnthropicMessage.replay (answer : AnthropicMessage) : Json :=
  .obj [("content", .arr (answer.content.map toJson)), ("role", .str assistantRole)]

theorem messageTexts_written {turn : ChatTurn} {message : Json} (written : turn.WrittenAs message)
    (plain : splitLeadingThink turn.text = none) : messageTexts message =
      (if turn.reasoning.isEmpty then [] else [.thinking turn.reasoning]) ++
        (if turn.text.isEmpty then [] else [.text turn.text]) := by
  have refusal : message.getStr "refusal" = none := by
    rcases absent_of_rawPresent written.refusal with absent | null
    · rw [getStr, absent, Option.bind_none]
    · rw [getStr, null]
      rfl
  have texts : extractTextAndRefusal message = (turn.text, none) := by
    simp [extractTextAndRefusal, written.text, refusal]
  have separated : separateThink turn.text turn.reasoning = (turn.text, turn.reasoning) := by
    rw [separateThink, plain]
  rw [messageTexts, texts, extractReasoning, written.reasoning]
  dsimp only
  rw [separated]
  simp

section Turn

variable [FloatText]

/-- The call is complete: its arguments are an object without fractions. -/
structure ChatToolCall.Complete (call : ChatToolCall) (fields : Fields) : Prop where
  id : trim call.id = call.id ∧ call.id ≠ []
  name : trim call.name = call.name ∧ call.name ≠ []
  arguments : parse (trim call.arguments) = some (.obj fields)
  whole : (Json.obj fields).wholeNumbers

/-- The call comes back with its arguments in canonical form, which is another text for the same object. -/
structure ChatToolCall.SentAgain (call : ChatToolCall) (json : Json) : Prop where
  id : json.getStr "id" = some call.id
  name : toolCallFunction json "name" = some (.str call.name)
  arguments : toolCallFunction json "arguments" = some (.str (canonicalizeJsonStringIfParseable call.arguments))
  same : parse (canonicalizeJsonStringIfParseable call.arguments) = parse (trim call.arguments)

/-- The message has the text and the calls of the turn. -/
structure ChatTurn.SentAgain (turn : ChatTurn) (message : Json) : Prop where
  role : message.getStr "role" = some assistantRole
  text : message.get "content" = some (if turn.text.isEmpty then .null else .str turn.text)
  calls : List.Forall₂ ChatToolCall.SentAgain turn.calls (((message.get "tool_calls").bind asArr).getD [])

variable {call : ChatToolCall} {fields : Fields}

theorem ChatToolCall.Complete.toolUse (complete : call.Complete fields) {json : Json}
    (written : call.WrittenAs json)
    (index : Nat) : chatToolCallToToolUse json index = some (.toolUse call.id call.name (.obj fields)) := by
  have id : call.id.isEmpty = false := by simpa using complete.id.2
  have name : call.name.isEmpty = false := by simpa using complete.name.2
  have input : toolInput (trim call.arguments) = .obj fields := by
    rw [toolInput, complete.arguments]
    rfl
  rw [chatToolCallToToolUse, written.id, written.name, written.arguments]
  simp [asStr, complete.id.1, complete.name.1, input, orElseText, id, name]

theorem ChatToolCall.Complete.sentAgain (complete : call.Complete fields) :
    call.SentAgain (historyToolCall call.id call.name (.obj fields)) := by
  have fits := fits_of_parse complete.arguments
  have canonical := canonicalize_object complete.arguments
  refine ⟨rfl, rfl, ?_, ?_⟩
  · rw [canonical, ← canonicalJsonString_of_fits fits]
    rfl
  · rw [canonical, parse_print fits, reread_whole _ complete.whole, complete.arguments]

def AnthropicBlock.Readable : AnthropicBlock → Prop
  | .thinking thought => thought ≠ []
  | .text said => isBlank said = false
  | .toolUse id name _ => id ≠ [] ∧ name ≠ []

def AnthropicBlock.given : AnthropicBlock → BlockTurn
  | .thinking thought => ⟨[], [], [], [thought], []⟩
  | .text said => ⟨[], [textPart said], [], [], []⟩
  | .toolUse id name input => ⟨[], [], [historyToolCall id name input], [], []⟩

theorem AnthropicBlock.Readable.converted {block : AnthropicBlock} (readable : block.Readable) :
    convertBlock .empty block.toJson = .ok block.given := by
  cases block with
  | thinking thought =>
    have read : convertBlock .empty (thinking thought).toJson =
        .ok (if thought.isEmpty then .empty else ⟨[], [], [], [thought], []⟩) := rfl
    have filled : thought ≠ [] := readable
    rw [read, if_neg (by simpa using filled)]
    rfl
  | text said =>
    have read : convertBlock .empty (text said).toJson =
        .ok (if isBlank said then .empty else ⟨[], [textPart said], [], [], []⟩) := rfl
    rw [read, if_neg (Bool.eq_false_iff.mp readable)]
    rfl
  | toolUse id name input =>
    have read : convertBlock .empty (toolUse id name input).toJson =
        if id.isEmpty || name.isEmpty then .error "tool_use block missing id or name".toList
        else .ok ⟨[], [], [historyToolCall id name input], [], []⟩ := rfl
    have filled : id ≠ [] ∧ name ≠ [] := readable
    rw [read, if_neg (by simpa using filled)]
    rfl

section Blocks

variable {blocks : List AnthropicBlock} (readable : ∀ block ∈ blocks, block.Readable)
include readable

theorem gift_replay {block : AnthropicBlock} (mem : block ∈ blocks) : gift block.toJson = block.given := by
  rw [gift, (readable block mem).converted]
  rfl

theorem accepted_replay : ∀ json ∈ blocks.map toJson, convertBlock .empty json = .ok (gift json) := by
  intro json mem
  obtain ⟨block, inside, rfl⟩ := mem_map.mp mem
  rw [(readable block inside).converted, gift_replay readable inside]

theorem gifts_replay : gifts (blocks.map toJson) =
    ⟨[], blocks.flatMap (·.given.textParts), blocks.flatMap (·.given.toolCalls), blocks.flatMap (·.given.reasoning),
      []⟩ := by
  induction blocks with
  | nil => rfl
  | cons block rest ih =>
    have first := gift_replay readable mem_cons_self
    rw [map_cons, gifts_cons, first, ih fun other mem => readable other (mem_cons_of_mem _ mem)]
    cases block <;> rfl

theorem convert_replay {answer : AnthropicMessage} (content : answer.content = blocks)
    (filled : blocks.flatMap (·.given.textParts) ≠ [] ∨ blocks.flatMap (·.given.toolCalls) ≠ [])
    (vendorRequiresReasoning : Bool) :
    convertMessageToChat vendorRequiresReasoning answer.replay =
      .ok [.record (assistantFields (gifts (blocks.map toJson)) vendorRequiresReasoning)] := by
  have read : convertMessageToChat vendorRequiresReasoning answer.replay =
      convertBlocksToChat assistantRole (blocks.map toJson) vendorRequiresReasoning := by
    rw [← content]
    rfl
  have some : ((blocks.flatMap (·.given.textParts)).isEmpty && (blocks.flatMap (·.given.toolCalls)).isEmpty) =
      false := by
    rw [Bool.and_eq_false_iff]
    rcases filled with said | called
    · exact .inl (by simpa using said)
    · exact .inr (by simpa using called)
  rw [read, convertBlocksToChat, foldlM_convertBlock_of_accepted (accepted_replay readable), BlockTurn.empty_append,
    gifts_replay readable]
  simp [Except.map, assistantMessages, some]

end Blocks

def ChatToolCall.input (call : ChatToolCall) : Json := (parse (trim call.arguments)).getD (.obj [])

def ChatToolCall.block (call : ChatToolCall) : AnthropicBlock := .toolUse call.id call.name call.input

theorem toolUses_written {calls : List ChatToolCall} {jsons : List Json}
    (written : List.Forall₂ ChatToolCall.WrittenAs calls jsons)
    (complete : ∀ call ∈ calls, ∃ fields, call.Complete fields) :
    toolUses jsons = calls.map ChatToolCall.block := by
  suffices anywhere : ∀ start, ((jsons.zipIdx start).filterMap fun call => chatToolCallToToolUse call.1 call.2) =
      calls.map ChatToolCall.block from anywhere 0
  induction written with
  | nil => exact fun _ => rfl
  | @cons call json calls jsons here later ih =>
    intro start
    obtain ⟨fields, known⟩ := complete call mem_cons_self
    have block : call.block = .toolUse call.id call.name (.obj fields) := by
      rw [ChatToolCall.block, ChatToolCall.input, known.arguments]
      rfl
    simp only [zipIdx_cons, filterMap_cons, known.toolUse here start, map_cons, block]
    rw [ih fun other mem => complete other (mem_cons_of_mem _ mem)]

theorem messageToolUses_written {turn : ChatTurn} {message : Json} (written : turn.WrittenAs message)
    (complete : ∀ call ∈ turn.calls, ∃ fields, call.Complete fields) (id : Str) :
    messageToolUses message id = turn.calls.map ChatToolCall.block := by
  rw [messageToolUses, toolUses_written written.calls complete]
  cases turn.calls with
  | nil =>
    rcases absent_of_rawPresent written.legacy with absent | null
    · rw [absent]
      rfl
    · rw [null]
      rfl
  | cons call rest => rfl

def ChatTurn.blocks (turn : ChatTurn) : List AnthropicBlock :=
  (if turn.reasoning.isEmpty then [] else [.thinking turn.reasoning]) ++
    (if turn.text.isEmpty then [] else [.text turn.text]) ++ turn.calls.map ChatToolCall.block

theorem chatResponseToAnthropic_turn [FloatCast] {turn : ChatTurn} {resp : Json} (answered : turn.AnsweredBy resp)
    (plain : splitLeadingThink turn.text = none) (complete : ∀ call ∈ turn.calls, ∃ fields, call.Complete fields)
    (id : Str) : ∃ answer, chatResponseToAnthropic resp id = .ok answer ∧ answer.content = turn.blocks := by
  obtain ⟨choice, message, choices, found, written⟩ := answered
  have first : (firstChoice resp).bind (get · "message") = some message := by
    rw [firstChoice, choices]
    exact found
  have uses := messageToolUses_written written complete id
  have all : (toolUses (((message.get "tool_calls").bind asArr).getD [])).length =
      (((message.get "tool_calls").bind asArr).getD []).length := by
    rw [toolUses_written written.calls complete, length_map, written.calls.length_eq]
  rw [chatResponseToAnthropic, first]
  dsimp only
  rw [all, messageTexts_written written plain, uses, if_neg (by simp)]
  exact ⟨_, rfl, rfl⟩

section Replayed

variable {turn : ChatTurn} (complete : ∀ call ∈ turn.calls, ∃ fields, call.Complete fields)

theorem textParts_blocks : turn.blocks.flatMap (·.given.textParts) =
    if turn.text.isEmpty then [] else [textPart turn.text] := by
  have silent : (turn.calls.map ChatToolCall.block).flatMap (·.given.textParts) = [] := by
    rw [flatMap_map, flatMap_eq_nil_iff]
    exact fun call _ => rfl
  rw [ChatTurn.blocks, flatMap_append, flatMap_append, silent, append_nil]
  split_ifs <;> rfl

theorem toolCalls_blocks : turn.blocks.flatMap (·.given.toolCalls) =
    turn.calls.map fun call => historyToolCall call.id call.name call.input := by
  have called : (turn.calls.map ChatToolCall.block).flatMap (·.given.toolCalls) =
      turn.calls.map fun call => historyToolCall call.id call.name call.input := by
    rw [flatMap_map]
    exact flatMap_pure_eq_map _ _
  rw [ChatTurn.blocks, flatMap_append, flatMap_append, called]
  split_ifs <;> rfl

include complete

theorem readable_blocks (spoken : turn.text = [] ∨ isBlank turn.text = false) :
    ∀ block ∈ turn.blocks, block.Readable := by
  intro block mem
  rw [ChatTurn.blocks, mem_append, mem_append] at mem
  rcases mem with (thought | said) | called
  · split_ifs at thought with empty
    · cases thought
    · cases mem_singleton.mp thought
      exact fun none => empty (isEmpty_iff.mpr none)
  · split_ifs at said with empty
    · cases said
    · cases mem_singleton.mp said
      exact spoken.resolve_left fun none => empty (isEmpty_iff.mpr none)
  · obtain ⟨call, inside, rfl⟩ := mem_map.mp called
    obtain ⟨fields, known⟩ := complete call inside
    exact ⟨known.id.2, known.name.2⟩

theorem sentAgain_calls :
    List.Forall₂ ChatToolCall.SentAgain turn.calls
      (turn.calls.map fun call => historyToolCall call.id call.name call.input) := by
  rw [forall₂_map_right_iff, forall₂_same]
  intro call mem
  obtain ⟨fields, known⟩ := complete call mem
  have input : call.input = .obj fields := by
    rw [ChatToolCall.input, known.arguments]
    rfl
  rw [input]
  exact known.sentAgain

end Replayed

/-- A turn that goes to the client and comes back is one message with the same text and the same calls. -/
theorem anthropic_turn_survives [FloatCast] {turn : ChatTurn} {resp : Json} (answered : turn.AnsweredBy resp)
    (plain : splitLeadingThink turn.text = none) (spoken : turn.text = [] ∨ isBlank turn.text = false)
    (complete : ∀ call ∈ turn.calls, ∃ fields, call.Complete fields) (filled : turn.text ≠ [] ∨ turn.calls ≠ [])
    (id : Str) (vendorRequiresReasoning : Bool) :
    ∃ answer message, chatResponseToAnthropic resp id = .ok answer ∧
      convertMessageToChat vendorRequiresReasoning answer.replay = .ok [message] ∧ turn.SentAgain message := by
  obtain ⟨answer, sent, content⟩ := chatResponseToAnthropic_turn answered plain complete id
  have readable := readable_blocks complete spoken
  have some : turn.blocks.flatMap (·.given.textParts) ≠ [] ∨ turn.blocks.flatMap (·.given.toolCalls) ≠ [] := by
    rw [textParts_blocks, toolCalls_blocks]
    rcases filled with said | called
    · exact .inl (by simp [said])
    · exact .inr (by simpa using called)
  have given := gifts_replay readable
  rw [textParts_blocks, toolCalls_blocks] at given
  refine ⟨answer, _, sent, convert_replay readable content some vendorRequiresReasoning, ?_, ?_, ?_⟩
  · rw [getStr, get_role_assistant]
    rfl
  · rw [get_content_assistant, assistantContent, given]
    cases turn.text with
    | nil => rfl
    | cons first rest => exact congrArg (fun text => Option.some (Json.str text)) (append_nil _)
  · have calls := sentAgain_calls complete
    rw [get_tool_calls_assistant, given]
    cases held : turn.calls with
    | nil => exact .nil
    | cons call rest =>
      rw [held] at calls
      exact calls

end Turn

theorem weatherCall_complete : @ChatToolCall.Complete verbatim weatherCall weatherFields := by
  let _ : FloatText := verbatim
  exact ⟨by decide +kernel, by decide +kernel, weatherCall_declared.arguments, rfl⟩

/-- The question and the call come back, also without the reasoning. -/
theorem weather_turn_survives : ∃ answer message,
    @chatResponseToAnthropic verbatim FloatCast.zero weatherTurn.answer "msg_0".toList = .ok answer ∧
      @convertMessageToChat verbatim false answer.replay = .ok [message] ∧
      @ChatTurn.SentAgain verbatim weatherTurn message := by
  refine @anthropic_turn_survives verbatim FloatCast.zero _ _ weatherTurn.answeredBy_answer (by decide +kernel)
    (.inr (by decide +kernel)) ?_ (.inl (by decide +kernel)) _ _
  intro call member
  rw [mem_singleton.mp member]
  exact ⟨_, weatherCall_complete⟩

end LlmGateway
