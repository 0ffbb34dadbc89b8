import LlmGateway.Responses.ConvertResponse

namespace LlmGateway

open Json Text List Option MessageOut ResponsesOutputOut Conversion ResponsesOutputContentOut

variable {text : Str}

theorem isBlank_append_left {rest : Str} (filled : isBlank text = false) : isBlank (text ++ rest) = false := by
  rw [isBlank, Bool.eq_false_iff] at filled ⊢
  intro blank
  refine filled (isEmpty_trim_iff.mpr fun c mem => ?_)
  exact isEmpty_trim_iff.mp blank c (mem_append_left _ mem)

theorem isBlank_of_nonBlank {piece : Str} (found : nonBlank text = some piece) : isBlank piece = false := by
  obtain ⟨rfl, filled⟩ := nonBlank_eq_some_iff.mp found
  rw [isBlank, trim_trim]
  exact filled

theorem nonBlank_of_blank (blank : isBlank text) : nonBlank text = none := if_pos blank

theorem filter_filled (filled : isBlank text = false) :
    (some text).filter (fun text => !isBlank text) = some text := by
  simp [Option.filter, filled]

theorem filter_blank (blank : isBlank text) :
    (some text).filter (fun text => !isBlank text) = none := by
  simp [Option.filter, blank]

section Messages

variable {before : List MessageOut} {message : MessageOut} {tool : ToolCallOut} {pending reasoning : Option Str}

def MessageOut.attach (message : MessageOut) (reasoning : Option Str) : MessageOut :=
  match reasoning.filter fun text => !isBlank text with
  | some text => message.withReasoning text
  | none => message

def MessageOut.addCall (message : MessageOut) (tool : ToolCallOut) (reasoning : Option Str) : MessageOut :=
  MessageOut.attach { message with toolCalls := message.toolCalls ++ [tool] } reasoning

def freshAssistant : MessageOut := ⟨assistantRole, none, [], none, none⟩

theorem MessageOut.withReasoning_eq (message : MessageOut) (text : Str) :
    ∃ kept, message.withReasoning text = { message with reasoningContent := some kept } := by
  unfold withReasoning
  split
  · exact ⟨_, rfl⟩
  · exact ⟨_, rfl⟩

theorem MessageOut.attach_eq (message : MessageOut) (reasoning : Option Str) :
    ∃ kept, message.attach reasoning = { message with reasoningContent := kept } := by
  unfold MessageOut.attach
  split
  · obtain ⟨kept, same⟩ := message.withReasoning_eq _
    exact ⟨some kept, same⟩
  · exact ⟨_, rfl⟩

theorem MessageOut.addCall_eq (message : MessageOut) (tool : ToolCallOut) (reasoning : Option Str) :
    ∃ kept, message.addCall tool reasoning =
      { message with toolCalls := message.toolCalls ++ [tool], reasoningContent := kept } :=
  attach_eq _ _

theorem attach_last (assistant : message.isAssistant) :
    attachReasoningToLastAssistant (before ++ [message]) reasoning = before ++ [message.attach reasoning] := by
  unfold attachReasoningToLastAssistant MessageOut.attach
  cases reasoning.filter fun text => !isBlank text with
  | none => rfl
  | some text => simp [modifyFirst, assistant]

theorem modifyFirst_of_none {α : Type*} {p : α → Bool} {f : α → α} {items : List α}
    (none : ∀ item ∈ items, p item = false) :
    modifyFirst p f items = items := by
  induction items with
  | nil => rfl
  | cons item items ih =>
    have rest := ih fun other mem => none other (mem_cons_of_mem _ mem)
    simp [modifyFirst, none item mem_cons_self, rest]

theorem attach_none (others : ∀ message ∈ before, message.isAssistant = false) :
    attachReasoningToLastAssistant before reasoning = before := by
  unfold attachReasoningToLastAssistant
  split
  · rfl
  · rw [modifyFirst_of_none fun message mem => others message (mem_reverse.mp mem), reverse_reverse]

theorem callTool_last (assistant : message.isAssistant) :
    callTool ⟨before ++ [message], pending, []⟩ tool reasoning =
      ⟨before ++ [message.addCall tool (appendPendingReasoning pending reasoning)], none, []⟩ := by
  have joined : appendToolCallToLastAssistant (before ++ [message]) tool =
      before ++ [{ message with toolCalls := message.toolCalls ++ [tool] }] := by
    simp [appendToolCallToLastAssistant, assistant]
  have flushed : flushPendingMedia (before ++ [message]) [] = before ++ [message] := rfl
  have called : isAssistant { message with toolCalls := message.toolCalls ++ [tool] } := assistant
  rw [callTool, flushed, joined, attach_last called]
  rfl

theorem callTool_fresh (others : ∀ message ∈ before, message.isAssistant = false) :
    callTool ⟨before, pending, []⟩ tool reasoning =
      ⟨before ++ [freshAssistant.addCall tool (appendPendingReasoning pending reasoning)], none, []⟩ := by
  have joined : appendToolCallToLastAssistant before tool =
      before ++ [{ freshAssistant with toolCalls := [tool] }] := by
    unfold appendToolCallToLastAssistant
    cases last : before.getLast? with
    | none => simp [List.getLast?_eq_none_iff.mp last, freshAssistant]
    | some message => simp [others message (mem_of_getLast? last), freshAssistant]
  have flushed : flushPendingMedia before [] = before := rfl
  rw [callTool, flushed, joined, attach_last rfl]
  rfl

theorem addCall_appendPending (message : MessageOut) (tool : ToolCallOut) (reasoning : Option Str) :
    message.addCall tool (appendPendingReasoning none reasoning) = message.addCall tool reasoning := by
  cases reasoning with
  | none => rfl
  | some text =>
    cases blank : isBlank text with
    | true =>
      simp [addCall, MessageOut.attach, appendPendingReasoning, filter_blank blank, filter_none]
    | false => simp [addCall, MessageOut.attach, appendPendingReasoning, filter_filled blank]

theorem addCall_content (message : MessageOut) (tool : ToolCallOut) (reasoning : Option Str) :
    (message.addCall tool reasoning).content = message.content := by
  obtain ⟨kept, same⟩ := message.addCall_eq tool reasoning
  rw [same]

theorem addCall_toolCalls (message : MessageOut) (tool : ToolCallOut) (reasoning : Option Str) :
    (message.addCall tool reasoning).toolCalls = message.toolCalls ++ [tool] := by
  obtain ⟨kept, same⟩ := message.addCall_eq tool reasoning
  rw [same]

theorem addCall_isAssistant (message : MessageOut) (tool : ToolCallOut) (reasoning : Option Str) :
    (message.addCall tool reasoning).isAssistant = message.isAssistant := by
  obtain ⟨kept, same⟩ := message.addCall_eq tool reasoning
  rw [same]
  rfl

theorem foldl_callTool (assistant : message.isAssistant) (tools : List ToolCallOut) :
    tools.foldl (fun state tool => callTool state tool reasoning) ⟨before ++ [message], none, []⟩ =
      ⟨before ++ [tools.foldl (fun message tool => message.addCall tool reasoning) message], none, []⟩ := by
  induction tools generalizing message with
  | nil => rfl
  | cons tool tools ih =>
    rw [foldl_cons, foldl_cons, callTool_last assistant, addCall_appendPending]
    exact ih ((addCall_isAssistant ..).trans assistant)

theorem foldl_addCall (message : MessageOut) (tools : List ToolCallOut) (reasoning : Option Str) :
    ∃ kept, tools.foldl (fun message tool => message.addCall tool reasoning) message =
      { message with toolCalls := message.toolCalls ++ tools, reasoningContent := kept } := by
  induction tools generalizing message with
  | nil => exact ⟨message.reasoningContent, by simp⟩
  | cons tool tools ih =>
    obtain ⟨first, added⟩ := message.addCall_eq tool reasoning
    obtain ⟨kept, others⟩ := ih (message.addCall tool reasoning)
    rw [foldl_cons, others, added]
    simp

def MessageOut.Repeats (message : MessageOut) (reasoning : Str) : Prop :=
  ∃ kept, message.reasoningContent = some kept ∧ isBlank kept = false ∧ reasoning.length < kept.length

theorem addCall_reasoning (message : MessageOut) (tool : ToolCallOut) {kept text : Str}
    (held : message.reasoningContent = some kept) (filled : isBlank kept = false) (new : isBlank text = false) :
    (message.addCall tool (some text)).reasoningContent = some (kept ++ '\n' :: text) := by
  simp [addCall, MessageOut.attach, filter_filled new, withReasoning, held, filled]

theorem addCall_fresh {text : Str} (new : isBlank text = false) :
    (freshAssistant.addCall tool (some text)).reasoningContent = some text := by
  simp only [addCall, MessageOut.attach, filter_filled new]
  rfl

theorem MessageOut.Repeats.addCall {text whole : Str} (repeats : message.Repeats whole)
    (new : isBlank text = false) :
    (message.addCall tool (some text)).Repeats whole := by
  obtain ⟨kept, held, filled, longer⟩ := repeats
  refine ⟨_, addCall_reasoning message tool held filled new, isBlank_append_left filled, ?_⟩
  rw [length_append]
  omega

theorem MessageOut.Repeats.foldl {text whole : Str} (repeats : message.Repeats whole) (new : isBlank text = false)
    (tools : List ToolCallOut) :
    (tools.foldl (fun message tool => message.addCall tool (some text)) message).Repeats whole := by
  induction tools generalizing message with
  | nil => exact repeats
  | cons tool tools ih => exact ih (repeats.addCall new)

end Messages

section Items

variable [FloatText] [ShortSha256] {ctx : ToolContext} {state : Conversion} {id text : Str}
  {status : ResponseStatus}

omit [FloatText] [ShortSha256] in
theorem getStr_type (item : ResponsesOutputOut) : item.toJson.getStr "type" = some item.type := by
  rw [getStr, item.get_toJson]
  rfl

theorem convert_reasoning (state : Conversion) :
    inputItemToChatMessages ctx state (reasoningOutput id status text).toJson =
      .ok { state with pendingReasoning := appendPendingReasoning state.pendingReasoning (some text) } := by
  have type : String.ofList (trim (((reasoningOutput id status text).toJson.getStr "type").getD [])) =
      "reasoning" := by
    rw [getStr_type]
    rfl
  have plain : firstNonBlank (reasoningOutput id status text).toJson ["reasoning_content", "content", "text"] =
      none := by
    simp only [firstNonBlank, getStr, get_toJson]
    rfl
  have summary : (reasoningOutput id status text).toJson.get "summary" =
      some (.arr [.obj [("text", .str text), ("type", .str "summary_text".toList)]]) := by
    rw [get_toJson]
    rfl
  have said : appendPendingReasoning state.pendingReasoning
      (reasoningItemText (reasoningOutput id status text).toJson) =
      appendPendingReasoning state.pendingReasoning (some text) := by
    cases blank : isBlank text with
    | true =>
      have none : reasoningItemText (reasoningOutput id status text).toJson = none := by
        simp [reasoningItemText, plain, summary, List.lookup, asStr, blank]
      rw [none, appendPendingReasoning, appendPendingReasoning, filter_blank blank, filter_none]
    | false =>
      have kept : reasoningItemText (reasoningOutput id status text).toJson = some text := by
        simp [reasoningItemText, plain, summary, List.lookup, asStr, blank]
      rw [kept]
  unfold inputItemToChatMessages
  rw [type, if_pos rfl, said]

omit [FloatText] [ShortSha256] in
theorem add_outputText (filled : text.isEmpty = false) :
    ChatContent.add ⟨[], [], true⟩
      (.obj [("annotations", .arr []), ("text", .str text), ("type", .str "output_text".toList)]) =
      ⟨[textPart text], text, true⟩ := by
  have type : String.ofList ((Json.getStr (.obj [("annotations", .arr []), ("text", .str text),
      ("type", .str "output_text".toList)]) "type").getD []) = "output_text" := rfl
  have found : Json.getStr (.obj [("annotations", .arr []), ("text", .str text),
      ("type", .str "output_text".toList)]) "text" = some text := rfl
  unfold ChatContent.add
  rw [type, found]
  simp [filled]

theorem convert_message (state : Conversion) (filled : text.isEmpty = false) :
    inputItemToChatMessages ctx state (messageOutput id status text []).toJson =
      .ok ⟨state.messages ++ [⟨assistantRole, some (.str text), [], none,
        state.pendingReasoning.filter fun text => !isBlank text⟩], none, state.pendingMedia⟩ := by
  have type : String.ofList (trim (((messageOutput id status text []).toJson.getStr "type").getD [])) =
      "message" := by
    rw [getStr_type]
    rfl
  have role : normalizeInputRole ((messageOutput id status text []).toJson.getStr "role") = assistantRole := by
    rw [getStr, get_toJson]
    rfl
  have content : (messageOutput id status text []).toJson.get "content" =
      some (.arr [toJson ⟨"output_text".toList, text, []⟩]) := by
    rfl
  have said : inputContentToChatContent (.arr [toJson ⟨"output_text".toList, text, []⟩]) =
      .str text := by
    have part : toJson ⟨"output_text".toList, text, []⟩ =
        .obj [("annotations", .arr []), ("text", .str text), ("type", .str "output_text".toList)] := rfl
    rw [part, inputContentToChatContent, contentPartsToChatContent, foldl_cons, foldl_nil,
      add_outputText filled]
    rfl
  unfold inputItemToChatMessages
  rw [type, content]
  dsimp only
  rw [role, said]
  simp [push, plainMessage]

variable {item : ResponsesOutputOut} {cid name arguments : Str}

omit [FloatText] [ShortSha256] in
theorem callId_toJson (called : item.callId = some cid) (trimmed : nonBlank cid = some cid) :
    callId item.toJson = cid := by
  have found : item.toJson.getStr "call_id" = some cid := by
    rw [getStr, item.get_toJson]
    change (item.callId.map Json.str).bind asStr = some cid
    rw [called]
    rfl
  rw [callId, found, bind_some, trimmed]
  rfl

omit [FloatText] [ShortSha256] in
theorem itemEmbeddedReasoning_toJson (item : ResponsesOutputOut) :
    itemEmbeddedReasoning item.toJson = item.reasoningContent.filter fun text => !isBlank text := by
  have other : item.toJson.get "reasoning" = none := item.get_toJson "reasoning"
  have details : item.toJson.get "reasoning_details" = none := item.get_toJson "reasoning_details"
  have field : item.toJson.get "reasoning_content" = item.reasoningContent.map Json.str :=
    item.get_toJson "reasoning_content"
  cases held : item.reasoningContent with
  | none =>
    rw [held] at field
    simp [itemEmbeddedReasoning, other, details, field]
  | some text =>
    rw [held] at field
    cases blank : isBlank text with
    | true => simp [itemEmbeddedReasoning, other, details, field, blank, filter_blank blank]
    | false => simp [itemEmbeddedReasoning, field, blank, filter_filled blank]

theorem convert_functionCall (type : item.type = "function_call".toList) (called : item.callId = some cid)
    (trimmed : nonBlank cid = some cid) (named : item.name = some name) (trimmedName : nonBlank name = some name)
    (given : item.arguments = some (.str arguments))
    (filled : isBlank (canonicalizeJsonStringIfParseable arguments) = false) (state : Conversion) :
    inputItemToChatMessages ctx state item.toJson =
      .ok (state.callTool (toolCallOf cid (ctx.chatNameFor name (item.ns.bind nonBlank))
        (canonicalizeJsonStringIfParseable arguments)) (item.reasoningContent.filter fun text =>
          !isBlank text)) := by
  have kind : String.ofList (trim ((item.toJson.getStr "type").getD [])) = "function_call" := by
    rw [getStr_type, type]
    rfl
  have nameField : item.toJson.getStr "name" = some name := by
    rw [getStr, item.get_toJson]
    change (item.name.map Json.str).bind asStr = some name
    rw [named]
    rfl
  have nsField : item.toJson.getStr "namespace" = item.ns := by
    rw [getStr, item.get_toJson]
    change (item.ns.map Json.str).bind asStr = item.ns
    cases item.ns with
    | none => rfl
    | some ns => rfl
  have argumentsField : item.toJson.get "arguments" = some (.str arguments) :=
    (item.get_toJson "arguments").trans given
  obtain ⟨again, someName⟩ := nonBlank_eq_some_iff.mp trimmedName
  have tool : functionCallItemToChatToolCall item.toJson ctx =
      .ok (toolCallOf cid (ctx.chatNameFor name (item.ns.bind nonBlank))
        (canonicalizeJsonStringIfParseable arguments)) := by
    simp [functionCallItemToChatToolCall, nameField, nsField, argumentsField, again, someName, argumentsString,
      filled, callId_toJson called trimmed]
  unfold inputItemToChatMessages
  rw [kind, if_neg (by decide), if_pos rfl, tool, itemEmbeddedReasoning_toJson]
  rfl

theorem convert_customCall (type : item.type = "custom_tool_call".toList) (called : item.callId = some cid)
    (trimmed : nonBlank cid = some cid) (named : item.name = some name) (trimmedName : nonBlank name = some name)
    (given : item.input = some arguments) (state : Conversion) :
    inputItemToChatMessages ctx state item.toJson =
      .ok (state.callTool (toolCallOf cid name (Json.obj [("input", .str arguments)]).print)
        (item.reasoningContent.filter fun text => !isBlank text)) := by
  have kind : String.ofList (trim ((item.toJson.getStr "type").getD [])) = "custom_tool_call" := by
    rw [getStr_type, type]
    rfl
  have nameField : item.toJson.getStr "name" = some name := by
    rw [getStr, item.get_toJson]
    change (item.name.map Json.str).bind asStr = some name
    rw [named]
    rfl
  have inputField : item.toJson.get "input" = some (.str arguments) := by
    rw [item.get_toJson]
    change item.input.map Json.str = _
    rw [given]
    rfl
  have tool : customToolCallItemToChatToolCall item.toJson =
      toolCallOf cid name (Json.obj [("input", .str arguments)]).print := by
    simp only [customToolCallItemToChatToolCall, nameField, inputField, getD_some,
      (nonBlank_eq_some_iff.mp trimmedName).1, callId_toJson called trimmed]
    rfl
  unfold inputItemToChatMessages
  rw [kind, if_neg (by decide), if_neg (by decide), if_neg (by decide), if_pos rfl, tool,
    itemEmbeddedReasoning_toJson]

theorem convert_toolSearchCall {value : Json} (type : item.type = "tool_search_call".toList)
    (called : item.callId = some cid) (trimmed : nonBlank cid = some cid) (given : item.arguments = some value)
    (state : Conversion) :
    inputItemToChatMessages ctx state item.toJson =
      .ok (state.callTool (toolCallOf cid toolSearchProxyName (canonicalJsonString value))
        (item.reasoningContent.filter fun text => !isBlank text)) := by
  have kind : String.ofList (trim ((item.toJson.getStr "type").getD [])) = "tool_search_call" := by
    rw [getStr_type, type]
    rfl
  have argumentsField : item.toJson.get "arguments" = some value := (item.get_toJson "arguments").trans given
  have tool : toolSearchCallItemToChatToolCall item.toJson =
      toolCallOf cid toolSearchProxyName (canonicalJsonString value) := by
    simp [toolSearchCallItemToChatToolCall, argumentsField, callId_toJson called trimmed]
  unfold inputItemToChatMessages
  rw [kind, if_neg (by decide), if_neg (by decide), if_neg (by decide), if_neg (by decide), if_pos rfl, tool,
    itemEmbeddedReasoning_toJson]

end Items

end LlmGateway
