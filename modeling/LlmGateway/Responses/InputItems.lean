import LlmGateway.Chat.MediaWalk
import LlmGateway.Lib.Fallible
import LlmGateway.Responses.ConvertRequest

namespace LlmGateway

open Json Text List

def toolRole : Str := "tool".toList

def MessageOut.isTool (message : MessageOut) : Bool := message.role = toolRole

/-- An input item by what it is for the conversation. -/
inductive InputItem
  | reasoning (text : Option Str)
  | call (tool : ToolCallOut) (embedded : Option Str)
  | webSearch (tool : ToolCallOut) (results : Str) (embedded : Option Str)
  | output (callId : Str) (content : Json) (media : List Json)
  | assistant (content : Json) (embedded : Option Str)
  | boundary (role : Str) (content : Json)
  | skipped

def labelled (callId : Str) (media : List Json) : List Json :=
  if media.isEmpty then []
  else (if callId.isEmpty then [] else [textPart (mediaLabel callId)]) ++ media

namespace InputItem

def isCall : InputItem → Bool
  | call _ _ | webSearch _ _ _ => true
  | _ => false

def isOutput : InputItem → Bool
  | output _ _ _ => true
  | _ => false

def givesTool : InputItem → Bool
  | output _ _ _ | webSearch _ _ _ => true
  | _ => false

def isAssistant : InputItem → Bool
  | assistant _ _ => true
  | _ => false

def isBoundary : InputItem → Bool
  | boundary _ _ => true
  | _ => false

def madeId : InputItem → Option Str
  | call tool _ | webSearch tool _ _ => some tool.id
  | _ => none

def answeredId : InputItem → Option Str
  | output callId _ _ => some callId
  | _ => none

section Read

variable [FloatText] [ShortSha256]

def read (ctx : ToolContext) (item : Json) : Except Str InputItem :=
  let type := String.ofList (trim ((item.getStr "type").getD []))
  let embedded := itemEmbeddedReasoning item
  let answered := trim ((item.getStr "call_id").getD [])
  if type = "reasoning" then .ok (reasoning (reasoningItemText item))
  else if type = "function_call" then (functionCallItemToChatToolCall item ctx).map (call · embedded)
  else if type = "web_search_call" then
    let query := (item.getStr "query").getD []
    .ok (webSearch (toolCallOf (callId item) "web_search".toList (Json.obj [("query", .str query)]).print)
      (((item.get "results").map canonicalJsonString).getD []) embedded)
  else if type = "custom_tool_call" then .ok (call (customToolCallItemToChatToolCall item) embedded)
  else if type = "tool_search_call" then .ok (call (toolSearchCallItemToChatToolCall item) embedded)
  else if type = "function_call_output" then
    match rawPresent (item.get "output") with
    | none => .ok (output answered (.str []) [])
    | some value => .ok (output answered (.str (splitToolOutput value).text) (splitToolOutput value).media)
  else if type = "custom_tool_call_output" ∨ type = "tool_search_output" then
    .ok (output answered (.str (splitToolOutput item).text) (splitToolOutput item).media)
  else if type = "input_text" ∨ type = "output_text" ∨ type = "input_image" ∨ type = "input_file" ∨
      type = "input_audio" ∨ type = "input_video" then
    .ok (boundary (normalizeInputRole (item.getStr "role")) (contentPartsToChatContent [item]))
  else
    match item.get "content" with
    | none => .ok skipped
    | some content =>
      let role := normalizeInputRole (item.getStr "role")
      .ok (if role = assistantRole then assistant (inputContentToChatContent content) embedded
        else boundary role (inputContentToChatContent content))

end Read

end InputItem

namespace Conversion

/-- What an item does to the conversion. Reasoning embedded in a search or in a message is not read. -/
def take (state : Conversion) : InputItem → Conversion
  | .reasoning text => { state with pendingReasoning := appendPendingReasoning state.pendingReasoning text }
  | .call tool embedded => state.callTool tool embedded
  | .webSearch tool results _ => (state.callTool tool none).push (toolMessage tool.id (.str results))
  | .output callId content media =>
    ⟨state.messages ++ [toolMessage callId content], state.pendingReasoning,
      state.pendingMedia ++ labelled callId media⟩
  | .assistant content _ =>
    ⟨state.messages ++ [{ plainMessage assistantRole content with
      reasoningContent := state.pendingReasoning.filter fun text => !isBlank text }], none, state.pendingMedia⟩
  | .boundary role content => state.otherTurn (plainMessage role content)
  | .skipped => state

theorem withMedia_push (state : Conversion) (callId : Str) (media : List Json) (content : Json) :
    (state.withMedia callId callId.isEmpty media).push (toolMessage callId content) =
      state.take (.output callId content media) := by
  unfold withMedia take labelled push
  by_cases empty : media.isEmpty
  · simp [empty]
  · simp [empty]

end Conversion

theorem normalizeInputRole_ne_tool (role : Option Str) : normalizeInputRole role ≠ toolRole := by
  unfold normalizeInputRole
  split
  · decide
  · split_ifs with known
    · rintro rfl
      revert known
      decide
    · decide

theorem systemMessages_others (req : Json) :
    ∀ message ∈ systemMessages req,
      message.isAssistant = false ∧ message.isTool = false ∧ message.reasoningContent = none := by
  intro message mem
  unfold systemMessages at mem
  split at mem
  · cases mem
  · dsimp only at mem
    split_ifs at mem
    · cases mem
    · rw [mem_singleton.mp mem]
      exact ⟨rfl, rfl, rfl⟩

section Items

variable [FloatText] [ShortSha256] {ctx : ToolContext}

theorem inputItemToChatMessages_eq (ctx : ToolContext) (state : Conversion) (item : Json) :
    inputItemToChatMessages ctx state item = (InputItem.read ctx item).map state.take := by
  have blank (text : Str) : isBlank (trim text) = (trim text).isEmpty := by rw [isBlank, trim_trim]
  unfold inputItemToChatMessages InputItem.read
  simp only [apply_ite (Except.map state.take)]
  refine ite_congr rfl (fun _ => rfl) fun _ => ?_
  refine ite_congr rfl (fun _ => ?_) fun _ => ?_
  · cases functionCallItemToChatToolCall item ctx with
    | error reason => rfl
    | ok tool => rfl
  refine ite_congr rfl (fun _ => rfl) fun _ => ?_
  refine ite_congr rfl (fun _ => rfl) fun _ => ?_
  refine ite_congr rfl (fun _ => rfl) fun _ => ?_
  refine ite_congr rfl (fun _ => ?_) fun _ => ?_
  · rw [toolOutputToChatContent]
    cases rawPresent (item.get "output") with
    | none => exact congrArg Except.ok (by simp [Conversion.take, Conversion.push, labelled])
    | some value =>
      rw [blank, Conversion.withMedia_push]
      rfl
  refine ite_congr rfl (fun _ => ?_) fun _ => ?_
  · rw [Conversion.withMedia_push]
    rfl
  cases item.get "content" with
  | none => rfl
  | some content =>
    by_cases role : normalizeInputRole (item.getStr "role") = assistantRole
    · dsimp only
      rw [role, if_pos rfl, if_pos rfl]
      rfl
    · dsimp only
      rw [if_neg role, if_neg role]
      rfl

theorem requestMessages_of_array {req : Json} {given : List Json} {messages : List MessageOut}
    (found : rawPresent (req.get "input") = some (.arr given))
    (converted : requestMessagesToChat req ctx = .ok messages) :
    ∃ items, given.mapM (InputItem.read ctx) = .ok items ∧
      messages = (items.foldl Conversion.take ⟨systemMessages req, none, []⟩).finish := by
  rw [requestMessagesToChat, found] at converted
  dsimp only at converted
  rw [Fallible.foldlM_eq_mapM (inputItemToChatMessages_eq ctx)] at converted
  obtain ⟨last, all, rfl⟩ := Fallible.map_eq_ok.mp converted
  obtain ⟨items, done, rfl⟩ := Fallible.map_eq_ok.mp all
  exact ⟨items, done, rfl⟩

def InputItem.Proper : InputItem → Prop
  | boundary role _ => role ≠ toolRole
  | output _ _ media => ∀ part ∈ media, MediaPart part
  | _ => True

theorem InputItem.proper_of_read {given : Json} {item : InputItem} (read : InputItem.read ctx given = .ok item) :
    item.Proper := by
  unfold InputItem.read at read
  dsimp only at read
  split_ifs at read
  · cases read
    trivial
  · obtain ⟨tool, -, rfl⟩ := Fallible.map_eq_ok.mp read
    trivial
  · cases read
    trivial
  · cases read
    trivial
  · cases read
    trivial
  · split at read
    · cases read
      exact fun part mem => nomatch mem
    · cases read
      exact fun part mem => mediaPart_of_split mem
  · cases read
    exact fun part mem => mediaPart_of_split mem
  · cases read
    exact normalizeInputRole_ne_tool _
  · split at read
    · cases read
      trivial
    · cases read
      trivial
  · split at read
    · cases read
      trivial
    · cases read
      exact normalizeInputRole_ne_tool _

theorem InputItem.proper_of_mapM {given : List Json} {items : List InputItem}
    (read : given.mapM (InputItem.read ctx) = .ok items) : ∀ item ∈ items, item.Proper := by
  intro item mem
  obtain ⟨json, -, same⟩ := Fallible.exists_of_mem_mapM read mem
  exact proper_of_read same

end Items

def MessageOut.bare (message : MessageOut) : MessageOut := { message with reasoningContent := none }

/-- The conversion without its reasoning. -/
structure Draft where
  messages : List MessageOut
  media : List Json

namespace Draft

def flush (draft : Draft) : List MessageOut := flushPendingMedia draft.messages draft.media

def callTool (draft : Draft) (tool : ToolCallOut) : Draft := ⟨appendToolCallToLastAssistant draft.flush tool, []⟩

def push (draft : Draft) (message : MessageOut) : Draft := { draft with messages := draft.messages ++ [message] }

def take (draft : Draft) : InputItem → Draft
  | .reasoning _ | .skipped => draft
  | .call tool _ => draft.callTool tool
  | .webSearch tool results _ => (draft.callTool tool).push (toolMessage tool.id (.str results))
  | .output callId content media =>
    ⟨draft.messages ++ [toolMessage callId content], draft.media ++ labelled callId media⟩
  | .assistant content _ => draft.push (plainMessage assistantRole content)
  | .boundary role content => ⟨draft.flush ++ [plainMessage role content], []⟩

end Draft

section Bare

variable (messages : List MessageOut)

theorem map_modifyFirst {α β : Type*} {p : α → Bool} {f : α → α} {g : α → β} (same : ∀ x, g (f x) = g x)
    (xs : List α) :
    (modifyFirst p f xs).map g = xs.map g := by
  induction xs with
  | nil => rfl
  | cons x xs ih =>
    rw [modifyFirst]
    split_ifs
    · rw [map_cons, same, map_cons]
    · rw [map_cons, ih, map_cons]

theorem bare_withReasoning (message : MessageOut) (text : Str) :
    (message.withReasoning text).bare = message.bare := by
  unfold MessageOut.withReasoning
  split
  · rfl
  · rfl

theorem bare_backfilled (message : MessageOut) : message.backfilled.bare = message.bare := by
  unfold MessageOut.backfilled
  split_ifs
  · rfl
  · rfl

theorem bare_attach (reasoning : Option Str) :
    (attachReasoningToLastAssistant messages reasoning).map MessageOut.bare = messages.map MessageOut.bare := by
  unfold attachReasoningToLastAssistant
  split
  · rfl
  next text _ =>
    rw [map_reverse, map_modifyFirst (bare_withReasoning · text), map_reverse, reverse_reverse]

theorem bare_flush (media : List Json) :
    (flushPendingMedia messages media).map MessageOut.bare =
      flushPendingMedia (messages.map MessageOut.bare) media := by
  unfold flushPendingMedia
  split_ifs
  · rfl
  · rw [map_append]
    rfl

theorem appendToolCall_last {before : List MessageOut} {message : MessageOut} (assistant : message.isAssistant)
    (tool : ToolCallOut) : appendToolCallToLastAssistant (before ++ [message]) tool =
      before ++ [{ message with toolCalls := message.toolCalls ++ [tool] }] := by
  simp [appendToolCallToLastAssistant, assistant]

theorem appendToolCall_fresh (other : ∀ last ∈ messages.getLast?, last.isAssistant = false) (tool : ToolCallOut) :
    appendToolCallToLastAssistant messages tool = messages ++ [⟨assistantRole, none, [tool], none, none⟩] := by
  unfold appendToolCallToLastAssistant
  cases found : messages.getLast? with
  | none => rw [List.getLast?_eq_none_iff.mp found, nil_append]
  | some last =>
    dsimp only
    rw [other last found, if_neg Bool.false_ne_true]

theorem appendToolCall_cases (tool : ToolCallOut) :
    (∃ before last, messages = before ++ [last] ∧ last.isAssistant ∧
      appendToolCallToLastAssistant messages tool = before ++
        [{ last with toolCalls := last.toolCalls ++ [tool] }]) ∨
    ((∀ last ∈ messages.getLast?, last.isAssistant = false) ∧
      appendToolCallToLastAssistant messages tool = messages ++ [⟨assistantRole, none, [tool], none, none⟩]) := by
  rcases eq_nil_or_concat messages with rfl | ⟨before, last, rfl⟩
  · exact .inr ⟨by simp, rfl⟩
  · rw [concat_eq_append]
    cases assistant : last.isAssistant with
    | true => exact .inl ⟨before, last, rfl, assistant, appendToolCall_last assistant tool⟩
    | false =>
      have other : ∀ message ∈ (before ++ [last]).getLast?, message.isAssistant = false := by
        intro message mem
        rw [List.getLast?_concat, Option.mem_some] at mem
        rw [← mem, assistant]
      exact .inr ⟨other, appendToolCall_fresh _ other tool⟩

theorem bare_appendToolCall (tool : ToolCallOut) :
    (appendToolCallToLastAssistant messages tool).map MessageOut.bare =
      appendToolCallToLastAssistant (messages.map MessageOut.bare) tool := by
  rcases appendToolCall_cases messages tool with ⟨before, last, rfl, assistant, joined⟩ | ⟨other, opened⟩
  · have same : last.bare.isAssistant := assistant
    rw [joined, map_append, map_append, map_singleton, map_singleton, appendToolCall_last same]
    rfl
  · rw [opened, appendToolCall_fresh, map_append]
    · rfl
    · intro last mem
      rw [List.getLast?_map, Option.mem_def, Option.map_eq_some_iff] at mem
      obtain ⟨message, inside, rfl⟩ := mem
      exact other message inside

end Bare

namespace Conversion

def bare (state : Conversion) : Draft := ⟨state.messages.map MessageOut.bare, state.pendingMedia⟩

theorem bare_take (state : Conversion) (item : InputItem) : (state.take item).bare = state.bare.take item := by
  have called (tool : ToolCallOut) (reasoning : Option Str) :
      (state.callTool tool reasoning).bare = state.bare.callTool tool := by
    unfold callTool bare Draft.callTool Draft.flush
    rw [bare_attach, bare_appendToolCall, bare_flush]
  cases item with
  | reasoning text => rfl
  | call tool embedded => exact called tool embedded
  | webSearch tool results embedded =>
    rw [Draft.take, ← called tool none]
    simp [take, push, Draft.push, bare]
    rfl
  | output callId content media =>
    simp [take, bare, Draft.take]
    rfl
  | assistant content embedded =>
    simp [take, bare, Draft.take, Draft.push]
    rfl
  | boundary role content =>
    unfold take otherTurn bare Draft.take Draft.flush
    dsimp only
    rw [map_append, bare_flush, bare_attach]
    rfl
  | skipped => rfl

theorem bare_run (items : List InputItem) (state : Conversion) :
    (items.foldl take state).bare = items.foldl Draft.take state.bare := by
  induction items generalizing state with
  | nil => rfl
  | cons item items ih => rw [foldl_cons, foldl_cons, ih, bare_take]

theorem bare_finish (state : Conversion) : state.finish.map MessageOut.bare = state.bare.flush := by
  have filled : MessageOut.bare ∘ MessageOut.backfilled = MessageOut.bare := funext bare_backfilled
  unfold finish backfillToolCallReasoningPlaceholders
  rw [map_map, filled, bare_attach, bare_flush]
  rfl

end Conversion

end LlmGateway
