import LlmGateway.Chat.ToolMedia
import LlmGateway.Responses.ToolContext

namespace LlmGateway

open Json Text

structure FunctionOut where
  description : Str
  name : Str
  parameters : Option Json
  strict : Option Json
  arguments : Str

structure ToolCallOut where
  id : Str
  type : Str
  function : Option FunctionOut

/-- A message of the chat request. -/
structure MessageOut where
  role : Str
  content : Option Json
  toolCalls : List ToolCallOut
  toolCallId : Option Str
  reasoningContent : Option Str

def assistantRole : Str := "assistant".toList

def userRole : Str := "user".toList

def plainMessage (role : Str) (content : Json) : MessageOut := ⟨role, some content, [], none, none⟩

def toolMessage (callId : Str) (content : Json) : MessageOut := ⟨"tool".toList, some content, [], some callId, none⟩

def toolCallOf (id name arguments : Str) : ToolCallOut :=
  ⟨id, "function".toList, some ⟨[], name, none, none, arguments⟩⟩

def isBlank (text : Str) : Bool := (trim text).isEmpty

theorem nonBlank_of_filled {text : Str} (filled : isBlank text = false) : nonBlank text = some (trim text) :=
  nonBlank_eq_some_iff.mpr ⟨rfl, filled⟩

def rawPresent (value : Option Json) : Option Json := value.filter fun value => !value.isNull

def jsonTypeName : Json → Str
  | .null => "null".toList
  | .bool _ => "boolean".toList
  | .num _ => "number".toList
  | .str _ => "string".toList
  | .arr _ => "array".toList
  | .obj _ => "object".toList

def argumentsString : Json → Str
  | .str text => text
  | .null => []
  | other => other.print

def instructionsText : Json → Str
  | .str text => text
  | .arr parts => "\n\n".toList.intercalate (parts.filterMap (Json.getStr · "text"))
  | other => other.print

def normalizeInputRole (role : Option Str) : Str :=
  match role with
  | none => userRole
  | some role =>
    if trim role = userRole ∨ trim role = assistantRole ∨ trim role = "system".toList then role else userRole

def callId (item : Json) : Str :=
  (((item.getStr "call_id").bind nonBlank).or ((item.getStr "id").bind nonBlank)).getD []

def firstNonBlank (json : Json) (keys : List String) : Option Str :=
  keys.findSome? fun key => (json.getStr key).filter fun text => !isBlank text

def reasoningItemText (item : Json) : Option Str :=
  match firstNonBlank item ["reasoning_content", "content", "text"] with
  | some text => some text
  | none =>
    match item.get "summary" with
    | some (.str text) => if isBlank text then none else some text
    | some (.arr parts) =>
      let texts := (parts.filterMap fun part =>
        match part with
        | .str text => some text
        | .obj fields => ((fields.lookup "text").or (fields.lookup "content")).bind Json.asStr
        | _ => none).filter fun text => !isBlank text
      if texts.isEmpty then none else some ("\n\n".toList.intercalate texts)
    | _ => none

/-- The reasoning that a tool call carries with it. -/
def itemEmbeddedReasoning (item : Json) : Option Str :=
  let field := ["reasoning_content", "reasoning"].findSome? fun key =>
    match item.get key with
    | some (.str text) => if isBlank text then none else some text
    | some (.obj fields) => firstNonBlank (.obj fields) ["content", "text", "summary"]
    | _ => none
  match field with
  | some text => some text
  | none =>
    let details :=
      ((((item.get "reasoning_details").bind Json.asArr).getD []).filterMap (Json.getStr · "text")).filter
        fun text => !isBlank text
    if details.isEmpty then none else some (['\n'].intercalate details)

def appendPendingReasoning (pending : Option Str) (text : Option Str) : Option Str :=
  match text.filter fun text => !isBlank text with
  | none => pending
  | some text =>
    match pending with
    | some held => some (held ++ '\n' :: text)
    | none => some text

def MessageOut.withReasoning (message : MessageOut) (reasoning : Str) : MessageOut :=
  match message.reasoningContent with
  | some existing =>
    { message with reasoningContent := some (if isBlank existing then reasoning
      else existing ++ '\n' :: reasoning) }
  | none => { message with reasoningContent := some reasoning }

def MessageOut.isAssistant (message : MessageOut) : Bool := message.role = assistantRole

def modifyFirst {α : Type*} (p : α → Bool) (f : α → α) : List α → List α
  | [] => []
  | x :: rest => if p x then f x :: rest else x :: modifyFirst p f rest

def attachReasoningToLastAssistant (messages : List MessageOut) (reasoning : Option Str) : List MessageOut :=
  match reasoning.filter fun text => !isBlank text with
  | none => messages
  | some text => (modifyFirst MessageOut.isAssistant (·.withReasoning text) messages.reverse).reverse

def flushPendingMedia (messages : List MessageOut) (media : List Json) : List MessageOut :=
  if media.isEmpty then messages else messages ++ [plainMessage userRole (.arr media)]

def toolCallReasoningPlaceholder : Str := "tool call".toList

def MessageOut.backfilled (message : MessageOut) : MessageOut :=
  if message.isAssistant && !message.toolCalls.isEmpty && isBlank (message.reasoningContent.getD []) then
    { message with reasoningContent := some toolCallReasoningPlaceholder }
  else message

theorem backfilled_isAssistant (message : MessageOut) : message.backfilled.isAssistant = message.isAssistant := by
  unfold MessageOut.backfilled
  split_ifs
  · rfl
  · rfl

def backfillToolCallReasoningPlaceholders (messages : List MessageOut) : List MessageOut :=
  messages.map MessageOut.backfilled

def textPart (text : Str) : Json := .obj [("text", .str text), ("type", .str "text".toList)]

/-- The parts of a chat message, and the one text they are when there is nothing else. -/
structure ChatContent where
  parts : List Json
  text : Str
  onlyText : Bool

def ChatContent.add (content : ChatContent) (raw : Json) : ChatContent :=
  match raw with
  | .obj fields =>
    let type := String.ofList ((raw.getStr "type").getD [])
    if type = "input_text" ∨ type = "output_text" ∨ type = "text" ∨ type = "refusal" then
      let text := (if type = "refusal" then ((raw.get "refusal").or (raw.get "text")).bind Json.asStr
        else raw.getStr "text").getD []
      if text.isEmpty then content
      else
        { content with
          parts := content.parts ++ [textPart text]
          text := if content.text.isEmpty then text else content.text ++ '\n' :: text }
    else if type = "input_image" ∨ type = "input_file" ∨ type = "input_audio" ∨ type = "input_video" ∨
        type = "image_url" ∨ type = "file" then
      match chatMediaPart raw with
      | some media => { content with parts := content.parts ++ [media], onlyText := false }
      | none => content
    else { content with parts := content.parts ++ [.obj fields], onlyText := false }
  | other => { content with parts := content.parts ++ [other], onlyText := false }

def contentPartsToChatContent (parts : List Json) : Json :=
  let content := parts.foldl ChatContent.add ⟨[], [], true⟩
  if content.onlyText then .str content.text else .arr content.parts

def inputContentToChatContent : Json → Json
  | .arr parts => contentPartsToChatContent parts
  | other => other

def appendToolCallToLastAssistant (messages : List MessageOut) (tool : ToolCallOut) : List MessageOut :=
  match messages.getLast? with
  | some last =>
    if last.isAssistant then messages.dropLast ++ [{ last with toolCalls := last.toolCalls ++ [tool] }]
    else messages ++ [⟨assistantRole, none, [tool], none, none⟩]
  | none => [⟨assistantRole, none, [tool], none, none⟩]

/-- What is carried from item to item. -/
structure Conversion where
  messages : List MessageOut
  pendingReasoning : Option Str
  pendingMedia : List Json

namespace Conversion

def callTool (state : Conversion) (tool : ToolCallOut) (reasoning : Option Str) : Conversion :=
  let messages := appendToolCallToLastAssistant (flushPendingMedia state.messages state.pendingMedia) tool
  ⟨attachReasoningToLastAssistant messages (appendPendingReasoning state.pendingReasoning reasoning), none, []⟩

def otherTurn (state : Conversion) (message : MessageOut) : Conversion :=
  let messages := attachReasoningToLastAssistant state.messages state.pendingReasoning
  ⟨flushPendingMedia messages state.pendingMedia ++ [message], none, []⟩

def withMedia (state : Conversion) (callId : Str) (blank : Bool) (media : List Json) : Conversion :=
  if media.isEmpty then state
  else
    let label := if blank then [] else [textPart (mediaLabel callId)]
    { state with pendingMedia := state.pendingMedia ++ label ++ media }

def push (state : Conversion) (message : MessageOut) : Conversion :=
  { state with messages := state.messages ++ [message] }

end Conversion

section Convert

variable [FloatText] [ShortSha256]

def functionCallItemToChatToolCall (item : Json) (ctx : ToolContext) : Except Str ToolCallOut :=
  let name := trim ((item.getStr "name").getD [])
  if name.isEmpty then .error "function_call item is missing name".toList
  else
    let ns := (item.getStr "namespace").bind nonBlank
    let arguments := canonicalizeJsonStringIfParseable (argumentsString ((item.get "arguments").getD .null))
    .ok (toolCallOf (callId item) (ctx.chatNameFor name ns) (if isBlank arguments then "{}".toList else arguments))

def toolSearchCallItemToChatToolCall (item : Json) : ToolCallOut :=
  toolCallOf (callId item) toolSearchProxyName (((item.get "arguments").map canonicalJsonString).getD "{}".toList)

def customToolCallItemToChatToolCall (item : Json) : ToolCallOut :=
  toolCallOf (callId item) (trim ((item.getStr "name").getD []))
    (canonicalJsonString (.obj [("input", (item.get "input").getD (.str []))]))

def toolOutputToChatContent (output : Option Json) (callId : Str) (state : Conversion) : Json × Conversion :=
  match rawPresent output with
  | none => (.str [], state)
  | some output =>
    let split := splitToolOutput output
    (.str split.text, state.withMedia callId (isBlank callId) split.media)

def webSearchCallItem (item : Json) (state : Conversion) : Conversion :=
  let query := (item.getStr "query").getD []
  let tool := toolCallOf (callId item) "web_search".toList (Json.obj [("query", .str query)]).print
  let results := ((item.get "results").map canonicalJsonString).getD []
  (state.callTool tool none).push (toolMessage (callId item) (.str results))

/-- One input item gives any number of messages. -/
def inputItemToChatMessages (ctx : ToolContext) (state : Conversion) (item : Json) : Except Str Conversion :=
  let type := String.ofList (trim ((item.getStr "type").getD []))
  if type = "reasoning" then
    .ok { state with pendingReasoning := appendPendingReasoning state.pendingReasoning (reasoningItemText item) }
  else if type = "function_call" then
    (functionCallItemToChatToolCall item ctx).map fun tool => state.callTool tool (itemEmbeddedReasoning item)
  else if type = "web_search_call" then .ok (webSearchCallItem item state)
  else if type = "custom_tool_call" then
    .ok (state.callTool (customToolCallItemToChatToolCall item) (itemEmbeddedReasoning item))
  else if type = "tool_search_call" then
    .ok (state.callTool (toolSearchCallItemToChatToolCall item) (itemEmbeddedReasoning item))
  else if type = "function_call_output" then
    let callId := trim ((item.getStr "call_id").getD [])
    let (content, state) := toolOutputToChatContent (item.get "output") callId state
    .ok (state.push (toolMessage callId content))
  else if type = "custom_tool_call_output" ∨ type = "tool_search_output" then
    let callId := trim ((item.getStr "call_id").getD [])
    let split := splitToolOutput item
    .ok ((state.withMedia callId callId.isEmpty split.media).push (toolMessage callId (.str split.text)))
  else if type = "input_text" ∨ type = "output_text" ∨ type = "input_image" ∨ type = "input_file" ∨
      type = "input_audio" ∨ type = "input_video" then
    let role := normalizeInputRole (item.getStr "role")
    .ok (state.otherTurn (plainMessage role (contentPartsToChatContent [item])))
  else
    match item.get "content" with
    | none => .ok state
    | some content =>
      let role := normalizeInputRole (item.getStr "role")
      let content := inputContentToChatContent content
      if role = assistantRole then
        .ok { (state.push { plainMessage role content with
          reasoningContent := state.pendingReasoning.filter fun text => !isBlank text }) with pendingReasoning :=
            none }
      else .ok (state.otherTurn (plainMessage role content))

def Conversion.finish (state : Conversion) : List MessageOut :=
  backfillToolCallReasoningPlaceholders
    (attachReasoningToLastAssistant (flushPendingMedia state.messages state.pendingMedia) state.pendingReasoning)

def systemMessages (req : Json) : List MessageOut :=
  match rawPresent (req.get "instructions") with
  | none => []
  | some instructions =>
    let text := instructionsText instructions
    if isBlank text then [] else [plainMessage "system".toList (.str text)]

def requestMessagesToChat (req : Json) (ctx : ToolContext) : Except Str (List MessageOut) :=
  let start : Conversion := ⟨systemMessages req, none, []⟩
  match rawPresent (req.get "input") with
  | none => .ok start.finish
  | some (.str text) => .ok (start.push (plainMessage userRole (.str text))).finish
  | some (.arr items) => (items.foldlM (inputItemToChatMessages ctx) start).map Conversion.finish
  | some (.obj fields) => (inputItemToChatMessages ctx start (.obj fields)).map Conversion.finish
  | some other => .error ("unsupported responses input type \"".toList ++ jsonTypeName other ++ ['"'])

end Convert

end LlmGateway
