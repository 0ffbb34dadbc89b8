import LlmGateway.Chat.ModelFamily
import LlmGateway.Chat.ToolName
import LlmGateway.Responses.ConvertRequest

namespace LlmGateway

open Json Text

def reasoningVendorHints : List Str := ["deepseek".toList, "mimo".toList, "xiaomimimo".toList]

def billingHeaderPrefix : Str := "x-anthropic-billing-header:".toList

def isLineEnd (c : Char) : Bool := c == '\n' || c == '\r'

def stripBillingHeader (text : Str) : Str :=
  let start := trimStart text
  if billingHeaderPrefix.isPrefixOf start then
    ((start.drop billingHeaderPrefix.length).dropWhile fun c => !isLineEnd c).dropWhile isLineEnd
  else text

def systemToText (system : Option Json) : Option Str :=
  match system with
  | none => none
  | some system =>
    let text := match system with
      | .str text => stripBillingHeader text
      | .arr blocks =>
        joinLines (((blocks.filterMap (getStr · "text")).map stripBillingHeader).filter fun text => !isBlank text)
      | other => other.print
    if isBlank text then none else some text

def resolveReasoningEffort (req : Json) : Option Str :=
  match ((req.get "output_config").bind (get · "effort")).bind asStr with
  | some effort =>
    match String.ofList effort with
    | "low" => some "low".toList
    | "medium" => some "medium".toList
    | "high" => some "high".toList
    | "max" => some "xhigh".toList
    | _ => none
  | none =>
    (req.get "thinking").bind fun thinking =>
      match String.ofList ((thinking.getStr "type").getD []) with
      | "adaptive" => some "xhigh".toList
      | "enabled" =>
        match (thinking.get "budget_tokens").bind asU64 with
        | some budget =>
          some (if budget < 4000 then "low".toList else if budget < 16000 then "medium".toList else "high".toList)
        | none => some "high".toList
      | _ => none

def reqStopSequences (req : Json) : Option Json :=
  match ((req.get "stop_sequences").bind asArr) with
  | none => none
  | some given =>
    let stops := (given.filterMap asStr).filter fun stop => !stop.isEmpty
    if stops.isEmpty then none else some (.arr (stops.map .str))

def requiresReasoningContent [Lowercase] (model baseUrl : Str) : Bool :=
  let hinted := fun text => reasoningVendorHints.any fun hint => containsWord text hint
  hinted (Lowercase.lower model) || ((Lowercase.lower baseUrl).splitOn '/').any hinted

def chatMessage (role : Str) (content : Json) : Json := .obj [("content", content), ("role", .str role)]

def mediaBlockToChatPart (block : Json) : Option Json :=
  (chatMediaPart block).filter fun part =>
    part.getStr "type" = some "image_url".toList || part.getStr "type" = some "file".toList ||
      part.getStr "type" = some "input_audio".toList

def historyToolCall (id name : Str) (input : Json) : Json :=
  .obj [("function", .obj [("arguments", .str (canonicalJsonString input)), ("name", .str name)]),
    ("id", .str id), ("type", .str "function".toList)]

/-- What the blocks of a message have given so far. -/
structure BlockTurn where
  toolMessages : List Json
  textParts : List Json
  toolCalls : List Json
  reasoning : List Str
  pendingMedia : List Json

def BlockTurn.empty : BlockTurn := ⟨[], [], [], [], []⟩

def BlockTurn.withPart (turn : BlockTurn) (part : Json) : BlockTurn :=
  { turn with textParts := turn.textParts ++ [part] }

def isPlainPart (part : Json) : Bool := part.getStr "type" = some "text".toList

def assistantContent (turn : BlockTurn) : Json :=
  if turn.textParts.isEmpty then .null
  else if turn.textParts.all isPlainPart then .str (turn.textParts.filterMap (getStr · "text")).flatten
  else .arr turn.textParts

/-- The fields of the message in the order of their names. -/
def assistantFields (turn : BlockTurn) (vendorRequiresReasoning : Bool) : List (String × Option Json) :=
  let calls := !turn.toolCalls.isEmpty
  let reasoning := if turn.reasoning.isEmpty then toolCallReasoningPlaceholder else joinLines turn.reasoning
  [("content", some (assistantContent turn)),
    ("reasoning_content", if calls && vendorRequiresReasoning then some (.str reasoning) else none),
    ("role", some (.str assistantRole)),
    ("tool_calls", if calls then some (.arr turn.toolCalls) else none)]

def assistantMessages (turn : BlockTurn) (vendorRequiresReasoning : Bool) : List Json :=
  if turn.textParts.isEmpty && turn.toolCalls.isEmpty then []
    else [.record (assistantFields turn vendorRequiresReasoning)]

def userMessages (turn : BlockTurn) : List Json :=
  let content :=
    match turn.textParts with
    | [part] => if isPlainPart part then (part.get "text").getD .null else .arr [part]
    | parts => .arr parts
  (if turn.pendingMedia.isEmpty then [] else [chatMessage userRole (.arr turn.pendingMedia)]) ++
    (if turn.textParts.isEmpty then [] else [chatMessage userRole content])

def messageRole (message : Json) : Str := (message.getStr "role").getD userRole

section Blocks

variable [FloatText]

def toolResultContentWithMedia (content : Option Json) (toolUseId : Str) : Str × List Json :=
  match content with
  | none => ([], [])
  | some content =>
    let split := splitToolOutput content
    if split.media.isEmpty then (split.text, [])
    else
      let label := if isBlank toolUseId then [] else [textPart (mediaLabel toolUseId)]
      (split.text, label ++ split.media)

def convertBlock (turn : BlockTurn) (block : Json) : Except Str BlockTurn :=
  match String.ofList ((block.getStr "type").getD []) with
  | "text" =>
    match block.getStr "text" with
    | some text => .ok (if isBlank text then turn else turn.withPart (textPart text))
    | none => .ok turn
  | "image" | "document" | "audio" =>
    match mediaBlockToChatPart block with
    | some part => .ok (turn.withPart part)
    | none => .ok turn
  | "tool_use" =>
    let id := (block.getStr "id").getD []
    let name := (block.getStr "name").getD []
    if id.isEmpty || name.isEmpty then .error "tool_use block missing id or name".toList
    else .ok { turn with
      toolCalls := turn.toolCalls ++ [historyToolCall id name ((block.get "input").getD (.obj []))] }
  | "tool_result" =>
    let toolUseId := (block.getStr "tool_use_id").getD []
    let (content, media) := toolResultContentWithMedia (block.get "content") toolUseId
    let message :=
      Json.obj [("content", .str content), ("role", .str "tool".toList), ("tool_call_id", .str toolUseId)]
    .ok { turn with toolMessages := turn.toolMessages ++ [message], pendingMedia := turn.pendingMedia ++ media }
  | "thinking" =>
    match block.getStr "thinking" with
    | some thinking =>
      .ok (if thinking.isEmpty then turn else { turn with reasoning := turn.reasoning ++ [thinking] })
    | none => .ok turn
  | "redacted_thinking" => .ok { turn with reasoning := turn.reasoning ++ ["[redacted thinking]".toList] }
  | _ => .ok (turn.withPart (textPart (canonicalJsonString block)))

def convertBlocksToChat (role : Str) (blocks : List Json) (vendorRequiresReasoning : Bool) :
    Except Str (List Json) :=
  (blocks.foldlM convertBlock .empty).map fun turn => turn.toolMessages ++
    if role = assistantRole then assistantMessages turn vendorRequiresReasoning else userMessages turn

def convertMessageToChat (vendorRequiresReasoning : Bool) (message : Json) : Except Str (List Json) :=
  match message.get "content" with
  | some (.arr blocks) => convertBlocksToChat (messageRole message) blocks vendorRequiresReasoning
  | some content => .ok [chatMessage (messageRole message) content]
  | none => .ok [chatMessage (messageRole message) .null]

end Blocks

def mapToolChoiceMode (mode : Str) : Json :=
  if mode = "any".toList then .str "required".toList else .str mode

def convertToolChoice (choice : Option Json) : Option Json :=
  match choice with
  | none => none
  | some (.str mode) => some (mapToolChoiceMode mode)
  | some (.obj fields) =>
    let type := (fields.lookup "type").bind asStr
    if type = some "tool".toList then
      ((fields.lookup "name").bind asStr).map fun name =>
        .obj [("function", .obj [("name", .str name)]), ("type", .str "function".toList)]
    else
      match type with
      | some mode =>
        if mode = "auto".toList ∨ mode = "none".toList ∨ mode = "any".toList then some (mapToolChoiceMode mode)
        else some (.obj fields)
      | none => some (.obj fields)
  | some other => some other

/-- Some upstreams reject the format of URIs in a schema. -/
def stripUriFormats : Json → Json
  | .obj fields =>
    let kept := if (fields.lookup "format").bind asStr = some "uri".toList then removeField "format" else id
    .obj (kept (stripFields fields))
  | .arr items => .arr (stripItems items)
  | other => other
where
  stripItems : List Json → List Json
    | [] => []
    | item :: rest => stripUriFormats item :: stripItems rest
  stripFields : Fields → Fields
    | [] => []
    | (key, value) :: rest => (key, stripUriFormats value) :: stripFields rest

def toolParameters (schema : Json) : Json :=
  match schema with
  | .obj fields =>
    let typed := if (fields.lookup "type").bind asStr = some "object".toList then fields
      else insertField "type" (.str "object".toList) fields
    let complete := if (typed.lookup "properties").isSome then typed else insertField "properties" (.obj []) typed
    stripUriFormats (.obj complete)
  | _ => .obj [("properties", .obj []), ("type", .str "object".toList)]

section Tools

variable [ShortSha256]

def flattenChatToolName (name : Str) : Str := shortName name

def toolFields (tool : Json) (name : Str) : List (String × Option Json) :=
  [("description", (tool.getStr "description").map .str),
    ("name", some (.str (flattenChatToolName name))),
    ("parameters", some (toolParameters ((tool.get "input_schema").getD (.obj []))))]

def convertTool (tool : Json) : Option Json :=
  let name := (tool.getStr "name").getD []
  if tool.getStr "type" = some "BatchTool".toList ∨ name.isEmpty then none
  else some (.obj [("function", .record (toolFields tool name)), ("type", .str "function".toList)])

def convertTools (tools : Option Json) : Option (List Json) :=
  (tools.bind asArr).map (·.filterMap convertTool)

variable [FloatText] [Lowercase]

def disablesParallelTools (choice : Option Json) : Bool :=
  (choice.bind (get · "disable_parallel_tool_use")).bind asBool = some true

/-- The fields of the chat request in the order of their names. -/
def chatRequestFields (req : Json) (gatingModel : Str) (model : Str) (messages : List Json) :
    List (String × Option Json) :=
  let maxTokens := ((req.get "max_tokens").bind asU64).filter fun max => 0 < max
  let maxField := maxTokens.map fun max => Json.num (.int max)
  let oSeries := isOpenaiOSeries (bareModel gatingModel)
  let tools := ((convertTools (req.get "tools")).filter fun tools => !tools.isEmpty).map Json.arr
  let choice := req.get "tool_choice"
  let given := fun key => (req.get key).filter fun value => !value.isNull
  let user := ((req.get "metadata").bind (getOr · "user_id" "user")).bind asStr
  [("max_completion_tokens", if oSeries then maxField else none),
    ("max_tokens", if oSeries then none else maxField),
    ("messages", some (.arr messages)),
    ("model", some (.str model)),
    ("parallel_tool_calls", if tools.isSome && disablesParallelTools choice then some (.bool false) else none),
    ("reasoning_effort",
      if supportsReasoningEffort gatingModel then (resolveReasoningEffort req).map .str else none),
    ("stop", reqStopSequences req),
    ("stream", ((req.get "stream").bind asBool).map .bool),
    ("temperature", given "temperature"),
    ("tool_choice", if tools.isSome then convertToolChoice choice else none),
    ("tools", tools),
    ("top_p", given "top_p"),
    ("user", user.map .str)]

def convertMessages (req : Json) (vendorRequiresReasoning : Bool) : Except Str (List Json) :=
  match (req.get "messages").bind asArr with
  | none => .error "missing 'messages' field".toList
  | some given =>
    let system := (systemToText (req.get "system")).map (chatMessage "system".toList ∘ .str)
    (given.mapM (convertMessageToChat vendorRequiresReasoning)).map fun messages =>
      system.toList ++ messages.flatten

def anthropicRequestToChat (req : Json) (gatingModel baseUrl : Str) : Except Str Json :=
  match (req.getStr "model").filter fun model => !model.isEmpty with
  | none => .error "missing 'model' field".toList
  | some model =>
    (convertMessages req (requiresReasoningContent gatingModel baseUrl)).map fun messages =>
      .record (chatRequestFields req gatingModel model messages)

end Tools

end LlmGateway
