import LlmGateway.Chat.ModelFamily
import LlmGateway.Responses.ToolExport

namespace LlmGateway

open Json Text

def FunctionOut.toJson (function : FunctionOut) : Json :=
  .record [("arguments", if function.arguments.isEmpty then none else some (.str function.arguments)),
    ("description", if function.description.isEmpty then none else some (.str function.description)),
    ("name", some (.str function.name)),
    ("parameters", function.parameters),
    ("strict", function.strict)]

def ToolCallOut.toJson (call : ToolCallOut) : Json :=
  .record [("function", call.function.map FunctionOut.toJson),
    ("id", if call.id.isEmpty then none else some (.str call.id)),
    ("type", some (.str call.type))]

def MessageOut.toJson (message : MessageOut) : Json :=
  .record [("content", message.content),
    ("reasoning_content", message.reasoningContent.map .str),
    ("role", some (.str message.role)),
    ("tool_call_id", message.toolCallId.map .str),
    ("tool_calls", if message.toolCalls.isEmpty then none
      else some (.arr (message.toolCalls.map ToolCallOut.toJson)))]

def asF64 [FloatText] : Json → Option Json
  | .num (.int value) => (FloatText.read (JsonNumber.int value).print).map fun text => .num (.float text)
  | .num (.float text) => some (.num (.float text))
  | _ => none

def maxTokensFields (req : Json) (model : Str) : Option Json × Option Json :=
  let given := fun key => ((req.get key).bind asU64).filter fun n => n ≠ 0
  let limit := ((given "max_output_tokens").or ((given "max_completion_tokens").or (given "max_tokens"))).map
    fun n => Json.num (.int n)
  if isOpenaiOSeries (bareModel model) then (limit, none) else (none, limit)

/-- What a stateless upstream cannot do. -/
def unsupportedFields (req : Json) : List Str :=
  let present := fun key => if (rawPresent (req.get key)).isSome then [key.toList] else []
  present "conversation" ++ (if (previousResponseField req).isSome then ["previous_response_id".toList] else []) ++
    present "prompt" ++ present "context_management"
where
  previousResponseField (req : Json) : Option Str := (req.getStr "previous_response_id").bind nonBlank

def validateUnsupportedFields (req : Json) : Except Str Unit :=
  let unsupported := unsupportedFields req
  if unsupported.isEmpty then .ok ()
  else
    .error ("responses to chat conversion does not support stateful fields: ".toList ++
      ", ".toList.intercalate unsupported ++
      (". The Chat upstream is stateless: resend the full conversation history " ++
        "instead of referencing a previous response (codex clients: disable " ++
        "server-side storage, e.g. 'store' 'false' in model args)").toList)

def namedChoice (chatName : Str) : Json :=
  .obj [("function", .obj [("name", .str chatName)]), ("type", .str "function".toList)]

def requestTextToChatResponseFormat (text : Option Json) : Except Str (Option Json) :=
  match rawPresent text with
  | none => .ok none
  | some (.obj fields) =>
    match fields.lookup "format" with
    | some (.obj format) =>
      let type := trim (((format.lookup "type").bind asStr).getD [])
      .ok (
        if type.isEmpty then none
        else if type = "json_schema".toList then
          some (.obj [("json_schema", .obj format), ("type", .str "json_schema".toList)])
        else some (.obj [("type", .str type)]))
    | _ => .ok none
  | some _ => .error "invalid text config".toList

section Convert

variable [ShortSha256]

def requestToolChoiceToChat (choice : Option Json) (ctx : ToolContext) : Except Str (Option Json) :=
  match rawPresent choice with
  | none => .ok none
  | some (.str mode) => .ok (some (.str mode))
  | some (.obj fields) =>
    let name := trim (((fields.lookup "name").bind asStr).getD [])
    let ns := ((fields.lookup "namespace").bind asStr).bind nonBlank
    .ok (some (
      match String.ofList (((fields.lookup "type").bind asStr).getD []) with
      | "function" => if name.isEmpty then .obj fields else namedChoice (ctx.chatNameFor name ns)
      | "custom" => if name.isEmpty then .obj fields else namedChoice name
      | "tool_search" => namedChoice toolSearchProxyName
      | _ => .obj fields))
  | some _ => .error "invalid tool_choice".toList

variable [Lowercase]

def requestReasoningEffort (req : Json) (gatingModel : Str) : Option Json :=
  (((req.get "reasoning").bind (getStr · "effort")).filter fun effort =>
    !effort.isEmpty && supportsReasoningEffort gatingModel).map fun effort =>
      .str (if effortIsOff effort then "none".toList else effort)

variable [FloatText]

/-- The fields of the chat request in the order of their names. -/
def responsesChatFields (req : Json) (gatingModel model : Str) (messages : List MessageOut)
    (tools : List ToolCallOut) (toolChoice responseFormat : Option Json) : List (String × Option Json) :=
  let raw := fun key => rawPresent (req.get key)
  let text := fun key => ((req.getStr key).filter fun text => !text.isEmpty).map Json.str
  let limits := maxTokensFields req gatingModel
  [("enable_thinking", raw "enable_thinking"),
    ("frequency_penalty", raw "frequency_penalty"),
    ("logit_bias", raw "logit_bias"),
    ("logprobs", raw "logprobs"),
    ("max_completion_tokens", limits.1),
    ("max_tokens", limits.2),
    ("messages", if messages.isEmpty then none else some (.arr (messages.map MessageOut.toJson))),
    ("metadata", raw "metadata"),
    ("model", some (.str model)),
    ("n", raw "n"),
    ("parallel_tool_calls",
      if tools.isEmpty then none else ((req.get "parallel_tool_calls").bind asBool).map .bool),
    ("presence_penalty", raw "presence_penalty"),
    ("prompt_cache_key", text "prompt_cache_key"),
    ("prompt_cache_retention", raw "prompt_cache_retention"),
    ("reasoning_effort", requestReasoningEffort req gatingModel),
    ("response_format", responseFormat.or (raw "response_format")),
    ("safety_identifier", raw "safety_identifier"),
    ("seed", raw "seed"),
    ("service_tier", text "service_tier"),
    ("stop", raw "stop"),
    ("store", raw "store"),
    ("stream", ((req.get "stream").bind asBool).map .bool),
    ("stream_options", raw "stream_options"),
    ("temperature", (req.get "temperature").bind asF64),
    ("thinking_budget", raw "thinking_budget"),
    ("tool_choice", toolChoice),
    ("tools", if tools.isEmpty then none else some (.arr (tools.map ToolCallOut.toJson))),
    ("top_logprobs", raw "top_logprobs"),
    ("top_p", (req.get "top_p").bind asF64),
    ("user", raw "user")]

/-- A Responses request as a chat request. -/
def responsesRequestToChat (req : Json) (gatingModel : Str) : Except Str Json := do
  let model := trim ((req.getStr "model").getD [])
  if model.isEmpty then throw "model is required".toList
  validateUnsupportedFields req
  let ctx := ToolContext.fromRequest req
  let messages ← requestMessagesToChat req ctx
  let tools ← requestToolsToChat (req.get "tools") ctx
  let toolChoice ← if tools.isEmpty then .ok none else requestToolChoiceToChat (req.get "tool_choice") ctx
  let responseFormat ← requestTextToChatResponseFormat (req.get "text")
  return .record (responsesChatFields req gatingModel model messages (tools.map ExportedTool.tool) toolChoice
    responseFormat)

end Convert

end LlmGateway
