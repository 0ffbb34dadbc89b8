import LlmGateway.Chat.InlineThink
import LlmGateway.Responses.ConvertRequest

namespace LlmGateway

open Json Text

inductive ResponseStatus
  | inProgress
  | completed
  | incomplete
  | failed
  deriving DecidableEq

def ResponseStatus.text : ResponseStatus → Str
  | inProgress => "in_progress".toList
  | completed => "completed".toList
  | incomplete => "incomplete".toList
  | failed => "failed".toList

structure ResponsesOutputContentOut where
  type : Str
  text : Str
  refusal : Str

structure SummaryPartOut where
  type : Str
  text : Str

/-- An output item of a response. -/
structure ResponsesOutputOut where
  type : Str
  id : Str
  status : ResponseStatus
  role : Str
  content : List ResponsesOutputContentOut
  summary : List SummaryPartOut
  callId : Option Str
  name : Option Str
  ns : Option Str
  arguments : Option Json
  reasoningContent : Option Str
  query : Option Str
  input : Option Str
  execution : Option Str

def unlessEmpty (text : Str) : Option Str := if text.isEmpty then none else some text

def ResponsesOutputContentOut.toJson (part : ResponsesOutputContentOut) : Json :=
  .record [("annotations", some (.arr [])), ("refusal", (unlessEmpty part.refusal).map .str),
    ("text", some (.str part.text)), ("type", some (.str part.type))]

def SummaryPartOut.toJson (part : SummaryPartOut) : Json :=
  .obj [("text", .str part.text), ("type", .str part.type)]

namespace ResponsesOutputOut

/-- The fields of an item; those that are absent are not written. -/
def entries (item : ResponsesOutputOut) : List (String × Option Json) :=
  [("arguments", item.arguments), ("call_id", item.callId.map .str),
    ("content", some (.arr (item.content.map ResponsesOutputContentOut.toJson))),
    ("execution", item.execution.map .str), ("id", (unlessEmpty item.id).map .str), ("input", item.input.map .str),
    ("name", item.name.map .str), ("namespace", item.ns.map .str), ("quality", some (.str [])),
    ("query", item.query.map .str), ("reasoning_content", item.reasoningContent.map .str),
    ("role", some (.str item.role)), ("size", some (.str [])), ("status", some (.str item.status.text)),
    ("summary", if item.summary.isEmpty then none else some (.arr (item.summary.map SummaryPartOut.toJson))),
    ("type", some (.str item.type))]

def toJson (item : ResponsesOutputOut) : Json := .record item.entries

theorem get_toJson (item : ResponsesOutputOut) (key : String) :
    item.toJson.get key = (item.entries.lookup key).join := by
  refine get_record ?_
  simp [entries]

end ResponsesOutputOut

def outputItem (type id : Str) (status : ResponseStatus) (content : List ResponsesOutputContentOut) :
    ResponsesOutputOut :=
  ⟨type, id, status, [], content, [], none, none, none, none, none, none, none, none⟩

def finishReasonToStatus (finishReason : Str) : ResponseStatus × Option Str :=
  let reason := trim finishReason
  if reason = "length".toList ∨ reason = "max_tokens".toList ∨ reason = "token_limit".toList then
    (.incomplete, some "max_output_tokens".toList)
  else if reason = "content_filter".toList then (.incomplete, some "content_filter".toList)
  else (.completed, none)

/-- The text of the parts of a message, and the refusals among them. -/
def addTextOrRefusal (found : Str × List Str) (part : Json) : Str × List Str :=
  let type := (part.getStr "type").map String.ofList
  if type = some "text" ∨ type = some "output_text" then (found.1 ++ (part.getStr "text").getD [], found.2)
  else if type = some "refusal" then
    match ((part.get "refusal").or (part.get "text")).bind Json.asStr with
    | some refusal => if isBlank refusal then found else (found.1, found.2 ++ [refusal])
    | none => found
  else found

def extractMessageTextAndRefusals (message : Json) : Str × List Str :=
  let (content, refusals) := match message.get "content" with
    | some (.str text) => (text, [])
    | some (.arr parts) => parts.foldl addTextOrRefusal ([], [])
    | _ => ([], [])
  if content.isEmpty then ((message.getStr "refusal").getD [], refusals) else (content, refusals)

def extractMessageReasoning (message : Json) : Str :=
  match (message.getStr "reasoning_content").or (message.getStr "reasoning") with
  | some text => text
  | none =>
    ['\n'].intercalate ((((message.get "reasoning_details").bind Json.asArr).getD []).filterMap
      (Json.getStr · "text"))

def separateThink (text reasoning : Str) : Str × Str :=
  match splitLeadingThink text with
  | some (think, rest) => (trim rest, if reasoning.isEmpty then think else reasoning ++ '\n' :: think)
  | none => (text, reasoning)

def reasoningOutput (id : Str) (status : ResponseStatus) (reasoning : Str) : ResponsesOutputOut :=
  { outputItem "reasoning".toList (id ++ "_reasoning_0".toList) status [] with
    summary := [⟨"summary_text".toList, reasoning⟩] }

def refusalPart (refusal : Str) : ResponsesOutputContentOut := ⟨"refusal".toList, [], refusal⟩

def messageOutput (id : Str) (status : ResponseStatus) (text : Str) (refusals : List Str) : ResponsesOutputOut :=
  { outputItem "message".toList (id ++ "_msg_0".toList) status
      (⟨"output_text".toList, text, []⟩ :: refusals.map refusalPart) with
    role := assistantRole }

def toolCallFunction (call : Json) (key : String) : Option Json := (call.get "function").bind (Json.get · key)

def functionName (call : Json) : Option Str := (toolCallFunction call "name").bind asStr

section Convert

variable [FloatText]

def customToolInputFromChatArguments (arguments : Str) : Str :=
  if isBlank arguments then []
  else
    match parse arguments with
    | some (.obj fields) => ((fields.lookup "input").bind Json.asStr).getD arguments
    | _ => arguments

def parseToolArgumentsObject (arguments : Str) : Json :=
  if isBlank arguments then .obj []
  else
    match parse arguments with
    | some (.obj fields) => .obj fields
    | _ => .obj [("query", .str arguments)]

/-- A tool call of the upstream as an output item of the kind that the request declares. -/
def chatToolCallToResponsesOutput (call : Json) (responseId : Str) (index : Nat) (status : ResponseStatus)
    (reasoning : Option Str) (ctx : ToolContext) : ResponsesOutputOut :=
  let callId := ((call.getStr "id").bind nonBlank).getD (responseId ++ "_call_".toList ++ Nat.toDigits 10 index)
  let toolType := (call.getStr "type").getD "function".toList
  let name := ((toolCallFunction call "name").bind Json.asStr).getD []
  let arguments :=
    ((toolCallFunction call "arguments").map fun value =>
      canonicalizeJsonStringIfParseable (argumentsString value)).getD []
  let item : ResponsesOutputOut :=
    { outputItem "function_call".toList ("fc_".toList ++ callId) status [] with
      callId := some callId
      name := some name
      arguments := some (.str arguments)
      reasoningContent := reasoning.filter fun text => !isBlank text }
  match ctx.lookup name with
  | some ⟨.custom, _, _⟩ =>
    { item with
      type := "custom_tool_call".toList
      id := "ctc_".toList ++ callId
      arguments := none
      input := some (customToolInputFromChatArguments arguments) }
  | some ⟨.toolSearch, _, _⟩ =>
    { item with
      type := "tool_search_call".toList
      id := []
      name := none
      arguments := some (parseToolArgumentsObject arguments)
      execution := some "client".toList }
  | some ⟨.namespaced, name, ns⟩ => { item with name := some name, ns }
  | _ =>
    { item with type := if toolType.isEmpty ∨ toolType = "function".toList then "function_call".toList
      else toolType }

def namedToolCall (call : Json) : Bool := (((toolCallFunction call "name").bind Json.asStr).bind nonBlank).isSome

def toolOutputs (calls : List Json) (id : Str) (status : ResponseStatus) (reasoning : Str)
    (ctx : ToolContext) : List ResponsesOutputOut :=
  (calls.zipIdx.filter fun call => namedToolCall call.1).map fun call =>
    chatToolCallToResponsesOutput call.1 id call.2 status (nonBlank reasoning) ctx

/-- The call in the older form, when no call of the newer one was made. -/
def legacyToolOutput (message : Json) (output : List ResponsesOutputOut) (id : Str) (status : ResponseStatus)
    (reasoning : Str) (ctx : ToolContext) : List ResponsesOutputOut :=
  if output.all fun item => item.type ≠ "function_call".toList ∧ item.type ≠ "custom_tool_call".toList then
    match message.get "function_call" with
    | none => []
    | some call =>
      match (call.getStr "name").bind nonBlank with
      | none => []
      | some name =>
        let arguments := ((call.get "arguments").map argumentsString).getD []
        let legacy := Json.obj [("function", .obj [("arguments", .str arguments), ("name", .str name)]),
          ("id", .str ((call.getStr "id").getD [])), ("type", .str "function".toList)]
        [chatToolCallToResponsesOutput legacy id output.length status (nonBlank reasoning) ctx]
  else []

/-- The answer to a request that was converted. -/
structure ResponsesResponseOut where
  id : Str
  createdAt : I64
  status : ResponseStatus
  error : Option (Str × Str)
  incompleteReason : Option Str
  model : Str
  output : List ResponsesOutputOut

def firstChoice (resp : Json) : Option Json :=
  match resp.get "choices" with
  | some (.arr (choice :: _)) => some choice
  | some (.obj fields) => fields.lookup "0"
  | _ => none

def droppedToolError : Str × Str :=
  ("upstream_tool_call_dropped".toList,
    "upstream returned tool_calls without function name and no other output".toList)

def messageOutputs (message : Json) (id : Str) (status : ResponseStatus) (ctx : ToolContext) :
    List ResponsesOutputOut :=
  let (rawText, partRefusals) := extractMessageTextAndRefusals message
  let (text, reasoning) := separateThink rawText (extractMessageReasoning message)
  let refusals := ((message.getStr "refusal").filter fun refusal => !isBlank refusal).toList ++ partRefusals
  let output := (if reasoning.isEmpty then [] else [reasoningOutput id status reasoning]) ++
    (if text.isEmpty && partRefusals.isEmpty then [] else [messageOutput id status text refusals]) ++
    toolOutputs (((message.get "tool_calls").bind Json.asArr).getD []) id status reasoning ctx
  output ++ legacyToolOutput message output id status reasoning ctx

def chatResponseToResponses (resp : Json) (id : Str) (fallbackCreated : I64) (ctx : ToolContext) :
    ResponsesResponseOut :=
  let finishReason := ((firstChoice resp).bind (Json.getStr · "finish_reason")).getD []
  let (status, incompleteReason) := finishReasonToStatus finishReason
  let outputStatus := if status = .incomplete then .incomplete else .completed
  let message := ((firstChoice resp).bind (Json.get · "message")).getD .null
  let output := messageOutputs message id outputStatus ctx
  let dropped := (((message.get "tool_calls").bind Json.asArr).getD []).any fun call => !namedToolCall call
  let status := if dropped && output.isEmpty && status ≠ .incomplete then .failed else status
  { id
    createdAt := ((resp.get "created").bind Json.asI64).getD fallbackCreated
    status
    error := if status = .failed then some droppedToolError else none
    incompleteReason
    model := (resp.getStr "model").getD []
    output }

end Convert

end LlmGateway
