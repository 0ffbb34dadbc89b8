import LlmGateway.Lib.Json
import LlmGateway.Lib.Text

namespace LlmGateway

open Text

/-- The usage of an upstream, in the forms of both APIs. -/
structure ChatUsage where
  promptTokens : Option I64
  completionTokens : Option I64
  totalTokens : Option I64
  inputTokens : Option I64
  outputTokens : Option I64
  promptTokensDetails : Option Json
  completionTokensDetails : Option Json
  inputTokensDetails : Option Json
  cacheReadInputTokens : Option I64
  cacheCreationInputTokens : Option I64
  promptCacheHitTokens : Option I64

def detailsI64 (details : Option Json) (key : String) : Option I64 :=
  (details.bind (·.get key)).bind Json.asI64

namespace ChatUsage

def input (usage : ChatUsage) : I64 := (usage.promptTokens.or usage.inputTokens).getD 0

def output (usage : ChatUsage) : I64 := (usage.completionTokens.or usage.outputTokens).getD 0

def cachedTokens (usage : ChatUsage) : I64 :=
  (((usage.cacheReadInputTokens.or (detailsI64 usage.inputTokensDetails "cached_tokens")).or
    (detailsI64 usage.promptTokensDetails "cached_tokens")).or usage.promptCacheHitTokens).getD 0

def cacheWriteTokens (usage : ChatUsage) : I64 :=
  ((usage.cacheCreationInputTokens.or (detailsI64 usage.inputTokensDetails "cache_write_tokens")).or
    (detailsI64 usage.promptTokensDetails "cache_write_tokens")).getD 0

end ChatUsage

structure FunctionDelta where
  name : Option Str
  arguments : Option Str

structure ToolCallDelta where
  index : Option Int
  id : Option Str
  function : Option FunctionDelta

structure ChatStreamDelta where
  content : Option Json
  reasoningContent : Option Str
  reasoning : Option Str
  toolCalls : List ToolCallDelta
  refusal : Option Str

structure ChatStreamChoice where
  delta : ChatStreamDelta
  finishReason : Option Str

/-- A `chat.completion.chunk` of the upstream. -/
structure ChatStreamChunk where
  id : Str
  model : Str
  created : Option I64
  choices : List ChatStreamChoice
  usage : Option ChatUsage
  error : Option Json

def lenientText : Json → Option Str
  | .str text => some text
  | .num value => some value.print
  | .bool value => some (if value then "true".toList else "false".toList)
  | .obj fields => ((fields.lookup "text").or (fields.lookup "content")).bind Json.asStr
  | _ => none

def contentPartText (part : Json) : Str :=
  let type := ((part.get "type").bind Json.asStr).getD "text".toList
  if type ∈ ["text".toList, "output_text".toList, "input_text".toList, "thinking".toList] then
    ((part.get "text").bind Json.asStr).getD []
  else []

def deltaContentText : Json → Option Str
  | .null => none
  | .str text => some text
  | .arr parts => some (parts.flatMap contentPartText)
  | other => lenientText other

def resolveNoIndexToolKey (id : Option Str) (keyForId lastKey maxKey : Option Int) : Int :=
  match id.bind nonBlank with
  | some _ =>
    match keyForId with
    | some key => key
    | none =>
      match maxKey.or lastKey with
      | some key => if key = 9223372036854775807 then key else key + 1
      | none => 0
  | none => lastKey.getD 0

namespace ChatStreamDelta

def reasoningText (delta : ChatStreamDelta) : Option Str :=
  (delta.reasoningContent.or delta.reasoning).filter (!·.isEmpty)

def contentText (delta : ChatStreamDelta) : Option Str :=
  (delta.content.bind deltaContentText).filter (!·.isEmpty)

def refusalText (delta : ChatStreamDelta) : Option Str := delta.refusal.bind nonBlank

end ChatStreamDelta

namespace ToolCallDelta

def trimmedId (call : ToolCallDelta) : Option Str := call.id.bind nonBlank

def trimmedName (call : ToolCallDelta) : Option Str := (call.function.bind (·.name)).bind nonBlank

def argumentsDelta (call : ToolCallDelta) : Option Str :=
  (call.function.bind (·.arguments)).filter (!·.isEmpty)

end ToolCallDelta

def toolFrame (index : Int) (id name : Option String) (arguments : String) : ToolCallDelta where
  index := some index
  id := id.map String.toList
  function := some ⟨name.map String.toList, some arguments.toList⟩

def deltaChunk (content : Option String) (toolCalls : List ToolCallDelta) : ChatStreamChunk where
  id := "c".toList
  model := "m".toList
  created := none
  choices := [⟨⟨content.map fun text => .str text.toList, none, none, toolCalls, none⟩, none⟩]
  usage := none
  error := none

def idlessCall : List ChatStreamChunk := [deltaChunk none [toolFrame 0 none (some "f") "1"]]

end LlmGateway
