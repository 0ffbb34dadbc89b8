import LlmGateway.Chat.Chunk
import LlmGateway.Lib.JsonText

namespace LlmGateway

open Json Text

/-- The integer that a float is cast to: cut off towards zero, and held inside the range. -/
class FloatCast where
  toI64 : Str → I64

/-- The cast that gives nothing but zeros, for texts without floats. -/
@[reducible] def FloatCast.zero : FloatCast := ⟨fun _ => 0⟩

/-- `parse::<i64>` -/
def parseI64 (text : Str) : Option I64 :=
  let (negative, digits) := match text with
    | '-' :: rest => (true, rest)
    | '+' :: rest => (false, rest)
    | rest => (false, rest)
  if digits.isEmpty || !digits.all Char.isDigit then none
  else
    let value : Int := digits.foldl (fun value digit => value * 10 + (digit.toNat - '0'.toNat)) 0
    (JsonNumber.int (if negative then -value else value)).asI64

def lenientI64 [FloatCast] : Json → Option I64
  | .num (.int value) => some (.clamp value)
  | .num (.float text) => some (FloatCast.toI64 text)
  | .str text => parseI64 (trim text)
  | _ => none

def isObject : Json → Bool
  | .obj _ => true
  | _ => false

/-- `Usage::from_value_lenient` -/
def ChatUsage.fromValueLenient [FloatCast] (usage : Json) : ChatUsage where
  promptTokens := (usage.get "prompt_tokens").bind lenientI64
  completionTokens := (usage.get "completion_tokens").bind lenientI64
  totalTokens := (usage.get "total_tokens").bind lenientI64
  inputTokens := (usage.get "input_tokens").bind lenientI64
  outputTokens := (usage.get "output_tokens").bind lenientI64
  promptTokensDetails := (usage.get "prompt_tokens_details").filter isObject
  completionTokensDetails := (usage.get "completion_tokens_details").filter isObject
  inputTokensDetails := (usage.get "input_tokens_details").filter isObject
  cacheReadInputTokens := (usage.get "cache_read_input_tokens").bind lenientI64
  cacheCreationInputTokens := (usage.get "cache_creation_input_tokens").bind lenientI64
  promptCacheHitTokens := (usage.get "prompt_cache_hit_tokens").bind lenientI64

def hasText (text : Str) : Bool := (nonBlank text).isSome

/-- Reasoning under `reasoning`. An object that has no text of its own is searched for one. -/
def reasoningFieldText (reasoning : Json) : Option Str :=
  match lenientText reasoning with
  | some text => if hasText text then some text else none
  | none => ["content", "text", "summary"].findSome? fun key => (reasoning.getStr key).filter hasText

def reasoningDetailsText : Json → Option Str
  | .str text => if hasText text then some text else none
  | .arr parts =>
    let texts := (parts.filterMap (·.getStr "text")).filter hasText
    if texts.isEmpty then none else some (List.intercalate ['\n'] texts)
  | _ => none

def deltaReasoningText (delta : Json) : Option Str :=
  ((((delta.get "reasoning_content").bind lenientText).filter hasText).or
    ((delta.get "reasoning").bind reasoningFieldText)).or
      ((delta.get "reasoning_details").bind reasoningDetailsText)

def argumentsText : Json → Str
  | .str text => text
  | .null => []
  | other => other.print

/-- A call has a function if it has a name or arguments, be it outside of `function`. -/
def lenientToolCall [FloatCast] (call : Json) : ToolCallDelta :=
  let function := (call.get "function").or (call.get "function_call")
  let name := ((function.bind (·.get "name")).bind lenientText).or ((call.get "name").bind lenientText)
  let arguments := ((function.bind (·.get "arguments")).or (call.get "arguments")).map argumentsText
  { index := ((call.get "index").bind lenientI64).map I64.val
    id := (call.get "id").bind lenientText
    function := if name.isSome || arguments.isSome then some ⟨name, arguments⟩ else none }

namespace ChatStreamDelta

def empty : ChatStreamDelta := ⟨none, none, none, [], none⟩

def fromJson [FloatCast] (delta : Json) : ChatStreamDelta where
  content := delta.get "content"
  reasoningContent := deltaReasoningText delta
  reasoning := none
  toolCalls := (((delta.get "tool_calls").bind asArr).getD []).map lenientToolCall
  refusal := (delta.get "refusal").bind lenientText

end ChatStreamDelta

/-- A complete answer has a `message` where a chunk has a `delta`. -/
def ChatStreamChoice.fromJson [FloatCast] (choice : Json) : ChatStreamChoice where
  delta := (((choice.get "delta").or (choice.get "message")).map ChatStreamDelta.fromJson).getD .empty
  finishReason := (choice.get "finish_reason").bind lenientText

namespace ChatStreamChunk

def fromJson [FloatCast] (json : Json) : ChatStreamChunk where
  id := ((json.get "id").bind lenientText).getD []
  model := ((json.get "model").bind lenientText).getD []
  created := (json.get "created").bind lenientI64
  choices := (((json.get "choices").bind asArr).getD []).map .fromJson
  usage := ((json.get "usage").filter isObject).map .fromValueLenient
  error := (json.get "error").filter (!·.isNull)

def fromJsonStr [FloatText] [FloatCast] (data : String) : Option ChatStreamChunk :=
  (Json.parse data.toList).map fromJson

end ChatStreamChunk

end LlmGateway
