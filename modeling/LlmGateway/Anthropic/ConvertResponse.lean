import LlmGateway.Anthropic.Stream
import LlmGateway.Chat.ChunkReader
import LlmGateway.Responses.ConvertResponse

namespace LlmGateway

open Json Text

/-- A block of an answer that is not streamed. -/
inductive AnthropicBlock
  | thinking (thinking : Str)
  | text (text : Str)
  | toolUse (id name : Str) (input : Json)

/-- The answer to a Messages request. -/
structure AnthropicMessage where
  id : Str
  model : Str
  content : List AnthropicBlock
  stopReason : StopReason
  usage : AnthropicUsage

def extractReasoning (message : Json) : Str := extractMessageReasoning message

def partTextOrRefusal (found : Str × List Str) (part : Json) : Str × List Str :=
  let type := (part.getStr "type").map String.ofList
  if type = some "text" ∨ type = some "output_text" then (found.1 ++ (part.getStr "text").getD [], found.2)
  else if type = some "refusal" then
    (found.1, found.2 ++ (((part.get "refusal").or (part.get "text")).bind asStr).toList)
  else found

/-- The text of a message and what it refuses, in its parts and on its own. -/
def extractTextAndRefusal (message : Json) : Str × Option Str :=
  let (text, partRefusals) := match message.get "content" with
    | some (.str text) => (text, [])
    | some (.arr parts) => parts.foldl partTextOrRefusal ([], [])
    | _ => ([], [])
  let refusals := (if partRefusals.isEmpty then [] else [joinLines partRefusals]) ++
    (message.getStr "refusal").toList
  (text, if refusals.isEmpty then none else some (joinLines refusals))

def orElseText (text fallback : Str) : Str := if text.isEmpty then fallback else text

section Convert

variable [FloatText]

def toolInput (arguments : Str) : Json := ((parse arguments).filter isObject).getD (.obj [])

/-- A call without id, name and arguments is no call. -/
def chatToolCallToToolUse (call : Json) (index : Nat) : Option AnthropicBlock :=
  let id := trim ((call.getStr "id").getD [])
  let name := trim (((toolCallFunction call "name").bind asStr).getD [])
  let arguments := trim (((toolCallFunction call "arguments").bind asStr).getD [])
  if id.isEmpty && name.isEmpty && arguments.isEmpty then none
  else
    some (.toolUse (orElseText id ("tool_call_".toList ++ Nat.toDigits 10 index))
      (orElseText name "unknown_tool".toList) (toolInput arguments))

def legacyFunctionCallToToolUse (call : Json) (messageId : Str) : Option AnthropicBlock :=
  let name := trim ((call.getStr "name").getD [])
  if (call.get "arguments").isNone && name.isEmpty then none
  else
    let input := match call.get "arguments" with
      | some (.str text) => toolInput text
      | some (.obj fields) => .obj fields
      | some (.arr items) => .arr items
      | _ => .obj []
    some (.toolUse (orElseText (trim ((call.getStr "id").getD [])) (messageId ++ "_function_call".toList))
      (orElseText name "unknown_tool".toList) input)

def toolUses (calls : List Json) : List AnthropicBlock :=
  calls.zipIdx.filterMap fun call => chatToolCallToToolUse call.1 call.2

def messageToolUses (message : Json) (id : Str) : List AnthropicBlock :=
  let calls := toolUses (((message.get "tool_calls").bind asArr).getD [])
  if calls.isEmpty then ((message.get "function_call").bind (legacyFunctionCallToToolUse · id)).toList else calls

def messageTexts (message : Json) : List AnthropicBlock :=
  let (rawText, refusal) := extractTextAndRefusal message
  let (text, reasoning) := separateThink rawText (extractReasoning message)
  (if reasoning.isEmpty then [] else [.thinking reasoning]) ++ (if text.isEmpty then [] else [.text text]) ++
    ((refusal.filter fun refusal => !isBlank refusal).map AnthropicBlock.text).toList

variable [FloatCast]

def chatResponseToAnthropic (resp : Json) (id : Str) : Except Str AnthropicMessage :=
  match (firstChoice resp).bind (get · "message") with
  | none => .error "no message in first choice".toList
  | some message =>
    let calls := ((message.get "tool_calls").bind asArr).getD []
    let uses := messageToolUses message id
    let content := messageTexts message ++ uses
    if (toolUses calls).length < calls.length && content.isEmpty then
      .error "upstream returned tool_calls without function name and no other output".toList
    else
      let finishReason := ((firstChoice resp).bind (getStr · "finish_reason")).getD []
      .ok {
        id
        model := (resp.getStr "model").getD []
        content
        stopReason := stopReasonFromFinish finishReason !uses.isEmpty
        usage := (((resp.get "usage").filter isObject).map fun usage =>
          anthropicUsage (.fromValueLenient usage)).getD .zero }

end Convert

end LlmGateway
