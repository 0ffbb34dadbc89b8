import LlmGateway.Lib.Json
import LlmGateway.Stream.Billing

namespace LlmGateway

/-- An `Option<i64>` of the wire format. Anything but null and an integer in range fails the whole object. -/
def wireCount : Option Json → Option (Option I64)
  | none | some .null => some none
  | some value => value.asI64.map some

def wireField (usage : Json) (names : List String) : Option (Option I64) :=
  match names.filterMap usage.get with
  | [] => some none
  | [value] => wireCount (some value)
  | _ => none

/-- `CachedTokensDetails` -/
def wireDetails : Option Json → Option (Option I64)
  | none | some .null => some none
  | some (.obj fields) => wireField (.obj fields) ["cached_tokens"]
  | some _ => none

/-- A usage object is read through `UsageWire`. The cached tokens are looked for
under every name an upstream gives them. -/
def Usage.fromValue : Json → Option Usage
  | .obj fields => do
    let usage := Json.obj fields
    let promptTokens ← wireField usage ["prompt_tokens"]
    let completionTokens ← wireField usage ["completion_tokens"]
    let inputTokens ← wireField usage ["input_tokens"]
    let outputTokens ← wireField usage ["output_tokens"]
    let cacheReadTokens ← wireField usage ["cache_read_tokens", "cache_read_input_tokens"]
    let cacheWriteTokens ←
      wireField usage ["cache_write_tokens", "cache_creation_input_tokens", "cache_write_input_tokens"]
    let deepseekCacheHit ← wireField usage ["deepseek_cache_hit", "prompt_cache_hit_tokens"]
    let promptDetails ← wireDetails (usage.get "prompt_tokens_details")
    let inputDetails ← wireDetails (usage.get "input_tokens_details")
    return {
      promptTokens, completionTokens, inputTokens, outputTokens, cacheWriteTokens
      cacheReadTokens := cacheReadTokens.or (promptDetails.or (inputDetails.or deepseekCacheHit)) }
  | _ => none

def Usage.input (usage : Usage) : I64 := (usage.promptTokens.or usage.inputTokens).getD 0

def Usage.output (usage : Usage) : I64 := (usage.completionTokens.or usage.outputTokens).getD 0

def Usage.foldAnthropicInput (usage : Usage) : Usage :=
  let buckets := (usage.cacheReadTokens.getD 0).saturatingAdd (usage.cacheWriteTokens.getD 0)
  if 0 < buckets.val then
    let base := (usage.promptTokens.or usage.inputTokens).getD 0
    { usage with promptTokens := none, inputTokens := some (base.saturatingAdd buckets) }
  else usage

def isMessageType (type : List Char) : Bool := "message_".toList.isPrefixOf type

def extractUsageFrame (v : Json) : Option (Usage × Bool) :=
  let anthropic := (v.getStr "type").any isMessageType
  let usage :=
    if anthropic then ((v.get "message").bind (·.get "usage")).or (v.get "usage")
    else (v.get "usage").or ((v.get "response").bind (·.get "usage"))
  (usage.bind Usage.fromValue).map (·, anthropic)

def terminalTypes : List (List Char) :=
  ["response.completed".toList, "response.incomplete".toList, "response.failed".toList, "response.done".toList,
    "message_stop".toList]

def isTerminalFrame (v : Json) : Bool := (v.getStr "type").any terminalTypes.contains

/-- One `data:` value of `feed_sse`: the usage found so far and whether the stream is done. -/
def feedValue (found : Option Usage × Bool) (v : Json) : Option Usage × Bool :=
  let usage := match extractUsageFrame v with
    | some (frame, anthropic) => some (mergeUsage found.1 (if anthropic then frame.foldAnthropicInput else frame))
    | none => found.1
  (usage, found.2 || isTerminalFrame v)

/-- `feed_sse` over frames that have been read: it stops behind a terminal one. -/
def feedFrames (usage : Option Usage) : List Json → List Json × Option Usage × Bool
  | [] => ([], usage, false)
  | v :: rest =>
    let (usage, done) := feedValue (usage, false) v
    if done then (rest, usage, true) else feedFrames usage rest

def frameScanner : SseScanner (List Json) (List Json) where
  feedSse buf chunk := feedFrames none (buf ++ chunk)
  boundary := []
  empty := []

end LlmGateway
