import LlmGateway.Anthropic.ConvertRequest
import LlmGateway.Lib.JsonMerge
import LlmGateway.Lib.Utf8
import LlmGateway.Responses.ConvertParams
import LlmGateway.Responses.History

/-- The decoders of compressed bodies. -/
class ContentCoding where
  decode : Str → List UInt8 → Option (List UInt8)

/-- No coding is known. -/
@[reducible] def ContentCoding.none : ContentCoding := ⟨fun _ _ => .none⟩

namespace LlmGateway

open Json Text

/-- The endpoint of a client. -/
structure Endpoint where
  upstream : Str
  responses : Bool
  anthropic : Bool

structure Provider where
  apiType : Str
  baseUrl : Str
  extraBody : Json
  sorted : extraBody.isSorted

structure ModelRoute where
  upstreamModel : Option Str
  extraBody : Json
  strictSystemHead : Bool
  systemHeadMerge : Bool
  reasoningEffortMode : Option Str
  thinkingForm : Option Str
  responsesPassthroughFields : Option Str
  sorted : extraBody.isSorted

def ModelRoute.passthroughFieldList (route : ModelRoute) : List Str :=
  ((route.responsesPassthroughFields.map fun text => (text.splitOn ',').map trim).getD []).filter fun field =>
    !field.isEmpty

def modifyField (key : String) (change : Json → Json) (fields : Fields) : Fields :=
  fields.map fun field => if field.1 = key then (field.1, change field.2) else field

def setField (key : String) (value : Json) : Json → Json
  | .obj fields => .obj (insertField key value fields)
  | other => other

def normalizedRole (role : Str) : Option Str :=
  if role = "developer".toList then some "system".toList
  else if role = "latest_reminder".toList then some userRole
  else none

def normalizeRole (message : Json) : Option Json :=
  match message with
  | .obj fields =>
    (((fields.lookup "role").bind asStr).bind normalizedRole).map fun role =>
      .obj (modifyField "role" (fun _ => .str role) fields)
  | _ => none

def normalizeItemRole (item : Json) : Option Json :=
  if item.getStr "type" = some "message".toList then normalizeRole item else none

def normalizeElements (key : String) (rewrite : Json → Option Json) (json : Json) : Json × Bool :=
  match json with
  | .obj fields =>
    match fields.lookup key with
    | some (.arr items) =>
      (.obj (modifyField key (fun _ => .arr (items.map fun item => (rewrite item).getD item)) fields),
        items.any fun item => (rewrite item).isSome)
    | _ => (json, false)
  | _ => (json, false)

def normalizeChatRoles (json : Json) : Json × Bool :=
  let (json, messages) := normalizeElements "messages" normalizeRole json
  let (json, input) := normalizeElements "input" normalizeItemRole json
  (json, messages || input)

def isClientTool (tool : Json) : Bool :=
  match tool.getStr "type" with
  | none => true
  | some type => type = "function".toList || type = "custom".toList

def normalizeTools (json : Json) : Json × Bool :=
  match json with
  | .obj fields =>
    match fields.lookup "tools" with
    | some (.arr tools) =>
      let kept := tools.filter isClientTool
      (.obj (modifyField "tools" (fun _ => .arr kept) fields), tools.length ≠ kept.length)
    | _ => (json, false)
  | _ => (json, false)

def normalizeRequest (endpoint : Endpoint) (json : Json) : Json × Bool :=
  if endpoint.anthropic then (json, false)
  else
    let (json, roles) := normalizeChatRoles json
    if endpoint.responses then (json, roles)
    else
      let (json, tools) := normalizeTools json
      (json, roles || tools)

/-- The body of a request as it came in. -/
structure ClientRequest where
  body : List UInt8
  contentEncoding : Option Str
  endpoint : Endpoint

section Body

variable [FloatText]

def decodeUtf8 (bytes : List UInt8) : Option Str :=
  let text := Utf8.decodeLossy bytes
  if Utf8.encode (String.ofList text) = bytes then some text else none

def jsonOfBytes (bytes : List UInt8) : Option Json := (decodeUtf8 bytes).bind parse

variable [ContentCoding]

/-- Codings that were stacked are taken off in reverse order. -/
def decompressRequestBody (body : List UInt8) (contentEncoding : Option Str) : Option (List UInt8) :=
  match contentEncoding.map fun text => toAsciiLowercase (trim text) with
  | none => some body
  | some encoding =>
    if encoding.isEmpty || encoding = "identity".toList then some body
    else
      (((encoding.splitOn ',').map trim).filter fun coding => !coding.isEmpty).reverse.foldlM
        (fun data coding => ContentCoding.decode coding data) body

def parseRequestJson (request : ClientRequest) : Option Json :=
  (decompressRequestBody request.body request.contentEncoding).bind jsonOfBytes

end Body

def hadContentEncoding (request : ClientRequest) : Bool :=
  request.contentEncoding.any fun text => !(trim text).isEmpty && !eqIgnoreAsciiCase text "identity".toList

/-- What is known of a request when its bodies for the upstreams are built. -/
structure Outbound where
  body : List UInt8
  json : Json
  endpoint : Endpoint
  route : ModelRoute
  model : Str
  outboundModel : Str
  gatingModel : Str
  streamed : Bool
  rolesRewritten : Bool
  hadContentEncoding : Bool
  planDowngraded : Bool
  extraBodyEnabled : Bool
  zenEffortTable : Str
  history : ResponseHistoryStore

def longContextSuffix : Str := "[1m]".toList

def outboundModelOf (route : ModelRoute) (model : Str) : Str :=
  route.upstreamModel.getD
    (if longContextSuffix.isSuffixOf model then model.take (model.length - longContextSuffix.length) else model)

/-- The settings of the gateway that the bodies depend on. -/
structure OutboundConfig where
  extraBodyEnabled : Bool
  zenEffortTable : Str
  history : ResponseHistoryStore

/-- The steps from the request of a client to its routed form. A plan may have put another model in place. -/
def prepareOutbound [FloatText] [ContentCoding] (request : ClientRequest) (downgradeTo : Option Str)
    (route : ModelRoute) (config : OutboundConfig) : Option Outbound := do
  let parsed ← parseRequestJson request
  let (normalized, rolesRewritten) := normalizeRequest request.endpoint parsed
  let requested ← (normalized.getStr "model").filter fun model => !model.isEmpty
  let model := downgradeTo.getD requested
  return {
    body := request.body
    json := match downgradeTo with
      | some other => setField "model" (.str other) normalized
      | none => normalized
    endpoint := request.endpoint
    route
    model
    outboundModel := outboundModelOf route model
    gatingModel := route.upstreamModel.getD model
    streamed := ((normalized.get "stream").bind asBool).getD false
    rolesRewritten
    hadContentEncoding := hadContentEncoding request
    planDowngraded := downgradeTo.isSome
    extraBodyEnabled := config.extraBodyEnabled
    zenEffortTable := config.zenEffortTable
    history := config.history }

def extraManagedKeys : List String := ["model", "stream", "stream_options"]

def effectiveExtra (routeExtra providerExtra : Json) : Option Json :=
  match mergeDeep providerExtra routeExtra with
  | .obj fields =>
    let kept := fields.filter fun field => field.1 ∉ extraManagedKeys
    if kept.isEmpty then none else some (.obj kept)
  | _ => none

def applyExtra (body : Json) (extra : Option Json) : Json :=
  match body, extra with
  | .obj fields, some (.obj added) =>
    .obj (mergeDeep.mergeFields fields (added.filter fun field => field.1 ∉ extraManagedKeys))
  | body, _ => body

def isSystemMessage (message : Json) : Bool := message.getStr "role" = some "system".toList

def systemText (message : Json) : Option Str :=
  (match message.get "content" with
    | some (.str text) => some text
    | some (.arr parts) => some (joinLines (parts.filterMap (getStr · "text")))
    | _ => none).filter fun text => !text.isEmpty

/-- The messages of the system in front, as they are or merged into one. -/
def collectSystemToHead (messages : List Json) (merge : Bool) : List Json :=
  let systems := messages.filter isSystemMessage
  let others := messages.filter fun message => !isSystemMessage message
  if systems.length ≤ 1 || !merge then systems ++ others
  else
    let texts := systems.filterMap systemText
    if texts.isEmpty then others else chatMessage "system".toList (.str (joinLines texts)) :: others

def applySystemHead (body : Json) (enabled merge : Bool) : Json :=
  match body with
  | .obj fields =>
    match fields.lookup "messages" with
    | some (.arr messages) =>
      if enabled then .obj (modifyField "messages" (fun _ => .arr (collectSystemToHead messages merge)) fields)
        else body
    | _ => body
  | _ => body

def isSchemaNameMap (key : String) : Bool :=
  key = "properties" || key = "patternProperties" || key = "definitions" || key = "$defs"

def isPrivateKey (key : String) : Bool := key.toList.head? = some '_'

/-- The number counts the levels down that are still looked into. -/
def stripUnderscoreAtDepth : Nat → Bool → Json → Json
  | 0, _, value => value
  | levels + 1, inSchemaMap, value =>
    match value with
    | .obj fields =>
      .obj ((fields.filter fun field => inSchemaMap || !isPrivateKey field.1).map fun field =>
        (field.1, stripUnderscoreAtDepth levels (isSchemaNameMap field.1) field.2))
    | .arr items => .arr (items.map (stripUnderscoreAtDepth levels inSchemaMap))
    | other => other

def hasUnderscoreAtDepth : Nat → Bool → Json → Bool
  | 0, _, _ => false
  | levels + 1, inSchemaMap, value =>
    match value with
    | .obj fields =>
      (!inSchemaMap && fields.any fun field => isPrivateKey field.1) ||
        fields.any fun field => hasUnderscoreAtDepth levels (isSchemaNameMap field.1) field.2
    | .arr items => items.any (hasUnderscoreAtDepth levels inSchemaMap)
    | _ => false

def maxUnderscoreDepth : Nat := 32

def stripUnderscoreFields (json : Json) : Json := stripUnderscoreAtDepth (maxUnderscoreDepth + 1) false json

def hasUnderscoreFields (json : Json) : Bool := hasUnderscoreAtDepth (maxUnderscoreDepth + 1) false json

def responsesDialectOnlyFields : List String :=
  ["store", "safety_identifier", "prompt_cache_retention", "prompt_cache_key"]

def applyDialectFieldGate (body : Json) (route : ModelRoute) : Json :=
  match body with
  | .obj fields =>
    .obj (fields.filter fun field =>
      field.1 ∉ responsesDialectOnlyFields || field.1.toList ∈ route.passthroughFieldList)
  | _ => body

/-- The usage of a stream is always asked for. -/
def ensureIncludeUsage (body : Json) (streamed : Bool) : Json :=
  match body with
  | .obj fields =>
    if streamed then
      match fields.lookup "stream_options" with
      | some (.obj options) =>
        .obj (modifyField "stream_options"
          (fun _ => .obj (insertField "include_usage" (.bool true) options)) fields)
      | _ => .obj (insertField "stream_options" (.obj [("include_usage", .bool true)]) fields)
    else body
  | _ => body

/-- What goes to the upstream: the bytes as they came in, or a new value. -/
inductive Sent
  | raw (bytes : List UInt8)
  | built (json : Json)

def Sent.json [FloatText] : Sent → Option Json
  | raw bytes => jsonOfBytes bytes
  | built json => some json

namespace Outbound

def applyEffortMode (ctx : Outbound) (body : Json) : Json :=
  applyReasoningEffortModeForModel ctx.zenEffortTable body (ctx.route.reasoningEffortMode.getD [])
    (some ctx.gatingModel)

def applyReasoningConfig (ctx : Outbound) (body : Json) : Json :=
  applyThinkingForm (ctx.applyEffortMode body) ctx.route.thinkingForm

def extra (ctx : Outbound) (provider : Provider) : Option Json :=
  if ctx.extraBodyEnabled then effectiveExtra ctx.route.extraBody provider.extraBody else none

def nativeAnthropic (provider : Provider) : Bool := eqIgnoreAsciiCase provider.apiType "anthropic".toList

def nativeResponses (provider : Provider) : Bool := eqIgnoreAsciiCase provider.apiType "openai-responses".toList

variable [Lowercase]

def systemHead (ctx : Outbound) : Bool := ctx.route.strictSystemHead || isMiniMax ctx.gatingModel

def systemHeadMerge (ctx : Outbound) : Bool := ctx.route.systemHeadMerge || isMiniMax ctx.gatingModel

def headed (ctx : Outbound) (body : Json) : Json := applySystemHead body ctx.systemHead ctx.systemHeadMerge

def named (ctx : Outbound) (body : Json) : Json := setField "model" (.str ctx.outboundModel) body

def needsRebuild (ctx : Outbound) (provider : Provider) : Bool :=
  (ctx.extra provider).isSome || ctx.rolesRewritten || ctx.hadContentEncoding || ctx.systemHead ||
    ctx.outboundModel ≠ ctx.model || hasUnderscoreFields ctx.json || ctx.planDowngraded

def rebuilt (ctx : Outbound) (provider : Provider) : Json :=
  let merged := ctx.headed (applyExtra ctx.json (ctx.extra provider))
  let configured := if ctx.endpoint.anthropic && nativeAnthropic provider then merged
    else ctx.applyReasoningConfig merged
  ctx.named (stripUnderscoreFields configured)

def chatCompletionsPath : Str := "/chat/completions".toList

variable [FloatText] [ShortSha256]

/-- The body for one upstream, and the path it goes to. -/
def buildOutboundRaw (ctx : Outbound) (provider : Provider) : Except Str (Sent × Str) :=
  let extra := ctx.extra provider
  if ctx.endpoint.anthropic && !nativeAnthropic provider then
    (anthropicRequestToChat ctx.json ctx.gatingModel provider.baseUrl).map fun chat =>
      let merged := applyExtra (ensureIncludeUsage chat ctx.streamed) extra
      (.built (ctx.named (ctx.applyReasoningConfig (ctx.headed merged))), chatCompletionsPath)
  else if ctx.endpoint.responses && !nativeResponses provider then
    (enrichRequestWithHistory ctx.history ctx.json).1.bind fun enriched =>
      (responsesRequestToChat enriched ctx.gatingModel).map fun chat =>
        let merged := applyExtra (ensureIncludeUsage chat ctx.streamed) extra
        let gated := applyDialectFieldGate (ctx.headed merged) ctx.route
        (.built (ctx.named (ctx.applyReasoningConfig gated)), chatCompletionsPath)
  else if ctx.streamed && !ctx.endpoint.responses && !ctx.endpoint.anthropic then
    let merged := applyExtra (ensureIncludeUsage ctx.json ctx.streamed) extra
    let configured := ctx.applyReasoningConfig (ctx.headed merged)
    .ok (.built (ctx.named (stripUnderscoreFields configured)), ctx.endpoint.upstream)
  else if ctx.needsRebuild provider then .ok (.built (ctx.rebuilt provider), ctx.endpoint.upstream)
  else .ok (.raw ctx.body, ctx.endpoint.upstream)

end Outbound

end LlmGateway
