import Mathlib
import LlmGateway.Chat.Chunk
import LlmGateway.Lib.Emitter
import LlmGateway.Responses.ConvertResponse

namespace LlmGateway

open Json Text Emitter

inductive OutputRef
  | message
  | reasoning
  | tool (chatIndex : Int)
  deriving DecidableEq

/-- A tool call. Its item is announced when id and name are known and every call with a lower key has been. -/
structure ChatTool where
  outputIndex : Int
  id : Str
  name : Str
  arguments : Str
  reasoningContent : Str
  bridged : Bool
  custom : Bool
  toolSearch : Bool
  origName : Option Str
  ns : Option Str
  started : Bool
  released : Bool
  pendingArgs : Str
  done : Bool

/-- The kinds of text that are sent piece by piece. -/
inductive Channel
  | outputText
  | reasoningSummary
  | functionArguments
  | customInput
  deriving DecidableEq

/-- The events of a Responses stream. -/
inductive ResponsesEvent
  | created (response : ResponsesResponseOut)
  | inProgress (response : ResponsesResponseOut)
  | itemAdded (outputIndex : Int) (item : ResponsesOutputOut)
  | partAdded (channel : Channel) (outputIndex : Int) (itemId : Str)
  | delta (channel : Channel) (outputIndex : Int) (itemId delta : Str)
  | done (channel : Channel) (outputIndex : Int) (itemId text : Str)
  | partDone (channel : Channel) (outputIndex : Int) (itemId text : Str)
  | itemDone (outputIndex : Int) (item : ResponsesOutputOut)
  | terminal (type : ResponseStatus) (response : ResponsesResponseOut) (error : Option Json)
    (usage : Option ChatUsage)

/-- The order in which a hash table of calls is gone through. -/
class TableOrder where
  keys : Std.TreeMap Int ChatTool → List Int
  perm : ∀ tools, (keys tools).Perm tools.keys

@[reducible] def TableOrder.sorted : TableOrder := ⟨fun tools => tools.keys, fun _ => .refl _⟩

structure ChatToResponsesStreamState where
  id : Str
  model : Str
  created : I64
  usage : Option ChatUsage
  status : ResponseStatus
  incompleteReason : Option Str
  failedError : Option Json
  finishReasonSeen : Bool
  droppedTools : Nat
  sentCreated : Bool
  textOutputIndex : Int
  textStarted : Bool
  textDone : Bool
  reasoningOutputIndex : Int
  reasoningStarted : Bool
  reasoningDone : Bool
  finalized : Bool
  nextOutputIndex : Nat
  tools : Std.TreeMap Int ChatTool
  lastToolKey : Option Int
  outputOrder : List OutputRef
  text : Str
  reasoning : Str
  inlineThink : InlineThinkState
  toolCtx : ToolContext

/-- The error of the upstream in the form that a response has. -/
def extractStreamError (err : Json) : Json :=
  let unknown := "upstream stream error".toList
  let (message, code) := match err with
    | .str text => (text, none)
    | .obj _ =>
      ((((((err.get "error").bind (·.get "message")).bind asStr).or (err.getStr "message")).or
        (err.getStr "detail")).getD unknown,
        (((err.get "error").bind (·.get "code")).bind asStr).or (err.getStr "code"))
    | _ => (unknown, none)
  match code with
  | some code => .obj [("code", .str code), ("message", .str message)]
  | none => .obj [("message", .str message)]

def streamTruncated : Json :=
  .obj [("code", .str "stream_truncated".toList),
    ("message", .str "upstream stream ended before completion".toList)]

def toolCallDropped : Json :=
  .obj [("code", .str droppedToolError.1), ("message", .str droppedToolError.2)]

def streamError (message : Str) : Json :=
  .obj [("code", .str "stream_error".toList), ("message", .str message)]

def parseWebSearchQuery [FloatText] (arguments : Str) : Option Str :=
  (parse arguments).bind (·.getStr "query")

namespace ChatTool

def fresh : ChatTool := ⟨-1, [], [], [], [], false, false, false, none, none, false, false, [], false⟩

def classified (ctx : ToolContext) (tool : ChatTool) : ChatTool :=
  match ctx.lookup tool.name with
  | some ⟨.custom, _, _⟩ => { tool with custom := true }
  | some ⟨.toolSearch, _, _⟩ => { tool with toolSearch := true }
  | some ⟨.namespaced, name, ns⟩ => { tool with origName := some name, ns }
  | _ => tool

def named (ctx : ToolContext) (call : ToolCallDelta) (tool : ChatTool) : ChatTool :=
  let tool := { tool with id := call.trimmedId.getD tool.id }
  match call.trimmedName with
  | some name => classified ctx { tool with name, bridged := ctx.bridgesWebSearch && name == "web_search".toList }
  | none => tool

def withReasoning (reasoning : Option Str) (tool : ChatTool) : ChatTool :=
  match reasoning.filter (!·.isEmpty) with
  | some text =>
    { tool with reasoningContent := if tool.reasoningContent.isEmpty then text else tool.reasoningContent }
  | none => tool

def ready (tool : ChatTool) : Bool := !tool.id.isEmpty && !tool.name.isEmpty

def startWhenReady (tool : ChatTool) : ChatTool := { tool with started := tool.started || tool.ready }

def plain (tool : ChatTool) : Bool := !tool.bridged && !tool.custom && !tool.toolSearch

def itemId (tool : ChatTool) : Str :=
  if tool.bridged then tool.id
  else if tool.custom then "ctc_".toList ++ tool.id
  else "fc_".toList ++ tool.id

def argsEvents (tool : ChatTool) (args : Str) : List ResponsesEvent :=
  if tool.plain then [.delta .functionArguments tool.outputIndex tool.itemId args] else []

def appendArgs (args : Str) : Emitter ChatTool ResponsesEvent := fun tool =>
  if tool.started && tool.released then (tool.argsEvents args, { tool with arguments := tool.arguments ++ args })
  else ([], { tool with pendingArgs := tool.pendingArgs ++ args })

def receive (ctx : ToolContext) (reasoning : Option Str) (call : ToolCallDelta) : Emitter ChatTool ResponsesEvent :=
  (quiet fun tool => ((tool.named ctx call).withReasoning reasoning).startWhenReady).followedBy
    (whenSome appendArgs call.argumentsDelta)

section Items

variable [FloatText]

def canonicalArguments (tool : ChatTool) : Str := canonicalizeJsonStringIfParseable tool.arguments

/-- The item of the call, in the form of its kind. -/
def outputItem (tool : ChatTool) (status : ResponseStatus) : ResponsesOutputOut :=
  let item := LlmGateway.outputItem "function_call".toList ("fc_".toList ++ tool.id) status []
  let item := { item with reasoningContent := nonBlank tool.reasoningContent }
  if tool.bridged then
    { item with type := "web_search_call".toList, id := tool.id, query := parseWebSearchQuery tool.arguments }
  else if tool.custom then
    { item with
      type := "custom_tool_call".toList
      id := "ctc_".toList ++ tool.id
      callId := some tool.id
      name := some tool.name
      input := some (customToolInputFromChatArguments tool.canonicalArguments) }
  else if tool.toolSearch then
    { item with
      type := "tool_search_call".toList
      id := []
      callId := some tool.id
      arguments := some (parseToolArgumentsObject tool.canonicalArguments)
      execution := some "client".toList }
  else
    { item with
      callId := some tool.id
      name := some (tool.origName.getD tool.name)
      ns := tool.ns
      arguments := some (.str tool.canonicalArguments) }

def release (outputIndex : Int) : Emitter ChatTool ResponsesEvent := fun tool =>
  let tool := { tool with outputIndex, released := true }
  (.itemAdded outputIndex (tool.outputItem .inProgress) ::
      (if tool.pendingArgs.isEmpty then [] else tool.argsEvents tool.pendingArgs),
    { tool with arguments := tool.arguments ++ tool.pendingArgs, pendingArgs := [] })

/-- The events that end the item. -/
def doneEvents (tool : ChatTool) (status : ResponseStatus) : List ResponsesEvent :=
  let item := tool.outputItem status
  (if tool.bridged || tool.toolSearch then []
    else if tool.custom then
      let input := item.input.getD []
      (if input.isEmpty then [] else [.delta .customInput tool.outputIndex item.id input]) ++
        [.done .customInput tool.outputIndex item.id input]
    else [.done .functionArguments tool.outputIndex tool.itemId tool.canonicalArguments]) ++
    [.itemDone tool.outputIndex item]

end Items

def withFallbackId (tool : ChatTool) (responseId : Str) (key : Int) : ChatTool :=
  { tool with id := if tool.id.isEmpty then responseId ++ "_call_".toList ++ (toString key).toList else tool.id }

end ChatTool

namespace ChatToResponsesStreamState

abbrev Step := Emitter ChatToResponsesStreamState ResponsesEvent

def new (id model : Str) (created : I64) (toolCtx : ToolContext) : ChatToResponsesStreamState where
  id := id
  model := model
  created := created
  usage := none
  status := .completed
  incompleteReason := none
  failedError := none
  finishReasonSeen := false
  droppedTools := 0
  sentCreated := false
  textOutputIndex := -1
  textStarted := false
  textDone := false
  reasoningOutputIndex := -1
  reasoningStarted := false
  reasoningDone := false
  finalized := false
  nextOutputIndex := 0
  tools := ∅
  lastToolKey := none
  outputOrder := []
  text := []
  reasoning := []
  inlineThink := .new
  toolCtx := toolCtx

def messageId (s : ChatToResponsesStreamState) : Str := s.id ++ "_msg_0".toList

def reasoningId (s : ChatToResponsesStreamState) : Str := s.id ++ "_reasoning_0".toList

def outputStatus (s : ChatToResponsesStreamState) : ResponseStatus :=
  if s.status = .incomplete then .incomplete else .completed

def openingResponse (s : ChatToResponsesStreamState) : ResponsesResponseOut where
  id := s.id
  createdAt := s.created
  status := .inProgress
  error := none
  incompleteReason := none
  model := s.model
  output := []

def ensureCreated : Step := fun s =>
  if s.sentCreated then ([], s)
  else ([.created s.openingResponse, .inProgress s.openingResponse], { s with sentCreated := true })

def placed (s : ChatToResponsesStreamState) (ref : OutputRef) : ChatToResponsesStreamState :=
  { s with nextOutputIndex := s.nextOutputIndex + 1, outputOrder := s.outputOrder ++ [ref] }

def openMessage : Step := fun s =>
  if s.textStarted then ([], s)
  else
    let index : Int := s.nextOutputIndex
    ([.itemAdded index { outputItem "message".toList s.messageId .inProgress [] with role := assistantRole },
      .partAdded .outputText index s.messageId],
      { s.placed .message with textStarted := true, textOutputIndex := index })

def appendTextDelta (delta : Str) : Step :=
  openMessage.followedBy fun s =>
    ([.delta .outputText s.textOutputIndex s.messageId delta], { s with text := s.text ++ delta })

/-- Reasoning that goes on after its item was closed opens the item again, at the same index. -/
def openReasoning : Step := fun s =>
  if s.reasoningStarted && !s.reasoningDone then ([], s)
  else
    let index : Int := if s.reasoningDone then s.reasoningOutputIndex else s.nextOutputIndex
    let after := if s.reasoningDone then s else s.placed .reasoning
    ([.itemAdded index (outputItem "reasoning".toList s.reasoningId .inProgress []),
      .partAdded .reasoningSummary index s.reasoningId],
      { after with reasoningStarted := true, reasoningDone := false, reasoningOutputIndex := index })

def shareReasoning (delta : Str) (tools : Std.TreeMap Int ChatTool) : Std.TreeMap Int ChatTool :=
  tools.map fun _ tool =>
    if tool.started then { tool with reasoningContent := tool.reasoningContent ++ delta } else tool

def appendReasoningDelta (delta : Str) : Step :=
  openReasoning.followedBy fun s =>
    ([.delta .reasoningSummary s.reasoningOutputIndex s.reasoningId delta],
      { s with reasoning := s.reasoning ++ delta, tools := shareReasoning delta s.tools })

def messageItem (s : ChatToResponsesStreamState) (status : ResponseStatus) : ResponsesOutputOut :=
  messageOutput s.id status s.text []

def reasoningItem (s : ChatToResponsesStreamState) (status : ResponseStatus) : ResponsesOutputOut :=
  reasoningOutput s.id status s.reasoning

def closeReasoning (status : ResponseStatus) : Step := fun s =>
  if s.reasoningStarted && !s.reasoningDone then
    ([.done .reasoningSummary s.reasoningOutputIndex s.reasoningId s.reasoning,
      .partDone .reasoningSummary s.reasoningOutputIndex s.reasoningId s.reasoning,
      .itemDone s.reasoningOutputIndex (s.reasoningItem status)], { s with reasoningDone := true })
  else ([], s)

def closeMessage (status : ResponseStatus) : Step := fun s =>
  if s.textStarted && !s.textDone then
    ([.done .outputText s.textOutputIndex s.messageId s.text,
      .partDone .outputText s.textOutputIndex s.messageId s.text,
      .itemDone s.textOutputIndex (s.messageItem status)], { s with textDone := true })
  else ([], s)

def closedReasoning (s : ChatToResponsesStreamState) : Option Str :=
  if s.reasoningStarted && !s.reasoningDone then nonBlank s.reasoning else none

section Calls

variable [TableOrder]

def chatIndex (s : ChatToResponsesStreamState) (call : ToolCallDelta) : Int :=
  match call.index with
  | some index => index
  | none =>
    let keyForId := call.trimmedId.bind fun id =>
      (TableOrder.keys s.tools).find? fun key => s.tools[key]?.any (·.id == id)
    resolveNoIndexToolKey call.id keyForId s.lastToolKey s.tools.maxKey?

def toolAt (s : ChatToResponsesStreamState) (key : Int) : ChatTool := s.tools[key]?.getD .fresh

def receiveFrame (reasoning : Option Str) (call : ToolCallDelta) :
    Step := fun s =>
  let key := s.chatIndex call
  let (events, tool) := (s.toolAt key).receive s.toolCtx reasoning call
  (events, { s with lastToolKey := some key, tools := s.tools.insert key tool })

end Calls

section Output

variable [FloatText]

def releaseTool (key : Int) (tool : ChatTool) : Step := fun s =>
  let (events, tool) := tool.release s.nextOutputIndex
  (events, { s.placed (.tool key) with tools := s.tools.insert key tool })

def releaseFrom (force : Bool) : List Int → Step
  | [] => quiet fun s => s
  | key :: rest => fun s =>
    match s.tools[key]? with
    | none => releaseFrom force rest s
    | some tool =>
      if tool.released || (force && !tool.started) then releaseFrom force rest s
      else if tool.started then (releaseTool key tool).followedBy (releaseFrom force rest) s
      else ([], s)

def releaseReadyTools (force : Bool) : Step := fun s =>
  releaseFrom force s.tools.keys s

/-- A call without a name is dropped. -/
def finishTool (status : ResponseStatus) (key : Int) : Step := fun s =>
  match s.tools[key]? with
  | none => ([], s)
  | some tool =>
    if tool.done then ([], s)
    else if tool.name.isEmpty then
      ([], { s with tools := s.tools.insert key { tool with done := true }, droppedTools := s.droppedTools + 1 })
    else
      let tool := { tool.withFallbackId s.id key with done := true }
      (tool.doneEvents status, { s with tools := s.tools.insert key tool })

def doneDeltaEvents : Step :=
  ((releaseReadyTools false).followedBy (releaseReadyTools true)).followedBy fun s =>
    ((closeMessage s.outputStatus).followedBy ((closeReasoning s.outputStatus).followedBy fun t =>
      forEach (finishTool s.outputStatus) t.tools.keys t)) s

def outputOf (s : ChatToResponsesStreamState) : OutputRef → Option ResponsesOutputOut
  | .message => some (s.messageItem s.outputStatus)
  | .reasoning => some (s.reasoningItem s.outputStatus)
  | .tool key => (s.tools[key]?.filter (!·.name.isEmpty)).map (·.outputItem s.outputStatus)

def finalResponse (s : ChatToResponsesStreamState) : ResponsesResponseOut where
  id := s.id
  createdAt := s.created
  status := s.status
  error := none
  incompleteReason := s.incompleteReason
  model := s.model
  output := s.outputOrder.filterMap s.outputOf

end Output

def applyFinishReason (reason : Str) (s : ChatToResponsesStreamState) : ChatToResponsesStreamState :=
  let (status, incompleteReason) := finishReasonToStatus reason
  let s := { s with finishReasonSeen := true }
  if status = .incomplete then { s with status, incompleteReason } else s

def appendPieces (pieces : List Str × List Str) : Step :=
  (forEach appendReasoningDelta pieces.1).followedBy (forEach appendTextDelta pieces.2)

def appendContent (content : Str) : Step := fun s =>
  let (pieces, inlineThink) := s.inlineThink.feed content
  appendPieces pieces { s with inlineThink }

def flushContent : Step := fun s =>
  let (pieces, inlineThink) := s.inlineThink.flush
  appendPieces pieces { s with inlineThink }

def processTexts (delta : ChatStreamDelta) : Step :=
  (whenSome appendReasoningDelta delta.reasoningText).followedBy
    ((whenSome appendContent delta.contentText).followedBy (whenSome appendTextDelta delta.refusalText))

def noteHeader (chunk : ChatStreamChunk) (s : ChatToResponsesStreamState) : ChatToResponsesStreamState :=
  { s with
    id := if s.id.isEmpty then chunk.id else s.id
    model := if s.model.isEmpty then chunk.model else s.model
    created := if s.created = 0 then chunk.created.getD s.created else s.created
    usage := chunk.usage.or s.usage }

def hasAnyOutput (s : ChatToResponsesStreamState) : Bool :=
  s.textStarted || s.reasoningStarted || s.tools.values.any fun tool => tool.started && !tool.name.isEmpty

/-- How the stream ends: an error comes first, then a cut, then calls that were all dropped. -/
def verdict (truncated : Bool) (s : ChatToResponsesStreamState) :
    (ResponseStatus × Option Json) × ChatToResponsesStreamState :=
  if s.failedError.isSome then ((.failed, s.failedError), { s with status := .failed })
  else if truncated && !s.hasAnyOutput then ((.failed, some streamTruncated), { s with status := .failed })
  else if truncated && !s.finishReasonSeen then
    ((.incomplete, none), { s with status := .incomplete, incompleteReason := some "max_output_tokens".toList })
  else if 0 < s.droppedTools && !s.hasAnyOutput && s.status ≠ .incomplete then
    ((.failed, some toolCallDropped), { s with status := .failed })
  else ((s.outputStatus, none), s)

section Machine

variable [FloatText] [TableOrder]

def appendToolCallDelta (call : ToolCallDelta) : Step := fun s =>
  ((closeReasoning .completed).followedBy
    ((receiveFrame s.closedReasoning call).followedBy (releaseReadyTools false))) s

def finishChoice (reason : Str) : Step :=
  (quiet (applyFinishReason reason)).followedBy doneDeltaEvents

def processChoice (choice : ChatStreamChoice) : Step :=
  (processTexts choice.delta).followedBy
    ((forEach appendToolCallDelta choice.delta.toolCalls).followedBy
      (whenSome finishChoice (choice.finishReason.bind nonBlank)))

def processChunk (chunk : ChatStreamChunk) : Step := fun s =>
  if s.failedError.isSome then ([], s)
  else
    match chunk.error with
    | some err => ([], { s with failedError := some (extractStreamError err) })
    | none =>
      (quiet (noteHeader chunk)).followedBy (ensureCreated.followedBy (forEach processChoice chunk.choices)) s

def sendTerminal (truncated : Bool) : Step := fun s =>
  let ((type, error), s) := s.verdict truncated
  ([.terminal type s.finalResponse error s.usage], s)

def finalizeInner (truncated : Bool) : Step := fun s =>
  if s.finalized then ([], s)
  else flushContent.followedBy (doneDeltaEvents.followedBy (sendTerminal truncated)) { s with finalized := true }

def finalize : Step := finalizeInner false

def finalizeTruncated : Step := finalizeInner true

def recordTransportError (message : Str) : Step := fun s =>
  finalize { s with failedError := s.failedError.or (some (streamError message)) }

end Machine

end ChatToResponsesStreamState

def responsesStream [FloatText] [TableOrder] (id model : Str) (created : I64) (toolCtx : ToolContext)
    (chunks : List ChatStreamChunk) : List ResponsesEvent :=
  ((forEach ChatToResponsesStreamState.processChunk chunks).followedBy ChatToResponsesStreamState.finalize
    (.new id model created toolCtx)).1

end LlmGateway
