import Mathlib
import LlmGateway.Chat.Chunk
import LlmGateway.Chat.InlineThink
import LlmGateway.Lib.Emitter

namespace LlmGateway

open Text Emitter

structure AnthropicUsage where
  inputTokens : I64
  outputTokens : I64
  cacheCreationInputTokens : I64
  cacheReadInputTokens : I64
  deriving DecidableEq

def AnthropicUsage.zero : AnthropicUsage := ⟨0, 0, 0, 0⟩

def anthropicUsage (usage : ChatUsage) : AnthropicUsage where
  inputTokens := (usage.input.saturatingSub usage.cachedTokens).saturatingSub usage.cacheWriteTokens
  outputTokens := usage.output
  cacheCreationInputTokens := usage.cacheWriteTokens
  cacheReadInputTokens := usage.cachedTokens

inductive StopReason
  | endTurn
  | toolUse
  | maxTokens
  deriving DecidableEq

def stopReasonFromFinish (finishReason : Str) (hasToolUse : Bool) : StopReason :=
  let reason := trim finishReason
  if reason ∈ ["length".toList, "max_tokens".toList, "token_limit".toList] then .maxTokens
  else if reason ∈ ["stop".toList, "tool_calls".toList, "function_call".toList, []] then
    if hasToolUse then .toolUse else .endTurn
  else .endTurn

def extractStreamErrorMessage : Json → Str
  | .str text => text
  | .obj fields =>
    let err := Json.obj fields
    let nested := ((err.get "error").bind (·.get "message")).bind Json.asStr
    ((nested.or ((err.get "message").bind Json.asStr)).or ((err.get "detail").bind Json.asStr)).getD
      "upstream stream error".toList
  | _ => "upstream stream error".toList

inductive BlockKind
  | thinking
  | text
  | toolUse
  deriving DecidableEq

inductive ContentBlock
  | thinking
  | text
  | toolUse (id name : Str)
  deriving DecidableEq

inductive BlockDelta
  | thinking (thinking : Str)
  | text (text : Str)
  | inputJson (partialJson : Str)
  deriving DecidableEq

def ContentBlock.kind : ContentBlock → BlockKind
  | thinking => .thinking
  | text => .text
  | toolUse _ _ => .toolUse

def BlockDelta.kind : BlockDelta → BlockKind
  | thinking _ => .thinking
  | text _ => .text
  | inputJson _ => .toolUse

/-- The events of a Messages stream. -/
inductive AnthropicEvent
  | messageStart (id model : Str) (usage : AnthropicUsage)
  | blockStart (index : Nat) (block : ContentBlock)
  | blockDelta (index : Nat) (delta : BlockDelta)
  | blockStop (index : Nat)
  | messageDelta (stopReason : StopReason) (usage : AnthropicUsage)
  | messageStop
  | error (message : Str)
  deriving DecidableEq

/-- A tool call. Its content block starts when both id and name are known. -/
structure ToolBlock where
  anthropicIndex : Nat
  id : Str
  name : Str
  arguments : Str
  pendingArgs : Str
  started : Bool
  stopped : Bool
  consecutiveWhitespace : Nat
  aborted : Bool

inductive NonToolKind
  | thinking
  | text
  deriving DecidableEq

structure NonToolBlock where
  kind : NonToolKind
  index : Nat

def infiniteWhitespaceThreshold : Nat := 500

structure ChatToAnthropicState where
  id : Str
  model : Str
  usage : Option ChatUsage
  failed : Option Str
  openNonTool : Option NonToolBlock
  sentMessageStart : Bool
  hasEmittedMessageDelta : Bool
  pendingStopReason : Option StopReason
  hasToolUse : Bool
  droppedTools : Nat
  finalized : Bool
  nextBlockIndex : Nat
  thinkingStopped : Bool
  textStopped : Bool
  tools : Std.TreeMap Int ToolBlock
  lastToolKey : Option Int
  inlineThink : InlineThinkState

namespace NonToolKind

def kind : NonToolKind → BlockKind
  | thinking => .thinking
  | text => .text

def block : NonToolKind → ContentBlock
  | thinking => .thinking
  | text => .text

def delta : NonToolKind → Str → BlockDelta
  | thinking => .thinking
  | text => .text

end NonToolKind

namespace ToolBlock

def fresh (index : Nat) : ToolBlock := ⟨index, [], [], [], [], false, false, 0, false⟩

def named (block : ToolBlock) (call : ToolCallDelta) : ToolBlock :=
  { block with id := call.trimmedId.getD block.id, name := call.trimmedName.getD block.name }

def startEvent (block : ToolBlock) : AnthropicEvent :=
  .blockStart block.anthropicIndex (.toolUse block.id block.name)

def argsEvent (block : ToolBlock) (args : Str) : AnthropicEvent :=
  .blockDelta block.anthropicIndex (.inputJson args)

def flushed (block : ToolBlock) : List AnthropicEvent :=
  if block.pendingArgs.isEmpty then [] else [block.argsEvent block.pendingArgs]

def begun (block : ToolBlock) : ToolBlock :=
  { block with started := true, arguments := block.arguments ++ block.pendingArgs, pendingArgs := [] }

def startWhenReady : Emitter ToolBlock AnthropicEvent := fun block =>
  if !block.started && !block.id.isEmpty && !block.name.isEmpty then
    (block.startEvent :: block.flushed, block.begun)
  else ([], block)

/-- Arguments that end in too many blanks abort the block: nothing more is sent of it. -/
def appendArgs (args : Str) : Emitter ToolBlock AnthropicEvent := fun block =>
  if block.aborted then ([], block)
  else
    let blanks := args.foldl (fun count c => if isWhitespace c then count + 1 else 0) block.consecutiveWhitespace
    let block := { block with consecutiveWhitespace := blanks }
    if infiniteWhitespaceThreshold ≤ blanks then ([], { block with aborted := true })
    else if block.started then ([block.argsEvent args], { block with arguments := block.arguments ++ args })
    else ([], { block with pendingArgs := block.pendingArgs ++ args })

def receive (call : ToolCallDelta) : Emitter ToolBlock AnthropicEvent :=
  (quiet fun block => block.named call).followedBy
    (startWhenReady.followedBy (whenSome appendArgs call.argumentsDelta))

def hasPayload (block : ToolBlock) : Bool :=
  !block.id.isEmpty || !block.name.isEmpty || !block.pendingArgs.isEmpty || !block.arguments.isEmpty

def withFallbackId (block : ToolBlock) (key : Int) : ToolBlock :=
  { block with id := if block.id.isEmpty then "tool_call_".toList ++ (toString key).toList else block.id }

def withFallbackName (block : ToolBlock) : ToolBlock :=
  { block with name := if block.name.isEmpty then "unknown_tool".toList else block.name }

end ToolBlock

namespace ChatToAnthropicState

abbrev Step := Emitter ChatToAnthropicState AnthropicEvent

def new (id model : Str) : ChatToAnthropicState where
  id := id
  model := model
  usage := none
  failed := none
  openNonTool := none
  sentMessageStart := false
  hasEmittedMessageDelta := false
  pendingStopReason := none
  hasToolUse := false
  droppedTools := 0
  finalized := false
  nextBlockIndex := 0
  thinkingStopped := false
  textStopped := false
  tools := ∅
  lastToolKey := none
  inlineThink := .new

def reportedUsage (s : ChatToAnthropicState) : AnthropicUsage := (s.usage.map anthropicUsage).getD .zero

def messageStartEvent (s : ChatToAnthropicState) : AnthropicEvent :=
  .messageStart ("msg_".toList ++ s.id) s.model s.reportedUsage

/-- `message_start` goes out with the first chunk. -/
def ensureMessageStart : Step := fun s =>
  if s.sentMessageStart then ([], s) else ([s.messageStartEvent], { s with sentMessageStart := true })

def closeOpenNonTool : Step := fun s =>
  match s.openNonTool with
  | none => ([], s)
  | some block =>
    ([.blockStop block.index],
      { s with
        openNonTool := none
        thinkingStopped := s.thinkingStopped || block.kind == .thinking
        textStopped := s.textStopped || block.kind == .text })

def openBlock (kind : NonToolKind) : Step := fun s =>
  ([.blockStart s.nextBlockIndex kind.block],
    { s with openNonTool := some ⟨kind, s.nextBlockIndex⟩, nextBlockIndex := s.nextBlockIndex + 1 })

def ensureOpen (kind : NonToolKind) : Step := fun s =>
  if s.openNonTool.any (·.kind = kind) then ([], s) else closeOpenNonTool.followedBy (openBlock kind) s

def sendDelta (kind : NonToolKind) (delta : Str) : Step := fun s =>
  (s.openNonTool.toList.map fun block => .blockDelta block.index (kind.delta delta), s)

def appendNonToolDelta (kind : NonToolKind) (delta : Str) : Step :=
  (ensureOpen kind).followedBy (sendDelta kind delta)

def appendThinkingDelta : Str → Step := appendNonToolDelta .thinking

def appendTextDelta : Str → Step := appendNonToolDelta .text

def chatIndex (s : ChatToAnthropicState) (call : ToolCallDelta) : Int :=
  match call.index with
  | some index => index
  | none =>
    let keyForId := call.trimmedId.bind fun id => (s.tools.toList.find? fun entry => entry.2.id == id).map Prod.fst
    resolveNoIndexToolKey call.id keyForId s.lastToolKey s.tools.maxKey?

def toolAt (s : ChatToAnthropicState) (key : Int) : ToolBlock × Nat :=
  match s.tools[key]? with
  | some block => (block, s.nextBlockIndex)
  | none => (.fresh s.nextBlockIndex, s.nextBlockIndex + 1)

def receiveFrame (call : ToolCallDelta) : Step := fun s =>
  let key := s.chatIndex call
  let (block, next) := s.toolAt key
  let (events, after) := block.receive call
  (events,
    { s with
      lastToolKey := some key
      nextBlockIndex := next
      tools := s.tools.insert key after
      hasToolUse := s.hasToolUse || (!block.started && after.started) })

def appendToolDelta (call : ToolCallDelta) : Step :=
  closeOpenNonTool.followedBy (receiveFrame call)

def appendPieces (pieces : List Str × List Str) : Step :=
  (forEach appendThinkingDelta pieces.1).followedBy (forEach appendTextDelta pieces.2)

def appendContent (content : Str) : Step := fun s =>
  let (pieces, inlineThink) := s.inlineThink.feed content
  appendPieces pieces { s with inlineThink }

def flushContent : Step := fun s =>
  let (pieces, inlineThink) := s.inlineThink.flush
  appendPieces pieces { s with inlineThink }

def processTexts (delta : ChatStreamDelta) : Step :=
  (whenSome appendThinkingDelta delta.reasoningText).followedBy
    ((whenSome appendContent delta.contentText).followedBy (whenSome appendTextDelta delta.refusalText))

def noteFinish (finishReason : Option Str) (s : ChatToAnthropicState) : ChatToAnthropicState :=
  match finishReason.bind nonBlank with
  | some reason => { s with pendingStopReason := some (stopReasonFromFinish reason s.hasToolUse) }
  | none => s

def processChoice (choice : ChatStreamChoice) : Step :=
  (processTexts choice.delta).followedBy
    ((forEach appendToolDelta choice.delta.toolCalls).followedBy (quiet (noteFinish choice.finishReason)))

def noteHeader (chunk : ChatStreamChunk) (s : ChatToAnthropicState) : ChatToAnthropicState :=
  { s with
    id := if s.id.isEmpty then chunk.id else s.id
    model := if s.model.isEmpty then chunk.model else s.model
    usage := chunk.usage.or s.usage }

def processChunk (chunk : ChatStreamChunk) : Step := fun s =>
  if s.failed.isSome then ([], s)
  else
    match chunk.error with
    | some err =>
      let message := extractStreamErrorMessage err
      ([.error message], { s with failed := some message })
    | none =>
      (quiet (noteHeader chunk)).followedBy (ensureMessageStart.followedBy (forEach processChoice chunk.choices)) s

/-- A call that never got its id or name is started now, unless it carried nothing at all. -/
def closeTool (key : Int) : Step := fun s =>
  match s.tools[key]? with
  | none => ([], s)
  | some block =>
    if block.started && !block.stopped then
      ([.blockStop block.anthropicIndex],
        { s with tools := s.tools.insert key { block.withFallbackId key with stopped := true } })
    else if !block.started then
      if block.hasPayload then
        let block := (block.withFallbackId key).withFallbackName
        (block.startEvent :: (block.flushed ++ [.blockStop block.anthropicIndex]),
          { s with tools := s.tools.insert key { block.begun with stopped := true }, hasToolUse := true })
      else ([], { s with droppedTools := s.droppedTools + 1 })
    else ([], s)

def closeOpenBlocks : Step :=
  closeOpenNonTool.followedBy fun s => forEach closeTool s.tools.keys s

def stopReason (s : ChatToAnthropicState) (truncated : Bool) : StopReason :=
  let reason := s.pendingStopReason.getD
    (if truncated then .maxTokens else if s.hasToolUse then .toolUse else .endTurn)
  if reason = .endTurn && s.hasToolUse then .toolUse else reason

def messageDeltaEvents (truncated : Bool) : Step := fun s =>
  if s.hasEmittedMessageDelta then ([], s)
  else ([.messageDelta (s.stopReason truncated) s.reportedUsage], { s with hasEmittedMessageDelta := true })

def hasOutput (s : ChatToAnthropicState) : Bool :=
  s.thinkingStopped || s.textStopped || s.tools.values.any (·.started)

def finalizeInner (truncated : Bool) : Step := fun s =>
  if s.finalized then ([], s)
  else
    let s := { s with finalized := true }
    if s.failed.isSome then ([], s)
    else if truncated && !s.sentMessageStart then
      ([.error "upstream stream ended before any output".toList], s)
    else
      let (events, s) := ensureMessageStart.followedBy flushContent s
      let (closeEvents, s) := closeOpenBlocks s
      if 0 < s.droppedTools && !s.hasOutput then
        ([.error "upstream returned tool_calls without function name and no other output".toList], s)
      else
        let (deltaEvents, s) := messageDeltaEvents truncated s
        (events ++ closeEvents ++ deltaEvents ++ [.messageStop], s)

def finalize : Step := finalizeInner false

def finalizeTruncated : Step := finalizeInner true

end ChatToAnthropicState

def anthropicStream (id model : Str) (chunks : List ChatStreamChunk) (truncated : Bool) : List AnthropicEvent :=
  ((forEach ChatToAnthropicState.processChunk chunks).followedBy
    (ChatToAnthropicState.finalizeInner truncated) (.new id model)).1

end LlmGateway
