import LlmGateway.Anthropic.Stream
import LlmGateway.Chat.ChunkReader
import LlmGateway.Responses.Stream
import LlmGateway.Stream.SseParser

namespace LlmGateway

open ChatStreamChunk

section Frames

variable {π σ γ β η : Type*} (conv : Converter π σ γ β η)

def Converter.read (frame : SseEvent) : Option γ :=
  (conv.fromJsonStr frame.data).map fun cc =>
    if !conv.hasError cc && frame.event == some "error" then conv.setError cc frame.data else cc

theorem Converter.frame_unread {conv : Converter π σ γ β η} {frame : SseEvent} (unread : conv.read frame = none)
    (acc : σ × List β × Bool) : conv.frame acc frame = acc := by
  rw [read, Option.map_eq_none_iff] at unread
  rw [Converter.frame, unread]

theorem Converter.frame_read {conv : Converter π σ γ β η} {frame : SseEvent} {cc : γ}
    (read : conv.read frame = some cc)
    (acc : σ × List β × Bool) : conv.frame acc frame = ((conv.processChunk acc.1 cc).1,
      acc.2.1 ++ (conv.processChunk acc.1 cc).2, acc.2.2 || conv.hasFailed (conv.processChunk acc.1 cc).1) := by
  rw [Converter.read, Option.map_eq_some_iff] at read
  obtain ⟨raw, parsed, rfl⟩ := read
  rw [Converter.frame, parsed]

def Converter.convert (s : σ) (payloads : List SseEvent) : σ × List β × Bool :=
  payloads.foldl conv.frame (s, [], false)

variable {conv} {ctx : ConvertCtx π σ η} {chunk : β}

theorem wrapConverted_finishes (running : ctx.finished = false)
    (ends : ((conv.push ctx.parser chunk).2.2 ||
      (conv.convert ctx.state (conv.push ctx.parser chunk).2.1).2.2)) :
    (wrapConverted conv).onItem ctx (.ok chunk) =
      let converted := conv.convert ctx.state (conv.push ctx.parser chunk).2.1
      let closed := conv.finalize converted.1
      (⟨(conv.push ctx.parser chunk).1, closed.1, true, ctx.history ++ (conv.snapshot closed.1).toList⟩, true,
        .ok (converted.2.1 ++ closed.2)) := by
  have swap : (((conv.push ctx.parser chunk).2.2 ||
      (conv.convert ctx.state (conv.push ctx.parser chunk).2.1).2.2) && !ctx.finished) := by
    rw [ends, running]
    rfl
  exact if_pos swap

theorem wrapConverted_goesOn (quiet : ctx.finished ∨ ((conv.push ctx.parser chunk).2.2 ||
      (conv.convert ctx.state (conv.push ctx.parser chunk).2.1).2.2) = false) :
    (wrapConverted conv).onItem ctx (.ok chunk) =
      ({ ctx with
          parser := (conv.push ctx.parser chunk).1
          state := (conv.convert ctx.state (conv.push ctx.parser chunk).2.1).1 }, false,
        .ok (conv.convert ctx.state (conv.push ctx.parser chunk).2.1).2.1) := by
  have noSwap : ¬(((conv.push ctx.parser chunk).2.2 ||
      (conv.convert ctx.state (conv.push ctx.parser chunk).2.1).2.2) && !ctx.finished) := by
    rcases quiet with finished | unended
    · simp [finished]
    · simp [unended]
  exact if_neg noSwap

end Frames

/-- What passes through a converting wrapper: bytes of the upstream on the way in, events on the way out. -/
inductive Wire (ε : Type*)
  | bytes (chunk : List UInt8)
  | event (event : ε)

namespace Wire

variable {ε σ : Type*}

def push (parser : ChatSseParser) : Wire ε → ChatSseParser × List SseEvent × Bool
  | bytes chunk => parser.push chunk
  | event _ => (parser, [], false)

def frames (step : List ε × σ) : σ × List (Wire ε) := (step.2, step.1.map event)

def satisfies (test : ε → Bool) : Wire ε → Bool
  | bytes _ => false
  | event e => test e

end Wire

def ChatUsage.billed (usage : ChatUsage) : Usage where
  promptTokens := some usage.input
  completionTokens := some usage.output
  inputTokens := none
  outputTokens := none
  cacheReadTokens := some usage.cachedTokens
  cacheWriteTokens := some usage.cacheWriteTokens

def ChatStreamChunk.setError (chunk : ChatStreamChunk) (data : String) : ChatStreamChunk :=
  { chunk with error := some (.obj [("message", .str data.toList)]) }

namespace ChatToAnthropicState

def transportError (message : Str) : Emitter ChatToAnthropicState AnthropicEvent := fun s =>
  if s.failed.isSome then ([], s) else ([.error message], { s with failed := some message })

end ChatToAnthropicState

section Converters

variable [FloatText] [FloatCast]

/-- The parts of `wrap_chat_stream_to_anthropic`. -/
def anthropicConverter : Converter ChatSseParser ChatToAnthropicState ChatStreamChunk
    (Wire AnthropicEvent) Unit where
  push := Wire.push
  fromJsonStr := fromJsonStr
  hasError chunk := chunk.error.isSome
  setError := setError
  processChunk s chunk := Wire.frames (s.processChunk chunk)
  hasFailed s := s.failed.isSome
  finalize s := Wire.frames s.finalize
  finalizeTruncated s := Wire.frames s.finalizeTruncated
  transportError s message := Wire.frames (s.transportError message.toList)
  billingUsage s := s.usage.map ChatUsage.billed
  snapshot _ := none

/-- The parts of `wrap_chat_stream_to_responses`, with `snapshot_from_events_typed` of the finalized state. -/
def responsesConverter [TableOrder] : Converter ChatSseParser ChatToResponsesStreamState ChatStreamChunk
    (Wire ResponsesEvent) (Str × List ResponsesOutputOut) where
  push := Wire.push
  fromJsonStr := fromJsonStr
  hasError chunk := chunk.error.isSome
  setError := setError
  processChunk s chunk := Wire.frames (s.processChunk chunk)
  hasFailed s := s.failedError.isSome
  finalize s := Wire.frames s.finalize
  finalizeTruncated s := Wire.frames s.finalizeTruncated
  transportError s message := Wire.frames (s.recordTransportError message.toList)
  billingUsage s := s.usage.map ChatUsage.billed
  snapshot s := some (s.finalResponse.id, s.finalResponse.output)

end Converters

def textFrame : String := "data: \x7b\"choices\":[\x7b\"delta\":\x7b\"content\":\"a\"\x7d\x7d]\x7d\n\n"

end LlmGateway
