import LlmGateway.Chat.ChunkReader
import LlmGateway.Proxy.Failover
import LlmGateway.Proxy.Outbound
import LlmGateway.Stream.SseTokens

namespace LlmGateway

open Json List

/-- What a chunk says of a stream from which nothing has been passed on. -/
inductive PrimeSignal
  | neutral
  | terminal
  | productive
  | error (message : Str)
  deriving DecidableEq

namespace PrimeSignal

def rank : PrimeSignal → Nat
  | neutral => 0
  | terminal => 1
  | productive => 2
  | error _ => 3

/-- `Ord::max`, which takes the second of two equals. -/
def max (first second : PrimeSignal) : PrimeSignal := if second.rank < first.rank then first else second

end PrimeSignal

def streamPrimeMaxBytes : Nat := 256 * 1024

/-- The message of an error that the field `error` holds or the type names. -/
def envelopeMessage (v : Json) : Option Str :=
  let message := (((v.get "error").bind (·.get "message")).bind asStr).getD "upstream error".toList
  let envelope := (v.get "error").any fun err => isObject err &&
    ((err.get "message").isSome || (err.get "type").isSome)
  if envelope then some message
  else if v.getStr "type" = some "error".toList then some message
  else none

def frameErrorMessage (v : Json) (eventName : Option Str) : Option Str :=
  match envelopeMessage v with
  | some message => some ("upstream returned error payload in stream: ".toList ++ message)
  | none =>
    if eventName = some "error".toList then some "upstream stream emitted a named error event".toList else none

def hasContent : Json → Bool
  | .str text => !text.isEmpty
  | .arr parts => !parts.isEmpty
  | _ => false

def typeSignal (type : Str) : Option PrimeSignal :=
  if type = "content_block_delta".toList then some .productive
  else if type = "message_stop".toList then some .terminal
  else if "response.".toList.isPrefixOf type then
    if ["response.output", "response.function_call_arguments", "response.reasoning",
        "response.custom_tool_call_input"].any (·.toList.isPrefixOf type) then some .productive
    else if ["response.completed", "response.incomplete", "response.failed", "response.done"].any
      (·.toList = type) then some .terminal
    else some .neutral
  else none

def choiceSignal (choice : Json) : Option PrimeSignal :=
  if (choice.get "finish_reason").any (!·.isNull) then some .terminal
  else
    let delta := choice.get "delta"
    if (delta.bind (·.get "content")).any hasContent then some .productive
    else if (delta.bind (·.getStr "reasoning_content")).any (!·.isEmpty) then some .productive
    else if ((delta.bind (·.get "tool_calls")).bind asArr).any (!·.isEmpty) then some .productive
    else none

def primeSignalOf (v : Json) : PrimeSignal :=
  match (v.getStr "type").bind typeSignal with
  | some signal => signal
  | none =>
    match (((v.get "choices").bind asArr).getD []).findSome? choiceSignal with
    | some signal => signal
    | none => if (v.get "usage").isSome then .terminal else .neutral

section Prime

variable [FloatText]

def firstChunkError (bytes : List UInt8) : Option Str :=
  let bytes := (bytes.dropPrefix? [0xEF, 0xBB, 0xBF]).getD bytes
  let trimmed := bytes.dropWhile ([0x20, 0x09, 0x0D, 0x0A].contains ·)
  if trimmed.isEmpty || trimmed.head? = some 0x3A then none
  else
    -- the first data line, or the whole chunk
    let payload := match trimmed.dropPrefix? (Utf8.encode "data:") with
      | some rest => rest.takeWhile (· ≠ 0x0A)
      | none => trimmed
    let payload := payload.dropWhile ([0x20, 0x09, 0x0D].contains ·)
    if payload.isEmpty then none
    else ((jsonOfBytes payload).bind envelopeMessage).map
      ("upstream returned error payload in first chunk: ".toList ++ ·)

/-- The lines of an event. An error ends it, whatever the signal was. -/
def primeLines (eventName : Option Str) (signal : PrimeSignal) : List Str → PrimeSignal
  | [] => signal
  | line :: rest =>
    match stripStart "data:".toList line with
    | none => primeLines eventName signal rest
    | some value =>
      if Text.trim value = doneMark then primeLines eventName (signal.max .terminal) rest
      else
        match parse (Text.trim value) with
        | none => primeLines eventName signal rest
        | some v =>
          match frameErrorMessage v eventName with
          | some message => .error message
          | none => primeLines eventName (signal.max (primeSignalOf v)) rest

def primeEvent (signal : PrimeSignal) (event : List UInt8) : PrimeSignal :=
  let text := Utf8.decodeLossy event
  primeLines (((lines text).findSome? (stripStart "event:".toList)).map Text.trim) signal (lines text)

/-- The loop of `feed`: the bytes left and the signal. -/
def primeEvents : Nat → PrimeSignal → List UInt8 → List UInt8 × PrimeSignal
  | 0, signal, buf => (buf, signal)
  | rounds + 1, signal, buf =>
    match findEventEnd buf with
    | none => (buf, signal)
    | some idx => primeEvents rounds (primeEvent signal (buf.take idx)) (buf.drop idx)

structure PrimeState where
  buf : List UInt8

def PrimeState.feed (primer : PrimeState) (chunk : List UInt8) : PrimeState × PrimeSignal :=
  let buf := primer.buf ++ chunk
  let (rest, signal) := primeEvents buf.length .neutral buf
  (⟨rest⟩, if streamPrimeMaxBytes < rest.length then signal.max .productive else signal)

/-- The variables of the priming loop. -/
structure PrimeLoop where
  primer : PrimeState
  bufferedBytes : Nat
  /-- nothing has been buffered -/
  empty : Bool

namespace PrimeLoop

def new : PrimeLoop := ⟨⟨[]⟩, 0, true⟩

/-- One round of the loop. The window is full when the loop would go on with `streamPrimeMaxBytes` bytes. -/
def take (loop : PrimeLoop) : Except String (List UInt8) → Except Priming PrimeLoop
  | .error error => .error (.transportError error.toList)
  | .ok chunk =>
    match firstChunkError chunk with
    | some message => .error (.errorEnvelope message)
    | none =>
      let (primer, signal) := loop.primer.feed chunk
      let bufferedBytes := loop.bufferedBytes + chunk.length
      match signal with
      | .error message => .error (.errorEnvelope message)
      | .productive | .terminal => .error .committed
      | .neutral =>
        if streamPrimeMaxBytes ≤ bufferedBytes then .error .committed else .ok ⟨primer, bufferedBytes, false⟩

/-- The end of the upstream before the loop has come to a verdict. -/
def ended (loop : PrimeLoop) (passesBody : Bool) : Priming :=
  if passesBody && !loop.empty then .body else .ended loop.empty

end PrimeLoop

/-- The verdict on a stream. `passesBody` stands for a successful answer that is not `text/event-stream`. -/
def primeStream (passesBody : Bool) (items : List (Except String (List UInt8))) : Priming :=
  match items.foldlM PrimeLoop.take .new with
  | .error verdict => verdict
  | .ok loop => loop.ended passesBody

end Prime

end LlmGateway
