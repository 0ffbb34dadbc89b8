import LlmGateway.Lib.Pattern
import LlmGateway.Lib.Text
import LlmGateway.Lib.Utf8
import LlmGateway.Stream.Billing

namespace LlmGateway

def splitInclusive : Str → List Str
  | [] => []
  | c :: rest =>
    if c = '\n' then [c] :: splitInclusive rest
    else match splitInclusive rest with
      | [] => [[c]]
      | piece :: pieces => (c :: piece) :: pieces

def stripSuffix (last : Char) (text : Str) : Option Str :=
  if text.getLast? = some last then some text.dropLast else none

/-- `str::lines`: a line ends with a newline that a carriage return may precede. -/
def lines (text : Str) : List Str :=
  (splitInclusive text).map fun piece =>
    match stripSuffix '\n' piece with
    | some line => (stripSuffix '\r' line).getD line
    | none => piece

def stripStart (start text : Str) : Option Str :=
  if start.isPrefixOf text then some (text.drop start.length) else none

/-- `find_event_end`: a blank line ended by `\n` anywhere in the buffer goes
before one ended by `\r\n`. -/
def findEventEnd (buf : List UInt8) : Option Nat :=
  ((Pattern.position [0x0A, 0x0A] buf).map (· + 2)).or
    ((Pattern.position [0x0D, 0x0A, 0x0D, 0x0A] buf).map (· + 4))

/-- A line of an event that is read. -/
inductive SseField
  | data (text : Str)
  | event (name : Str)
  deriving DecidableEq

def SseField.ofLine (line : Str) : Option SseField :=
  match stripStart "data:".toList line with
  | some value => some (.data (Text.trim value))
  | none => match stripStart "event:".toList line with
    | some value => (Text.nonBlank value).map .event
    | none => none

def SseField.data? : SseField → Option Str
  | .data text => some text
  | .event _ => none

def SseField.event? : SseField → Option Str
  | .data _ => none
  | .event name => some name

def sseFields (event : List UInt8) : List SseField := (lines (Utf8.decodeLossy event)).filterMap SseField.ofLine

def doneMark : Str := "[DONE]".toList

def doneFrame : String := "data: [DONE]\n\n"

/-- What the loop of `push` makes of the fields of an event. -/
inductive SseOutcome
  | nothing
  | done
  | event (event : SseEvent)

def sseOutcome (fields : List SseField) : SseOutcome :=
  let dataLines := fields.filterMap SseField.data?
  if dataLines.isEmpty then .nothing
  else
    let data := List.intercalate ['\n'] dataLines
    if data = doneMark then .done
    else .event ⟨((fields.filterMap SseField.event?).getLast?).map String.ofList, String.ofList data⟩

/-- The loop of `push`: the bytes left, the events and whether `[DONE]` has come. -/
def drainEvents : Nat → List UInt8 → List UInt8 × List SseEvent × Bool
  | 0, buf => (buf, [], false)
  | rounds + 1, buf =>
    match findEventEnd buf with
    | none => (buf, [], false)
    | some idx => match sseOutcome (sseFields (buf.take idx)) with
      | .nothing => drainEvents rounds (buf.drop idx)
      | .done => (buf.drop idx, [], true)
      | .event event =>
        let (rest, events, done) := drainEvents rounds (buf.drop idx)
        (rest, event :: events, done)

structure ChatSseParser where
  buf : List UInt8

namespace ChatSseParser

def new : ChatSseParser := ⟨[]⟩

def maxBuffer : Nat := 1000000

def push (parser : ChatSseParser) (chunk : List UInt8) : ChatSseParser × List SseEvent × Bool :=
  let buf := parser.buf ++ chunk
  let (rest, events, done) := drainEvents buf.length buf
  (⟨if maxBuffer < rest.length then [] else rest⟩, events, done)

/-- The events of a stream up to its `[DONE]`, and whether there is one. -/
def parse (parser : ChatSseParser) : List (List UInt8) → List SseEvent × Bool
  | [] => ([], false)
  | chunk :: chunks =>
    let (parser, events, done) := parser.push chunk
    if done then (events, true)
    else
      let (later, done) := parser.parse chunks
      (events ++ later, done)

end ChatSseParser

end LlmGateway
