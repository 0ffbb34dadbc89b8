import LlmGateway.Lib.Emitter
import LlmGateway.Lib.Utf8

/-- A server-sent event as it is handed on: its type, its data and the last event id. -/
structure EventStreamMessage where
  type : List Char
  data : List Char
  lastEventId : List Char
  deriving DecidableEq

/-- A parser between two bytes: no line has ended if `unstarted`, the last one with a carriage return if `afterCr`.
-/
structure EventStream where
  unstarted : Bool
  line : List UInt8
  afterCr : Bool
  data : List Char
  type : List Char
  lastEventId : List Char

namespace EventStream

open Emitter

def new : EventStream := ⟨true, [], false, [], [], []⟩

def byteOrderMark : List UInt8 := [0xEF, 0xBB, 0xBF]

def stripMark (bytes : List UInt8) : List UInt8 :=
  if byteOrderMark.isPrefixOf bytes then bytes.drop 3 else bytes

def field (name value : List Char) (s : EventStream) : EventStream :=
  if name = "data".toList then { s with data := s.data ++ value ++ ['\n'] }
  else if name = "event".toList then { s with type := value }
  else if name = "id".toList ∧ '\x00' ∉ value then { s with lastEventId := value }
  else s

/-- A line that is not blank: a comment, or a field with one space after the colon left out. -/
def interpret (text : List Char) (s : EventStream) : EventStream :=
  match text with
  | ':' :: _ => s
  | _ =>
    let value := match (text.dropWhile (· ≠ ':')).drop 1 with
      | ' ' :: value => value
      | value => value
    s.field (text.takeWhile (· ≠ ':')) value

/-- A blank line. An event without data is dropped together with its type. -/
def dispatch : Emitter EventStream EventStreamMessage := fun s =>
  let message : EventStreamMessage :=
    ⟨if s.type = [] then "message".toList else s.type, s.data.dropLast, s.lastEventId⟩
  (if s.data = [] then [] else [message], { s with data := [], type := [] })

/-- The end of a line. The byte order mark of the stream is the one its first line starts with. -/
def endLine : Emitter EventStream EventStreamMessage := fun s =>
  let line := if s.unstarted then stripMark s.line else s.line
  let s := { s with unstarted := false, line := [] }
  if line = [] then s.dispatch else ([], s.interpret (Utf8.decodeLossy line))

def read (byte : UInt8) : Emitter EventStream EventStreamMessage := fun s =>
  if byte = 0x0A then (if s.afterCr then ([], { s with afterCr := false }) else s.endLine)
  else if byte = 0x0D then endLine { s with afterCr := true }
  else ([], { s with line := s.line ++ [byte], afterCr := false })

/-- The events of a whole stream. What is unfinished at its end is dropped. -/
def messages (bytes : List UInt8) : List EventStreamMessage := (forEach read bytes new).1

example : messages (Utf8.encode "event: a\ndata: 1\r\ndata:2\r\r: note\nid: 7\n\ndata\n\ndata: 3\n") =
    [⟨"a".toList, "1\n2".toList, []⟩, ⟨"message".toList, [], "7".toList⟩] := by decide +kernel

/-- Nothing of an event has been read. -/
def between (s : EventStream) : Bool := s.data.isEmpty && s.type.isEmpty

/-- The parser stands at the start of a line. -/
def AtLineStart (s : EventStream) : Prop := s.line = [] ∧ s.afterCr = false

/-- A parser that has not seen the end of a line, as if it had. -/
def started (s : EventStream) : EventStream := { s with unstarted := false }

/-- `s'` reads on as `s` does: they are the same, or only `s` would leave out a byte order mark and none is there.
-/
def ReadsAs (future : List UInt8) (s s' : EventStream) : Prop :=
  s' = s ∨ s' = s.started ∧ s.afterCr = false ∧ ¬byteOrderMark <+: s.line ++ future

variable {s s' : EventStream} {byte : UInt8} {bytes future : List UInt8}

theorem stripMark_eq {line : List UInt8} (unmarked : ¬byteOrderMark <+: line ++ future) :
    stripMark line = line := by
  rw [stripMark, if_neg]
  rw [List.isPrefixOf_iff_prefix]
  exact fun marked => unmarked (marked.trans (List.prefix_append _ _))

theorem endLine_started (unmarked : ¬byteOrderMark <+: s.line ++ future) : s.started.endLine = s.endLine := by
  simp [endLine, started, stripMark_eq unmarked]

theorem ReadsAs.read (same : ReadsAs (byte :: future) s s') :
    (EventStream.read byte s').1 = (EventStream.read byte s).1 ∧
      ReadsAs future (EventStream.read byte s).2 (EventStream.read byte s').2 := by
  obtain rfl | ⟨rfl, noCr, unmarked⟩ := same
  · exact ⟨rfl, .inl rfl⟩
  have ended : ∀ cr, endLine { s.started with afterCr := cr } = endLine { s with afterCr := cr } := fun cr =>
    endLine_started (s := { s with afterCr := cr }) unmarked
  by_cases lf : byte = 0x0A
  · have same : EventStream.read byte s.started = EventStream.read byte s := by
      simp only [EventStream.read, lf, ↓reduceIte, noCr, Bool.false_eq_true]
      rw [show s.started.afterCr = false from noCr]
      exact endLine_started unmarked
    exact ⟨congrArg Prod.fst same, .inl (congrArg Prod.snd same)⟩
  by_cases cr : byte = 0x0D
  · have same : EventStream.read byte s.started = EventStream.read byte s := by
      simp only [EventStream.read, cr, ↓reduceIte]
      exact ended true
    exact ⟨congrArg Prod.fst same, .inl (congrArg Prod.snd same)⟩
  · simp only [EventStream.read, lf, cr, ↓reduceIte]
    refine ⟨trivial, .inr ⟨rfl, rfl, ?_⟩⟩
    rwa [List.append_assoc, List.singleton_append]

theorem ReadsAs.forEach (same : ReadsAs (bytes ++ future) s s') :
    (Emitter.forEach EventStream.read bytes s').1 = (Emitter.forEach EventStream.read bytes s).1 ∧
      ReadsAs future (Emitter.forEach EventStream.read bytes s).2
        (Emitter.forEach EventStream.read bytes s').2 := by
  induction bytes generalizing s s' with
  | nil => exact ⟨rfl, same⟩
  | cons byte bytes ih =>
    obtain ⟨sent, same⟩ := ReadsAs.read same
    obtain ⟨sentLater, same⟩ := ih same
    simp only [Emitter.forEach, followedBy_events, followedBy_state]
    exact ⟨by rw [sent, sentLater], same⟩

/-- A carriage return has always ended its line. -/
def CrEnds (s : EventStream) : Prop := s.afterCr = true → s.line = []

theorem endLine_line : s.endLine.2.line = [] := by
  simp only [endLine, dispatch, interpret, field]
  repeat' split
  all_goals rfl

theorem endLine_afterCr : s.endLine.2.afterCr = s.afterCr := by
  simp only [endLine, dispatch, interpret, field]
  repeat' split
  all_goals rfl

theorem read_crEnds : (read byte s).2.CrEnds := by
  simp only [read]
  split
  · split
    · exact nofun
    · exact fun _ => endLine_line
  · split
    · exact fun _ => endLine_line
    · exact nofun

theorem read_newline (held : s.CrEnds) : (read 0x0A s).2.AtLineStart := by
  simp only [read, ↓reduceIte]
  split
  · exact ⟨held ‹_›, rfl⟩
  next noCr =>
    exact ⟨endLine_line, endLine_afterCr.trans (Bool.not_eq_true _ ▸ noCr)⟩

theorem forEach_read_crEnds (held : s.CrEnds) : (forEach read bytes s).2.CrEnds :=
  forEach_invariant CrEnds (fun _ _ _ => read_crEnds) bytes held

theorem forEach_read_newline (held : s.CrEnds) (newline : bytes.getLast? = some 0x0A) :
    (forEach read bytes s).2.AtLineStart := by
  obtain ⟨before, rfl⟩ := List.getLast?_eq_some_iff.mp newline
  rw [forEach_append, followedBy_state]
  exact read_newline (forEach_read_crEnds held)

theorem forEach_read_plain (plain : ∀ byte ∈ bytes, byte ≠ 0x0A ∧ byte ≠ 0x0D) (noCr : s.afterCr = false) :
    forEach read bytes s = ([], { s with line := s.line ++ bytes }) := by
  induction bytes generalizing s with
  | nil => simp [forEach, quiet]
  | cons byte bytes ih =>
    obtain ⟨⟨notLf, notCr⟩, plain⟩ := List.forall_mem_cons.mp plain
    simp [forEach, followedBy, read, notLf, notCr, ih plain, noCr]

theorem decodeLossy_colon : Utf8.decodeLossy (0x3A :: bytes) = ':' :: Utf8.decodeLossy bytes := rfl

/-- A comment and a blank line after it are read over between two events. -/
theorem forEach_read_comment (plain : ∀ byte ∈ bytes, byte ≠ 0x0A ∧ byte ≠ 0x0D) (atLineStart : s.AtLineStart)
    (between : s.between = true) : forEach read (0x3A :: bytes ++ [0x0A, 0x0A]) s = ([], s.started) := by
  obtain ⟨unstarted, line, afterCr, data, type, lastEventId⟩ := s
  obtain ⟨rfl, rfl⟩ : line = [] ∧ afterCr = false := atLineStart
  obtain ⟨rfl, rfl⟩ : data = [] ∧ type = [] := by simpa [EventStream.between] using between
  have plain : ∀ byte ∈ 0x3A :: bytes, byte ≠ 0x0A ∧ byte ≠ 0x0D := List.forall_mem_cons.mpr ⟨by decide, plain⟩
  have unmarked : stripMark (0x3A :: bytes) = 0x3A :: bytes := by simp [stripMark, byteOrderMark]
  rw [forEach_append, followedBy, forEach_read_plain plain rfl]
  simp [forEach, followedBy, read, endLine, unmarked, decodeLossy_colon, interpret, dispatch, quiet, started]

end EventStream
