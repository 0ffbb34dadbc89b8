import LlmGateway.Responses.Spoken
import LlmGateway.Stream.FinalBlank

namespace LlmGateway

open Emitter List Option

namespace ResponseHistoryStore

variable {store : ResponseHistoryStore} {id : Str}

theorem evict_last {map : Str → Option Json} {order : List Str} (fresh : id ∉ order) :
    (evict map (order ++ [id])).map id = map id := by
  induction order generalizing map with
  | nil => rfl
  | cons oldest rest ih =>
    rw [mem_cons, not_or] at fresh
    obtain ⟨other, later⟩ := fresh
    rw [cons_append, evict]
    split_ifs
    · rw [ih later, Function.update_of_ne other]
    · rfl

theorem restore_record (fresh : id ∉ store.order) (absent : store.map id = none) (items : Json) :
    ((store.record id items).restore id).1 = if recordable id items then some items else none := by
  rw [restore, record]
  split_ifs
  · rw [touch_map, insert, absent]
    dsimp only [isSome_none]
    rw [if_neg Bool.false_ne_true, evict_last fresh, Function.update_self]
  · exact absent

end ResponseHistoryStore

/-- The identifier of a request: a UUID in its written form. -/
structure RequestId where
  text : Str
  length : Text.utf8Len text = 36

def RequestId.responseId (id : RequestId) : Str := "resp_".toList ++ id.text

theorem RequestId.plausible (id : RequestId) : plausibleResponseId id.responseId := by
  have long : Text.utf8Len id.responseId = 41 := by
    rw [responseId, Text.utf8Len_append, id.length]
    rfl
  rw [plausibleResponseId, long]
  rfl

theorem RequestId.responseId_ne_nil (id : RequestId) : id.responseId.isEmpty = false := rfl

def outputJson (output : List ResponsesOutputOut) : Json := .arr (output.map ResponsesOutputOut.toJson)

theorem recordable_outputJson (id : RequestId) (output : List ResponsesOutputOut) :
    ResponseHistoryStore.recordable id.responseId (outputJson output) ↔
      output ≠ [] ∧ Text.utf8Len (outputJson output).print ≤ maxEntryBytes := by
  rw [ResponseHistoryStore.recordable, id.plausible, Bool.true_and, Bool.and_eq_true, decide_eq_true_eq]
  cases output <;> simp [outputJson, Json.asArr]

theorem recordable_nil (id : Str) : ResponseHistoryStore.recordable id (outputJson []) = false := by
  simp [ResponseHistoryStore.recordable, outputJson, Json.asArr]

def ResponsesEvent.ending : ResponsesEvent → Option (ResponseStatus × List ResponsesOutputOut)
  | terminal type response _ _ => some (type, response.output)
  | _ => none

def Wire.ending : Wire ResponsesEvent → Option (ResponseStatus × List ResponsesOutputOut)
  | bytes _ => none
  | event e => e.ending

theorem ResponsesEvent.ending_of_not_terminal {event : ResponsesEvent} (going : event.isTerminal = false) :
    event.ending = none := by
  cases event <;> first | rfl | cases going

/-- How the upstream answers a converted request. -/
inductive UpstreamAnswer
  /-- a streamed request is answered by a stream -/
  | events (chunks : List (Except String (List UInt8)))
  /-- a streamed request is answered by one body -/
  | body (bytes : List UInt8)
  /-- the answer to a request that was not streamed -/
  | whole (bytes : List UInt8)
  /-- an error status, or nothing that could be converted -/
  | failure

/-- What the client has got, and the history after it. -/
structure Delivered where
  ending : Option (ResponseStatus × List ResponsesOutputOut)
  store : ResponseHistoryStore

def Delivered.Restores (reply : Delivered) (id : Str) : Prop :=
  (reply.store.restore id).1 = reply.ending.bind fun ending =>
    if (ending.1 = .completed ∨ ending.1 = .incomplete) ∧ ending.2 ≠ [] ∧
      Text.utf8Len (outputJson ending.2).print ≤ maxEntryBytes then some (outputJson ending.2) else none

/-- What has been delivered would be taken by the store if it is not empty. -/
def Delivered.Fits (reply : Delivered) : Prop :=
  ∀ ending, reply.ending = some ending → Text.utf8Len (outputJson ending.2).print ≤ maxEntryBytes

def hasUsableChoices (body : Json) : Bool :=
  ((body.get "choices").bind Json.asArr).any fun choices => !choices.isEmpty

section Deliver

variable [FloatText] [FloatCast] [TableOrder]

def chunkOfBody (bytes : List UInt8) : Option ChatStreamChunk :=
  ((jsonOfBytes bytes).map ChatStreamChunk.fromJson).filter fun chunk =>
    !(chunk.choices.isEmpty || chunk.error.isSome)

def synthesizeSseFromChatBody (bytes : List UInt8) (id model : Str) (created : I64) (toolCtx : ToolContext) :
    Option (List ResponsesEvent) :=
  (chunkOfBody bytes).map fun chunk => responsesStream id model created toolCtx [chunk]

/-- The stream that the client reads to its end, and the history when it has done so. A stream that is given up
leaves nothing. -/
def deliverEvents (store : ResponseHistoryStore) (chunks : List (Except String (List UInt8)))
    (s : ChatToResponsesStreamState) : Delivered :=
  match primeStream false chunks with
  | .committed =>
    let wrapper := wrapChatStreamToResponses responsesConverter
    let items := chunks.map (·.map Wire.bytes)
    let after := (wrapper.onEnd (wrapper.through (.new .new s) false items).1).1
    { ending := (sentFrames (wrapper.serve (.new .new s) false items).1).findSome? Wire.ending
      store := after.history.foldl (fun store kept => store.record kept.1 (outputJson kept.2)) store }
  | _ => ⟨none, store⟩

/-- The reply to a converted request, by the form of the answer. -/
def deliver (store : ResponseHistoryStore) (id model : Str) (created : I64) (toolCtx : ToolContext) :
    UpstreamAnswer → Delivered
  | .events chunks => deliverEvents store chunks (.new id model created toolCtx)
  | .body bytes =>
    ⟨(synthesizeSseFromChatBody bytes id model created toolCtx).bind (·.findSome? ResponsesEvent.ending), store⟩
  | .whole bytes =>
    match (jsonOfBytes bytes).filter hasUsableChoices with
    | none => ⟨none, store⟩
    | some body =>
      let response := chatResponseToResponses body id created toolCtx
      ⟨some (response.status, response.output), store.record response.id (outputJson response.output)⟩
  | .failure => ⟨none, store⟩

end Deliver

namespace ChatToResponsesStreamState

def fixed (s : ChatToResponsesStreamState) : Str × Option Json × Bool := (s.id, s.failedError, s.finalized)

section Fixed

variable [FloatText] [TableOrder] {s : ChatToResponsesStreamState}

theorem keeps_fixed (known : Str × Option Json × Bool) :
    Guard.free.Keeps (fun _ _ => some ()) fun s (_ : Unit) => s.fixed = known where
  think _ _ _ same := same
  reasoning delta := .of_state fun s same => by
    obtain ⟨next, order, index, frame⟩ := appendReasoningDelta_frame s delta
    rw [frame]
    exact same
  text delta := .of_state fun s held => by
    obtain ⟨next, order, index, frame⟩ := appendTextDelta_frame s delta
    rw [frame]
    exact held.1
  reason s _ reason same := by
    unfold applyFinishReason
    dsimp only
    split <;> exact same
  call call := .of_state fun s held => by
    obtain ⟨next, order, tools, key, frame⟩ := appendToolCallDelta_frame s call
    rw [frame]
    exact held.1
  done := .of_state fun s held => by
    obtain ⟨next, order, tools, dropped, frame⟩ := doneDeltaEvents_frame s
    rw [frame]
    exact held.1

theorem closed_fixed : s.closed.fixed = (s.id, s.failedError, true) := by
  obtain ⟨-, -, same⟩ := (keeps_fixed (s.id, s.failedError, true)).closing { s with finalized := true } ()
    ⟨rfl, endGuarded_free _⟩
  exact same

theorem processChunk_fixed (chunk : ChatStreamChunk) (named : s.id.isEmpty = false) :
    (processChunk chunk s).2.fixed =
    (s.id, s.failedError.or (chunk.error.map extractStreamError), s.finalized) := by
  unfold processChunk
  split
  next broken =>
    obtain ⟨err, known⟩ := isSome_iff_exists.mp broken
    rw [fixed, known, some_or]
  next healthy =>
    rw [Bool.not_eq_true, isSome_eq_false_iff, isNone_iff_eq_none] at healthy
    split
    next err found =>
      rw [healthy, found]
      rfl
    next fine =>
      have header : (ensureCreated (noteHeader chunk s)).2.fixed = s.fixed := by
        unfold ensureCreated
        split <;> simp [fixed, noteHeader, named]
      obtain ⟨-, -, same⟩ := (keeps_fixed s.fixed).choices chunk.choices (ensureCreated (noteHeader chunk s)).2 ()
        ⟨header, along_of_forall choiceGuarded_free _ _⟩
      rw [fine, map_none, or_none]
      exact same

end Fixed

section Verdict

variable {s : ChatToResponsesStreamState} (truncated : Bool)

theorem Placed.order_nil (placed : s.Placed) (silent : s.hasAnyOutput = false) : s.outputOrder = [] := by
  have none : ¬(s.textStarted ∨ s.reasoningStarted ∨ ∃ key, s.Counts key) := fun some => by
    rw [hasAnyOutput_iff.mpr some] at silent
    cases silent
  refine eq_nil_iff_forall_not_mem.mpr fun ref mem => ?_
  cases ref with
  | message =>
    rw [placed.mem_order_iff, placeOf] at mem
    exact none (.inl (by by_contra unstarted; simp [unstarted] at mem))
  | reasoning =>
    rw [placed.mem_order_iff, placeOf] at mem
    exact none (.inr (.inl (by by_contra unstarted; simp [unstarted] at mem)))
  | tool key =>
    obtain ⟨tool, found, released⟩ := placed.tool_mem_order_iff.mp mem
    have sound := placed.sound key tool found
    have started := sound.started released
    refine none (.inr (.inr ⟨key, ?_⟩))
    rw [Counts, toolAt_eq found]
    refine ⟨started, Bool.eq_false_iff.mpr fun nameless => ?_⟩
    rw [(sound.nameless nameless).1] at started
    cases started

theorem verdict_broken (broken : s.failedError.isSome) :
    (s.verdict truncated).1.1 = .failed := by
  rw [verdict, if_pos broken]

variable [FloatText]

theorem verdict_output (placed : s.Placed) (silent : s.hasAnyOutput = false) :
    (s.verdict truncated).2.finalResponse.output = [] := by
  obtain ⟨status, reason, frame⟩ := verdict_frame truncated s
  rw [frame, finalResponse]
  exact congrArg (List.filterMap _) (placed.order_nil silent)

theorem verdict_healthy (placed : s.Placed) (healthy : s.failedError = none) :
    (s.verdict truncated).1.1 = .failed ∧ (s.verdict truncated).2.finalResponse.output = [] ∨
      (s.verdict truncated).1.1 = .completed ∨ (s.verdict truncated).1.1 = .incomplete := by
  cases silent : s.hasAnyOutput with
  | false =>
    have nothing := verdict_output truncated placed silent
    rw [nothing]
    unfold verdict outputStatus
    rw [healthy, if_neg (by simp)]
    split_ifs <;> simp
  | true =>
    right
    simp only [verdict, healthy, silent, outputStatus, isSome_none, Bool.not_true, Bool.and_false,
      Bool.false_and, Bool.false_eq_true, if_false]
    split_ifs <;> simp

end Verdict

section Ending

variable {s : ChatToResponsesStreamState} {id : Str} {sent : List (Wire ResponsesEvent)}

/-- A stream that is still to be ended, with the identifier it was given. -/
structure Steady (id : Str) (s : ChatToResponsesStreamState) (sent : List (Wire ResponsesEvent)) : Prop where
  running : s.Running sent
  named : s.id = id
  placed : s.Placed

theorem Steady.new (id model : Str) (created : I64) (toolCtx : ToolContext) :
    Steady id (.new id model created toolCtx) [] :=
  ⟨.new id model created toolCtx, rfl, .new id model created toolCtx⟩

variable [FloatText]

def lastOutput (s : ChatToResponsesStreamState) (truncated : Bool) : List ResponsesOutputOut :=
  (s.closed.verdict truncated).2.finalResponse.output

theorem finalizeInner_state (running : s.finalized = false) (truncated : Bool) :
    (finalizeInner truncated s).2 = (s.closed.verdict truncated).2 := by
  have last : (doneDeltaEvents (flushContent { s with finalized := true }).2).2 = s.closed := by
    rw [closed, followedBy_state]
  rw [finalizeInner, if_neg (by simp [running]), followedBy_state, followedBy_state, last]
  rfl

/-- How a stream ends and what is recorded: a transport error leaves nothing, an error of the upstream does. -/
def Ends (id : Str) (type : ResponseStatus) (output : List ResponsesOutputOut)
    (history : List (Str × List ResponsesOutputOut)) : Option ChatToResponsesStreamState → Prop
  | some s => type = .failed ∧ output = s.lastOutput false ∧ history = [(id, output)]
  | none => type = .failed ∧ (history = [] ∨ output = [] ∧ history = [(id, output)]) ∨
      (type = .completed ∨ type = .incomplete) ∧ history = [(id, output)]

theorem ends_transport {type : ResponseStatus} {output : List ResponsesOutputOut} (failed : type = .failed) :
    Ends id type output [] none :=
  .inl ⟨failed, .inl rfl⟩

variable [TableOrder]

theorem Steady.processChunk (steady : Steady id s sent) (nonempty : id.isEmpty = false) (chunk : ChatStreamChunk) :
    Steady id (processChunk chunk s).2 (sent ++ (processChunk chunk s).1.map Wire.event) := by
  obtain ⟨-, -, placed⟩ := Placed.kept.guarded.chunk chunk s () ⟨steady.placed, chunkGuarded_free s chunk⟩
  have same := processChunk_fixed chunk (steady.named ▸ nonempty)
  exact ⟨steady.running.processChunk chunk, (congrArg Prod.fst same).trans steady.named, placed⟩

theorem Steady.ending (steady : Steady id s sent) (truncated : Bool) :
    (sent ++ (finalizeInner truncated s).1.map Wire.event).findSome? Wire.ending =
      some ((s.closed.verdict truncated).1.1, s.lastOutput truncated) := by
  have going := steady.running.1
  obtain ⟨-, events, rfl, unended⟩ := steady.running
  obtain ⟨trace, remembered, after⟩ := unended_keeps.closing { s with finalized := true } events
    ⟨unended, endGuarded_free _⟩
  rw [run_remember] at remembered
  cases remembered
  have before : (events ++ (flushContent.followedBy doneDeltaEvents { s with finalized := true }).1).findSome?
      ResponsesEvent.ending = none := by
    rw [List.findSome?_eq_none_iff]
    exact fun event mem => ResponsesEvent.ending_of_not_terminal (after event mem)
  rw [finalizeInner_events going, ← map_append, ← append_assoc, List.findSome?_map]
  show List.findSome? ResponsesEvent.ending _ = _
  rw [List.findSome?_append, before, none_or]
  rfl

theorem Steady.finalId (steady : Steady id s sent) (truncated : Bool) :
    (s.closed.verdict truncated).2.finalResponse.id = id := by
  obtain ⟨status, reason, frame⟩ := verdict_frame truncated s.closed
  have kept : s.closed.id = s.id := congrArg Prod.fst closed_fixed
  rw [frame]
  show s.closed.id = id
  rw [kept, steady.named]

theorem closed_failedError : s.closed.failedError = s.failedError := congrArg (·.2.1) closed_fixed

theorem closed_broken (truncated : Bool) (broken : s.failedError.isSome) :
    (s.closed.verdict truncated).1.1 = .failed := by
  refine verdict_broken truncated ?_
  rw [closed_failedError]
  exact broken

theorem ends_broken (broken : s.failedError.isSome) :
    Ends id (s.closed.verdict false).1.1 (s.lastOutput false) [(id, s.lastOutput false)] (some s) :=
  ⟨closed_broken false broken, rfl, rfl⟩

theorem Steady.ends (steady : Steady id s sent) (healthy : s.failedError = none) (truncated : Bool) :
    Ends id (s.closed.verdict truncated).1.1 (s.lastOutput truncated) [(id, s.lastOutput truncated)] none := by
  rcases verdict_healthy truncated steady.placed.closed (closed_failedError.trans healthy) with
    ⟨failed, none⟩ | done
  · exact .inl ⟨failed, .inr ⟨none, rfl⟩⟩
  · exact .inr ⟨done, rfl⟩

end Ending

section Stream

variable [FloatText] [FloatCast] [TableOrder] {s : ChatToResponsesStreamState} {id : Str}
  {sent : List (Wire ResponsesEvent)}

/-- The state in which an error of the upstream ends the stream. -/
def errorState (parser : ChatSseParser) (s : ChatToResponsesStreamState) :
    List (Except String (List UInt8)) → Option ChatToResponsesStreamState
  | [] => none
  | .error _ :: _ => none
  | .ok chunk :: rest =>
    let (parser, payloads, terminal) := parser.push chunk
    let s := (responsesConverter.convert s payloads).1
    if s.failedError.isSome then some s
    else if terminal then none
    else errorState parser s rest

theorem errorState_ok (parser : ChatSseParser) (bytes : List UInt8) (rest : List (Except String (List UInt8))) :
    errorState parser s (.ok bytes :: rest) =
      if (responsesConverter.convert s (parser.push bytes).2.1).1.failedError.isSome then
        some (responsesConverter.convert s (parser.push bytes).2.1).1
      else if (parser.push bytes).2.2 then none
      else errorState (parser.push bytes).1 (responsesConverter.convert s (parser.push bytes).2.1).1 rest := rfl

theorem Steady.convert (steady : Steady id s sent) (nonempty : id.isEmpty = false) (healthy : s.failedError = none)
    (payloads : List SseEvent) :
    Steady id (responsesConverter.convert s payloads).1 (sent ++ (responsesConverter.convert s payloads).2.1) ∧
      (responsesConverter.convert s payloads).2.2 =
        (responsesConverter.convert s payloads).1.failedError.isSome := by
  suffices all : ∀ (s : ChatToResponsesStreamState) (out : List (Wire ResponsesEvent)) (failed : Bool),
      Steady id s (sent ++ out) → failed = s.failedError.isSome →
      Steady id (payloads.foldl responsesConverter.frame (s, out, failed)).1
          (sent ++ (payloads.foldl responsesConverter.frame (s, out, failed)).2.1) ∧
        (payloads.foldl responsesConverter.frame (s, out, failed)).2.2 =
          (payloads.foldl responsesConverter.frame (s, out, failed)).1.failedError.isSome by
    refine all s [] false ?_ (by rw [healthy]; rfl)
    rwa [append_nil]
  induction payloads with
  | nil => exact fun s out failed steady flag => ⟨steady, flag⟩
  | cons payload rest ih =>
    intro s out failed steady flag
    rw [foldl_cons]
    cases read : responsesConverter.read payload with
    | none =>
      rw [Converter.frame_unread read]
      exact ih s out failed steady flag
    | some chunk =>
      rw [Converter.frame_read read]
      refine ih _ _ _ ?_ ?_
      · rw [← append_assoc]
        exact steady.processChunk nonempty chunk
      · have noted : (ChatToResponsesStreamState.processChunk chunk s).2.failedError =
            s.failedError.or (chunk.error.map extractStreamError) :=
          congrArg (·.2.1) (processChunk_fixed chunk (steady.named ▸ nonempty))
        show (failed || (ChatToResponsesStreamState.processChunk chunk s).2.failedError.isSome) =
          (ChatToResponsesStreamState.processChunk chunk s).2.failedError.isSome
        rw [noted, flag, isSome_or, ← Bool.or_assoc, Bool.or_self]

theorem convert_state (payloads : List SseEvent) : (responsesConverter.convert s payloads).1 =
    (forEach processChunk (payloads.filterMap responsesConverter.read) s).2 := by
  suffices all : ∀ (s : ChatToResponsesStreamState) (out : List (Wire ResponsesEvent)) (failed : Bool),
      (payloads.foldl responsesConverter.frame (s, out, failed)).1 =
        (forEach processChunk (payloads.filterMap responsesConverter.read) s).2 from all s [] false
  induction payloads with
  | nil => exact fun s out failed => rfl
  | cons payload rest ih =>
    intro s out failed
    rw [foldl_cons]
    cases read : responsesConverter.read payload with
    | none => rw [Converter.frame_unread read, filterMap_cons_none read, ih]
    | some chunk =>
      rw [Converter.frame_read read, filterMap_cons_some read, ih, forEach, followedBy_state]
      rfl

end Stream

section Broken

variable [FloatText] [TableOrder] {s : ChatToResponsesStreamState} {chunks before : List ChatStreamChunk}
  {chunk : ChatStreamChunk} {err : Json}

theorem run_fine (named : s.id.isEmpty = false) (healthy : s.failedError = none) (chunks : List ChatStreamChunk)
    (fine : ∀ chunk ∈ chunks, chunk.error = none) : (forEach processChunk chunks s).2.id.isEmpty = false ∧
      (forEach processChunk chunks s).2.failedError = none := by
  induction chunks generalizing s with
  | nil => exact ⟨named, healthy⟩
  | cons chunk rest ih =>
    obtain ⟨first, later⟩ := forall_mem_cons.mp fine
    have fixed := processChunk_fixed chunk named
    rw [healthy, first] at fixed
    have same : (processChunk chunk s).2.id = s.id := congrArg Prod.fst fixed
    rw [forEach, followedBy_state]
    exact ih (same ▸ named) (congrArg (·.2.1) fixed) later

theorem run_utters (speech : Speech) (named : s.id.isEmpty = false) (healthy : s.failedError = none)
    (utters : s.Utters speech) (fine : ∀ chunk ∈ chunks, chunk.error = none) :
    (forEach processChunk chunks s).2.Utters ((fragments chunks).foldl Speech.hear speech) := by
  induction chunks generalizing s speech with
  | nil => exact utters
  | cons chunk rest ih =>
    obtain ⟨first, later⟩ := forall_mem_cons.mp fine
    obtain ⟨known, unbroken⟩ := run_fine named healthy [chunk] (by simpa using first)
    rw [forEach, followedBy_state, fragments, flatMap_cons, foldl_append]
    exact ih _ known unbroken (utters.chunk healthy first) later

omit [FloatText] [TableOrder] in
theorem exists_first_error (broken : chunks.any (·.error.isSome) = true) : ∃ chunk after,
    chunks = chunks.takeWhile (·.error.isNone) ++ chunk :: after ∧ chunk.error.isSome = true := by
  have split := takeWhile_append_dropWhile (p := fun chunk : ChatStreamChunk => chunk.error.isNone) (l := chunks)
  cases rest : chunks.dropWhile (·.error.isNone) with
  | nil =>
    obtain ⟨chunk, mem, found⟩ := List.any_eq_true.mp broken
    have none := dropWhile_eq_nil_iff.mp rest chunk mem
    simp_all
  | cons chunk after =>
    have found := head_dropWhile_not (fun chunk : ChatStreamChunk => chunk.error.isNone) (l := chunks)
      (by simp [rest])
    simp only [rest] at split found
    exact ⟨chunk, after, split.symm, by simpa using found⟩

theorem run_broken (healthy : (forEach processChunk before s).2.failedError = none) (after : List ChatStreamChunk)
    (found : chunk.error = some err) :
    (forEach processChunk (before ++ chunk :: after) s).2 =
      { (forEach processChunk before s).2 with failedError := some (extractStreamError err) } := by
  rw [forEach_append, followedBy_state]
  generalize (forEach processChunk before s).2 = t at healthy
  have broken : (processChunk chunk t).2 = { t with failedError := some (extractStreamError err) } := by
    simp [processChunk, healthy, found]
  rw [forEach, followedBy_state, broken]
  refine congrArg Prod.snd (forEach_idle fun other _ => ?_)
  simp [processChunk]

end Broken

section Upstream

variable [FloatText] [FloatCast] [TableOrder] {s : ChatToResponsesStreamState}

/-- The chunks before the first one with an error, if it is such a one that ends the stream. -/
def brokenAfter (parser : ChatSseParser) : List (Except String (List UInt8)) → Option (List ChatStreamChunk)
  | [] => none
  | .error _ :: _ => none
  | .ok bytes :: rest =>
    let (parser, payloads, terminal) := parser.push bytes
    let chunks := payloads.filterMap responsesConverter.read
    if chunks.any (·.error.isSome) then some (chunks.takeWhile (·.error.isNone))
    else if terminal then none
    else (brokenAfter parser rest).map (chunks ++ ·)

theorem mem_brokenAfter {parser : ChatSseParser} {items : List (Except String (List UInt8))}
    {before : List ChatStreamChunk} (found : brokenAfter parser items = some before) :
    ∀ chunk ∈ before, chunk.error = none := by
  induction items generalizing parser before with
  | nil => cases found
  | cons item rest ih =>
    cases item with
    | error message => cases found
    | ok bytes =>
      rw [brokenAfter] at found
      dsimp only at found
      split_ifs at found with broken
      · cases found
        exact fun chunk mem => by simpa using mem_takeWhile_imp mem
      · obtain ⟨later, known, rfl⟩ := map_eq_some_iff.mp found
        intro chunk mem
        rcases mem_append.mp mem with here | there
        · have none := mt (any_eq_true.mpr ⟨chunk, here, ·⟩) broken
          simpa using none
        · exact ih known chunk there

/-- The state in which the stream ends is that after the chunks before the error, with the error noted. -/
def StoppedAt (s : ChatToResponsesStreamState) (state : Option ChatToResponsesStreamState) :
    Option (List ChatStreamChunk) → Prop
  | none => state = none
  | some before => ∃ err, state =
      some { (forEach processChunk before s).2 with failedError := some (extractStreamError err) }

theorem errorState_stopped (named : s.id.isEmpty = false) (healthy : s.failedError = none) (parser : ChatSseParser)
    (items : List (Except String (List UInt8))) :
    s.StoppedAt (errorState parser s items) (brokenAfter parser items) := by
  induction items generalizing parser s with
  | nil => exact rfl
  | cons item rest ih =>
    cases item with
    | error message => exact rfl
    | ok bytes =>
      rw [errorState_ok, brokenAfter, convert_state]
      dsimp only
      generalize (parser.push bytes).2.1.filterMap responsesConverter.read = chunks
      by_cases broken : chunks.any (·.error.isSome) = true
      · obtain ⟨chunk, after, split, found⟩ := exists_first_error broken
        obtain ⟨err, found⟩ := isSome_iff_exists.mp found
        have fine : ∀ chunk ∈ chunks.takeWhile (·.error.isNone), chunk.error = none := fun chunk mem => by
          simpa using mem_takeWhile_imp mem
        have stopped := run_broken (run_fine named healthy _ fine).2 after found
        rw [← split] at stopped
        rw [stopped, if_pos broken]
        exact ⟨err, if_pos rfl⟩
      · have fine : ∀ chunk ∈ chunks, chunk.error = none := by simpa using broken
        obtain ⟨known, unbroken⟩ := run_fine named healthy chunks fine
        have later := ih known unbroken (parser.push bytes).1
        rw [if_neg broken, if_neg (by simp [unbroken])]
        split_ifs
        · exact rfl
        · cases ends : brokenAfter (parser.push bytes).1 rest with
          | none =>
            rw [ends] at later
            exact later
          | some before =>
            rw [ends] at later
            obtain ⟨err, state⟩ := later
            refine ⟨err, state.trans ?_⟩
            rw [forEach_append, followedBy_state]

end Upstream

end ChatToResponsesStreamState

section Serving

variable {π σ γ β η : Type*} {conv : Converter π σ γ β η} {ctx : ConvertCtx π σ η}

theorem sentFrames_cons (out : Except String (List β)) (sent : List (Except String (List β))) :
    sentFrames (out :: sent) = outFrames out ++ sentFrames sent := rfl

theorem through_cons (recorded : Bool) (item : Except String β) (rest : List (Except String β)) :
    (wrapConverted conv).through ctx recorded (item :: rest) = (wrapConverted conv).through
      ((wrapConverted conv).onItem ctx item).1 (recorded || ((wrapConverted conv).onItem ctx item).2.1) rest := by
  rw [Wrapper.through]
  dsimp only
  cases recorded <;> cases ((wrapConverted conv).onItem ctx item).2.1 <;> rfl

theorem serve_cons (recorded : Bool) (item : Except String β) (rest : List (Except String β)) :
    ((wrapConverted conv).serve ctx recorded (item :: rest)).1 = ((wrapConverted conv).onItem ctx item).2.2 ::
      ((wrapConverted conv).serve ((wrapConverted conv).onItem ctx item).1
        (recorded || ((wrapConverted conv).onItem ctx item).2.1) rest).1 := by
  rw [Wrapper.serve]
  dsimp only
  cases recorded <;> cases ((wrapConverted conv).onItem ctx item).2.1 <;> rfl

theorem history_finished (finished : ctx.finished) (recorded : Bool) (items : List (Except String β)) :
    ((wrapConverted conv).onEnd ((wrapConverted conv).through ctx recorded items).1).1.history = ctx.history := by
  induction items generalizing ctx recorded with
  | nil =>
    rw [Wrapper.through]
    simp [wrapConverted, finished]
  | cons item rest ih =>
    rw [through_cons]
    cases item with
    | error message =>
      have same : ((wrapConverted conv).onItem ctx (.error message)).1 = ctx := by
        simp [wrapConverted, finished]
      rw [same]
      exact ih finished _
    | ok chunk =>
      rw [wrapConverted_goesOn (.inl finished)]
      refine (ih ?_ _).trans rfl
      exact finished

end Serving

section Restore

open ChatToResponsesStreamState ResponseHistoryStore

variable {store : ResponseHistoryStore}

theorem restores_recorded (id : RequestId) (fresh : id.responseId ∉ store.order)
    (absent : store.map id.responseId = none) (type : ResponseStatus) (output : List ResponsesOutputOut) :
    Delivered.Restores ⟨some (type, output), store.record id.responseId (outputJson output)⟩ id.responseId ↔
      (type = .completed ∨ type = .incomplete) ∨ recordable id.responseId (outputJson output) = false := by
  have kept := recordable_outputJson id output
  simp only [Delivered.Restores, restore_record fresh absent, bind_some, ← kept]
  cases recordable id.responseId (outputJson output) with
  | true => by_cases done : type = .completed ∨ type = .incomplete <;> simp [done]
  | false => simp

theorem restores_broken_iff (id : RequestId) (fresh : id.responseId ∉ store.order)
    (absent : store.map id.responseId = none) (output : List ResponsesOutputOut) :
    Delivered.Restores ⟨some (.failed, output), store.record id.responseId (outputJson output)⟩ id.responseId ↔
      ¬(output ≠ [] ∧ Text.utf8Len (outputJson output).print ≤ maxEntryBytes) := by
  rw [restores_recorded id fresh absent, ← recordable_outputJson id]
  simp

theorem restores_unrecorded (id : RequestId) (absent : store.map id.responseId = none) (type : ResponseStatus)
    (output : List ResponsesOutputOut) : Delivered.Restores ⟨some (type, output), store⟩ id.responseId ↔
      ¬((type = .completed ∨ type = .incomplete) ∧ recordable id.responseId (outputJson output)) := by
  have kept := recordable_outputJson id output
  simp only [Delivered.Restores, restore, absent, bind_some, ← kept]
  split_ifs with expected
  · simp [expected]
  · simp [expected]

variable [FloatText]

theorem chatResponseToResponses_status (body : Json) (id : Str) (created : I64) (toolCtx : ToolContext) :
    let response := chatResponseToResponses body id created toolCtx
    (response.status = .completed ∨ response.status = .incomplete) ∨ response.output = [] := by
  intro response
  by_cases empty : response.output = []
  · exact .inr empty
  · left
    have shown : response.output.isEmpty = false := by simpa using empty
    have reported : response.status =
        (finishReasonToStatus (((firstChoice body).bind (Json.getStr · "finish_reason")).getD [])).1 := by
      refine if_neg fun failed => ?_
      rw [Bool.and_eq_true, Bool.and_eq_true] at failed
      exact absurd failed.1.2 (Bool.eq_false_iff.mp shown)
    rw [reported]
    unfold finishReasonToStatus
    dsimp only
    split_ifs <;> simp

variable [TableOrder]

theorem ending_responsesStream (id : RequestId) (model : Str) (created : I64) (toolCtx : ToolContext)
    {chunk : ChatStreamChunk} (fine : chunk.error = none) :
    let s := (processChunk chunk (.new id.responseId model created toolCtx)).2
    ∃ type, (responsesStream id.responseId model created toolCtx [chunk]).findSome? ResponsesEvent.ending =
        some (type, s.lastOutput false) ∧
      (type = .failed ∧ s.lastOutput false = [] ∨ type = .completed ∨ type = .incomplete) := by
  intro s
  have start := Steady.new id.responseId model created toolCtx
  have steady := start.processChunk id.responseId_ne_nil chunk
  have noted := processChunk_fixed (s := .new id.responseId model created toolCtx) chunk id.responseId_ne_nil
  have healthy : s.failedError = none := (congrArg (·.2.1) noted).trans (by rw [fine]; rfl)
  refine ⟨(s.closed.verdict false).1.1, ?_, ?_⟩
  · have events : responsesStream id.responseId model created toolCtx [chunk] =
        (processChunk chunk (.new id.responseId model created toolCtx)).1 ++ s.finalize.1 :=
      congrArg (· ++ _) (append_nil _)
    have last := steady.ending false
    rw [nil_append, ← map_append, List.findSome?_map] at last
    rw [events]
    exact last
  · exact verdict_healthy false steady.placed.closed (closed_failedError.trans healthy)

variable [FloatCast] {s : ChatToResponsesStreamState} {id : Str} {sent : List (Wire ResponsesEvent)}

theorem ends_finished {ctx : ConvertCtx ChatSseParser ChatToResponsesStreamState (Str × List ResponsesOutputOut)}
    {type : ResponseStatus} {output : List ResponsesOutputOut} {error : Option ChatToResponsesStreamState}
    (found : sent.findSome? Wire.ending = some (type, output)) (ends : Ends id type output ctx.history error)
    (finished : ctx.finished) (recorded : Bool) (items : List (Except String (Wire ResponsesEvent))) :
    ∃ type output, (sent ++ sentFrames ((wrapConverted responsesConverter).serve ctx recorded items).1).findSome?
        Wire.ending = some (type, output) ∧
      Ends id type output ((wrapConverted responsesConverter).onEnd ((wrapConverted responsesConverter).through
        ctx recorded items).1).1.history error := by
  refine ⟨type, output, ?_, ?_⟩
  · rw [List.findSome?_append, found, some_or]
  · rw [history_finished finished]
    exact ends

theorem serve_ends (steady : Steady id s sent) (nonempty : id.isEmpty = false) (healthy : s.failedError = none)
    (parser : ChatSseParser) (recorded : Bool) (chunks : List (Except String (List UInt8))) :
    ∃ type output, (sent ++ sentFrames ((wrapConverted responsesConverter).serve ⟨parser, s, false, []⟩ recorded
        (chunks.map (·.map Wire.bytes))).1).findSome? Wire.ending = some (type, output) ∧
      Ends id type output ((wrapConverted responsesConverter).onEnd ((wrapConverted responsesConverter).through
        ⟨parser, s, false, []⟩ recorded (chunks.map (·.map Wire.bytes))).1).1.history
        (errorState parser s chunks) := by
  induction chunks generalizing parser s sent recorded with
  | nil =>
    refine ⟨(s.closed.verdict true).1.1, s.lastOutput true, ?_, ?_⟩
    · have frames : sentFrames ((wrapConverted responsesConverter).serve ⟨parser, s, false, []⟩ recorded []).1 =
          (finalizeInner true s).1.map Wire.event := append_nil _
      rw [map_nil, frames]
      exact steady.ending true
    · have kept : (finalizeTruncated s).2 = (s.closed.verdict true).2 := finalizeInner_state steady.running.1 true
      show Ends id _ _ [((finalizeTruncated s).2.finalResponse.id, (finalizeTruncated s).2.finalResponse.output)]
          none
      rw [kept, steady.finalId]
      exact steady.ends healthy true
  | cons chunk rest ih =>
    rw [map_cons, serve_cons, through_cons, sentFrames_cons, ← append_assoc]
    cases chunk with
    | error message =>
      -- the error is noted first, and nothing is recorded of what came before it
      have broken : Steady id { s with failedError := s.failedError.or (some (streamError message.toList)) } sent :=
        ⟨steady.running, steady.named, { steady.placed with }⟩
      have noted : (s.failedError.or (some (streamError message.toList))).isSome := by
        rw [isSome_or, isSome_some, Bool.or_true]
      exact ends_finished (broken.ending false) (ends_transport (closed_broken false noted)) rfl _ _
    | ok bytes =>
      obtain ⟨going, flag⟩ := steady.convert nonempty healthy (parser.push bytes).2.1
      rw [errorState_ok]
      generalize converted : responsesConverter.convert s (parser.push bytes).2.1 = after at going flag
      cases ends : (parser.push bytes).2.2 || after.2.2 with
      | true =>
        have taken : (wrapConverted responsesConverter).onItem ⟨parser, s, false, []⟩
            ((Except.ok bytes : Except String (List UInt8)).map Wire.bytes) =
              (⟨(parser.push bytes).1, (finalize after.1).2, true, [((finalize after.1).2.finalResponse.id,
                (finalize after.1).2.finalResponse.output)]⟩, true,
                .ok (after.2.1 ++ (finalize after.1).1.map Wire.event)) := by
          subst converted
          exact wrapConverted_finishes rfl ends
        have kept : (finalize after.1).2 = (after.1.closed.verdict false).2 :=
          finalizeInner_state going.running.1 false
        rw [taken, kept, going.finalId, outFrames_ok, ← append_assoc]
        refine ends_finished (going.ending false) ?_ rfl _ _
        cases broken : after.1.failedError.isSome with
        | true => exact ends_broken broken
        | false =>
          rw [flag, broken, Bool.or_false] at ends
          rw [ends, if_neg Bool.false_ne_true, if_pos rfl]
          exact going.ends (by simpa using broken) false
      | false =>
        obtain ⟨undone, unbroken⟩ := Bool.or_eq_false_iff.mp ends
        rw [flag] at unbroken
        have taken : (wrapConverted responsesConverter).onItem ⟨parser, s, false, []⟩
            ((Except.ok bytes : Except String (List UInt8)).map Wire.bytes) =
              (⟨(parser.push bytes).1, after.1, false, []⟩, false, .ok after.2.1) := by
          subst converted
          exact wrapConverted_goesOn (.inr ends)
        rw [taken, unbroken, undone, if_neg Bool.false_ne_true, if_neg Bool.false_ne_true]
        exact ih going (by simpa using unbroken) _ _

/-- An error ends a stream that has said something, or a body that does so answers a streamed request. -/
def UpstreamAnswer.Unaccounted (id model : Str) (created : I64) (toolCtx : ToolContext) : UpstreamAnswer → Prop
  | events items => primeStream false items = .committed ∧ ∃ before, brokenAfter .new items = some before ∧
      Speaks (resolvedFrames (.new id model created toolCtx) before) (fragments before)
  | body bytes => ∃ chunk, chunkOfBody bytes = some chunk ∧
      Speaks (resolvedFrames (.new id model created toolCtx) [chunk]) (fragments [chunk])
  | whole _ => False
  | failure => False

omit [FloatCast] in
/-- What the chunks have said is what the output shows after them, with or without an error. -/
theorem lastOutput_nil_iff (id : RequestId) (model : Str) (created : I64) (toolCtx : ToolContext)
    (chunks : List ChatStreamChunk) (fine : ∀ chunk ∈ chunks, chunk.error = none) (failed : Option Json) :
    lastOutput { (forEach processChunk chunks (.new id.responseId model created toolCtx)).2 with
        failedError := failed } false = [] ↔
      ¬Speaks (resolvedFrames (.new id.responseId model created toolCtx) chunks) (fragments chunks) := by
  have utters := run_utters (s := .new id.responseId model created toolCtx) .new id.responseId_ne_nil rfl
    ⟨rfl, rfl, rfl⟩ fine
  have follows := (Follows.new toolCtx id.responseId model created).run chunks
  rw [nil_append] at follows
  generalize (forEach processChunk chunks (.new id.responseId model created toolCtx)).2 = s at utters follows
  have same : Follows toolCtx { s with failedError := failed } _ :=
    { follows with placed := { follows.placed with } }
  exact closed_output_nil_iff same { utters with } (fun fragment => fragments_filled) false

theorem restores_events_iff (id : RequestId) (model : Str) (created : I64) (toolCtx : ToolContext)
    (items : List (Except String (List UInt8))) (fresh : id.responseId ∉ store.order)
    (absent : store.map id.responseId = none) :
    (deliver store id.responseId model created toolCtx (.events items)).Restores id.responseId ↔
      ¬((UpstreamAnswer.events items).Unaccounted id.responseId model created toolCtx ∧
        (deliver store id.responseId model created toolCtx (.events items)).Fits) := by
  rw [deliver, deliverEvents, UpstreamAnswer.Unaccounted]
  by_cases committed : primeStream false items = .committed
  · obtain ⟨type, output, found, ends⟩ := serve_ends (Steady.new id.responseId model created toolCtx)
      id.responseId_ne_nil rfl .new false items
    have stopped :=
      errorState_stopped (s := .new id.responseId model created toolCtx) id.responseId_ne_nil rfl .new items
    rw [committed]
    dsimp only [wrapChatStreamToResponses, ConvertCtx.new]
    rw [nil_append] at found
    rw [found]
    generalize ConvertCtx.history _ = history at ends ⊢
    generalize ChatToResponsesStreamState.errorState .new _ items = state at ends stopped
    cases broken : brokenAfter .new items with
    | some before =>
      rw [broken] at stopped
      obtain ⟨err, rfl⟩ := stopped
      have spoken := lastOutput_nil_iff id model created toolCtx before (mem_brokenAfter broken)
        (some (extractStreamError err))
      obtain ⟨rfl, same, rfl⟩ := ends
      rw [← same] at spoken
      refine (restores_broken_iff id fresh absent output).trans (not_congr ?_)
      rw [Ne, spoken, not_not]
      simp [Delivered.Fits]
    | none =>
      rw [broken] at stopped
      cases stopped
      refine iff_of_true ?_ fun held => by simpa using held.1.2
      rcases ends with ⟨rfl, rfl | ⟨rfl, rfl⟩⟩ | ⟨done, rfl⟩
      · exact (restores_unrecorded id absent _ _).mpr (by simp)
      · exact (restores_recorded id fresh absent _ _).mpr (.inr (recordable_nil _))
      · exact (restores_recorded id fresh absent _ _).mpr (.inl done)
  · refine iff_of_true ?_ fun held => committed held.1.1
    split
    · exact absurd ‹_› committed
    · exact absent

theorem restores_body_iff (id : RequestId) (model : Str) (created : I64) (toolCtx : ToolContext)
    (bytes : List UInt8) (absent : store.map id.responseId = none) :
    (deliver store id.responseId model created toolCtx (.body bytes)).Restores id.responseId ↔
      ¬((UpstreamAnswer.body bytes).Unaccounted id.responseId model created toolCtx ∧
        (deliver store id.responseId model created toolCtx (.body bytes)).Fits) := by
  rw [deliver, UpstreamAnswer.Unaccounted, synthesizeSseFromChatBody]
  cases read : chunkOfBody bytes with
  | none => simp [Delivered.Restores, restore, absent]
  | some chunk =>
    have fine : chunk.error = none := by
      have passed := (filter_eq_some_iff.mp read).2
      rw [Bool.not_eq_true', Bool.or_eq_false_iff] at passed
      simpa using passed.2
    obtain ⟨type, last, verdict⟩ := ending_responsesStream id model created toolCtx fine
    have healthy := (run_fine (s := .new id.responseId model created toolCtx) id.responseId_ne_nil rfl [chunk]
      (by simpa using fine)).2
    have spoken := lastOutput_nil_iff id model created toolCtx [chunk] (by simpa using fine) none
    rw [← healthy] at spoken
    rw [map_some, bind_some, last, restores_unrecorded id absent, recordable_outputJson]
    change lastOutput (processChunk chunk (.new id.responseId model created toolCtx)).2 false = [] ↔ _ at spoken
    generalize lastOutput (processChunk chunk (.new id.responseId model created toolCtx)).2 false = output
      at last verdict spoken ⊢
    rcases verdict with ⟨rfl, rfl⟩ | done
    · simpa using fun spoke => absurd spoke (spoken.mp rfl)
    · simp [done, spoken, Delivered.Fits]

theorem restores_iff (id : RequestId) (model : Str) (created : I64) (toolCtx : ToolContext)
    (answer : UpstreamAnswer) (fresh : id.responseId ∉ store.order) (absent : store.map id.responseId = none) :
    (deliver store id.responseId model created toolCtx answer).Restores id.responseId ↔
      ¬(answer.Unaccounted id.responseId model created toolCtx ∧
        (deliver store id.responseId model created toolCtx answer).Fits) := by
  cases answer with
  | events items => exact restores_events_iff id model created toolCtx items fresh absent
  | body bytes => exact restores_body_iff id model created toolCtx bytes absent
  | whole bytes =>
    refine iff_of_true ?_ And.left
    rw [deliver]
    split
    · exact absent
    next body read =>
      refine (restores_recorded id fresh absent _ _).mpr ?_
      refine (chatResponseToResponses_status body id.responseId created toolCtx).imp_right fun empty => ?_
      rw [empty]
      exact recordable_nil _
  | failure => exact iff_of_true absent And.left

end Restore

def zeroId : RequestId := ⟨"00000000-0000-0000-0000-000000000000".toList, rfl⟩

/-- A stream that ends in order is restored. -/
theorem finished_text_restores :
    let _ : FloatText := Json.verbatim
    let _ : FloatCast := .zero
    let _ : TableOrder := .sorted
    (deliver .new zeroId.responseId [] 0 .empty (.events [.ok (Utf8.encode (textFrame ++ doneFrame))])).Restores
      zeroId.responseId := by
  intro _ _ _
  refine (restores_iff zeroId [] 0 .empty _ not_mem_nil rfl).mpr ?_
  rintro ⟨⟨-, before, broken, -⟩, -⟩
  have fine : (ChatToResponsesStreamState.brokenAfter .new
      [.ok (Utf8.encode (textFrame ++ doneFrame))]).isNone := by decide +kernel
  rw [broken] at fine
  cases fine

def errorFrame : String := "data: \x7b\"error\":\x7b\"message\":\"late\"\x7d\x7d\n\n"

def textBody : String := "\x7b\"choices\":[\x7b\"message\":\x7b\"content\":\"a\"\x7d\x7d]\x7d"

/-- A text that an error of the upstream cut off is restored, and one that came as a body is not. -/
theorem failed_text_restored :
    let _ : FloatText := Json.verbatim
    let _ : FloatCast := .zero
    let _ : TableOrder := .sorted
    ¬(deliver .new zeroId.responseId [] 0 .empty
          (.events [.ok (Utf8.encode textFrame), .ok (Utf8.encode errorFrame)])).Restores zeroId.responseId ∧
      ¬(deliver .new zeroId.responseId [] 0 .empty (.body (Utf8.encode textBody))).Restores zeroId.responseId := by
  intro _ _ _
  constructor
  · intro restores
    have kept : ((deliver .new zeroId.responseId [] 0 .empty
        (.events [.ok (Utf8.encode textFrame), .ok (Utf8.encode errorFrame)])).store.restore
          zeroId.responseId).1.isSome := by decide +kernel
    have failed : (deliver .new zeroId.responseId [] 0 .empty
        (.events [.ok (Utf8.encode textFrame), .ok (Utf8.encode errorFrame)])).ending.any (·.1 = .failed) := by
      decide +kernel
    obtain ⟨ending, found, type⟩ := (any_eq_true _ _).mp failed
    rw [Delivered.Restores, found, bind_some, if_neg (by simp [of_decide_eq_true type])] at restores
    rw [restores] at kept
    cases kept
  · intro restores
    have completed : (deliver .new zeroId.responseId [] 0 .empty (.body (Utf8.encode textBody))).ending.any
        (fun ending => ending.1 = .completed && !ending.2.isEmpty &&
          Text.utf8Len (outputJson ending.2).print ≤ maxEntryBytes) := by decide +kernel
    obtain ⟨ending, found, shown⟩ := (any_eq_true _ _).mp completed
    simp only [Bool.and_eq_true, decide_eq_true_eq, Bool.not_eq_true', isEmpty_eq_false_iff] at shown
    rw [Delivered.Restores, found, bind_some, if_pos ⟨.inl shown.1.1, shown.1.2, shown.2⟩] at restores
    cases restores

end LlmGateway
