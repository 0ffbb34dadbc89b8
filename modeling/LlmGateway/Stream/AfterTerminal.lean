import LlmGateway.Anthropic.Lifecycle
import LlmGateway.Responses.Ending
import LlmGateway.Responses.ItemProtocol
import LlmGateway.Stream.Converters

namespace LlmGateway

open Emitter Machine List Option ResponsesEvent StreamPhase BillingState MessageClient ChatToAnthropicState
  ChatToResponsesStreamState

section Wrappers

variable {π σ γ β η κ ι : Type*}

def NothingAfter (terminal : β → Bool) (frames : List β) : Prop :=
  ∀ before frame after, frames = before ++ frame :: after → terminal frame → after = []

def outFrames (out : Except String (List β)) : List β := out.toOption.getD []

def sentFrames (sent : List (Except String (List β))) : List β := sent.flatMap outFrames

def StreamPhase.held : StreamPhase (Except String (List β)) → List β
  | .recording _ out _ => outFrames out
  | .committed out _ => outFrames out
  | _ => []

def BillingState.frames (s : BillingState κ (Except String (List β))) : List β := sentFrames s.sent ++ s.phase.held

/-- Every frame of a chunk meets `quiet` in the state it is handled in. -/
def Converter.framesQuiet (conv : Converter π σ γ β η) (quiet : σ → γ → Bool) (s : σ) : List SseEvent → Bool
  | [] => true
  | frame :: rest => match conv.read frame with
    | none => conv.framesQuiet quiet s rest
    | some cc => quiet s cc && conv.framesQuiet quiet (conv.processChunk s cc).1 rest

def Converter.LateQuiet (conv : Converter π σ γ β η) (quiet : σ → γ → Bool)
    (s : BillingState (ConvertCtx π σ η) (Except String (List β))) : BillingAction (Except String β) → Prop
  | .item (.ok chunk) =>
    s.ctx.finished → conv.framesQuiet quiet s.ctx.state (conv.push s.ctx.parser chunk).2.1
  | _ => True

/-- A converter with one terminal frame. `live` relates its state to the frames sent until it is finalized. -/
structure Converter.EndsOnce (conv : Converter π σ γ β η) (terminal : β → Bool) (quiet : σ → γ → Bool)
    (live : σ → List β → Prop) : Prop where
  process : ∀ s sent cc, live s sent → live (conv.processChunk s cc).1 (sent ++ (conv.processChunk s cc).2)
  finalize : ∀ s sent, live s sent → NothingAfter terminal (sent ++ (conv.finalize s).2)
  truncated : ∀ s sent, live s sent → NothingAfter terminal (sent ++ (conv.finalizeTruncated s).2)
  transport : ∀ s sent message, live s sent → NothingAfter terminal (sent ++ (conv.transportError s message).2)
  unended : ∀ s sent, live s sent → NothingAfter terminal sent
  silent : ∀ s cc, quiet s cc → (conv.processChunk s cc).2 = []

variable {terminal : β → Bool} {frames : List β} {conv : Converter π σ γ β η} {quiet : σ → γ → Bool}
  {live : σ → List β → Prop} {s : σ} {sent : List β}

theorem NothingAfter.of_append {later : List β} (whole : NothingAfter terminal (frames ++ later)) :
    NothingAfter terminal frames := by
  rintro before frame after rfl ends
  have none := whole before frame (after ++ later) (by simp) ends
  exact (append_eq_nil_iff.mp none).1

theorem nothingAfter_of_unended (unended : ∀ frame ∈ frames, terminal frame = false) :
    NothingAfter terminal frames := by
  rintro before frame after rfl ends
  rw [unended frame (by simp)] at ends
  cases ends

theorem nothingAfter_snoc (unended : ∀ frame ∈ frames, terminal frame = false) (last : β) :
    NothingAfter terminal (frames ++ [last]) := by
  intro before frame after same ends
  rcases concat_split.mp same with ⟨-, -, rfl⟩ | ⟨front, -, rfl⟩
  · rfl
  · rw [unended frame (by simp)] at ends
    cases ends

theorem nothingAfter_iff : NothingAfter terminal frames ↔ ∀ frame ∈ frames.dropLast, terminal frame = false := by
  rcases eq_nil_or_concat frames with rfl | ⟨front, last, rfl⟩
  · simp [NothingAfter]
  rw [concat_eq_append, dropLast_concat]
  refine ⟨fun nothing frame mem => Bool.eq_false_iff.mpr fun ends => ?_, fun unended =>
    nothingAfter_snoc unended last⟩
  obtain ⟨before, after, rfl⟩ := append_of_mem mem
  have none := nothing before frame (after ++ [last]) (by simp) ends
  simp at none

instance : Decidable (NothingAfter terminal frames) := decidable_of_iff _ nothingAfter_iff.symm

instance (conv : Converter π σ γ β η) (quiet : σ → γ → Bool)
    (s : BillingState (ConvertCtx π σ η) (Except String (List β))) (a : BillingAction (Except String β)) :
    Decidable (conv.LateQuiet quiet s a) :=
  match a with
  | .item (.ok chunk) => inferInstanceAs (Decidable (s.ctx.finished →
      conv.framesQuiet quiet s.ctx.state (conv.push s.ctx.parser chunk).2.1))
  | .item (.error _) | .eof | .commit | .resume | .drop | .spawnedDone => isTrue trivial

theorem outFrames_ok (frames : List β) : outFrames (.ok frames) = frames := rfl

theorem sentFrames_snoc (sent : List (Except String (List β))) (out : Except String (List β)) :
    sentFrames (sent ++ [out]) = sentFrames sent ++ outFrames out := by
  simp [sentFrames]

@[simp] theorem StreamPhase.held_reading : (.reading : StreamPhase (Except String (List β))).held = [] := rfl

@[simp] theorem StreamPhase.held_recording {usage : Option Usage} {out : Except String (List β)} {last : Bool} :
    (recording usage out last).held = outFrames out := rfl

@[simp] theorem StreamPhase.held_committed {out : Except String (List β)} {last : Bool} :
    (committed out last).held = outFrames out := rfl

@[simp] theorem StreamPhase.held_dropped : (.dropped : StreamPhase (Except String (List β))).held = [] := rfl

@[simp] theorem StreamPhase.held_after (last : Bool) :
    (after last : StreamPhase (Except String (List β))).held = [] := by
  cases last <;> rfl

theorem settle_frames {w : Wrapper κ ι (Except String (List β))} {s : BillingState κ (Except String (List β))}
    {testCall last : Bool} {handled : κ × Bool × Except String (List β)} (reading : s.phase = .reading) :
    (s.settle w testCall handled last).frames = s.frames ++ outFrames handled.2.2 := by
  unfold settle
  dsimp only
  split
  · split
    · simp [frames, reading, sentFrames_snoc]
    · simp [frames, reading]
  · simp [frames, reading, sentFrames_snoc]

namespace Converter

theorem foldl_live (laws : conv.EndsOnce terminal quiet live) (payloads : List SseEvent) (out : List β)
    (failed : Bool) (held : live s (sent ++ out)) : live (payloads.foldl conv.frame (s, out, failed)).1
      (sent ++ (payloads.foldl conv.frame (s, out, failed)).2.1) := by
  induction payloads generalizing s out failed with
  | nil => exact held
  | cons payload rest ih =>
    rw [foldl_cons]
    cases read : conv.read payload with
    | none =>
      rw [frame_unread read]
      exact ih out failed held
    | some cc =>
      rw [frame_read read]
      refine ih _ _ ?_
      rw [← append_assoc]
      exact laws.process s _ cc held

theorem foldl_silent (silent : ∀ s cc, quiet s cc → (conv.processChunk s cc).2 = []) (payloads : List SseEvent)
    (out : List β) (failed : Bool) (allowed : conv.framesQuiet quiet s payloads) :
    (payloads.foldl conv.frame (s, out, failed)).2.1 = out := by
  induction payloads generalizing s out failed with
  | nil => rfl
  | cons payload rest ih =>
    rw [foldl_cons]
    rw [framesQuiet] at allowed
    cases read : conv.read payload with
    | none =>
      rw [read] at allowed
      rw [frame_unread read]
      exact ih out failed allowed
    | some cc =>
      rw [read] at allowed
      obtain ⟨now, later⟩ := Bool.and_eq_true_iff.mp allowed
      rw [frame_read read, silent s cc now, append_nil]
      exact ih out _ later

def Fine (terminal : β → Bool) (live : σ → List β → Prop) (ctx : ConvertCtx π σ η) (sent : List β) : Prop :=
  NothingAfter terminal sent ∧ (ctx.finished = false → live ctx.state sent)

variable {ctx : ConvertCtx π σ η}

theorem Fine.onItem (laws : conv.EndsOnce terminal quiet live) (fine : Fine terminal live ctx sent)
    (upstream : Except String β) (allowed : ∀ chunk, upstream = .ok chunk → ctx.finished →
      conv.framesQuiet quiet ctx.state (conv.push ctx.parser chunk).2.1) :
    Fine terminal live ((wrapConverted conv).onItem ctx upstream).1
      (sent ++ outFrames ((wrapConverted conv).onItem ctx upstream).2.2) := by
  cases upstream with
  | error message =>
    cases ended : ctx.finished with
    | true =>
      simp only [wrapConverted, ended, ↓reduceIte, outFrames_ok, append_nil]
      exact fine
    | false =>
      simp only [wrapConverted, ended, Bool.false_eq_true, ↓reduceIte, outFrames_ok]
      exact ⟨laws.transport _ _ _ (fine.2 ended), by simp⟩
  | ok chunk =>
    cases ended : ctx.finished with
    | true =>
      rw [wrapConverted_goesOn (.inl ended)]
      have silent := foldl_silent laws.silent _ [] false (allowed chunk rfl ended)
      rw [outFrames_ok, convert, silent, append_nil]
      exact ⟨fine.1, fun unended => by simp [ended] at unended⟩
    | false =>
      have going : live (conv.convert ctx.state (conv.push ctx.parser chunk).2.1).1
          (sent ++ (conv.convert ctx.state (conv.push ctx.parser chunk).2.1).2.1) :=
        foldl_live laws _ [] false (by rw [append_nil]; exact fine.2 ended)
      cases ends : (conv.push ctx.parser chunk).2.2 ||
        (conv.convert ctx.state (conv.push ctx.parser chunk).2.1).2.2 with
      | true =>
        rw [wrapConverted_finishes ended ends]
        refine ⟨?_, by simp⟩
        rw [outFrames_ok, ← append_assoc]
        exact laws.finalize _ _ going
      | false =>
        rw [wrapConverted_goesOn (.inr ends)]
        exact ⟨laws.unended _ _ going, fun _ => going⟩

theorem Fine.onEnd (laws : conv.EndsOnce terminal quiet live) (fine : Fine terminal live ctx sent) :
    Fine terminal live ((wrapConverted conv).onEnd ctx).1
      (sent ++ outFrames ((wrapConverted conv).onEnd ctx).2.2) := by
  cases ended : ctx.finished with
  | true =>
    simp only [wrapConverted, ended, ↓reduceIte, outFrames_ok, append_nil]
    exact fine
  | false =>
    simp only [wrapConverted, ended, Bool.false_eq_true, ↓reduceIte, outFrames_ok]
    exact ⟨laws.truncated _ _ (fine.2 ended), by simp⟩

theorem settle_ctx {s : BillingState (ConvertCtx π σ η) (Except String (List β))} {testCall last : Bool}
    {handled : ConvertCtx π σ η × Bool × Except String (List β)} :
    (s.settle (wrapConverted conv) testCall handled last).ctx = handled.1 := by
  unfold settle
  dsimp only
  split
  · split <;> rfl
  · rfl

theorem EndsOnce.nothingAfter (laws : conv.EndsOnce terminal quiet live) (parser : π) (start : live s [])
    {testCall : Bool} {trace : List (BillingAction (Except String β))}
    {after : BillingState (ConvertCtx π σ η) (Except String (List β))}
    (reach : Reach (billingStep (wrapConverted conv) testCall) (conv.LateQuiet quiet) (.start (.new parser s)) trace
      after) : NothingAfter terminal (sentFrames after.sent) := by
  have fine := reach.invariant (fun s => NothingAfter terminal s.frames ∧
      (s.phase ≠ .dropped → s.ctx.finished = false → live s.ctx.state s.frames))
    ⟨laws.unended _ _ start, fun _ _ => start⟩ ?_
  · exact fine.1.of_append
  rintro s a s' ⟨sound, going⟩ allowed stepped
  have taken := billingStep_eq_some stepped
  cases a with
  | item upstream =>
    obtain ⟨reading, rfl⟩ := taken
    have handled := Fine.onItem laws ⟨sound, going (by simp [reading])⟩ upstream fun chunk same => by
      subst same
      exact allowed
    rw [settle_frames reading, settle_ctx]
    exact ⟨handled.1, fun _ => handled.2⟩
  | eof =>
    obtain ⟨reading, rfl⟩ := taken
    have handled := Fine.onEnd laws ⟨sound, going (by simp [reading])⟩
    rw [settle_frames reading, settle_ctx]
    exact ⟨handled.1, fun _ => handled.2⟩
  | commit =>
    obtain ⟨usage, out, last, recording, rfl⟩ := taken
    simp only [frames, recording, held_recording, held_committed] at sound going ⊢
    exact ⟨sound, fun _ => going (by simp)⟩
  | resume =>
    obtain ⟨out, last, committed, rfl⟩ := taken
    simp only [frames, committed, held_committed, held_after, sentFrames_snoc,
      append_nil] at sound going ⊢
    exact ⟨sound, fun _ => going (by simp)⟩
  | drop =>
    obtain ⟨-, rfl⟩ := taken
    have phase : (s.drop (wrapConverted conv)).phase = .dropped := by
      unfold BillingState.drop
      split <;> rfl
    have same : (s.drop (wrapConverted conv)).sent = s.sent := by
      unfold BillingState.drop
      split <;> rfl
    rw [frames, phase, same, held_dropped, append_nil]
    exact ⟨sound.of_append, fun live => absurd rfl live⟩
  | spawnedDone =>
    obtain ⟨usage, rest, -, rfl⟩ := taken
    exact ⟨sound, going⟩

end Converter

end Wrappers

theorem nothingAfter_map {ε : Type*} {terminal : ε → Bool} {events : List ε}
    (nothing : NothingAfter terminal events) :
    NothingAfter (Wire.satisfies terminal) (events.map Wire.event) := by
  intro before frame after same ends
  obtain ⟨first, rest, rfl, -, split⟩ := map_eq_append_iff.mp same
  obtain ⟨event, later, rfl, rfl, rfl⟩ := map_eq_cons_iff.mp split
  rw [nothing first event later rfl ends]
  rfl

def ChatStreamDelta.isBare (delta : ChatStreamDelta) : Bool :=
  delta.reasoningText.isNone && delta.contentText.isNone && delta.refusalText.isNone && delta.toolCalls.isEmpty

theorem ChatStreamDelta.isBare_iff {delta : ChatStreamDelta} : delta.isBare ↔
    delta.reasoningText = none ∧ delta.contentText = none ∧ delta.refusalText = none ∧ delta.toolCalls = [] := by
  simp [isBare, and_assoc]

def AnthropicEvent.isTerminal (event : AnthropicEvent) : Bool := event.isMessageStop || event.isError

namespace ChatToAnthropicState

def quietOn (s : ChatToAnthropicState) (chunk : ChatStreamChunk) : Bool :=
  s.failed.isSome || (chunk.error.isNone && s.sentMessageStart && chunk.choices.all (·.delta.isBare))

theorem processChoice_bare {choice : ChatStreamChoice} (bare : choice.delta.isBare) (s : ChatToAnthropicState) :
    processChoice choice s = ([], s.noteFinish choice.finishReason) := by
  obtain ⟨reasoning, content, refusal, calls⟩ := ChatStreamDelta.isBare_iff.mp bare
  simp only [processChoice, processTexts, reasoning, content, refusal, calls]
  rfl

theorem choices_bare {choices : List ChatStreamChoice} (bare : choices.all (·.delta.isBare))
    (s : ChatToAnthropicState) : (forEach processChoice choices s).1 = [] := by
  induction choices generalizing s with
  | nil => rfl
  | cons choice rest ih =>
    obtain ⟨first, later⟩ := Bool.and_eq_true_iff.mp bare
    rw [forEach, followedBy_events, processChoice_bare first, ih later]
    rfl

theorem processChunk_quiet {s : ChatToAnthropicState} {chunk : ChatStreamChunk} (quiet : s.quietOn chunk) :
    (processChunk chunk s).1 = [] := by
  unfold processChunk
  split
  · rfl
  next healthy =>
    simp only [quietOn, healthy, Bool.false_or, Bool.and_eq_true, isNone_iff_eq_none] at quiet
    obtain ⟨⟨fine, begun⟩, bare⟩ := quiet
    rw [fine]
    have started : ensureMessageStart (s.noteHeader chunk) = ([], s.noteHeader chunk) := if_pos begun
    rw [followedBy_events, followedBy_events, quiet_state, started, choices_bare bare]
    rfl

end ChatToAnthropicState

theorem Streaming.not_terminal {trace : List AnthropicEvent} (streaming : Streaming trace) :
    ∀ event ∈ trace, event.isTerminal = false := by
  obtain ⟨start, body, rfl, first, blocks⟩ := streaming
  intro event mem
  rcases mem_cons.mp mem with rfl | inside
  · cases event <;> first | rfl | cases first
  · have block := blocks event inside
    cases event <;> first | rfl | cases block

namespace MessageClient

variable {trace : List AnthropicEvent} {client : MessageClient}

theorem nothingAfter_of_run (ran : run accept new trace = some client) :
    NothingAfter AnthropicEvent.isTerminal trace := by
  intro before event after same ends
  cases after with
  | nil => rfl
  | cons next rest =>
    rw [same, ← singleton_append, ← append_assoc] at ran
    obtain ⟨middle, taken, follows, accepted⟩ := accepted_split ran
    have shape := follows.shape
    have closed : middle.phase = .done ∨ middle.phase = .failed := by
      cases phase : middle.phase with
      | waiting =>
        rw [phase] at shape
        simp [ClientPhase.Shape] at shape
      | streaming =>
        rw [phase] at shape
        rw [Streaming.not_terminal shape event (by simp)] at ends
        cases ends
      | ending =>
        rw [phase] at shape
        obtain ⟨body, reason, usage, same, -⟩ := shape
        obtain ⟨-, last⟩ := append_inj' same rfl
        cases last
        cases ends
      | done => exact .inl rfl
      | failed => exact .inr rfl
    cases next <;> rcases closed with phase | phase <;> simp [accept, phase] at accepted

end MessageClient

namespace ChatToAnthropicState

def InStep (s : ChatToAnthropicState) (sent : List (Wire AnthropicEvent)) : Prop :=
  ∃ events client, sent = events.map Wire.event ∧ run accept .new events = some client ∧
    s.Feeds false client

theorem transportError_sends (message : Str) : Sends accept (Feeds false) (transportError message)
    fun _ _ => True := by
  intro s client feeds
  have phase := feeds.phase
  unfold transportError
  split
  · exact ⟨client, rfl, trivial⟩
  next healthy =>
    rw [if_neg healthy] at phase
    refine ⟨{ client with phase := .failed }, ?_, trivial⟩
    refine run_singleton.trans ?_
    cases begun : s.sentMessageStart <;> simp [begun] at phase <;> simp [accept, phase]

variable {s : ChatToAnthropicState} {sent : List (Wire AnthropicEvent)}
  {op : Emitter ChatToAnthropicState AnthropicEvent} {post : ChatToAnthropicState → MessageClient → Prop}

theorem InStep.sends (inStep : s.InStep sent) (sends : Sends accept (Feeds false) op post) :
    ∃ events client, sent ++ (Wire.frames (op s)).2 = events.map Wire.event ∧
      run accept .new events = some client ∧ post (op s).2 client := by
  obtain ⟨events, client, rfl, ran, feeds⟩ := inStep
  obtain ⟨client', taken, after⟩ := sends s client feeds
  refine ⟨events ++ (op s).1, client', by simp [Wire.frames], ?_, after⟩
  rw [run_append, ran]
  exact taken

theorem InStep.nothingAfter (inStep : s.InStep sent)
    (sends : Sends accept (Feeds false) op post) :
    NothingAfter (Wire.satisfies AnthropicEvent.isTerminal) (sent ++ (Wire.frames (op s)).2) := by
  obtain ⟨events, client, same, ran, -⟩ := inStep.sends sends
  rw [same]
  exact nothingAfter_map (nothingAfter_of_run ran)

theorem endsOnce [FloatText] [FloatCast] :
    anthropicConverter.EndsOnce (Wire.satisfies AnthropicEvent.isTerminal) quietOn InStep where
  process _ _ chunk inStep := inStep.sends (processChunk_sends chunk)
  finalize _ _ inStep := inStep.nothingAfter (finalizeInner_sends false)
  truncated _ _ inStep := inStep.nothingAfter (finalizeInner_sends true)
  transport _ _ message inStep := inStep.nothingAfter (transportError_sends message.toList)
  unended _ _ inStep := by
    obtain ⟨events, client, rfl, ran, -⟩ := inStep
    exact nothingAfter_map (nothingAfter_of_run ran)
  silent s chunk quiet := by
    show (processChunk chunk s).1.map Wire.event = []
    rw [processChunk_quiet quiet]
    rfl

end ChatToAnthropicState

namespace ChatToResponsesStreamState

def settled (s : ChatToResponsesStreamState) : Bool :=
  !(s.textStarted && !s.textDone) && !(s.reasoningStarted && !s.reasoningDone) &&
    s.tools.keys.all fun key => (s.toolAt key).done && ((s.toolAt key).released || !(s.toolAt key).started)

def quietOn (s : ChatToResponsesStreamState) (chunk : ChatStreamChunk) : Bool :=
  s.failedError.isSome || chunk.error.isSome ||
    (s.sentCreated && s.settled && chunk.choices.all (·.delta.isBare))

def Unended (_ : ChatToResponsesStreamState) (trace : List ResponsesEvent) : Prop :=
  ∀ event ∈ trace, event.isTerminal = false

section Quiet

variable {s : ChatToResponsesStreamState}

theorem settled_tool (settled : s.settled) {key : Int} {tool : ChatTool} (found : s.tools[key]? = some tool) :
    tool.done ∧ (tool.released ∨ tool.started = false) := by
  have known := all_eq_true.mp (Bool.and_eq_true_iff.mp settled).2 key (IntMap.mem_keys_of_get found)
  simpa [toolAt_eq found] using known

theorem applyFinishReason_settled (settled : s.settled) (reason : Str) :
    (applyFinishReason reason s).settled := by
  unfold applyFinishReason
  dsimp only
  split <;> exact settled

variable [FloatText]

theorem releaseFrom_settled (settled : s.settled) (force : Bool) (keys : List Int) :
    releaseFrom force keys s = ([], s) := by
  induction keys with
  | nil => rfl
  | cons key rest ih =>
    unfold releaseFrom
    split
    · exact ih
    next tool found =>
      split
      · exact ih
      next waiting =>
        split
        next started =>
          rcases (settled_tool settled found).2 with released | idle
          · simp [released] at waiting
          · simp [idle] at started
        · rfl

theorem doneDeltaEvents_settled (settled : s.settled) : doneDeltaEvents s = ([], s) := by
  have released (force : Bool) : releaseReadyTools force s = ([], s) := releaseFrom_settled settled force _
  have finished (status : ResponseStatus) : forEach (finishTool status) s.tools.keys s = ([], s) :=
    forEach_idle fun key _ => by
      rcases finishTool_cases status key s with ⟨-, same⟩ | ⟨tool, found, pending, -⟩
      · exact same
      · rw [(settled_tool settled found).1] at pending
        cases pending
  obtain ⟨texts, -⟩ := Bool.and_eq_true_iff.mp settled
  simp only [Bool.and_eq_true, Bool.not_eq_true'] at texts
  have message (status : ResponseStatus) : closeMessage status s = ([], s) := if_neg (Bool.eq_false_iff.mp texts.1)
  have reasoning (status : ResponseStatus) : closeReasoning status s = ([], s) :=
    if_neg (Bool.eq_false_iff.mp texts.2)
  simp [doneDeltaEvents, followedBy, released, message, reasoning, finished]

variable [TableOrder]

theorem processChoice_bare {choice : ChatStreamChoice} (bare : choice.delta.isBare) (settled : s.settled) :
    (processChoice choice s).1 = [] ∧ (processChoice choice s).2.settled := by
  obtain ⟨reasoning, content, refusal, calls⟩ := ChatStreamDelta.isBare_iff.mp bare
  simp only [processChoice, processTexts, reasoning, content, refusal, calls, whenSome, forEach, followedBy,
    quiet, id_eq, nil_append]
  cases choice.finishReason.bind Text.nonBlank with
  | none => exact ⟨rfl, settled⟩
  | some reason =>
    have later := applyFinishReason_settled settled reason
    simp only [finishChoice, followedBy, quiet, doneDeltaEvents_settled later]
    exact ⟨rfl, later⟩

theorem choices_bare {choices : List ChatStreamChoice} (bare : choices.all (·.delta.isBare))
    (settled : s.settled) : (forEach processChoice choices s).1 = [] := by
  induction choices generalizing s with
  | nil => rfl
  | cons choice rest ih =>
    obtain ⟨first, later⟩ := Bool.and_eq_true_iff.mp bare
    obtain ⟨silent, after⟩ := processChoice_bare first settled
    rw [forEach, followedBy_events, silent, ih later after]
    rfl

theorem processChunk_quiet {chunk : ChatStreamChunk} (quiet : s.quietOn chunk) : (processChunk chunk s).1 = [] := by
  unfold processChunk
  split
  · rfl
  next healthy =>
    split
    · rfl
    next fine =>
      simp only [quietOn, healthy, fine, isSome_none, Bool.false_or, Bool.and_eq_true] at quiet
      obtain ⟨⟨begun, settled⟩, bare⟩ := quiet
      have started : ensureCreated (s.noteHeader chunk) = ([], s.noteHeader chunk) := if_pos begun
      have unchanged : (s.noteHeader chunk).settled := settled
      rw [followedBy_events, followedBy_events, quiet_state, started, choices_bare bare unchanged]
      rfl

end Quiet

section Terminal

variable {op : Emitter ChatToResponsesStreamState ResponsesEvent} {tool : ChatTool} (status : ResponseStatus)

theorem sends_unended (quiet : ∀ s, ∀ event ∈ (op s).1, event.isTerminal = false) :
    Sends remember Unended op Unended := by
  refine sends_remember_iff.mpr fun s trace unended event mem => ?_
  rcases mem_append.mp mem with old | new
  · exact unended event old
  · exact quiet s event new

def Running (s : ChatToResponsesStreamState) (sent : List (Wire ResponsesEvent)) : Prop :=
  s.finalized = false ∧ ∃ events, sent = events.map Wire.event ∧ Unended s events

theorem Running.new (id model : Str) (created : I64) (toolCtx : ToolContext) :
    (new id model created toolCtx).Running [] :=
  ⟨rfl, [], rfl, fun _ mem => absurd mem not_mem_nil⟩

theorem closeReasoning_unended : Sends remember Unended (closeReasoning status) Unended := by
  refine sends_unended fun s => ?_
  unfold closeReasoning
  split <;> simp [isTerminal]

theorem closeMessage_unended : Sends remember Unended (closeMessage status) Unended := by
  refine sends_unended fun s => ?_
  unfold closeMessage
  split <;> simp [isTerminal]

theorem openMessage_unended : Sends remember Unended openMessage Unended := by
  refine sends_unended fun s => ?_
  unfold openMessage
  split <;> simp [isTerminal]

theorem openReasoning_unended : Sends remember Unended openReasoning Unended := by
  refine sends_unended fun s => ?_
  unfold openReasoning
  split <;> simp [isTerminal]

theorem argsEvents_unended (args : Str) : ∀ event ∈ tool.argsEvents args, event.isTerminal = false := by
  unfold ChatTool.argsEvents
  split <;> simp [isTerminal]

theorem receive_unended (ctx : ToolContext) (reasoning : Option Str) (call : ToolCallDelta) :
    ∀ event ∈ (tool.receive ctx reasoning call).1, event.isTerminal = false := by
  rw [ChatTool.receive, followedBy_events, quiet_state]
  cases call.argumentsDelta with
  | none => simp [quiet, whenSome]
  | some args =>
    simp only [quiet, nil_append, whenSome, ChatTool.appendArgs]
    split
    · exact argsEvents_unended args
    · simp

variable [FloatText]

theorem releaseReadyTools_unended (force : Bool) : Sends remember Unended (releaseReadyTools force) Unended := by
  intro s trace unended
  refine releaseFrom_sends Unended (fun key tool => ?_) force s.tools.keys s trace unended
  refine (sends_unended fun s event mem => ?_).weaken fun _ _ held => held.1
  rcases mem_cons.mp mem with rfl | held
  · rfl
  · split at held
    · cases held
    · exact argsEvents_unended _ event held

theorem doneEvents_unended : ∀ event ∈ tool.doneEvents status, event.isTerminal = false := by
  unfold ChatTool.doneEvents
  dsimp only
  split_ifs <;> simp [isTerminal]

theorem finishTool_unended (key : Int) :
    Sends remember Unended (finishTool status key) Unended := by
  refine sends_unended fun s => ?_
  rcases finishTool_cases status key s with ⟨-, same⟩ | ⟨tool, -, -, ⟨-, same⟩ | ⟨-, same⟩⟩
  · simp [same]
  · simp [same]
  · rw [same]
    exact doneEvents_unended status

theorem doneDeltaEvents_unended : Sends remember Unended doneDeltaEvents Unended := by
  refine ((releaseReadyTools_unended false).followedBy
    (releaseReadyTools_unended true)).followedBy fun s trace held => ?_
  have finished : Sends remember Unended (fun t => forEach (finishTool s.outputStatus) t.tools.keys t) Unended :=
    fun t trace held => Sends.forEach (fun _ => Unended) (fun key _ => finishTool_unended s.outputStatus key)
      t.tools.keys t trace held
  exact ((closeMessage_unended s.outputStatus).followedBy
    ((closeReasoning_unended s.outputStatus).followedBy finished)) s trace held

variable [TableOrder]

theorem unended_keeps : Guard.free.KeepsChunks remember Unended where
  think _ _ _ unended := unended
  reasoning delta := openReasoning_unended.followedBy (sends_unended fun _ => by simp [isTerminal])
  text delta := (openMessage_unended.followedBy (sends_unended fun _ => by simp [isTerminal])).weaken
    fun _ _ held => held.1
  reason _ _ _ unended := unended
  call call := Sends.weaken (fun s trace held => ((closeReasoning_unended .completed).followedBy
    ((sends_unended fun s => receive_unended s.toolCtx _ call).followedBy (releaseReadyTools_unended false))) s
      trace held)
    fun _ _ held => held.1
  done := doneDeltaEvents_unended.weaken fun _ _ held => held.1
  header _ _ _ unended := unended
  fail _ _ _ unended := unended
  created := sends_unended fun s => by
    unfold ensureCreated
    split <;> simp [isTerminal]

variable {s : ChatToResponsesStreamState} {sent : List (Wire ResponsesEvent)}

theorem Running.processChunk (running : s.Running sent) (chunk : ChatStreamChunk) :
    (processChunk chunk s).2.Running (sent ++ (processChunk chunk s).1.map Wire.event) := by
  obtain ⟨going, events, rfl, unended⟩ := running
  obtain ⟨-, -, kept⟩ := kept_running.guarded.chunk chunk s () ⟨going, chunkGuarded_free s chunk⟩
  obtain ⟨trace, remembered, after⟩ := unended_keeps.chunk chunk s events ⟨unended, chunkGuarded_free s chunk⟩
  rw [run_remember] at remembered
  cases remembered
  exact ⟨kept, _, map_append.symm, after⟩

theorem Running.finalizeInner (running : s.Running sent) (truncated : Bool) :
    NothingAfter (Wire.satisfies isTerminal)
      (sent ++ (finalizeInner truncated s).1.map Wire.event) := by
  obtain ⟨going, events, rfl, unended⟩ := running
  obtain ⟨trace, remembered, after⟩ := unended_keeps.closing { s with finalized := true } events
    ⟨unended, endGuarded_free _⟩
  rw [run_remember] at remembered
  cases remembered
  rw [finalizeInner_events going, ← map_append, ← append_assoc]
  exact nothingAfter_map (nothingAfter_snoc after _)

theorem endsOnce [FloatCast] :
    responsesConverter.EndsOnce (Wire.satisfies isTerminal) quietOn Running where
  process _ _ chunk running := running.processChunk chunk
  finalize _ _ running := running.finalizeInner false
  truncated _ _ running := running.finalizeInner true
  transport s sent message running := by
    have failed : Running { s with failedError := s.failedError.or (some (streamError message.toList)) } sent :=
      running
    exact failed.finalizeInner false
  unended _ _ running := by
    obtain ⟨-, events, rfl, unended⟩ := running
    exact nothingAfter_map (nothingAfter_of_unended unended)
  silent s chunk quiet := by
    show (processChunk chunk s).1.map Wire.event = []
    rw [processChunk_quiet quiet]
    rfl

end Terminal

end ChatToResponsesStreamState

section Streams

variable [FloatText] [FloatCast] [TableOrder]

/-- If the chunks after the end bring nothing, no event follows a terminal one. -/
theorem nothing_follows_terminal (testCall : Bool) :
    (∀ id model trace s, Reach (billingStep (wrapChatStreamToAnthropic anthropicConverter) testCall)
        (anthropicConverter.LateQuiet quietOn) (.start (.new .new (.new id model))) trace s →
      NothingAfter (Wire.satisfies AnthropicEvent.isTerminal) (sentFrames s.sent)) ∧
    ∀ id model created toolCtx trace s, Reach (billingStep (wrapChatStreamToResponses responsesConverter) testCall)
        (responsesConverter.LateQuiet quietOn)
        (.start (.new .new (.new id model created toolCtx))) trace s →
      NothingAfter (Wire.satisfies isTerminal) (sentFrames s.sent) := by
  constructor
  · intro id model trace s reach
    exact endsOnce.nothingAfter .new
      ⟨[], .new, rfl, rfl, feeds_new id model⟩ reach
  · intro id model created toolCtx trace s reach
    exact endsOnce.nothingAfter .new (.new id model created toolCtx) reach

end Streams

def emptyFrame : String := "data: \x7b\"choices\":[]\x7d\n\n"

def doneThen {ε : Type} (first late : String) : List (BillingAction (Except String (Wire ε))) :=
  [.item (.ok (.bytes (Utf8.encode (first ++ doneFrame)))), .commit, .resume,
    .item (.ok (.bytes (Utf8.encode late))), .eof]

/-- An empty chunk after the end of the stream. -/
theorem late_emptyFrame_quiet :
    let _ : FloatText := Json.verbatim
    let _ : FloatCast := .zero
    let _ : TableOrder := .sorted
    (∃ s, run (billingStep (wrapChatStreamToAnthropic anthropicConverter) false)
        (.start (.new .new (.new [] []))) (doneThen textFrame emptyFrame) = some s ∧
      NothingAfter (Wire.satisfies AnthropicEvent.isTerminal) (sentFrames s.sent)) ∧
    ∃ s, run (billingStep (wrapChatStreamToResponses responsesConverter) false)
        (.start (.new .new (.new [] [] 0 .empty))) (doneThen textFrame emptyFrame) = some s ∧
      NothingAfter (Wire.satisfies isTerminal) (sentFrames s.sent) := by
  intro _ _ _
  constructor
  · have passes : (guardedRun (billingStep (wrapChatStreamToAnthropic anthropicConverter) false)
        (fun s a => decide (anthropicConverter.LateQuiet quietOn s a))
        (.start (.new .new (.new [] []))) (doneThen textFrame emptyFrame)).isSome := by decide +kernel
    obtain ⟨s, computed⟩ := isSome_iff_exists.mp passes
    have reach := reach_of_guardedRun _ (fun _ _ => of_decide_eq_true) computed
    exact ⟨s, reach.run_eq, (nothing_follows_terminal false).1 _ _ _ s reach⟩
  · have passes : (guardedRun (billingStep (wrapChatStreamToResponses responsesConverter) false)
        (fun s a => decide (responsesConverter.LateQuiet quietOn s a))
        (.start (.new .new (.new [] [] 0 .empty))) (doneThen textFrame emptyFrame)).isSome := by decide +kernel
    obtain ⟨s, computed⟩ := isSome_iff_exists.mp passes
    have reach := reach_of_guardedRun _ (fun _ _ => of_decide_eq_true) computed
    exact ⟨s, reach.run_eq, (nothing_follows_terminal false).2 _ _ _ _ _ s reach⟩

/-- A text after the end of the stream is sent on by both wrappers. -/
theorem late_text_follows_terminal :
    let _ : FloatText := Json.verbatim
    let _ : FloatCast := .zero
    let _ : TableOrder := .sorted
    (∃ s, run (billingStep (wrapChatStreamToAnthropic anthropicConverter) false)
        (.start (.new .new (.new [] []))) (doneThen "" textFrame) = some s ∧
      ¬NothingAfter (Wire.satisfies AnthropicEvent.isTerminal) (sentFrames s.sent)) ∧
    ∃ s, run (billingStep (wrapChatStreamToResponses responsesConverter) false)
        (.start (.new .new (.new [] [] 0 .empty))) (doneThen "" textFrame) = some s ∧
      ¬NothingAfter (Wire.satisfies isTerminal) (sentFrames s.sent) := by
  intro _ _ _
  constructor
  · have fails : (run (billingStep (wrapChatStreamToAnthropic anthropicConverter) false)
        (.start (.new .new (.new [] []))) (doneThen "" textFrame)).any
        (fun s => !decide (NothingAfter (Wire.satisfies AnthropicEvent.isTerminal) (sentFrames s.sent))) := by
      decide +kernel
    obtain ⟨s, ran, more⟩ := (any_eq_true _ _).mp fails
    exact ⟨s, ran, by simpa using more⟩
  · have fails : (run (billingStep (wrapChatStreamToResponses responsesConverter) false)
        (.start (.new .new (.new [] [] 0 .empty))) (doneThen "" textFrame)).any
        (fun s => !decide (NothingAfter (Wire.satisfies isTerminal) (sentFrames s.sent))) := by
      decide +kernel
    obtain ⟨s, ran, more⟩ := (any_eq_true _ _).mp fails
    exact ⟨s, ran, by simpa using more⟩

end LlmGateway
