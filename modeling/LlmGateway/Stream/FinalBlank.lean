import LlmGateway.Proxy.Priming
import LlmGateway.Responses.Lifecycle
import LlmGateway.Stream.AfterTerminal
import LlmGateway.Stream.Serve
import LlmGateway.Stream.UsageScanner

namespace LlmGateway

open Emitter Pattern List ChatToResponsesStreamState Wrapper

section Remainder

variable {buf : List UInt8}

theorem findEventEnd_drained (undone : (drained buf).2.2 = false) : findEventEnd (drained buf).1 = none := by
  induction size : buf.length using Nat.strong_induction_on generalizing buf with
  | _ length ih =>
    cases found : findEventEnd buf with
    | none => rw [drained_eq_of_none found, found]
    | some idx =>
      have split : buf.take idx ++ buf.drop idx = buf := take_append_drop idx buf
      have long : (buf.take idx).length = idx := length_take_of_le (findEventEnd_le found)
      have first := drained_append (buf.take idx) (buf.drop idx) (by rw [split, long, found])
      rw [split] at first
      have shorter : (buf.drop idx).length < length := by
        have positive := findEventEnd_pos found
        have inside := findEventEnd_le found
        rw [length_drop]
        omega
      rw [first] at undone ⊢
      cases outcome : sseOutcome (sseFields (buf.take idx)) with
      | nothing =>
        rw [outcome] at undone
        exact ih _ shorter undone rfl
      | done =>
        rw [outcome] at undone
        cases undone
      | event event =>
        rw [outcome] at undone
        exact ih _ shorter undone rfl

theorem findEventEnd_blank (absent : findEventEnd buf = none) (event left : List UInt8)
    (split : event ++ left = buf ++ lfBlank) (first : firstEnd lfBlank buf lfBlank =
      some (event.length - buf.length))
    (long : buf.length ≤ event.length) : findEventEnd (event ++ left) = some event.length := by
  rw [findEventEnd_eq, Option.or_eq_none_iff] at absent
  rw [split, findEventEnd_eq, firstEnd_append_of_none absent.1, nil_append, first, Option.map_some, Option.some_or]
  congr 1
  omega

theorem drained_blank (absent : findEventEnd buf = none) : (drained (buf ++ lfBlank)).2 =
    ((sseOutcome (sseFields (buf ++ [0x0A]))).before [] ([], [], false)).2 := by
  by_cases newline : buf.getLast? = some 0x0A
  · obtain ⟨front, rfl⟩ := List.getLast?_eq_some_iff.mp newline
    have first : firstEnd lfBlank (front ++ [0x0A]) lfBlank = some 1 := firstEnd_lfBlank_newline front [0x0A]
    have found := findEventEnd_blank absent (front ++ [0x0A] ++ [0x0A]) [0x0A] (by simp [lfBlank])
      (by simpa using first) (by simp)
    have read := drained_append _ _ found
    have whole : front ++ [0x0A] ++ lfBlank = front ++ [0x0A] ++ [0x0A] ++ [0x0A] := by simp [lfBlank]
    rw [whole, read]
    cases sseOutcome (sseFields (front ++ [0x0A] ++ [0x0A])) <;> rfl
  · have first : firstEnd lfBlank buf lfBlank = some 2 := by
      have unfinished : lfBlank.isSuffixOf (buf ++ [0x0A]) = false := by
        rcases eq_nil_or_concat buf with rfl | ⟨front, last, rfl⟩
        · rfl
        · rw [concat_eq_append] at newline ⊢
          rw [List.getLast?_concat] at newline
          have other : ((0x0A : UInt8) == last) = false :=
            beq_eq_false_iff_ne.mpr fun same => newline (congrArg some same.symm)
          rw [lfBlank_suffix, other, Bool.and_false]
      have second : firstEnd lfBlank (buf ++ [0x0A]) [0x0A] = some 1 := firstEnd_lfBlank_newline buf []
      rw [show firstEnd lfBlank buf lfBlank = firstEnd lfBlank buf [0x0A, 0x0A] from rfl, firstEnd,
        unfinished, second]
      rfl
    have found := findEventEnd_blank absent (buf ++ lfBlank) [] (by simp) (by simpa [lfBlank] using first) (by simp)
    have read := drained_append _ _ found
    have fields : sseFields (buf ++ lfBlank) = sseFields (buf ++ [0x0A]) := by
      have split : sseFields (buf ++ [0x0A] ++ [0x0A]) = sseFields (buf ++ [0x0A]) ++ sseFields [0x0A] :=
        sseFields_append (by simp)
      rw [sseFields_newline, append_nil] at split
      rw [← split, append_assoc]
      rfl
    rw [append_nil, fields] at read
    rw [read]
    cases sseOutcome (sseFields (buf ++ [0x0A])) <;> rfl

end Remainder

section Primed

variable [FloatText] {κ ι β : Type*} {w : Wrapper κ (Except String ι) (Except String (List β))} {ctx : κ}
  {wrap : List UInt8 → ι} {chunks : List (List UInt8)}

/-- What a stream comes to. It is given up for the next candidate, or its frames are sent and its usage is billed.
-/
def gatewayReply (w : Wrapper κ (Except String ι) (Except String (List β))) (ctx : κ) (wrap : List UInt8 → ι)
    (chunks : List (List UInt8)) : Except Priming (List β × List (Option Usage)) :=
  match primeStream false (chunks.map .ok) with
  | .committed =>
    let served := w.serve ctx false (chunks.map fun chunk => .ok (wrap chunk))
    .ok (sentFrames served.1, served.2)
  | verdict => .error verdict

/-- A blank line behind the last chunk leaves the verdict on a stream as it is: there is one before it, or the bytes
that it completes say nothing and stay inside the window. -/
def primesAlike (chunks : List (List UInt8)) : Bool :=
  match (chunks.map .ok).foldlM PrimeLoop.take .new with
  | .error _ => true
  | .ok loop => !loop.empty && (loop.primer.feed lfBlank).2 = .neutral &&
      loop.bufferedBytes + lfBlank.length < streamPrimeMaxBytes

theorem primesAlike_iff : primesAlike chunks = true ↔
    primeStream false (chunks.map .ok) = primeStream false ((chunks ++ [lfBlank]).map .ok) := by
  rw [primesAlike, primeStream, primeStream, map_append, foldlM_append]
  cases (chunks.map .ok).foldlM PrimeLoop.take .new with
  | error verdict => exact iff_of_true rfl rfl
  | ok loop =>
    have silent : firstChunkError lfBlank = none := rfl
    show _ ↔ .ended loop.empty = match (loop.take (.ok lfBlank)).bind pure with
      | .error verdict => verdict
      | .ok loop => loop.ended false
    rw [PrimeLoop.take, silent]
    dsimp only
    cases (loop.primer.feed lfBlank).2 with
    | neutral =>
      by_cases full : streamPrimeMaxBytes ≤ loop.bufferedBytes + lfBlank.length
      · simp [full, Except.bind]
      · cases loop.empty <;> simp [full, Nat.not_le.mp full, Except.bind, pure, Except.pure, PrimeLoop.ended]
    | terminal => simp [Except.bind]
    | productive => simp [Except.bind]
    | error message => simp [Except.bind]

theorem gatewayReply_committed (committed : primeStream false (chunks.map .ok) = .committed) :
    gatewayReply w ctx wrap chunks =
      .ok (sentFrames (w.serve ctx false (chunks.map fun chunk => .ok (wrap chunk))).1,
      (w.serve ctx false (chunks.map fun chunk => .ok (wrap chunk))).2) := by
  rw [gatewayReply, committed]

theorem gatewayReply_given_up (given : primeStream false (chunks.map .ok) ≠ .committed) :
    gatewayReply w ctx wrap chunks = .error (primeStream false (chunks.map .ok)) := by
  rw [gatewayReply]
  cases verdict : primeStream false (chunks.map .ok) <;> first | rfl | exact absurd verdict given

theorem gatewayReply_alike {f : List β × List (Option Usage) → List β × List (Option Usage)}
    (primes : primesAlike chunks = true)
    (same : primeStream false (chunks.map .ok) = .committed → f
      (sentFrames (w.serve ctx false (chunks.map fun chunk => .ok (wrap chunk))).1,
        (w.serve ctx false (chunks.map fun chunk => .ok (wrap chunk))).2) =
      (sentFrames (w.serve ctx false ((chunks ++ [lfBlank]).map fun chunk => .ok (wrap chunk))).1,
        (w.serve ctx false ((chunks ++ [lfBlank]).map fun chunk => .ok (wrap chunk))).2)) :
    (gatewayReply w ctx wrap chunks).map f = gatewayReply w ctx wrap (chunks ++ [lfBlank]) := by
  have verdict := primesAlike_iff.mp primes
  by_cases committed : primeStream false (chunks.map .ok) = .committed
  · rw [gatewayReply_committed committed, gatewayReply_committed (verdict ▸ committed), Except.map, same committed]
  · rw [gatewayReply_given_up committed, gatewayReply_given_up (verdict ▸ committed), verdict]
    rfl

theorem primesAlike_of_alike {f : List β × List (Option Usage) → List β × List (Option Usage)}
    (alike : (gatewayReply w ctx wrap chunks).map f = gatewayReply w ctx wrap (chunks ++ [lfBlank])) :
    primesAlike chunks = true := by
  rw [primesAlike_iff]
  by_cases short : primeStream false (chunks.map .ok) = .committed <;>
    by_cases long : primeStream false ((chunks ++ [lfBlank]).map .ok) = .committed
  · rw [short, long]
  · rw [gatewayReply_committed short, gatewayReply_given_up long] at alike
    cases alike
  · rw [gatewayReply_given_up short, gatewayReply_committed long] at alike
    cases alike
  · rw [gatewayReply_given_up short, gatewayReply_given_up long] at alike
    exact Except.error.inj alike

end Primed

section Alike

variable {κ σ γ ε η : Type*}

def upstreamItems (chunks : List (List UInt8)) : List (Except String (Wire ε)) :=
  chunks.map fun chunk => .ok (.bytes chunk)

/-- What a blank line completes brings nothing: no data or no JSON, a chunk that is `idle`, or a `[DONE]` for a
stream that is `sure` of its end. -/
def Converter.harmless (conv : Converter ChatSseParser σ γ (Wire ε) η) (quiet idle : σ → γ → Bool) (sure : σ → Bool)
    (ctx : ConvertCtx ChatSseParser σ η) : Bool :=
  if ctx.finished then conv.framesQuiet quiet ctx.state (ctx.parser.push lfBlank).2.1
  else match sseOutcome (sseFields (ctx.parser.buf ++ [0x0A])) with
    | .nothing => true
    | .done => sure ctx.state
    | .event frame => (conv.read frame).all (idle ctx.state)

/-- What the tests of `harmless` stand for. -/
structure Converter.EndsAlike (conv : Converter ChatSseParser σ γ (Wire ε) η) (quiet idle : σ → γ → Bool)
    (sure : σ → Bool) : Prop where
  push : conv.push = Wire.push
  silent : ∀ s cc, quiet s cc = true → (conv.processChunk s cc).2 = []
  idle : ∀ s cc, idle s cc = true → conv.processChunk s cc = (s, [])
  sure : ∀ s, sure s = true → (conv.finalize s).2 = (conv.finalizeTruncated s).2 ∧
    conv.billingUsage (conv.finalize s).1 = conv.billingUsage (conv.finalizeTruncated s).1

variable {conv : Converter ChatSseParser σ γ (Wire ε) η} {quiet idle : σ → γ → Bool} {sure : σ → Bool}
  {ctx : ConvertCtx ChatSseParser σ η} {s : σ}

theorem Converter.foldl_failed (payloads : List SseEvent) (s : σ) (out : List (Wire ε)) :
    (payloads.foldl conv.frame (s, out, true)).2.2 = true := by
  induction payloads generalizing s out with
  | nil => rfl
  | cons payload rest ih =>
    rw [foldl_cons]
    cases read : conv.read payload with
    | none => rw [frame_unread read, ih]
    | some cc =>
      rw [frame_read read]
      exact ih _ _

/-- A converter that fails says so in the flag. -/
theorem Converter.foldl_healthy (payloads : List SseEvent) (out : List (Wire ε))
    (healthy : conv.hasFailed s = false) (unfailed : (payloads.foldl conv.frame (s, out, false)).2.2 = false) :
    conv.hasFailed (payloads.foldl conv.frame (s, out, false)).1 = false := by
  induction payloads generalizing s out with
  | nil => exact healthy
  | cons payload rest ih =>
    rw [foldl_cons] at unfailed ⊢
    cases read : conv.read payload with
    | none =>
      rw [frame_unread read] at unfailed ⊢
      exact ih out healthy unfailed
    | some cc =>
      rw [frame_read read, Bool.false_or] at unfailed ⊢
      cases next : conv.hasFailed (conv.processChunk s cc).1 with
      | true =>
        rw [next, foldl_failed] at unfailed
        cases unfailed
      | false =>
        rw [next] at unfailed
        exact ih _ next unfailed

/-- Where a stream of chunks can have got: as long as it goes on, no event is complete and nothing has failed. -/
structure Converter.Stands (conv : Converter ChatSseParser σ γ (Wire ε) η) (ctx : ConvertCtx ChatSseParser σ η)
    (recorded : Bool) : Prop where
  billed : recorded = ctx.finished
  pending : ctx.finished = false → findEventEnd ctx.parser.buf = none
  healthy : ctx.finished = false → conv.hasFailed ctx.state = false

theorem ChatSseParser.push_events (parser : ChatSseParser) (chunk : List UInt8) :
    (parser.push chunk).2 = (drained (parser.buf ++ chunk)).2 := rfl

theorem ChatSseParser.push_pending (parser : ChatSseParser) (chunk : List UInt8)
    (undone : (parser.push chunk).2.2 = false) : findEventEnd (parser.push chunk).1.buf = none := by
  have left : (parser.push chunk).1.buf = if maxBuffer < (drained (parser.buf ++ chunk)).1.length then []
    else (drained (parser.buf ++ chunk)).1 := rfl
  rw [left]
  split
  · rfl
  · exact findEventEnd_drained undone

theorem Converter.Stands.through (laws : conv.EndsAlike quiet idle sure) (chunks : List (List UInt8))
    {recorded : Bool}
    (stands : conv.Stands ctx recorded) :
    conv.Stands ((wrapConverted conv).through ctx recorded (upstreamItems chunks)).1
      ((wrapConverted conv).through ctx recorded (upstreamItems chunks)).2 := by
  induction chunks generalizing ctx recorded with
  | nil => exact stands
  | cons chunk chunks ih =>
    rw [upstreamItems, map_cons, through]
    cases ended : ctx.finished with
    | true =>
      rw [wrapConverted_goesOn (.inl ended)]
      exact ih ⟨stands.billed, fun running => by simp [ended] at running, fun running => by simp [ended] at running⟩
    | false =>
      have unbilled := stands.billed.trans ended
      cases ends : (conv.push ctx.parser (.bytes chunk)).2.2 ||
          (conv.convert ctx.state (conv.push ctx.parser (.bytes chunk)).2.1).2.2 with
      | true =>
        rw [wrapConverted_finishes ended ends, unbilled]
        exact ih ⟨rfl, by rintro ⟨⟩, by rintro ⟨⟩⟩
      | false =>
        rw [wrapConverted_goesOn (.inr ends)]
        obtain ⟨undone, unfailed⟩ := Bool.or_eq_false_iff.mp ends
        refine ih ⟨stands.billed, fun _ => ?_, fun _ => ?_⟩
        · rw [laws.push] at undone ⊢
          exact ctx.parser.push_pending chunk undone
        · exact foldl_healthy _ [] (stands.healthy ended) unfailed

theorem sentFrames_append {β : Type*} (first second : List (Except String (List β))) :
    sentFrames (first ++ second) = sentFrames first ++ sentFrames second :=
  flatMap_append

namespace Converter

theorem serve_finished (ended : ctx.finished = true) : (wrapConverted conv).serve ctx true [] = ([.ok []], []) := by
  simp [Wrapper.serve, wrapConverted, ended]

theorem serve_running (running : ctx.finished = false) : (wrapConverted conv).serve ctx false [] =
    ([.ok (conv.finalizeTruncated ctx.state).2], [conv.billingUsage (conv.finalizeTruncated ctx.state).1]) := by
  simp [Wrapper.serve, wrapConverted, running]

theorem serve_unchanged (running : ctx.finished = false)
    (undone : (conv.push ctx.parser (.bytes lfBlank)).2.2 = false)
    (unchanged : conv.convert ctx.state (conv.push ctx.parser (.bytes lfBlank)).2.1 = (ctx.state, [], false)) :
    (wrapConverted conv).serve ctx false [.ok (.bytes lfBlank)] =
      ([.ok [], .ok (conv.finalizeTruncated ctx.state).2],
        [conv.billingUsage (conv.finalizeTruncated ctx.state).1]) := by
  have goesOn := wrapConverted_goesOn (.inr (by rw [undone, unchanged]; rfl))
  rw [unchanged] at goesOn
  rw [serve_yields (.inr (by rw [goesOn])), goesOn, serve_running]
  exact running

theorem serve_done (running : ctx.finished = false)
    (done : (conv.push ctx.parser (.bytes lfBlank)).2 = ([], true)) :
    (wrapConverted conv).serve ctx false [.ok (.bytes lfBlank)] =
      ([.ok (conv.finalize ctx.state).2, .ok []], [conv.billingUsage (conv.finalize ctx.state).1]) := by
  have finishes : (wrapConverted conv).onItem ctx (.ok (.bytes lfBlank)) = _ :=
    wrapConverted_finishes running (by rw [done]; rfl)
  rw [done] at finishes
  rw [serve_bills (by rw [finishes]), finishes]
  dsimp only [wrapConverted]
  rfl

theorem serve_end (laws : conv.EndsAlike quiet idle sure) (stands : conv.Stands ctx ctx.finished)
    (harmless : conv.harmless quiet idle sure ctx = true) :
    sentFrames ((wrapConverted conv).serve ctx ctx.finished []).1 =
        sentFrames ((wrapConverted conv).serve ctx ctx.finished [.ok (.bytes lfBlank)]).1 ∧
      ((wrapConverted conv).serve ctx ctx.finished []).2 =
        ((wrapConverted conv).serve ctx ctx.finished [.ok (.bytes lfBlank)]).2 := by
  unfold Converter.harmless at harmless
  have pushed : conv.push ctx.parser (.bytes lfBlank) = ctx.parser.push lfBlank := by rw [laws.push]; rfl
  cases ended : ctx.finished with
  | true =>
    rw [if_pos ended, ← pushed] at harmless
    have silent := foldl_silent laws.silent _ [] false harmless
    have goesOn : (wrapConverted conv).onItem ctx (.ok (.bytes lfBlank)) = _ := wrapConverted_goesOn (.inl ended)
    rw [convert, silent] at goesOn
    rw [serve_yields (.inl rfl), goesOn, serve_finished ended, serve_finished]
    · exact ⟨rfl, rfl⟩
    · exact ended
  | false =>
    rw [if_neg (by simp [ended])] at harmless
    have events := drained_blank (stands.pending ended)
    rw [← ctx.parser.push_events, ← pushed] at events
    rw [serve_running ended]
    cases outcome : sseOutcome (sseFields (ctx.parser.buf ++ [0x0A])) with
    | nothing =>
      rw [outcome] at events
      rw [serve_unchanged ended (by rw [events]; rfl) (by rw [events]; rfl)]
      exact ⟨rfl, rfl⟩
    | done =>
      rw [outcome] at events harmless
      obtain ⟨frames, usage⟩ := laws.sure _ harmless
      rw [serve_done ended events, frames, usage]
      exact ⟨by simp [sentFrames, outFrames_ok], rfl⟩
    | event frame =>
      rw [outcome] at events harmless
      have unchanged : conv.convert ctx.state [frame] = (ctx.state, [], false) := by
        rw [convert, foldl_cons, foldl_nil]
        cases read : conv.read frame with
        | none => exact frame_unread read _
        | some cc =>
          have allowed : (conv.read frame).all (idle ctx.state) = true := harmless
          rw [read] at allowed
          rw [frame_read read, laws.idle _ _ allowed, stands.healthy ended]
          rfl
      rw [serve_unchanged ended (by rw [events]; rfl) (by rw [events]; exact unchanged)]
      exact ⟨rfl, rfl⟩

end Converter

def ServedAlike [FloatText] (w : Wrapper κ (Except String (Wire ε)) (Except String (List (Wire ε)))) (ctx : κ)
    (chunks : List (List UInt8)) : Prop :=
  gatewayReply w ctx .bytes chunks = gatewayReply w ctx .bytes (chunks ++ [lfBlank])

theorem Converter.servedAlike [FloatText] (laws : conv.EndsAlike quiet idle sure) (chunks : List (List UInt8))
    (stands : conv.Stands ctx false) (primes : primesAlike chunks = true)
    (harmless : primeStream false (chunks.map .ok) = .committed →
      conv.harmless quiet idle sure ((wrapConverted conv).through ctx false (upstreamItems chunks)).1 = true) :
    ServedAlike (wrapConverted conv) ctx chunks := by
  suffices same : primeStream false (chunks.map .ok) = .committed →
      (sentFrames ((wrapConverted conv).serve ctx false (upstreamItems chunks)).1,
        ((wrapConverted conv).serve ctx false (upstreamItems chunks)).2) =
      (sentFrames ((wrapConverted conv).serve ctx false (upstreamItems (chunks ++ [lfBlank]))).1,
        ((wrapConverted conv).serve ctx false (upstreamItems (chunks ++ [lfBlank]))).2) by
    have alike := gatewayReply_alike (f := id) primes same
    rwa [Except.map_id] at alike
  intro committed
  have harmless := harmless committed
  have reached := stands.through laws chunks
  obtain ⟨outs, rows, served⟩ := (wrapConverted conv).serve_append ctx false (upstreamItems chunks)
  have short := served []
  have long := served [.ok (.bytes lfBlank)]
  rw [append_nil] at short
  have items : (upstreamItems (chunks ++ [lfBlank]) : List (Except String (Wire ε))) =
      upstreamItems chunks ++ [.ok (.bytes lfBlank)] := by simp [upstreamItems]
  rw [items, short, long, reached.billed, sentFrames_append, sentFrames_append]
  generalize ((wrapConverted conv).through ctx false (upstreamItems chunks)).1 = last at *
  obtain ⟨same, billed⟩ := Converter.serve_end laws (reached.billed ▸ reached) harmless
  rw [same, billed]

end Alike

theorem heldText_kept {held new : Str} (known : (!held.isEmpty || new.isEmpty) = true) :
    (if held.isEmpty then new else held) = held := by
  cases empty : held.isEmpty with
  | true =>
    rw [empty, Bool.not_true, Bool.false_or] at known
    rw [if_pos rfl, isEmpty_iff.mp known, isEmpty_iff.mp empty]
  | false => rfl

def ChatStreamChoice.isIdle (choice : ChatStreamChoice) : Bool :=
  choice.delta.isBare && (choice.finishReason.bind Text.nonBlank).isNone

namespace ChatToAnthropicState

def headerKnown (s : ChatToAnthropicState) (chunk : ChatStreamChunk) : Bool :=
  (!s.id.isEmpty || chunk.id.isEmpty) && (!s.model.isEmpty || chunk.model.isEmpty) && chunk.usage.isNone

def idleOn (s : ChatToAnthropicState) (chunk : ChatStreamChunk) : Bool :=
  chunk.error.isNone && s.sentMessageStart && s.headerKnown chunk && chunk.choices.all (·.isIdle)

def sureOfEnd (s : ChatToAnthropicState) : Bool := s.sentMessageStart && s.pendingStopReason.isSome

section Idle

variable {s : ChatToAnthropicState} {chunk : ChatStreamChunk}

theorem noteHeader_known (known : s.headerKnown chunk = true) : s.noteHeader chunk = s := by
  simp only [headerKnown, Bool.and_eq_true, Option.isNone_iff_eq_none] at known
  obtain ⟨⟨id, model⟩, usage⟩ := known
  rw [noteHeader, heldText_kept id, heldText_kept model, usage, Option.none_or]

theorem processChoice_idle {choice : ChatStreamChoice} (idle : choice.isIdle = true) :
    processChoice choice s = ([], s) := by
  obtain ⟨bare, unfinished⟩ := Bool.and_eq_true_iff.mp idle
  rw [processChoice_bare bare, noteFinish, Option.isNone_iff_eq_none.mp unfinished]

theorem processChunk_idle (idle : s.idleOn chunk = true) : processChunk chunk s = ([], s) := by
  unfold processChunk
  split
  · rfl
  · simp only [idleOn, Bool.and_eq_true, Option.isNone_iff_eq_none] at idle
    obtain ⟨⟨⟨fine, begun⟩, known⟩, choices⟩ := idle
    have started : ensureMessageStart s = ([], s) := if_pos begun
    have nothing : forEach processChoice chunk.choices s = ([], s) :=
      forEach_idle fun choice mem => processChoice_idle (all_eq_true.mp choices choice mem)
    simp [fine, followedBy, quiet, noteHeader_known known, started, nothing]

end Idle

section Sure

variable {s : ChatToAnthropicState} {reason : Option StopReason}

theorem appendNonToolDelta_reason (kind : NonToolKind) (delta : Str) (held : s.pendingStopReason = reason) :
    (appendNonToolDelta kind delta s).2.pendingStopReason = reason := by
  rw [appendNonToolDelta, followedBy_state, sendDelta, ensureOpen]
  split
  · exact held
  · rw [followedBy_state, openBlock, closeOpenNonTool]
    split <;> exact held

theorem flushContent_reason (held : s.pendingStopReason = reason) :
    (flushContent s).2.pendingStopReason = reason := by
  rw [flushContent]
  dsimp only
  refine forEach_invariant (fun s : ChatToAnthropicState => s.pendingStopReason = reason)
    (fun delta s held => appendNonToolDelta_reason .text delta held) _ ?_
  exact forEach_invariant (fun s : ChatToAnthropicState => s.pendingStopReason = reason)
    (fun delta s held => appendNonToolDelta_reason .thinking delta held) _ held

theorem closeTool_reason (key : Int) (held : s.pendingStopReason = reason) :
    (closeTool key s).2.pendingStopReason = reason := by
  unfold closeTool
  split
  · exact held
  · split
    · exact held
    · split
      · split <;> exact held
      · exact held

theorem closeOpenBlocks_reason (held : s.pendingStopReason = reason) :
    (closeOpenBlocks s).2.pendingStopReason = reason := by
  rw [closeOpenBlocks, followedBy_state]
  refine forEach_invariant (fun s : ChatToAnthropicState => s.pendingStopReason = reason)
    (fun key s held => closeTool_reason key held) _ ?_
  unfold closeOpenNonTool
  split <;> exact held

theorem messageDeltaEvents_sure (known : s.pendingStopReason.isSome = true) :
    messageDeltaEvents true s = messageDeltaEvents false s := by
  obtain ⟨reason, same⟩ := Option.isSome_iff_exists.mp known
  simp [messageDeltaEvents, stopReason, same]

theorem finalizeInner_sure (sure : s.sureOfEnd = true) : finalizeInner true s = finalizeInner false s := by
  obtain ⟨begun, known⟩ := Bool.and_eq_true_iff.mp sure
  obtain ⟨reason, same⟩ := Option.isSome_iff_exists.mp known
  have started : ensureMessageStart { s with finalized := true } = ([], { s with finalized := true }) :=
    if_pos begun
  have last : (closeOpenBlocks (ensureMessageStart.followedBy flushContent
      { s with finalized := true }).2).2.pendingStopReason =
      some reason := by
    rw [followedBy_state, started]
    exact closeOpenBlocks_reason (flushContent_reason same)
  unfold finalizeInner
  split
  · rfl
  · dsimp only
    split
    · rfl
    · have kept (truncated : Bool) : ¬(truncated && !s.sentMessageStart) = true := by simp [begun]
      rw [if_neg (kept true), if_neg (kept false)]
      generalize ensureMessageStart.followedBy flushContent { s with finalized := true } = flushed at last
      generalize closeOpenBlocks flushed.2 = closed at last
      rw [messageDeltaEvents_sure (Option.isSome_iff_exists.mpr ⟨reason, last⟩)]

end Sure

theorem endsAlike [FloatText] [FloatCast] : anthropicConverter.EndsAlike quietOn idleOn sureOfEnd where
  push := rfl
  silent s chunk quiet := endsOnce.silent s chunk quiet
  idle s chunk idle := by
    show Wire.frames (processChunk chunk s) = (s, [])
    rw [processChunk_idle idle]
    rfl
  sure s sure := by
    show (Wire.frames (finalizeInner false s)).2 = (Wire.frames (finalizeInner true s)).2 ∧
      (Wire.frames (finalizeInner false s)).1.usage.map _ = (Wire.frames (finalizeInner true s)).1.usage.map _
    rw [finalizeInner_sure sure]
    exact ⟨rfl, rfl⟩

end ChatToAnthropicState

namespace ChatToResponsesStreamState

def headerKnown (s : ChatToResponsesStreamState) (chunk : ChatStreamChunk) : Bool :=
  (!s.id.isEmpty || chunk.id.isEmpty) && (!s.model.isEmpty || chunk.model.isEmpty) &&
    (s.created ≠ 0 || chunk.created.all (· = 0)) && chunk.usage.isNone

def idleOn (s : ChatToResponsesStreamState) (chunk : ChatStreamChunk) : Bool :=
  chunk.error.isNone && s.sentCreated && s.headerKnown chunk && chunk.choices.all (·.isIdle)

def holdsText (s : ChatToResponsesStreamState) : Bool := s.inlineThink.mode ≠ .text && !s.inlineThink.buffer.isEmpty

def sureOfEnd (s : ChatToResponsesStreamState) : Bool := s.finishReasonSeen && (s.hasAnyOutput || s.holdsText)

section Idle

variable {s : ChatToResponsesStreamState} {chunk : ChatStreamChunk}

theorem noteHeader_known (known : s.headerKnown chunk = true) : s.noteHeader chunk = s := by
  simp only [headerKnown, Bool.and_eq_true, Option.isNone_iff_eq_none] at known
  obtain ⟨⟨⟨id, model⟩, created⟩, usage⟩ := known
  have sameCreated : (if s.created = 0 then chunk.created.getD s.created else s.created) = s.created := by
    split
    next unset =>
      cases sent : chunk.created with
      | none => rfl
      | some time =>
        have zero : time = 0 := by simpa [unset, sent] using created
        rw [Option.getD_some, zero, unset]
    · rfl
  rw [noteHeader, heldText_kept id, heldText_kept model, sameCreated, usage, Option.none_or]

variable [FloatText] [TableOrder]

theorem processChoice_idle {choice : ChatStreamChoice} (idle : choice.isIdle = true) :
    processChoice choice s = ([], s) := by
  obtain ⟨bare, unfinished⟩ := Bool.and_eq_true_iff.mp idle
  obtain ⟨reasoning, content, refusal, calls⟩ := ChatStreamDelta.isBare_iff.mp bare
  simp only [processChoice, processTexts, reasoning, content, refusal, calls,
    Option.isNone_iff_eq_none.mp unfinished]
  rfl

theorem processChunk_idle (idle : s.idleOn chunk = true) : processChunk chunk s = ([], s) := by
  unfold processChunk
  split
  · rfl
  · simp only [idleOn, Bool.and_eq_true, Option.isNone_iff_eq_none] at idle
    obtain ⟨⟨⟨fine, begun⟩, known⟩, choices⟩ := idle
    have started : ensureCreated s = ([], s) := if_pos begun
    have nothing : forEach processChoice chunk.choices s = ([], s) :=
      forEach_idle fun choice mem => processChoice_idle (all_eq_true.mp choices choice mem)
    simp [fine, followedBy, quiet, noteHeader_known known, started, nothing]

end Idle

def Counts (key : Int) (s : ChatToResponsesStreamState) : Prop :=
  (s.toolAt key).started = true ∧ (s.toolAt key).name.isEmpty = false

/-- The output that a finished response has. -/
structure Answered (s : ChatToResponsesStreamState) : Prop where
  seen : s.finishReasonSeen = true
  output : s.textStarted = true ∨ s.reasoningStarted = true ∨ ∃ key, s.Counts key

section Sure

variable {s s' : ChatToResponsesStreamState} {key other : Int} {tool : ChatTool}

theorem hasAnyOutput_iff : s.hasAnyOutput = true ↔
    s.textStarted = true ∨ s.reasoningStarted = true ∨ ∃ key, s.Counts key := by
  have tools : (s.tools.values.any fun tool => tool.started && !tool.name.isEmpty) = true ↔
      ∃ key, s.Counts key := by
    rw [any_eq_true]
    constructor
    · rintro ⟨tool, mem, shown⟩
      obtain ⟨key, found⟩ := IntMap.mem_values_iff.mp mem
      exact ⟨key, by simpa [Counts, toolAt_eq found] using shown⟩
    · rintro ⟨key, started, named⟩
      cases found : s.tools[key]? with
      | none => simp [toolAt, found, ChatTool.fresh] at named
      | some tool =>
        rw [toolAt_eq found] at started named
        exact ⟨tool, IntMap.mem_values_iff.mpr ⟨key, found⟩, by simp [started, named]⟩
  simp [hasAnyOutput, tools, or_assoc]

theorem Counts.insert (counts : s.Counts key) (tools : s'.tools = s.tools.insert other tool)
    (started : s.Counts other → tool.started = true ∧ tool.name.isEmpty = false) : s'.Counts key := by
  unfold Counts
  rw [toolAt_insert tools]
  split
  next same =>
    subst same
    exact started counts
  · exact counts

theorem Answered.appendTextDelta (seen : s.finishReasonSeen = true) (delta : Str) :
    (appendTextDelta delta s).2.Answered := by
  obtain ⟨next, order, index, same⟩ := appendTextDelta_frame s delta
  rw [same]
  exact ⟨seen, .inl rfl⟩

theorem Answered.appendReasoningDelta (seen : s.finishReasonSeen = true) (delta : Str) :
    (appendReasoningDelta delta s).2.Answered := by
  obtain ⟨next, order, index, same⟩ := appendReasoningDelta_frame s delta
  rw [same]
  exact ⟨seen, .inr (.inl rfl)⟩

theorem Answered.forEach {op : Str → Emitter ChatToResponsesStreamState ResponsesEvent}
    (each : ∀ delta s, s.finishReasonSeen = true → (op delta s).2.Answered) (pieces : List Str)
    (seen : s.finishReasonSeen = true) (some : s.Answered ∨ pieces ≠ []) : (forEach op pieces s).2.Answered := by
  cases pieces with
  | nil => exact some.resolve_right (by simp)
  | cons piece rest =>
    exact forEach_invariant Answered (fun delta _ answered => each delta _ answered.seen) rest (each piece s seen)

theorem Answered.appendPieces (pieces : List Str × List Str) (seen : s.finishReasonSeen = true)
    (some : s.Answered ∨ pieces.1 ≠ [] ∨ pieces.2 ≠ []) : (appendPieces pieces s).2.Answered := by
  rw [ChatToResponsesStreamState.appendPieces, followedBy_state]
  by_cases thought : s.Answered ∨ pieces.1 ≠ []
  · have answered :=
      Answered.forEach (fun delta _ seen => Answered.appendReasoningDelta seen delta) pieces.1 seen thought
    exact Answered.forEach (fun delta _ seen => Answered.appendTextDelta seen delta) pieces.2 answered.seen
      (.inl answered)
  · obtain ⟨none, empty⟩ := not_or.mp thought
    rw [not_not] at empty
    have said := (some.resolve_left none).resolve_left (by simp [empty])
    rw [empty]
    exact Answered.forEach (fun delta _ seen => Answered.appendTextDelta seen delta) pieces.2 seen (.inr said)

theorem Answered.flushContent (seen : s.finishReasonSeen = true)
    (some : s.hasAnyOutput = true ∨ s.holdsText = true) :
    (flushContent s).2.Answered := by
  refine Answered.appendPieces _ seen ?_
  rcases some with output | held
  · exact .inl ⟨seen, hasAnyOutput_iff.mp output⟩
  · simp only [holdsText, Bool.and_eq_true, decide_eq_true_eq, Bool.not_eq_true'] at held
    right
    cases mode : s.inlineThink.mode with
    | text => exact absurd mode held.1
    | detecting => right; simp [held.2]
    | reasoning => left; simp [held.2]

variable [FloatText]

theorem Counts.releaseReadyTools (counts : s.Counts key) (force : Bool) :
    (releaseReadyTools force s).2.Counts key := by
  refine releaseFrom_invariant (Counts key) (fun s other tool counts found started _ => ?_) force _ counts
  refine counts.insert (show (releaseTool other tool s).2.tools = _ from rfl) fun known => ?_
  rw [Counts, toolAt_eq found] at known
  exact known

theorem Counts.finishTool (counts : s.Counts key) (status : ResponseStatus) (other : Int) :
    (finishTool status other s).2.Counts key := by
  rcases finishTool_cases status other s with ⟨-, same⟩ | ⟨tool, found, -, ⟨-, same⟩ | ⟨-, same⟩⟩
  · rw [same]
    exact counts
  · rw [same]
    exact counts.insert rfl fun known => by rwa [Counts, toolAt_eq found] at known
  · rw [same]
    exact counts.insert rfl fun known => by rwa [Counts, toolAt_eq found] at known

theorem Counts.doneDeltaEvents (counts : s.Counts key) : (doneDeltaEvents s).2.Counts key := by
  rw [ChatToResponsesStreamState.doneDeltaEvents, followedBy_state, followedBy_state, followedBy_state,
    followedBy_state, closeMessage_frame, closeReasoning_frame]
  have released := (counts.releaseReadyTools false).releaseReadyTools true
  exact forEach_invariant (Counts key) (fun other s counts => counts.finishTool _ other) _ released

theorem Answered.doneDeltaEvents (answered : s.Answered) : (doneDeltaEvents s).2.Answered := by
  obtain ⟨next, order, tools, dropped, same⟩ := doneDeltaEvents_frame s
  rcases answered.output with text | reasoning | ⟨key, counts⟩
  · rw [same]
    exact ⟨answered.seen, .inl text⟩
  · rw [same]
    exact ⟨answered.seen, .inr (.inl reasoning)⟩
  · refine ⟨?_, .inr (.inr ⟨key, counts.doneDeltaEvents⟩)⟩
    rw [same]
    exact answered.seen

omit [FloatText] in
theorem verdict_answered (answered : s.Answered) : verdict true s = verdict false s := by
  have output := hasAnyOutput_iff.mpr answered.output
  simp [verdict, output, answered.seen]

theorem finalizeInner_sure (sure : s.sureOfEnd = true) : finalizeInner true s = finalizeInner false s := by
  obtain ⟨seen, some⟩ := Bool.and_eq_true_iff.mp sure
  have flushed : (flushContent { s with finalized := true }).2.Answered :=
    Answered.flushContent seen (by simpa [holdsText, hasAnyOutput] using some)
  have same : sendTerminal true (doneDeltaEvents (flushContent { s with finalized := true }).2).2 =
      sendTerminal false (doneDeltaEvents (flushContent { s with finalized := true }).2).2 := by
    rw [sendTerminal, sendTerminal, verdict_answered flushed.doneDeltaEvents]
  unfold finalizeInner
  split
  · rfl
  · simp [followedBy, same]

end Sure

theorem endsAlike [FloatText] [FloatCast] [TableOrder] : responsesConverter.EndsAlike quietOn idleOn sureOfEnd where
  push := rfl
  silent s chunk quiet := endsOnce.silent s chunk quiet
  idle s chunk idle := by
    show Wire.frames (processChunk chunk s) = (s, [])
    rw [processChunk_idle idle]
    rfl
  sure s sure := by
    show (Wire.frames (finalizeInner false s)).2 = (Wire.frames (finalizeInner true s)).2 ∧
      (Wire.frames (finalizeInner false s)).1.usage.map _ = (Wire.frames (finalizeInner true s)).1.usage.map _
    rw [finalizeInner_sure sure]
    exact ⟨rfl, rfl⟩

end ChatToResponsesStreamState

section PassThrough

variable [FloatText] {captureUsage recorded : Bool} {ctx : UsageCapture (List UInt8)}

abbrev passThroughBytes (captureUsage : Bool) :
    Wrapper (UsageCapture (List UInt8)) (Except String (List UInt8)) (Except String (List UInt8)) :=
  wrapStream byteScanner captureUsage

theorem passThroughBytes_client (chunks : List (List UInt8)) :
    ((passThroughBytes captureUsage).serve ctx recorded (chunks.map .ok)).1 = chunks.map .ok ++ [.ok []] := by
  induction chunks generalizing ctx recorded with
  | nil => rfl
  | cons chunk chunks ih =>
    have passed : ((passThroughBytes captureUsage).onItem ctx (.ok chunk)).2.2 = .ok chunk := rfl
    obtain ⟨rfl, bills⟩ | yields :=
      swaps_or_yields recorded ((passThroughBytes captureUsage).onItem ctx (.ok chunk)).2.1
    · rw [map_cons, serve_bills bills, passed, ih]
      rfl
    · rw [map_cons, serve_yields yields, passed, ih]
      rfl

theorem feed_buf (ctx : UsageCapture (List UInt8)) (chunk : List UInt8) :
    (ctx.feed byteScanner chunk).1.buf = (feedSse ctx.buf chunk).1 := by
  unfold UsageCapture.feed byteScanner
  dsimp only
  split <;> rfl

theorem feed_done (ctx : UsageCapture (List UInt8)) (chunk : List UInt8) :
    (ctx.feed byteScanner chunk).2 = (feedSse ctx.buf chunk).2.2 := by
  unfold UsageCapture.feed byteScanner
  dsimp only
  split <;> rfl

theorem feed_captured {chunk : List UInt8} (none : (feedSse ctx.buf chunk).2.1 = none) :
    (ctx.feed byteScanner chunk).1.captured = ctx.captured := by
  unfold UsageCapture.feed byteScanner
  dsimp only
  rw [none]

theorem feed_blank_twice (undone : (ctx.feed byteScanner lfBlank).2 = false) :
    ((ctx.feed byteScanner lfBlank).1.feed byteScanner lfBlank).1.captured =
      (ctx.feed byteScanner lfBlank).1.captured := by
  rw [feed_done] at undone
  refine feed_captured ?_
  rw [feed_buf, feedSse_blank_twice ctx.buf undone]

theorem passThroughBytes_rows (ctx : UsageCapture (List UInt8)) (recorded : Bool) :
    ((passThroughBytes captureUsage).serve ctx recorded []).2 =
      ((passThroughBytes captureUsage).serve ctx recorded [.ok lfBlank]).2 := by
  cases recorded with
  | true => rw [serve_recorded, serve_recorded]
  | false =>
    cases captureUsage with
    | false => rfl
    | true =>
      have tail (ctx : UsageCapture (List UInt8)) : ((passThroughBytes true).serve ctx false []).2 =
        [(ctx.feed byteScanner lfBlank).1.captured] := rfl
      have item : (passThroughBytes true).onItem ctx (.ok lfBlank) =
        ((ctx.feed byteScanner lfBlank).1, (ctx.feed byteScanner lfBlank).2, .ok lfBlank) := rfl
      cases done : (ctx.feed byteScanner lfBlank).2 with
      | true =>
        rw [serve_bills (by rw [item, done]), item, tail, serve_recorded]
        rfl
      | false =>
        rw [serve_yields (.inr (by rw [item, done])), item, tail, tail, feed_blank_twice done]

end PassThrough

section Streams

variable [FloatText] [FloatCast] [TableOrder]

/-- The client gets the blank line itself as well. -/
def PassedAlike (captureUsage : Bool) (chunks : List (List UInt8)) : Prop :=
  (gatewayReply (passThroughBytes captureUsage) (.new []) id chunks).map
    (fun reply => (reply.1 ++ lfBlank, reply.2)) =
    gatewayReply (passThroughBytes captureUsage) (.new []) id (chunks ++ [lfBlank])

omit [FloatCast] [TableOrder] in
theorem passedAlike_iff (captureUsage : Bool) (chunks : List (List UInt8)) :
    PassedAlike captureUsage chunks ↔ primesAlike chunks = true := by
  refine ⟨primesAlike_of_alike, fun primes => gatewayReply_alike primes fun _ => ?_⟩
  have sent (chunks : List (List UInt8)) : sentFrames
      ((passThroughBytes captureUsage).serve (.new []) false (chunks.map .ok)).1 = chunks.flatten := by
    rw [passThroughBytes_client]
    simp [sentFrames, outFrames_ok, flatMap_map]
  have billed : ((passThroughBytes captureUsage).serve (.new []) false (chunks.map .ok)).2 =
      ((passThroughBytes captureUsage).serve (.new []) false ((chunks ++ [lfBlank]).map .ok)).2 := by
    obtain ⟨outs, rows, served⟩ := (passThroughBytes captureUsage).serve_append (.new []) false (chunks.map .ok)
    have short := served []
    rw [append_nil] at short
    rw [map_append, map_singleton, short, served, passThroughBytes_rows]
  refine Prod.ext ?_ billed
  show sentFrames ((passThroughBytes captureUsage).serve (.new []) false (chunks.map .ok)).1 ++ lfBlank =
    sentFrames ((passThroughBytes captureUsage).serve (.new []) false ((chunks ++ [lfBlank]).map .ok)).1
  rw [sent, sent, flatten_append, flatten_singleton]

/-- A blank line behind the last event makes no difference if the bytes left in the parser are harmless. -/
theorem final_blank_line :
    (∀ captureUsage chunks, PassedAlike captureUsage chunks ↔ primesAlike chunks = true) ∧
    (∀ id model chunks, primesAlike chunks = true →
      (primeStream false (chunks.map .ok) = .committed →
        anthropicConverter.harmless ChatToAnthropicState.quietOn ChatToAnthropicState.idleOn
          ChatToAnthropicState.sureOfEnd ((wrapChatStreamToAnthropic anthropicConverter).through
            (.new .new (.new id model)) false (upstreamItems chunks)).1 = true) →
      ServedAlike (wrapChatStreamToAnthropic anthropicConverter) (.new .new (.new id model)) chunks) ∧
    ∀ id model created toolCtx chunks, primesAlike chunks = true →
      (primeStream false (chunks.map .ok) = .committed →
        responsesConverter.harmless quietOn idleOn sureOfEnd ((wrapChatStreamToResponses responsesConverter).through
          (.new .new (.new id model created toolCtx)) false (upstreamItems chunks)).1 = true) →
      ServedAlike (wrapChatStreamToResponses responsesConverter) (.new .new (.new id model created toolCtx))
        chunks := by
  refine ⟨passedAlike_iff, fun id model chunks primes harmless => ?_,
    fun id model created toolCtx chunks primes harmless => ?_⟩
  · exact Converter.servedAlike ChatToAnthropicState.endsAlike chunks ⟨rfl, fun _ => rfl, fun _ => rfl⟩ primes
      harmless
  · exact Converter.servedAlike endsAlike chunks ⟨rfl, fun _ => rfl, fun _ => rfl⟩ primes harmless

end Streams

def openFrame : String := "data: \x7b\"choices\":[\x7b\"delta\":\x7b\"content\":\"a\"\x7d\x7d]\x7d"

def stopFrame : String :=
  "data: \x7b\"choices\":[\x7b\"delta\":\x7b\"content\":\"a\"\x7d,\"finish_reason\":\"stop\"\x7d]\x7d\n\n"

/-- A finished answer whose `[DONE]` has no blank line. -/
theorem unclosed_done_alike :
    let _ : FloatText := Json.verbatim
    let _ : FloatCast := .zero
    let _ : TableOrder := .sorted
    PassedAlike true [Utf8.encode (stopFrame ++ "data: [DONE]")] ∧
      ServedAlike (wrapChatStreamToAnthropic anthropicConverter) (.new .new (.new [] []))
        [Utf8.encode (stopFrame ++ "data: [DONE]")] ∧
      ServedAlike (wrapChatStreamToResponses responsesConverter) (.new .new (.new [] [] 0 .empty))
        [Utf8.encode (stopFrame ++ "data: [DONE]")] := by
  intro _ _ _
  have primes : primesAlike [Utf8.encode (stopFrame ++ "data: [DONE]")] = true := by decide +kernel
  exact ⟨(final_blank_line.1 _ _).mpr primes, final_blank_line.2.1 _ _ _ primes fun _ => by decide +kernel,
    final_blank_line.2.2 _ _ _ _ _ primes fun _ => by decide +kernel⟩

/-- The last text of a stream is lost when no blank line follows it, and a stream of nothing else is given up. -/
theorem unclosed_text_lost :
    let _ : FloatText := Json.verbatim
    let _ : FloatCast := .zero
    let _ : TableOrder := .sorted
    ¬PassedAlike true [Utf8.encode openFrame] ∧
      ¬ServedAlike (wrapChatStreamToAnthropic anthropicConverter) (.new .new (.new [] []))
        [Utf8.encode textFrame, Utf8.encode openFrame] ∧
      ¬ServedAlike (wrapChatStreamToResponses responsesConverter) (.new .new (.new [] [] 0 .empty))
        [Utf8.encode textFrame, Utf8.encode openFrame] := by
  intro _ _ _
  refine ⟨fun same => ?_, fun same => ?_, fun same => ?_⟩
  · have given := congrArg Except.isOk same
    revert given
    decide +kernel
  · have long := congrArg (fun reply => reply.toOption.map (·.1.length)) same
    revert long
    decide +kernel
  · have long := congrArg (fun reply => reply.toOption.map (·.1.length)) same
    revert long
    decide +kernel

end LlmGateway
