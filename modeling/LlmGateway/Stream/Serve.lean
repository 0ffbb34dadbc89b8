import LlmGateway.Stream.Converters
import LlmGateway.Stream.UsageScanner

namespace LlmGateway

open Machine BillingState

variable {κ ι ο : Type*}

/-- A stream that is read to its end: what the client gets, and the usage rows. `recorded` is the billing flag. -/
def Wrapper.serve (w : Wrapper κ ι ο) (ctx : κ) (recorded : Bool) : List ι → List ο × List (Option Usage)
  | [] =>
    let (ctx, bills, out) := w.onEnd ctx
    ([out], if bills && !recorded then [(w.usage ctx).2] else [])
  | item :: rest =>
    let (ctx, bills, out) := w.onItem ctx item
    if bills && !recorded then
      let (ctx, usage) := w.usage ctx
      let (later, rows) := w.serve ctx true rest
      (out :: later, usage :: rows)
    else
      let (later, rows) := w.serve ctx recorded rest
      (out :: later, rows)

def Wrapper.through (w : Wrapper κ ι ο) (ctx : κ) (recorded : Bool) : List ι → κ × Bool
  | [] => (ctx, recorded)
  | item :: rest =>
    let (ctx, bills, _) := w.onItem ctx item
    if bills && !recorded then w.through (w.usage ctx).1 true rest else w.through ctx recorded rest

variable {w : Wrapper κ ι ο} {ctx : κ} {recorded : Bool} {item : ι} {items more : List ι} {s : BillingState κ ο}
  {trace : List (BillingAction ι)}

theorem Wrapper.serve_bills (bills : (w.onItem ctx item).2.1) : w.serve ctx false (item :: items) =
    ((w.onItem ctx item).2.2 :: (w.serve (w.usage (w.onItem ctx item).1).1 true items).1,
      (w.usage (w.onItem ctx item).1).2 :: (w.serve (w.usage (w.onItem ctx item).1).1 true items).2) := by
  simp [serve, bills]

theorem Wrapper.serve_yields (yields : recorded ∨ (w.onItem ctx item).2.1 = false) :
    w.serve ctx recorded (item :: items) =
      ((w.onItem ctx item).2.2 :: (w.serve (w.onItem ctx item).1 recorded items).1,
        (w.serve (w.onItem ctx item).1 recorded items).2) := by
  obtain rfl | quiet := yields
  · simp [serve]
  · simp [serve, quiet]

theorem Wrapper.serve_recorded : (w.serve ctx true items).2 = [] := by
  induction items generalizing ctx with
  | nil => simp [serve]
  | cons item items ih =>
    rw [serve_yields (.inl rfl)]
    exact ih

theorem Wrapper.serve_append (w : Wrapper κ ι ο) (ctx : κ) (recorded : Bool) (items : List ι) :
    ∃ outs rows, ∀ more, w.serve ctx recorded (items ++ more) =
      (outs ++ (w.serve (w.through ctx recorded items).1 (w.through ctx recorded items).2 more).1,
        rows ++ (w.serve (w.through ctx recorded items).1 (w.through ctx recorded items).2 more).2) := by
  induction items generalizing ctx recorded with
  | nil => exact ⟨[], [], fun more => rfl⟩
  | cons item items ih =>
    simp only [List.cons_append, serve, through]
    split
    · obtain ⟨outs, rows, later⟩ := ih (w.usage (w.onItem ctx item).1).1 true
      exact ⟨_ :: outs, _ :: rows, fun more => by rw [later]; rfl⟩
    · obtain ⟨outs, rows, later⟩ := ih (w.onItem ctx item).1 recorded
      exact ⟨_ :: outs, rows, fun more => by rw [later]; rfl⟩

theorem settle_quiet {handled : κ × Bool × ο} {last : Bool} (yields : s.recorded ∨ handled.2.1 = false) :
    s.settle w false handled last =
      { s with ctx := handled.1, phase := .after last, sent := s.sent ++ [handled.2.2] } :=
  yields.elim BillingState.settle_recorded BillingState.settle_yields

theorem swaps_or_yields (recorded bills : Bool) : recorded = false ∧ bills ∨ recorded ∨ bills = false := by
  cases recorded <;> cases bills <;> simp

@[simp] def BillingAction.upstream : BillingAction ι → List ι
  | .item upstream => [upstream]
  | _ => []

/-- The tail is behind the stream. -/
@[simp] def StreamPhase.last : StreamPhase ο → Bool
  | .reading => false
  | .recording _ _ last | .committed _ last => last
  | _ => true

/-- What will have been sent and billed in the end, if `more` is still to be read. -/
def BillingState.outcome (w : Wrapper κ ι ο) (s : BillingState κ ο) (more : List ι) :
    List ο × List (Option Usage) :=
  let later := if s.phase.last then ([], []) else w.serve s.ctx s.recorded more
  match s.phase with
  | .recording usage out _ => (s.sent ++ out :: later.1, s.rows ++ usage :: later.2)
  | .committed out _ => (s.sent ++ out :: later.1, s.rows ++ later.2)
  | _ => (s.sent ++ later.1, s.rows ++ later.2)

theorem outcome_item (reading : s.phase = .reading) (item : ι) :
    (s.settle w false (w.onItem s.ctx item) false).outcome w more = s.outcome w (item :: more) := by
  obtain ⟨fresh, bills⟩ | yields := swaps_or_yields s.recorded (w.onItem s.ctx item).2.1
  · simp [settle_bills fresh bills, outcome, reading, fresh, Wrapper.serve_bills bills]
  · simp [settle_quiet yields, outcome, reading, StreamPhase.after, Wrapper.serve_yields yields]

theorem outcome_eof (reading : s.phase = .reading) (more : List ι) :
    (s.settle w false (w.onEnd s.ctx) true).phase.last ∧
      (s.settle w false (w.onEnd s.ctx) true).outcome w more = s.outcome w [] := by
  cases recorded : s.recorded <;> cases bills : (w.onEnd s.ctx).2.1 <;>
    simp [settle, outcome, reading, StreamPhase.after, Wrapper.serve, recorded, bills]

/-- The client does not leave, so nothing is spawned to bill for it. -/
def Stays (_ : BillingState κ ο) (a : BillingAction ι) : Prop := a ≠ .drop ∧ a ≠ .spawnedDone

theorem outcome_eq_serve (reach : Reach (billingStep w false) Stays (.start ctx) trace s)
    (closed : s.phase.last → more = []) :
    s.outcome w more = w.serve ctx false (trace.flatMap BillingAction.upstream ++ more) := by
  induction reach generalizing more with
  | start => rfl
  | @next trace s a _ _ stays stepped ih =>
    have taken := billingStep_eq_some stepped
    simp only [List.flatMap_append, List.append_assoc]
    cases a with
    | item upstream =>
      obtain ⟨reading, rfl⟩ := taken
      exact (outcome_item reading upstream).trans (ih (by simp [reading]))
    | eof =>
      obtain ⟨reading, rfl⟩ := taken
      obtain ⟨last, same⟩ := outcome_eof (w := w) reading more
      rw [same, closed last]
      exact ih fun _ => rfl
    | commit =>
      obtain ⟨usage, out, last, recording, rfl⟩ := taken
      rw [recording] at ih
      cases last <;> simpa [outcome, recording] using ih closed
    | resume =>
      obtain ⟨out, last, committed, rfl⟩ := taken
      rw [committed] at ih
      cases last <;> simpa [outcome, committed, StreamPhase.after] using ih closed
    | drop => exact absurd rfl stays.1
    | spawnedDone => exact absurd rfl stays.2

/-- If the client stays to the end, what it got and what was billed are what `serve` gives for the items read. -/
theorem undisturbed_run_serves (reach : Reach (billingStep w false) Stays (.start ctx) trace s)
    (ended : s.phase = .ended) : w.serve ctx false (trace.flatMap BillingAction.upstream) = (s.sent, s.rows) := by
  have whole := outcome_eq_serve reach fun _ => rfl
  simpa [outcome, ended] using whole.symm

section Gateway

variable {σ β ε : Type*} {π π' τ τ' γ γ' ω ω' η η' : Type*}

/-- A stream is billed once unless it is an admin test call or its client leaves while the record is uncommitted. -/
theorem streams_billed_once (scanner : SseScanner σ β) (captureUsage : Bool) (buf : σ)
    (toResponses : Converter π τ γ ω η) (parser : π) (state : τ)
    (toAnthropic : Converter π' τ' γ' ω' η') (parser' : π') (state' : τ') :
    (wrapStream scanner captureUsage : Wrapper _ (Except ε β) _).BilledOnce (.new buf) ∧
      (wrapChatStreamToResponses toResponses).BilledOnce (.new parser state) ∧
      (wrapChatStreamToAnthropic toAnthropic).BilledOnce (.new parser' state') :=
  ⟨(wrapStream_settles scanner captureUsage).billedOnce not_false,
    (wrapConverted_settles toResponses).billedOnce Bool.false_ne_true,
    (wrapConverted_settles _).billedOnce Bool.false_ne_true⟩

end Gateway

section Runs

def BillingState.isFinished (s : BillingState κ ο) : Bool :=
  match s.phase with
  | .ended | .dropped => s.spawned.isEmpty
  | _ => false

theorem BillingState.finished_of_isFinished (done : s.isFinished) : s.Finished := by
  unfold isFinished at done
  split at done
  · exact ⟨.inl ‹_›, List.isEmpty_iff.mp done⟩
  · exact ⟨.inr ‹_›, List.isEmpty_iff.mp done⟩
  · cases done

theorem exists_unbilled (ran : (run (billingStep w false) (.start ctx) trace).any fun s =>
    s.isFinished && s.rows.isEmpty) : ∃ s, run (billingStep w false) (.start ctx) trace = some s ∧
      s.Finished ∧ s.rows = [] := by
  obtain ⟨s, found, held⟩ := (Option.any_eq_true _ _).mp ran
  obtain ⟨done, empty⟩ := Bool.and_eq_true_iff.mp held
  exact ⟨s, found, finished_of_isFinished done, List.isEmpty_iff.mp empty⟩

/-- A text and the end of the stream, and the client leaves while the record is written. -/
def leaveWhileRecording (wrap : List UInt8 → ι) : List (BillingAction (Except String ι)) :=
  [.item (.ok (wrap (Utf8.encode textFrame))), .item (.ok (wrap (Utf8.encode doneFrame))), .drop]

/-- The swap says that the stream is billed, and the record is gone with the future. -/
theorem dropped_record_is_lost :
    let _ : FloatText := Json.verbatim
    let _ : FloatCast := .zero
    let _ : TableOrder := .sorted
    (∃ s, run (billingStep (wrapStream byteScanner true) false) (.start (.new [])) (leaveWhileRecording id) =
      some s ∧
        s.Finished ∧ s.rows = []) ∧
      (∃ s, run (billingStep (wrapChatStreamToResponses responsesConverter) false)
        (.start (.new .new (.new [] [] 0 .empty))) (leaveWhileRecording .bytes) = some s ∧ s.Finished ∧
          s.rows = []) ∧
      ∃ s, run (billingStep (wrapChatStreamToAnthropic anthropicConverter) false)
        (.start (.new .new (.new [] []))) (leaveWhileRecording .bytes) = some s ∧ s.Finished ∧ s.rows = [] := by
  intro _ _ _
  exact ⟨exists_unbilled (by decide +kernel), exists_unbilled (by decide +kernel),
    exists_unbilled (by decide +kernel)⟩

/-- The client leaves after the first text, and the stream is billed by the task that is spawned for it. -/
def leaveEarly (wrap : List UInt8 → ι) : List (BillingAction (Except String ι)) :=
  [.item (.ok (wrap (Utf8.encode textFrame))), .drop, .spawnedDone]

theorem early_leave_billed_once :
    let _ : FloatText := Json.verbatim
    let _ : FloatCast := .zero
    let _ : TableOrder := .sorted
    ∃ s, run (billingStep (wrapStream byteScanner true) false) (.start (.new [])) (leaveEarly id) = some s ∧
      s.Finished ∧ (s.rows.length = 1 ↔ false = false ∧
        ¬Taken (billingStep (wrapStream byteScanner true) false) DropsRecord (.start (.new []))
          (leaveEarly id)) := by
  intro _ _ _
  have passes : (run (billingStep (wrapStream byteScanner true) false) (.start (.new [])) (leaveEarly id)).any
      (·.isFinished) := by decide +kernel
  obtain ⟨s, ran, done⟩ := (Option.any_eq_true _ _).mp passes
  exact ⟨s, ran, finished_of_isFinished done,
    (streams_billed_once byteScanner true [] responsesConverter .new (.new [] [] 0 .empty)
      anthropicConverter .new (.new [] [])).1 false _ s (reach_of_run ran) (finished_of_isFinished done)⟩

def stayToEnd : List (BillingAction (Except String (List UInt8))) :=
  [.item (.ok (Utf8.encode textFrame)), .item (.ok (Utf8.encode doneFrame)), .commit, .resume, .eof]

def BillingAction.stays : BillingAction ι → Bool
  | .drop | .spawnedDone => false
  | _ => true

def StreamPhase.isEnded : StreamPhase ο → Bool
  | .ended => true
  | _ => false

theorem done_stream_serves :
    let _ : FloatText := Json.verbatim
    ∃ s, run (billingStep (wrapStream byteScanner true) false) (.start (.new [])) stayToEnd = some s ∧
      (wrapStream byteScanner true).serve (.new []) false
        [.ok (Utf8.encode textFrame), .ok (Utf8.encode doneFrame)] = (s.sent, s.rows) := by
  intro _
  have passes : (guardedRun (billingStep (wrapStream byteScanner true) false) (fun _ a => a.stays)
      (.start (.new [])) stayToEnd).any (·.phase.isEnded) := by decide +kernel
  obtain ⟨s, ran, done⟩ := (Option.any_eq_true _ _).mp passes
  have ended : s.phase = .ended := by
    cases phase : s.phase <;> first | rfl | (rw [phase] at done; cases done)
  have reach : Reach (billingStep (wrapStream byteScanner true) false) Stays (.start (.new [])) stayToEnd s := by
    refine reach_of_guardedRun _ (fun _ a stays => ?_) ran
    cases a with
    | drop | spawnedDone => cases stays
    | _ => exact ⟨nofun, nofun⟩
  exact ⟨s, reach.run_eq, undisturbed_run_serves reach ended⟩

end Runs

end LlmGateway
