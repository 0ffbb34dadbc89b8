import LlmGateway.Lib.I64
import LlmGateway.Lib.Machine

namespace LlmGateway

open Machine

/-- Token counts as an upstream reports them. -/
structure Usage where
  promptTokens : Option I64
  completionTokens : Option I64
  inputTokens : Option I64
  outputTokens : Option I64
  cacheReadTokens : Option I64
  cacheWriteTokens : Option I64
  deriving DecidableEq

/-- A later frame overwrites the fields it has. -/
def mergeUsage (dst : Option Usage) (src : Usage) : Usage :=
  match dst with
  | none => src
  | some d =>
    { promptTokens := src.promptTokens.or d.promptTokens
      completionTokens := src.completionTokens.or d.completionTokens
      inputTokens := src.inputTokens.or d.inputTokens
      outputTokens := src.outputTokens.or d.outputTokens
      cacheReadTokens := src.cacheReadTokens.or d.cacheReadTokens
      cacheWriteTokens := src.cacheWriteTokens.or d.cacheWriteTokens }

/-- A stream wrapper without its billing flag: the new context, whether the swap is reached, what is yielded. -/
structure Wrapper (κ ι ο : Type*) where
  onItem : κ → ι → κ × Bool × ο
  onEnd : κ → κ × Bool × ο
  /-- the usage to bill, read or taken out of the context by the winner of the swap -/
  usage : κ → κ × Option Usage

section Wrappers
variable {σ π γ β ε η : Type*}

/-- The scanner of `wrap_stream`, with the event boundary and the chunk that are fed at the end. -/
structure SseScanner (σ β : Type*) where
  feedSse : σ → β → σ × Option Usage × Bool
  boundary : β
  empty : β

structure UsageCapture (σ : Type*) where
  buf : σ
  captured : Option Usage

def UsageCapture.new (buf : σ) : UsageCapture σ := ⟨buf, none⟩

def UsageCapture.feed (scanner : SseScanner σ β) (ctx : UsageCapture σ) (chunk : β) : UsageCapture σ × Bool :=
  let (buf, usage, done) := scanner.feedSse ctx.buf chunk
  match usage with
  | some u => (⟨buf, some (mergeUsage ctx.captured u)⟩, done)
  | none => ({ ctx with buf }, done)

/-- A transport error is passed on, a terminal frame bills, and the tail bills what nobody has billed. -/
def wrapStream (scanner : SseScanner σ β) (captureUsage : Bool) :
    Wrapper (UsageCapture σ) (Except ε β) (Except ε β) where
  onItem ctx item := match item with
    | .error e => (ctx, false, .error e)
    | .ok chunk =>
      let (ctx, done) := if captureUsage then ctx.feed scanner chunk else (ctx, false)
      (ctx, done, .ok chunk)
  onEnd ctx := (if captureUsage then (ctx.feed scanner scanner.boundary).1 else ctx, true, .ok scanner.empty)
  usage ctx := ({ ctx with captured := none }, ctx.captured)

structure SseEvent where
  event : Option String
  data : String

/-- Parser states `π`, chat chunks `γ` and converter states `σ`. `snapshot` goes to the history store. -/
structure Converter (π σ γ β η : Type*) where
  push : π → β → π × List SseEvent × Bool
  fromJsonStr : String → Option γ
  hasError : γ → Bool
  setError : γ → String → γ
  processChunk : σ → γ → σ × List β
  hasFailed : σ → Bool
  finalize : σ → σ × List β
  finalizeTruncated : σ → σ × List β
  transportError : σ → String → σ × List β
  billingUsage : σ → Option Usage
  snapshot : σ → Option η

structure ConvertCtx (π σ η : Type*) where
  parser : π
  state : σ
  finished : Bool
  history : List η

def ConvertCtx.new (parser : π) (state : σ) : ConvertCtx π σ η := ⟨parser, state, false, []⟩

/-- One parsed payload. Malformed JSON is dropped; a frame named `error`
without an error of its own becomes one. -/
def Converter.frame (conv : Converter π σ γ β η) (acc : σ × List β × Bool) (frame : SseEvent) : σ × List β × Bool :=
  match conv.fromJsonStr frame.data with
  | none => acc
  | some cc =>
    let cc := if !conv.hasError cc && frame.event == some "error" then conv.setError cc frame.data else cc
    let (state, frames) := conv.processChunk acc.1 cc
    (state, acc.2.1 ++ frames, acc.2.2 || conv.hasFailed state)

/-- Only the first of a transport error, a terminal frame and the tail gets past the `finished` swap. -/
def wrapConverted (conv : Converter π σ γ β η) :
    Wrapper (ConvertCtx π σ η) (Except String β) (Except String (List β)) where
  onItem ctx item := match item with
    | .error e =>
      if ctx.finished then (ctx, false, .ok [])
      else
        let (state, frames) := conv.transportError ctx.state e
        ({ ctx with state, finished := true }, true, .ok frames)
    | .ok chunk =>
      let (parser, payloads, terminal) := conv.push ctx.parser chunk
      let (state, out, failed) := payloads.foldl conv.frame (ctx.state, [], false)
      if (terminal || failed) && !ctx.finished then
        let (state, frames) := conv.finalize state
        (⟨parser, state, true, ctx.history ++ (conv.snapshot state).toList⟩, true, .ok (out ++ frames))
      else ({ ctx with parser, state }, false, .ok out)
  onEnd ctx :=
    if ctx.finished then (ctx, false, .ok [])
    else
      let (state, frames) := conv.finalizeTruncated ctx.state
      ({ ctx with state, finished := true, history := ctx.history ++ (conv.snapshot state).toList }, true,
        .ok frames)
  usage ctx := (ctx, conv.billingUsage ctx.state)

def wrapChatStreamToResponses (conv : Converter π σ γ β η) :
    Wrapper (ConvertCtx π σ η) (Except String β) (Except String (List β)) :=
  wrapConverted conv

def wrapChatStreamToAnthropic (conv : Converter π σ γ β η) :
    Wrapper (ConvertCtx π σ η) (Except String β) (Except String (List β)) :=
  wrapConverted { conv with snapshot := fun _ => none }

end Wrappers

/-- In `recording` a handler awaits `usage::record`; from `committed` on the row is there. `last` marks the tail. -/
inductive StreamPhase (ο : Type*)
  | reading
  | recording (usage : Option Usage) (out : ο) (last : Bool)
  | committed (out : ο) (last : Bool)
  | ended
  | dropped

structure BillingState (κ ο : Type*) where
  ctx : κ
  recorded : Bool
  phase : StreamPhase ο
  sent : List ο
  /-- tasks spawned by `BillingOnDrop` that have not finished -/
  spawned : List (Option Usage)
  /-- the `usage_logs` rows of the request -/
  rows : List (Option Usage)

inductive BillingAction (ι : Type*)
  | item (upstream : ι)
  | eof
  | commit
  | resume
  | drop
  | spawnedDone

section Steps
variable {κ ι ο : Type*}

def StreamPhase.after (last : Bool) : StreamPhase ο := if last then .ended else .reading

/-- The swap of `recorded` and, for its winner, `usage::record`, which does nothing for an admin test call. -/
def BillingState.settle (w : Wrapper κ ι ο) (testCall : Bool) (s : BillingState κ ο)
    (handled : κ × Bool × ο) (last : Bool) : BillingState κ ο :=
  let (ctx, bills, out) := handled
  if bills && !s.recorded then
    let (ctx, usage) := w.usage ctx
    if testCall then { s with ctx, recorded := true, phase := .after last, sent := s.sent ++ [out] }
    else { s with ctx, recorded := true, phase := .recording usage out last }
  else { s with ctx, phase := .after last, sent := s.sent ++ [out] }

/-- The pending future goes first, then `BillingOnDrop::drop` runs. -/
def BillingState.drop (w : Wrapper κ ι ο) (s : BillingState κ ο) : BillingState κ ο :=
  if s.recorded then { s with phase := .dropped }
  else
    let (ctx, usage) := w.usage s.ctx
    { s with ctx, recorded := true, phase := .dropped, spawned := s.spawned ++ [usage] }

def billingStep (w : Wrapper κ ι ο) (testCall : Bool) (s : BillingState κ ο) :
    BillingAction ι → Option (BillingState κ ο)
  | .item upstream => match s.phase with
    | .reading => some (s.settle w testCall (w.onItem s.ctx upstream) false)
    | _ => none
  | .eof => match s.phase with
    | .reading => some (s.settle w testCall (w.onEnd s.ctx) true)
    | _ => none
  | .commit => match s.phase with
    | .recording usage out last => some { s with phase := .committed out last, rows := s.rows ++ [usage] }
    | _ => none
  | .resume => match s.phase with
    | .committed out last => some { s with phase := .after last, sent := s.sent ++ [out] }
    | _ => none
  | .drop => match s.phase with
    | .dropped => none
    | _ => some (s.drop w)
  | .spawnedDone => match s.spawned with
    | usage :: rest =>
      some { s with spawned := rest, rows := if testCall then s.rows else s.rows ++ [usage] }
    | [] => none

def BillingState.start (ctx : κ) : BillingState κ ο := ⟨ctx, false, .reading, [], [], []⟩

def StreamPhase.recordingCount : StreamPhase ο → Nat
  | .recording .. => 1
  | _ => 0

def BillingState.Finished (s : BillingState κ ο) : Prop :=
  (s.phase = .ended ∨ s.phase = .dropped) ∧ s.spawned = []

def DropsRecord (s : BillingState κ ο) : BillingAction ι → Prop
  | .drop => s.phase.recordingCount = 1
  | _ => False

/-- `settled` contexts have been past the swap, and a tail that finds an unsettled one gets there. -/
structure Wrapper.Settles (w : Wrapper κ ι ο) (settled : κ → Prop) : Prop where
  onItem : ∀ ctx upstream, settled (w.onItem ctx upstream).1 →
    settled ctx ∨ (w.onItem ctx upstream).2.1
  onEnd : ∀ ctx, settled ctx ∨ (w.onEnd ctx).2.1

def BillingState.bills (s : BillingState κ ο) : Nat :=
  s.rows.length + s.spawned.length + s.phase.recordingCount

/-- The ledger of one stream. `lost` says that a drop has cancelled the record. -/
structure BillingLedger (settled : κ → Prop) (s : BillingState κ ο) (lost : Prop) : Prop where
  settled : settled s.ctx → s.recorded
  unrecorded : s.recorded = false → s.phase = .reading ∧ s.bills = 0 ∧ ¬lost
  recorded : s.recorded → s.bills = 1 ∧ ¬lost ∨ s.bills = 0 ∧ s.phase = .dropped ∧ lost

variable {w : Wrapper κ ι ο} {settled : κ → Prop} {s s' : BillingState κ ο} {lost : Prop} {testCall last : Bool}
  {handled : κ × Bool × ο} {trace : List (BillingAction ι)} {a : BillingAction ι} {ctx : κ}

@[simp] theorem StreamPhase.recordingCount_reading : (.reading : StreamPhase ο).recordingCount = 0 := rfl

@[simp] theorem StreamPhase.recordingCount_recording {usage : Option Usage} {out : ο} :
    (StreamPhase.recording usage out last).recordingCount = 1 := rfl

@[simp] theorem StreamPhase.recordingCount_committed {out : ο} :
    (StreamPhase.committed out last).recordingCount = 0 := rfl

@[simp] theorem StreamPhase.recordingCount_ended : (.ended : StreamPhase ο).recordingCount = 0 := rfl

@[simp] theorem StreamPhase.recordingCount_dropped : (.dropped : StreamPhase ο).recordingCount = 0 := rfl

@[simp] theorem StreamPhase.recordingCount_after : (StreamPhase.after last : StreamPhase ο).recordingCount = 0 := by
  cases last <;> rfl

theorem BillingState.settle_recorded (before : s.recorded) :
    s.settle w testCall handled last =
      { s with ctx := handled.1, phase := .after last, sent := s.sent ++ [handled.2.2] } := by
  simp [BillingState.settle, before]

theorem BillingState.settle_bills (before : s.recorded = false) (bills : handled.2.1) :
    s.settle w false handled last =
      { s with
        ctx := (w.usage handled.1).1
        recorded := true
        phase := .recording (w.usage handled.1).2 handled.2.2 last } := by
  simp [BillingState.settle, before, bills]

theorem BillingState.settle_yields (bills : handled.2.1 = false) :
    s.settle w testCall handled last =
      { s with ctx := handled.1, phase := .after last, sent := s.sent ++ [handled.2.2] } := by
  simp [BillingState.settle, bills]

theorem BillingLedger.start (fresh : ¬settled ctx) :
    BillingLedger settled (BillingState.start ctx : BillingState κ ο) False where
  settled holds := absurd holds fresh
  unrecorded _ := ⟨rfl, rfl, not_false⟩
  recorded before := nomatch before

theorem BillingLedger.settle (ledger : BillingLedger settled s lost) (reading : s.phase = .reading)
    (item : settled handled.1 → settled s.ctx ∨ handled.2.1)
    (tail : last → settled s.ctx ∨ handled.2.1) :
    BillingLedger settled (s.settle w false handled last) lost := by
  cases before : s.recorded with
  | true =>
    rw [BillingState.settle_recorded before]
    obtain ⟨one, kept⟩ | ⟨_, dropped, _⟩ := ledger.recorded before
    · refine ⟨fun _ => before, fun unrecorded => absurd unrecorded (by simp [before]), fun _ => .inl ⟨?_, kept⟩⟩
      simpa [BillingState.bills, reading] using one
    · simp [reading] at dropped
  | false =>
    obtain ⟨-, unbilled, kept⟩ := ledger.unrecorded before
    have unsettled : ¬settled s.ctx := fun holds => by simp [ledger.settled holds] at before
    cases bills : handled.2.1 with
    | true =>
      rw [BillingState.settle_bills before bills]
      refine ⟨fun _ => rfl, nofun, fun _ => .inl ⟨?_, kept⟩⟩
      simpa [BillingState.bills, reading] using unbilled
    | false =>
      rw [BillingState.settle_yields bills]
      simp only [bills, unsettled, Bool.false_eq_true, or_self, imp_false, Bool.not_eq_true] at item tail
      refine ⟨fun holds => absurd holds item, fun _ => ⟨by simp [tail, StreamPhase.after], ?_, kept⟩,
        fun recorded => by simp [before] at recorded⟩
      simpa [BillingState.bills, reading] using unbilled

theorem BillingLedger.drop (ledger : BillingLedger settled s lost) (live : s.phase ≠ .dropped) :
    BillingLedger settled (s.drop w) (lost ∨ s.phase.recordingCount = 1) := by
  cases before : s.recorded with
  | true =>
    obtain ⟨one, kept⟩ | ⟨_, dropped, _⟩ := ledger.recorded before
    · simp only [BillingState.drop, before, ↓reduceIte]
      refine ⟨fun _ => rfl, nofun, fun _ => ?_⟩
      simp only [BillingState.bills, StreamPhase.recordingCount, kept, false_or, true_and] at one ⊢
      cases phase : s.phase <;> simp [phase] at one ⊢ <;> omega
    · exact absurd dropped live
  | false =>
    obtain ⟨reading, unbilled, kept⟩ := ledger.unrecorded before
    simp only [BillingState.drop, before, Bool.false_eq_true, ↓reduceIte]
    refine ⟨fun _ => rfl, nofun, fun _ => .inl ⟨?_, ?_⟩⟩
    · simp only [BillingState.bills, reading, StreamPhase.recordingCount, List.length_append,
        List.length_singleton] at unbilled ⊢
      omega
    · simp [kept, reading, StreamPhase.recordingCount]

theorem BillingLedger.move (ledger : BillingLedger settled s lost) (ctx : s'.ctx = s.ctx)
    (recorded : s'.recorded = s.recorded) (bills : s'.bills = s.bills)
    (reading : s.phase = .reading → s'.phase = .reading) (dropped : s.phase = .dropped → s'.phase = .dropped) :
    BillingLedger settled s' lost where
  settled holds := recorded ▸ ledger.settled (ctx ▸ holds)
  unrecorded before :=
    let ⟨phase, unbilled, kept⟩ := ledger.unrecorded (recorded ▸ before)
    ⟨reading phase, bills ▸ unbilled, kept⟩
  recorded before := (ledger.recorded (recorded ▸ before)).imp (fun ⟨one, kept⟩ => ⟨bills ▸ one, kept⟩)
    fun ⟨unbilled, phase, gone⟩ => ⟨bills ▸ unbilled, dropped phase, gone⟩

theorem billingStep_eq_some (stepped : billingStep w testCall s a = some s') :
    match a with
    | .item upstream => s.phase = .reading ∧ s' = s.settle w testCall (w.onItem s.ctx upstream) false
    | .eof => s.phase = .reading ∧ s' = s.settle w testCall (w.onEnd s.ctx) true
    | .commit => ∃ usage out last, s.phase = .recording usage out last ∧
        s' = { s with phase := .committed out last, rows := s.rows ++ [usage] }
    | .resume => ∃ out last, s.phase = .committed out last ∧
        s' = { s with phase := .after last, sent := s.sent ++ [out] }
    | .drop => s.phase ≠ .dropped ∧ s' = s.drop w
    | .spawnedDone => ∃ usage rest, s.spawned = usage :: rest ∧
        s' = { s with spawned := rest, rows := if testCall then s.rows else s.rows ++ [usage] } := by
  cases a <;> simp only [billingStep] at stepped ⊢ <;> split at stepped <;> cases stepped
  · exact ⟨‹_›, rfl⟩
  · exact ⟨‹_›, rfl⟩
  · exact ⟨_, _, _, ‹_›, rfl⟩
  · exact ⟨_, _, ‹_›, rfl⟩
  · exact ⟨‹_›, rfl⟩
  · exact ⟨_, _, ‹_›, rfl⟩

theorem BillingLedger.step (laws : w.Settles settled) (ledger : BillingLedger settled s lost)
    (stepped : billingStep w false s a = some s') : BillingLedger settled s' (lost ∨ DropsRecord s a) := by
  have taken := billingStep_eq_some stepped
  cases a with
  | item upstream =>
    obtain ⟨reading, rfl⟩ := taken
    simpa [DropsRecord] using ledger.settle reading (laws.onItem s.ctx upstream) (by simp)
  | eof =>
    obtain ⟨reading, rfl⟩ := taken
    simpa [DropsRecord] using
      ledger.settle reading (fun _ => laws.onEnd s.ctx) fun _ => laws.onEnd s.ctx
  | commit =>
    obtain ⟨usage, out, last, recording, rfl⟩ := taken
    simp only [DropsRecord, or_false]
    refine ledger.move rfl rfl ?_ (by simp [recording]) (by simp [recording])
    simp only [BillingState.bills, recording, StreamPhase.recordingCount, List.length_append, List.length_singleton]
    omega
  | resume =>
    obtain ⟨out, last, committed, rfl⟩ := taken
    simp only [DropsRecord, or_false]
    exact ledger.move rfl rfl (by simp [BillingState.bills, committed]) (by simp [committed]) (by simp [committed])
  | drop =>
    obtain ⟨live, rfl⟩ := taken
    exact ledger.drop live
  | spawnedDone =>
    obtain ⟨usage, rest, spawned, rfl⟩ := taken
    simp only [DropsRecord, or_false]
    refine ledger.move rfl rfl ?_ id id
    simp only [BillingState.bills, spawned, Bool.false_eq_true, ↓reduceIte, List.length_append,
      List.length_cons, List.length_nil]
    omega

theorem BillingLedger.of_reach (laws : w.Settles settled) (fresh : ¬settled ctx)
    (reach : Reach (billingStep w false) Any (.start ctx) trace s) :
    BillingLedger settled s (Taken (billingStep w false) DropsRecord (.start ctx) trace) := by
  induction reach with
  | start => simpa [not_taken_nil] using BillingLedger.start fresh
  | next previous _ stepped ih =>
    rw [taken_snoc previous.run_eq]
    exact ih.step laws stepped

theorem BillingState.settle_testCall_rows : (s.settle w true handled last).rows = s.rows := by
  simp only [BillingState.settle, ↓reduceIte]
  split <;> rfl

theorem BillingState.settle_testCall_phase : (s.settle w true handled last).phase = .after last := by
  simp only [BillingState.settle, ↓reduceIte]
  split <;> rfl

/-- An admin test call leaves no row, however its stream ends. -/
theorem testCall_unbilled (reach : Reach (billingStep w true) Any (.start ctx) trace s) :
    s.rows = [] ∧ s.phase.recordingCount = 0 := by
  refine reach.invariant (fun s => s.rows = [] ∧ s.phase.recordingCount = 0) ⟨rfl, rfl⟩ ?_
  rintro s a s' ⟨unbilled, quiet⟩ - stepped
  have taken := billingStep_eq_some stepped
  cases a with
  | item upstream | eof =>
    obtain ⟨-, rfl⟩ := taken
    simp [BillingState.settle_testCall_rows, BillingState.settle_testCall_phase, unbilled]
  | commit =>
    obtain ⟨usage, out, last, recording, rfl⟩ := taken
    simp [recording] at quiet
  | resume =>
    obtain ⟨out, last, -, rfl⟩ := taken
    exact ⟨unbilled, StreamPhase.recordingCount_after⟩
  | drop =>
    obtain ⟨-, rfl⟩ := taken
    simp only [BillingState.drop]
    split <;> exact ⟨unbilled, rfl⟩
  | spawnedDone =>
    obtain ⟨usage, rest, -, rfl⟩ := taken
    exact ⟨unbilled, quiet⟩

def Wrapper.BilledOnce (w : Wrapper κ ι ο) (ctx : κ) : Prop :=
  ∀ testCall trace s, Reach (billingStep w testCall) Any (.start ctx) trace s → s.Finished →
    (s.rows.length = 1 ↔ testCall = false ∧ ¬Taken (billingStep w testCall) DropsRecord (.start ctx) trace)

theorem Wrapper.Settles.billedOnce (laws : w.Settles settled) (fresh : ¬settled ctx) : w.BilledOnce ctx := by
  rintro (_ | _) trace s reach ⟨finished, idle⟩
  · have ledger := BillingLedger.of_reach laws fresh reach
    have recorded : s.recorded := by
      refine Bool.of_not_eq_false fun before => ?_
      simp [(ledger.unrecorded before).1] at finished
    have bills : s.bills = s.rows.length := by
      rcases finished with phase | phase <;> simp [BillingState.bills, idle, phase]
    rw [← bills, eq_self, true_and]
    obtain ⟨one, kept⟩ | ⟨unbilled, -, gone⟩ := ledger.recorded recorded
    · exact ⟨fun _ => kept, fun _ => one⟩
    · exact ⟨fun one => by omega, fun kept => absurd gone kept⟩
  · simp [(testCall_unbilled reach).1]

end Steps

section Wrappers
variable {σ π γ β ε η : Type*}

theorem wrapStream_settles (scanner : SseScanner σ β) (captureUsage : Bool) :
    (wrapStream scanner captureUsage : Wrapper _ (Except ε β) _).Settles fun _ => False where
  onItem _ _ holds := holds.elim
  onEnd _ := .inr rfl

theorem wrapConverted_settles (conv : Converter π σ γ β η) :
    (wrapConverted conv).Settles fun ctx => ctx.finished = true where
  onItem ctx upstream := by
    cases upstream with
    | error e => cases before : ctx.finished <;> simp [wrapConverted, before]
    | ok chunk =>
      simp only [wrapConverted]
      split
      · exact fun _ => .inr rfl
      · exact .inl
  onEnd ctx := by cases before : ctx.finished <;> simp [wrapConverted, before]

end Wrappers

end LlmGateway
