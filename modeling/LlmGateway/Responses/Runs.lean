import LlmGateway.Lib.IntMap
import LlmGateway.Responses.Stream

namespace LlmGateway

open Emitter Sends

namespace ChatToResponsesStreamState

/-- Conditions on the state in which text is appended, a tool frame is received and the items are closed. -/
structure Guard where
  text : ChatToResponsesStreamState → Bool
  frame : ChatToResponsesStreamState → ToolCallDelta → Bool
  close : ChatToResponsesStreamState → Bool

section Guarded

variable (guard : Guard)

def piecesGuarded (s : ChatToResponsesStreamState) (pieces : List Str × List Str) : Bool :=
  along appendTextDelta (fun s _ => guard.text s) (forEach appendReasoningDelta pieces.1 s).2 pieces.2

def contentGuarded (s : ChatToResponsesStreamState) (content : Str) : Bool :=
  let (pieces, inlineThink) := s.inlineThink.feed content
  piecesGuarded guard { s with inlineThink } pieces

def textsGuarded (s : ChatToResponsesStreamState) (delta : ChatStreamDelta) : Bool :=
  let thought := (whenSome appendReasoningDelta delta.reasoningText s).2
  let said := (whenSome appendContent delta.contentText thought).2
  delta.contentText.all (contentGuarded guard thought) && delta.refusalText.all fun _ => guard.text said

def endGuarded (s : ChatToResponsesStreamState) : Bool :=
  let (pieces, inlineThink) := s.inlineThink.flush
  piecesGuarded guard { s with inlineThink } pieces && guard.close (flushContent s).2

variable [FloatText] [TableOrder]

def choiceGuarded (s : ChatToResponsesStreamState) (choice : ChatStreamChoice) : Bool :=
  let said := (processTexts choice.delta s).2
  let called := (forEach appendToolCallDelta choice.delta.toolCalls said).2
  textsGuarded guard s choice.delta && along appendToolCallDelta guard.frame said choice.delta.toolCalls &&
    (choice.finishReason.bind Text.nonBlank).all fun reason => guard.close (applyFinishReason reason called)

def chunkGuarded (s : ChatToResponsesStreamState) (chunk : ChatStreamChunk) : Bool :=
  s.failedError.isSome || chunk.error.isSome ||
    along processChoice (choiceGuarded guard) (ensureCreated (noteHeader chunk s)).2 chunk.choices

def streamGuarded (s : ChatToResponsesStreamState) (chunks : List ChatStreamChunk) : Bool :=
  along processChunk (chunkGuarded guard) s chunks &&
    endGuarded guard { (forEach processChunk chunks s).2 with finalized := true }

end Guarded

variable (s : ChatToResponsesStreamState)

def Guard.free : Guard := ⟨fun _ => true, fun _ _ => true, fun _ => true⟩

theorem piecesGuarded_free (pieces : List Str × List Str) : piecesGuarded .free s pieces :=
  along_of_forall (fun _ _ => rfl) _ _

theorem textsGuarded_free (delta : ChatStreamDelta) :
    textsGuarded .free s delta := by
  refine Bool.and_eq_true_iff.mpr ⟨?_, ?_⟩
  · cases delta.contentText with
    | none => rfl
    | some content => exact piecesGuarded_free _ _
  · cases delta.refusalText <;> rfl

theorem endGuarded_free : endGuarded .free s := by
  simp only [endGuarded, piecesGuarded_free, Bool.true_and]
  rfl

/-- A relation to what has been sent that text and reasoning keep. -/
structure Guard.KeepsTexts (guard : Guard) {κ : Type*} (accept : κ → ResponsesEvent → Option κ)
    (inv : ChatToResponsesStreamState → κ → Prop) : Prop where
  think : ∀ s c inlineThink, inv s c → inv { s with inlineThink } c
  reasoning : ∀ delta, Sends accept inv (appendReasoningDelta delta) inv
  text : ∀ delta, Sends accept (fun s c => inv s c ∧ guard.text s) (appendTextDelta delta) inv

/-- A relation to what has been sent that every guarded step keeps. -/
structure Guard.Keeps (guard : Guard) [FloatText] [TableOrder] {κ : Type*} (accept : κ → ResponsesEvent → Option κ)
    (inv : ChatToResponsesStreamState → κ → Prop) : Prop extends guard.KeepsTexts accept inv where
  reason : ∀ s c reason, inv s c → inv (applyFinishReason reason s) c
  call : ∀ call, Sends accept (fun s c => inv s c ∧ guard.frame s call) (appendToolCallDelta call) inv
  done : Sends accept (fun s c => inv s c ∧ guard.close s) doneDeltaEvents inv

namespace Guard.KeepsTexts

variable {κ : Type*} {guard : Guard} {accept : κ → ResponsesEvent → Option κ}
  {inv : ChatToResponsesStreamState → κ → Prop}

theorem pieces (keeps : guard.KeepsTexts accept inv) (pieces : List Str × List Str) :
    Sends accept (fun s c => inv s c ∧ piecesGuarded guard s pieces) (appendPieces pieces) inv := by
  refine followedBy ?_ (forEach_along keeps.text pieces.2)
  rintro s c ⟨held, allowed⟩
  obtain ⟨c', ran, after⟩ := forEach (fun _ => inv) (fun delta _ => keeps.reasoning delta) pieces.1 s c held
  exact ⟨c', ran, after, allowed⟩

theorem content (keeps : guard.KeepsTexts accept inv) (content : Str) :
    Sends accept (fun s c => inv s c ∧ contentGuarded guard s content) (appendContent content) inv :=
  fun s c ⟨held, allowed⟩ => keeps.pieces _ _ c ⟨keeps.think s c _ held, allowed⟩

theorem flush (keeps : guard.KeepsTexts accept inv) :
    Sends accept (fun s c => inv s c ∧ endGuarded guard s) flushContent
      (fun s c => inv s c ∧ guard.close s) := by
  rintro s c ⟨held, allowed⟩
  obtain ⟨now, later⟩ := Bool.and_eq_true_iff.mp allowed
  obtain ⟨c', ran, after⟩ := keeps.pieces _ _ c ⟨keeps.think s c _ held, now⟩
  exact ⟨c', ran, after, later⟩

theorem texts (keeps : guard.KeepsTexts accept inv) (delta : ChatStreamDelta) :
    Sends accept (fun s c => inv s c ∧ textsGuarded guard s delta) (processTexts delta) inv := by
  have refused : Sends accept (fun s c => inv s c ∧ (delta.refusalText.all fun _ => guard.text s))
      (whenSome appendTextDelta delta.refusalText) inv := whenSome_all keeps.text _
  have said := ((whenSome_all keeps.content delta.contentText).carry
    fun s => (delta.refusalText.all fun _ => guard.text s)).followedBy refused
  have thought := (whenSome keeps.reasoning delta.reasoningText).carry fun s =>
    delta.contentText.all (contentGuarded guard s) ∧
      (delta.refusalText.all fun _ => guard.text (whenSome appendContent delta.contentText s).2)
  refine (thought.followedBy (said.weaken fun s c held => ⟨⟨held.1, held.2.1⟩, held.2.2⟩)).weaken
    fun s c held => ⟨held.1, Bool.and_eq_true_iff.mp held.2⟩

end Guard.KeepsTexts

namespace Guard.Keeps

variable [FloatText] [TableOrder] {κ : Type*} {guard : Guard} {accept : κ → ResponsesEvent → Option κ}
  {inv : ChatToResponsesStreamState → κ → Prop}

theorem choice (keeps : guard.Keeps accept inv) (choice : ChatStreamChoice) :
    Sends accept (fun s c => inv s c ∧ choiceGuarded guard s choice) (processChoice choice) inv := by
  have finish : ∀ reason, Sends accept (fun s c => inv s c ∧ guard.close (applyFinishReason reason s))
      (finishChoice reason) inv := fun reason =>
    (quiet fun s c held => ⟨keeps.reason s c reason held.1, held.2⟩).followedBy keeps.done
  let closes (s : ChatToResponsesStreamState) : Bool :=
    (choice.finishReason.bind Text.nonBlank).all fun reason => guard.close (applyFinishReason reason s)
  have finished : Sends accept (fun s c => inv s c ∧ closes s)
      (whenSome finishChoice (choice.finishReason.bind Text.nonBlank)) inv := whenSome_all finish _
  have called := ((forEach_along keeps.call choice.delta.toolCalls).carry
    fun s => closes s).followedBy finished
  have said := (keeps.texts choice.delta).carry fun s =>
    along appendToolCallDelta guard.frame s choice.delta.toolCalls ∧
      closes (forEach appendToolCallDelta choice.delta.toolCalls s).2
  refine (said.followedBy (called.weaken fun s c held => ⟨⟨held.1, held.2.1⟩, held.2.2⟩)).weaken fun s c held => ?_
  obtain ⟨now, finish⟩ := Bool.and_eq_true_iff.mp held.2
  obtain ⟨texts, frames⟩ := Bool.and_eq_true_iff.mp now
  exact ⟨⟨held.1, texts⟩, frames, finish⟩

theorem choices (keeps : guard.Keeps accept inv) (choices : List ChatStreamChoice) :
    Sends accept (fun s c => inv s c ∧ along processChoice (choiceGuarded guard) s choices)
      (forEach processChoice choices) inv :=
  forEach_along keeps.choice choices

theorem closing (keeps : guard.Keeps accept inv) :
    Sends accept (fun s c => inv s c ∧ endGuarded guard s) (flushContent.followedBy doneDeltaEvents) inv :=
  keeps.flush.followedBy keeps.done

end Guard.Keeps

/-- The rule for the loop that announces calls. -/
theorem releaseFrom_sends [FloatText] {κ : Type*} {accept : κ → ResponsesEvent → Option κ}
    (inv : ChatToResponsesStreamState → κ → Prop) (each : ∀ key tool, Sends accept (fun s c => inv s c ∧
      s.tools[key]? = some tool ∧ tool.started ∧ tool.released = false) (releaseTool key tool) inv)
    (force : Bool) (keys : List Int) : Sends accept inv (releaseFrom force keys) inv := by
  induction keys with
  | nil => exact quiet fun _ _ held => held
  | cons key rest ih =>
    intro s c held
    unfold releaseFrom
    split
    · exact ih s c held
    next tool found =>
      split
      · exact ih s c held
      next waiting =>
        split
        next started =>
          have unreleased : tool.released = false := by simpa [started] using waiting
          exact ((each key tool).followedBy ih) s c ⟨held, found, started, unreleased⟩
        · exact ⟨c, rfl, held⟩

theorem releaseFrom_invariant [FloatText] (inv : ChatToResponsesStreamState → Prop)
    (each : ∀ s key tool, inv s → s.tools[key]? = some tool → tool.started → tool.released = false →
      inv (releaseTool key tool s).2) (force : Bool) (keys : List Int) {s : ChatToResponsesStreamState} (held :
        inv s) :
    inv (releaseFrom force keys s).2 := by
  obtain ⟨-, -, after⟩ := releaseFrom_sends (fun s (_ : Unit) => inv s)
    (fun key tool => .of_state fun s known => each s key tool known.1 known.2.1 known.2.2.1 known.2.2.2)
    force keys s () held
  exact after

theorem finishTool_cases [FloatText] (status : ResponseStatus) (key : Int) (s : ChatToResponsesStreamState) :
    (∀ tool, s.tools[key]? = some tool → tool.done) ∧ finishTool status key s = ([], s) ∨
    ∃ tool, s.tools[key]? = some tool ∧ tool.done = false ∧
      (tool.name.isEmpty ∧ finishTool status key s =
          ([], { s with tools := s.tools.insert key { tool with done := true },
                        droppedTools := s.droppedTools + 1 }) ∨
        tool.name.isEmpty = false ∧ finishTool status key s =
          ({ tool.withFallbackId s.id key with done := true }.doneEvents status,
            { s with tools := s.tools.insert key { tool.withFallbackId s.id key with done := true } })) := by
  unfold finishTool
  cases s.tools[key]? with
  | none => exact .inl ⟨by simp, rfl⟩
  | some tool =>
    cases ended : tool.done with
    | true => exact .inl ⟨by simpa using ended, if_pos ended⟩
    | false =>
      refine .inr ⟨tool, rfl, ended, ?_⟩
      cases nameless : tool.name.isEmpty with
      | true => exact .inl ⟨rfl, by simp [ended, nameless]⟩
      | false => exact .inr ⟨rfl, by simp [ended, nameless]⟩

/-- A relation that whole chunks keep. -/
structure Guard.KeepsChunks (guard : Guard) [FloatText] [TableOrder] {κ : Type*}
    (accept : κ → ResponsesEvent → Option κ) (inv : ChatToResponsesStreamState → κ → Prop) : Prop
    extends guard.Keeps accept inv where
  header : ∀ s c chunk, inv s c → inv (noteHeader chunk s) c
  fail : ∀ s c err, inv s c → inv { s with failedError := some err } c
  created : Sends accept inv ensureCreated inv

section Chunks

variable [FloatText] [TableOrder] {κ : Type*} {guard : Guard} {accept : κ → ResponsesEvent → Option κ}
  {inv : ChatToResponsesStreamState → κ → Prop}

theorem Guard.KeepsChunks.chunk (keeps : guard.KeepsChunks accept inv) (chunk : ChatStreamChunk) :
    Sends accept (fun s c => inv s c ∧ chunkGuarded guard s chunk) (processChunk chunk) inv := by
  rintro s c ⟨held, allowed⟩
  unfold processChunk
  split
  · exact ⟨c, rfl, held⟩
  next healthy =>
    split
    · exact ⟨c, rfl, keeps.fail s c _ held⟩
    next fine =>
      simp only [chunkGuarded, healthy, fine, Option.isSome_none, Bool.false_or] at allowed
      have body := (keeps.created.carry fun s =>
        along processChoice (choiceGuarded guard) s chunk.choices).followedBy (keeps.choices chunk.choices)
      exact body (noteHeader chunk s) c ⟨keeps.header s c chunk held, allowed⟩

theorem Guard.KeepsChunks.chunks (keeps : guard.KeepsChunks accept inv) (chunks : List ChatStreamChunk) :
    Sends accept (fun s c => inv s c ∧ along processChunk (chunkGuarded guard) s chunks)
      (forEach processChunk chunks) inv :=
  forEach_along keeps.chunk chunks

theorem choiceGuarded_free (s : ChatToResponsesStreamState) (choice : ChatStreamChoice) :
    choiceGuarded .free s choice := by
  have frames : along appendToolCallDelta Guard.free.frame (processTexts choice.delta s).2 choice.delta.toolCalls :=
    along_of_forall (fun _ _ => rfl) _ _
  simp only [choiceGuarded, textsGuarded_free, frames, Bool.true_and]
  cases choice.finishReason.bind Text.nonBlank <;> rfl

theorem chunkGuarded_free (s : ChatToResponsesStreamState) (chunk : ChatStreamChunk) :
    chunkGuarded .free s chunk := by
  simp [chunkGuarded, along_of_forall choiceGuarded_free]

/-- An invariant of the state that every single step keeps. -/
structure Kept (inv : ChatToResponsesStreamState → Prop) : Prop where
  header : ∀ s chunk, inv s → inv (noteHeader chunk s)
  fail : ∀ s err, inv s → inv { s with failedError := some err }
  created : ∀ s, inv s → inv (ensureCreated s).2
  think : ∀ s inlineThink, inv s → inv { s with inlineThink }
  reason : ∀ s reason, inv s → inv (applyFinishReason reason s)
  reasoning : ∀ s delta, inv s → inv (appendReasoningDelta delta s).2
  text : ∀ s delta, inv s → inv (appendTextDelta delta s).2
  call : ∀ s call, inv s → inv (appendToolCallDelta call s).2
  done : ∀ s, inv s → inv (doneDeltaEvents s).2

variable {inv : ChatToResponsesStreamState → Prop} {s : ChatToResponsesStreamState}

theorem Kept.guarded (kept : Kept inv) : Guard.free.KeepsChunks (fun _ _ => some ()) fun s (_ : Unit) => inv s where
  header s _ := kept.header s
  fail s _ := kept.fail s
  created := .of_state kept.created
  think s _ := kept.think s
  reason s _ := kept.reason s
  reasoning delta := .of_state fun s => kept.reasoning s delta
  text delta := .of_state fun s held => kept.text s delta held.1
  call call := .of_state fun s held => kept.call s call held.1
  done := .of_state fun s held => kept.done s held.1

theorem Kept.run (kept : Kept inv) (held : inv s) (chunks : List ChatStreamChunk) :
    inv (forEach processChunk chunks s).2 := by
  obtain ⟨-, -, after⟩ := kept.guarded.chunks chunks s () ⟨held, along_of_forall chunkGuarded_free chunks s⟩
  exact after

theorem Kept.close (kept : Kept inv) (held : inv s) : inv (flushContent.followedBy doneDeltaEvents s).2 := by
  obtain ⟨-, -, after⟩ := kept.guarded.closing s () ⟨held, endGuarded_free s⟩
  exact after

end Chunks

end ChatToResponsesStreamState

end LlmGateway
