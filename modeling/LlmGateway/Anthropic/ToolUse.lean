import LlmGateway.Anthropic.Lifecycle

namespace LlmGateway

open Text Emitter List

def ToolCallDelta.functionName (call : ToolCallDelta) : Option Str := call.function.bind (·.name)

namespace ToolBlock

theorem appendArgs_frame (args : Option Str) (block : ToolBlock) :
    (whenSome appendArgs args block).2.id = block.id ∧ (whenSome appendArgs args block).2.name = block.name ∧
      (whenSome appendArgs args block).2.started = block.started := by
  cases args with
  | none => exact ⟨rfl, rfl, rfl⟩
  | some args =>
    simp only [whenSome, appendArgs]
    split_ifs <;> exact ⟨rfl, rfl, rfl⟩

theorem startWhenReady_frame (block : ToolBlock) : (startWhenReady block).2.id = block.id ∧
    (startWhenReady block).2.name = block.name ∧
      (startWhenReady block).2.started = (block.started || !block.id.isEmpty && !block.name.isEmpty) := by
  unfold startWhenReady
  split_ifs with ready
  · simp only [Bool.and_eq_true, Bool.not_eq_true'] at ready
    simp [begun, ready]
  · refine ⟨rfl, rfl, ?_⟩
    cases begun : block.started <;> simp_all

theorem receive_frame (call : ToolCallDelta) (block : ToolBlock) :
    (block.receive call).2.id = call.trimmedId.getD block.id ∧
    (block.receive call).2.name = call.trimmedName.getD block.name ∧
    (block.receive call).2.started =
      (block.started || !(call.trimmedId.getD block.id).isEmpty &&
        !(call.trimmedName.getD block.name).isEmpty) := by
  obtain ⟨id, name, started⟩ := appendArgs_frame call.argumentsDelta (startWhenReady (block.named call)).2
  obtain ⟨id', name', started'⟩ := startWhenReady_frame (block.named call)
  unfold receive
  exact ⟨id.trans id', name.trans name', started.trans started'⟩

theorem receive_starts {call : ToolCallDelta} {block : ToolBlock} (waiting : block.started = false)
    (begins : (block.receive call).2.started) : AnthropicEvent.blockStart block.anthropicIndex
      (.toolUse (call.trimmedId.getD block.id) (call.trimmedName.getD block.name)) ∈ (block.receive call).1 := by
  rw [(receive_frame call block).2.2, waiting, Bool.false_or, Bool.and_eq_true] at begins
  have ready : !(block.named call).started && !(block.named call).id.isEmpty &&
      !(block.named call).name.isEmpty := by
    simp only [named, waiting, Bool.and_eq_true]
    exact ⟨⟨rfl, begins.1⟩, begins.2⟩
  unfold receive
  rw [followedBy_events, quiet_state, followedBy_events, startWhenReady, if_pos ready]
  simp [startEvent, named]

end ToolBlock

namespace ChatToAnthropicState

def framesOfChoice (s : ChatToAnthropicState) (choice : ChatStreamChoice) : List (Int × ToolCallDelta) :=
  collect appendToolDelta (fun s call => [(s.chatIndex call, call)]) (processTexts choice.delta s).2
    choice.delta.toolCalls

def framesOfChunk (s : ChatToAnthropicState) (chunk : ChatStreamChunk) : List (Int × ToolCallDelta) :=
  if s.failed.isSome || chunk.error.isSome then []
  else collect processChoice framesOfChoice (ensureMessageStart (noteHeader chunk s)).2 chunk.choices

def resolvedFrames (s : ChatToAnthropicState) (chunks : List ChatStreamChunk) : List (Int × ToolCallDelta) :=
  collect processChunk framesOfChunk s chunks

end ChatToAnthropicState

/-- The frames of one key say the same id and the same name, and say both. -/
structure MakesCall (frames : List (Int × ToolCallDelta)) (key : Int) (id name : Str) : Prop where
  ids : ∀ call, (key, call) ∈ frames → call.trimmedId = none ∨ call.trimmedId = some id
  names : ∀ call, (key, call) ∈ frames → call.trimmedName = none ∨ call.functionName = some name
  identified : ∃ call, (key, call) ∈ frames ∧ call.trimmedId = some id
  named : ∃ call, (key, call) ∈ frames ∧ call.functionName = some name

section Track

variable {key : Int} {id shown : Str} {seen frames : List (Int × ToolCallDelta)} {trace : List AnthropicEvent}

def CallFits (key : Int) (id shown : Str) (frames : List (Int × ToolCallDelta)) : Prop :=
  ∀ call, (key, call) ∈ frames → (call.trimmedId = none ∨ call.trimmedId = some id) ∧
    (call.trimmedName = none ∨ call.trimmedName = some shown)

/-- A block knows what the frames of its key have said, and has started with both. -/
structure KnowsCall (key : Int) (id shown : Str) (block : ToolBlock) (seen : List (Int × ToolCallDelta))
    (trace : List AnthropicEvent) : Prop where
  ofId : block.id = [] ∨ block.id = id
  ofName : block.name = [] ∨ block.name = shown
  identified : (∃ call, (key, call) ∈ seen ∧ call.trimmedId = some id) → block.id = id
  named : (∃ call, (key, call) ∈ seen ∧ call.trimmedName = some shown) → block.name = shown
  started : block.id = id → block.name = shown → block.started
  begun : block.started → ∃ index, .blockStart index (.toolUse id shown) ∈ trace

def CallTracked (key : Int) (id shown : Str) (tools : Std.TreeMap Int ToolBlock) (seen : List (Int × ToolCallDelta))
    (trace : List AnthropicEvent) : Prop :=
  CallFits key id shown seen →
    match tools[key]? with
    | none => ∀ call, (key, call) ∉ seen
    | some block => KnowsCall key id shown block seen trace

theorem KnowsCall.fresh (index : Nat) (solid : id.isEmpty = false)
    (unseen : ∀ call, (key, call) ∉ seen) : KnowsCall key id shown (.fresh index) seen trace where
  ofId := .inl rfl
  ofName := .inl rfl
  identified := fun ⟨call, mem, _⟩ => absurd mem (unseen call)
  named := fun ⟨call, mem, _⟩ => absurd mem (unseen call)
  started := fun same => by
    rw [← same] at solid
    cases solid
  begun := fun impossible => by cases impossible

theorem KnowsCall.receive {block : ToolBlock} {call : ToolCallDelta}
    (knows : KnowsCall key id shown block seen trace) (solid : id.isEmpty = false) (filled : shown.isEmpty = false)
    (fitsId : call.trimmedId = none ∨ call.trimmedId = some id)
    (fitsName : call.trimmedName = none ∨ call.trimmedName = some shown) :
    KnowsCall key id shown (block.receive call).2 (seen ++ [(key, call)]) (trace ++ (block.receive call).1) := by
  obtain ⟨sameId, sameName, sameStarted⟩ := ToolBlock.receive_frame call block
  have nextId : call.trimmedId.getD block.id = [] ∨ call.trimmedId.getD block.id = id := by
    rcases fitsId with none | some
    · rw [none]
      exact knows.ofId
    · rw [some]
      exact .inr rfl
  have nextName : call.trimmedName.getD block.name = [] ∨ call.trimmedName.getD block.name = shown := by
    rcases fitsName with none | some
    · rw [none]
      exact knows.ofName
    · rw [some]
      exact .inr rfl
  refine ⟨sameId ▸ nextId, sameName ▸ nextName, ?_, ?_, ?_, ?_⟩
  · rintro ⟨other, mem, said⟩
    rw [sameId]
    rcases mem_append.mp mem with before | now
    · rcases fitsId with none | some
      · rw [none]
        exact knows.identified ⟨other, before, said⟩
      · rw [some]
        rfl
    · cases mem_singleton.mp now
      rw [said]
      rfl
  · rintro ⟨other, mem, said⟩
    rw [sameName]
    rcases mem_append.mp mem with before | now
    · rcases fitsName with none | some
      · rw [none]
        exact knows.named ⟨other, before, said⟩
      · rw [some]
        rfl
    · cases mem_singleton.mp now
      rw [said]
      rfl
  · intro byId byName
    rw [sameId] at byId
    rw [sameName] at byName
    rw [sameStarted, byId, byName, solid, filled]
    simp
  · intro begun
    by_cases before : block.started
    · obtain ⟨index, mem⟩ := knows.begun before
      exact ⟨index, mem_append_left _ mem⟩
    · have waiting : block.started = false := by simpa using before
      have event := ToolBlock.receive_starts waiting begun
      rw [sameStarted, waiting, Bool.false_or, Bool.and_eq_true] at begun
      have byId := nextId.resolve_left fun empty => by simp [empty] at begun
      have byName := nextName.resolve_left fun empty => by simp [empty] at begun
      rw [byId, byName] at event
      exact ⟨_, mem_append_right _ event⟩

theorem KnowsCall.later {block : ToolBlock} {other : Int} {call : ToolCallDelta} {events : List AnthropicEvent}
    (knows : KnowsCall key id shown block seen trace) (different : other ≠ key) :
    KnowsCall key id shown block (seen ++ [(other, call)]) (trace ++ events) := by
  have same : ∀ frame, (key, frame) ∈ seen ++ [(other, call)] ↔ (key, frame) ∈ seen := by
    intro frame
    simp [Ne.symm different]
  refine ⟨knows.ofId, knows.ofName, ?_, ?_, knows.started, fun begun => ?_⟩
  · simpa [same] using knows.identified
  · simpa [same] using knows.named
  · obtain ⟨index, mem⟩ := knows.begun begun
    exact ⟨index, mem_append_left _ mem⟩

theorem CallTracked.more {tools : Std.TreeMap Int ToolBlock} (tracked : CallTracked key id shown tools seen trace)
    (events : List AnthropicEvent) : CallTracked key id shown tools seen (trace ++ events) := by
  intro fits
  have held := tracked fits
  cases found : tools[key]? with
  | none => simpa [found] using held
  | some block =>
    simp only [found] at held ⊢
    refine { held with begun := fun begun => ?_ }
    obtain ⟨index, mem⟩ := held.begun begun
    exact ⟨index, mem_append_left _ mem⟩

end Track

namespace ChatToAnthropicState

section Tools

variable {s : ChatToAnthropicState}

theorem closeOpenNonTool_tools : (closeOpenNonTool s).2.tools = s.tools ∧
    (closeOpenNonTool s).2.lastToolKey = s.lastToolKey := by
  unfold closeOpenNonTool
  split <;> exact ⟨rfl, rfl⟩

theorem appendNonToolDelta_tools (kind : NonToolKind) (delta : Str) :
    (appendNonToolDelta kind delta s).2.tools = s.tools := by
  have opened : (ensureOpen kind s).2.tools = s.tools := by
    unfold ensureOpen
    split
    · rfl
    · rw [followedBy_state]
      exact closeOpenNonTool_tools.1
  exact opened

theorem appendPieces_tools (pieces : List Str × List Str) :
    (appendPieces pieces s).2.tools = s.tools := by
  have each : ∀ kind delta (s' : ChatToAnthropicState), s'.tools = s.tools →
      (appendNonToolDelta kind delta s').2.tools = s.tools :=
    fun kind delta s' held => (appendNonToolDelta_tools kind delta).trans held
  refine forEach_invariant (fun s' : ChatToAnthropicState => s'.tools = s.tools) (each .text) _ ?_
  exact forEach_invariant (fun s' : ChatToAnthropicState => s'.tools = s.tools) (each .thinking) _ rfl

theorem processTexts_tools (delta : ChatStreamDelta) : (processTexts delta s).2.tools = s.tools := by
  have optional : ∀ kind (text : Option Str) (s' : ChatToAnthropicState),
      (whenSome (appendNonToolDelta kind) text s').2.tools = s'.tools := by
    intro kind text s'
    cases text with
    | none => rfl
    | some text => exact appendNonToolDelta_tools kind text
  have content : ∀ (text : Option Str) (s' : ChatToAnthropicState),
      (whenSome appendContent text s').2.tools = s'.tools := by
    intro text s'
    cases text with
    | none => rfl
    | some text => exact appendPieces_tools _
  exact ((optional .text _ _).trans (content _ _)).trans (optional .thinking _ _)

theorem ensureMessageStart_tools : (ensureMessageStart s).2.tools = s.tools := by
  unfold ensureMessageStart
  split <;> rfl

theorem chatIndex_closeOpenNonTool (call : ToolCallDelta) :
    (closeOpenNonTool s).2.chatIndex call = s.chatIndex call := by
  simp [chatIndex, closeOpenNonTool_tools]

end Tools

section Run

variable {key : Int} {id shown : Str} {s : ChatToAnthropicState} {seen : List (Int × ToolCallDelta)}
  {trace : List AnthropicEvent}

theorem tracked_receiveFrame (solid : id.isEmpty = false) (filled : shown.isEmpty = false) (call : ToolCallDelta)
    (tracked : CallTracked key id shown s.tools seen trace) :
    CallTracked key id shown (receiveFrame call s).2.tools (seen ++ [(s.chatIndex call, call)])
      (trace ++ (receiveFrame call s).1) := by
  intro fits
  have held := tracked fun frame mem => fits frame (mem_append_left _ mem)
  rw [getElem_insert (receiveFrame_tools call s)]
  by_cases here : key = s.chatIndex call
  · obtain ⟨fitsId, fitsName⟩ := fits call (mem_append_right _ (by simp [here]))
    have known : KnowsCall key id shown (s.toolAt (s.chatIndex call)).1 seen trace := by
      rw [← here, toolAt]
      cases found : s.tools[key]? with
      | some block => simpa [found] using held
      | none =>
        simp only [found] at held
        exact .fresh _ solid held
    have after := known.receive solid filled fitsId fitsName
    simpa [receiveFrame, ← here] using after
  · rw [if_neg here]
    cases found : s.tools[key]? with
    | none =>
      simp only [found] at held ⊢
      intro frame mem
      rcases mem_append.mp mem with before | now
      · exact held frame before
      · exact here (Prod.mk.inj (mem_singleton.mp now)).1
    | some block =>
      simp only [found] at held ⊢
      exact held.later (Ne.symm here)

theorem tracked_appendToolDelta (solid : id.isEmpty = false) (filled : shown.isEmpty = false) (call : ToolCallDelta)
    (tracked : CallTracked key id shown s.tools seen trace) :
    CallTracked key id shown (appendToolDelta call s).2.tools (seen ++ [(s.chatIndex call, call)])
      (trace ++ (appendToolDelta call s).1) := by
  have closed : CallTracked key id shown (closeOpenNonTool s).2.tools seen (trace ++ (closeOpenNonTool s).1) := by
    rw [closeOpenNonTool_tools.1]
    exact tracked.more _
  have received := tracked_receiveFrame solid filled call closed
  rw [chatIndex_closeOpenNonTool, append_assoc] at received
  exact received

theorem tracked_processChoice (solid : id.isEmpty = false) (filled : shown.isEmpty = false)
    (choice : ChatStreamChoice) (tracked : CallTracked key id shown s.tools seen trace) :
    CallTracked key id shown (processChoice choice s).2.tools (seen ++ framesOfChoice s choice)
      (trace ++ (processChoice choice s).1) := by
  have said : CallTracked key id shown (processTexts choice.delta s).2.tools seen
      (trace ++ (processTexts choice.delta s).1) := by
    rw [processTexts_tools]
    exact tracked.more _
  have called := collect_trace_invariant (fun s call => [(s.chatIndex call, call)])
    (fun s : ChatToAnthropicState => CallTracked key id shown s.tools)
    (fun s seen trace call held => tracked_appendToolDelta solid filled call held) choice.delta.toolCalls said
  have finished : ∀ s : ChatToAnthropicState, (noteFinish choice.finishReason s).tools = s.tools := by
    intro s
    unfold noteFinish
    split <;> rfl
  rw [processChoice, followedBy_state, followedBy_events, followedBy_state, followedBy_events, quiet_state,
    finished]
  simpa [framesOfChoice, quiet] using called

theorem tracked_processChunk (solid : id.isEmpty = false) (filled : shown.isEmpty = false) (chunk : ChatStreamChunk)
    (tracked : CallTracked key id shown s.tools seen trace) :
    CallTracked key id shown (processChunk chunk s).2.tools (seen ++ framesOfChunk s chunk)
      (trace ++ (processChunk chunk s).1) := by
  unfold processChunk framesOfChunk
  split
  next failed =>
    rw [failed, Bool.true_or, if_pos rfl, append_nil]
    exact tracked.more _
  next healthy =>
    split
    next err found =>
      rw [found, Option.isSome_some, Bool.or_true, if_pos rfl, append_nil]
      exact tracked.more _
    next fine =>
      have started : CallTracked key id shown (ensureMessageStart (noteHeader chunk s)).2.tools seen
          (trace ++ (ensureMessageStart (noteHeader chunk s)).1) := by
        rw [ensureMessageStart_tools]
        exact tracked.more _
      have chosen :=
        collect_trace_invariant framesOfChoice (fun s : ChatToAnthropicState => CallTracked key id shown s.tools)
          (fun s seen trace choice held => tracked_processChoice solid filled choice held) chunk.choices started
      rw [fine, Option.isSome_none, Bool.or_false, if_neg healthy, followedBy_state, followedBy_events,
        quiet_state, followedBy_state, followedBy_events]
      simpa [quiet] using chosen

theorem tracked_run (solid : id.isEmpty = false) (filled : shown.isEmpty = false) (start model : Str)
    (chunks : List ChatStreamChunk) :
    CallTracked key id shown (forEach processChunk chunks (.new start model)).2.tools
      (resolvedFrames (.new start model) chunks) (forEach processChunk chunks (.new start model)).1 := by
  have nothing : CallTracked key id shown (new start model).tools [] [] := by
    intro fits
    simp [new]
  exact collect_trace_invariant framesOfChunk (fun s : ChatToAnthropicState => CallTracked key id shown s.tools)
    (fun s seen trace chunk held => tracked_processChunk solid filled chunk held) chunks nothing

end Run

end ChatToAnthropicState

theorem toolUse_of_makesCall {chunks : List ChatStreamChunk} {start model id name : Str} {key : Int}
    (makes : MakesCall (ChatToAnthropicState.resolvedFrames (.new start model) chunks) key id name)
    (filled : (trim name).isEmpty = false) (truncated : Bool) :
    ∃ index, .blockStart index (.toolUse id (trim name)) ∈ anthropicStream start model chunks truncated := by
  have solid : id.isEmpty = false := by
    obtain ⟨call, -, said⟩ := makes.identified
    obtain ⟨text, -, found⟩ := Option.bind_eq_some_iff.mp said
    exact nonBlank_ne_nil found
  have reads : ∀ call : ToolCallDelta, call.functionName = some name → call.trimmedName = some (trim name) := by
    intro call said
    rw [ToolCallDelta.trimmedName, show (call.function.bind (·.name)) = some name from said]
    exact nonBlank_eq_some_iff.mpr ⟨rfl, filled⟩
  have fits : CallFits key id (trim name) (ChatToAnthropicState.resolvedFrames (.new start model) chunks) :=
    fun call mem => ⟨makes.ids call mem, (makes.names call mem).imp_right (reads call)⟩
  have tracked := ChatToAnthropicState.tracked_run solid filled start model chunks fits
  obtain ⟨first, mem, identified⟩ := makes.identified
  obtain ⟨second, member', named⟩ := makes.named
  split at tracked
  · exact absurd mem (tracked first)
  · have known := tracked.identified ⟨first, mem, identified⟩
    have named := tracked.named ⟨second, member', reads second named⟩
    obtain ⟨index, event⟩ := tracked.begun (tracked.started known named)
    refine ⟨index, ?_⟩
    exact mem_append_left _ event

end LlmGateway
