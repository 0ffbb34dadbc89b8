import LlmGateway.Anthropic.Lifecycle

namespace LlmGateway

open Machine Emitter Option Sends ChatToAnthropicState

def appendBlock (count : Nat) : AnthropicEvent → Option Nat
  | .blockStart index _ => if index = count then some (count + 1) else none
  | _ => some count

section Client

variable {events : List AnthropicEvent} {event : AnthropicEvent} {count : Nat}

theorem appendBlock_silent (silent : event.started = none) : appendBlock count event = some count := by
  cases event <;> first | rfl | cases silent

theorem run_silent (silent : ∀ event ∈ events, event.started = none) :
    run appendBlock count events = some count := by
  induction events with
  | nil => rfl
  | cons event rest ih =>
    rw [run, appendBlock_silent (silent event List.mem_cons_self)]
    exact ih fun later mem => silent later (List.mem_cons_of_mem _ mem)

theorem started_of_run (ran : run appendBlock 0 events = some count) :
    events.filterMap (·.started) = List.range count := by
  have reach := reach_of_run ran
  clear ran
  induction reach with
  | start => rfl
  | @next trace count event after _ _ taken ih =>
    rw [List.filterMap_append, ih]
    cases started : event.started with
    | none =>
      rw [appendBlock_silent started] at taken
      cases taken
      simp [started]
    | some index =>
      obtain ⟨block, rfl⟩ := AnthropicEvent.started_eq_some.mp started
      obtain ⟨rfl, same⟩ := ite_none_right_eq_some.mp taken
      cases same
      simp [AnthropicEvent.started, List.range_succ]

end Client

namespace ToolBlock

def Counted (count : Nat) (block : ToolBlock) (seen : Nat) : Prop := block.started ∧ seen = count

variable {count : Nat}

theorem appendArgs_numbered (args : Str) : Sends appendBlock (Counted count) (appendArgs args) (Counted count) := by
  rintro block seen ⟨started, rfl⟩
  unfold appendArgs
  split
  · exact ⟨seen, rfl, started, rfl⟩
  · dsimp only
    split
    · exact ⟨seen, rfl, started, rfl⟩
    · exact ⟨seen, rfl, started, rfl⟩

theorem receive_numbered (call : ToolCallDelta) :
    Sends appendBlock (Counted count) (receive call) (Counted count) := by
  have named : Sends appendBlock (Counted count) (quiet fun block => block.named call) (Counted count) :=
    quiet fun _ _ held => held
  refine named.followedBy (followedBy ?_ (whenSome appendArgs_numbered call.argumentsDelta))
  rintro block seen ⟨started, rfl⟩
  simp only [startWhenReady, started, Bool.not_true, Bool.false_and, Bool.false_eq_true, if_false]
  exact ⟨seen, rfl, started, rfl⟩

theorem receive_fresh_numbered {call : ToolCallDelta} (id : call.trimmedId.isSome)
    (name : call.trimmedName.isSome) :
    Sends appendBlock (fun block seen => block = fresh count ∧ seen = count) (receive call)
      (Counted (count + 1)) := by
  obtain ⟨id, foundId⟩ := isSome_iff_exists.mp id
  obtain ⟨name, foundName⟩ := isSome_iff_exists.mp name
  obtain ⟨_, -, someId⟩ := bind_eq_some_iff.mp foundId
  obtain ⟨_, -, someName⟩ := bind_eq_some_iff.mp foundName
  have named : Sends appendBlock (fun block seen => block = fresh count ∧ seen = count)
      (quiet fun block => block.named call) (fun block seen => block = (fresh count).named call ∧ seen = count) :=
    quiet fun _ _ ⟨same, counted⟩ => ⟨congrArg (·.named call) same, counted⟩
  refine named.followedBy (followedBy ?_ (whenSome appendArgs_numbered call.argumentsDelta))
  rintro block seen ⟨rfl, rfl⟩
  refine ⟨seen + 1, ?_, ?_⟩ <;>
    simp [startWhenReady, ToolBlock.named, fresh, foundId, foundName, Text.nonBlank_ne_nil someId,
      Text.nonBlank_ne_nil someName, flushed, startEvent, run, appendBlock, Counted, begun]

end ToolBlock

namespace ChatToAnthropicState

variable (call : ToolCallDelta)

def opensNamed (s : ChatToAnthropicState) (call : ToolCallDelta) : Bool :=
  s.tools[s.chatIndex call]?.isSome || call.trimmedId.isSome && call.trimmedName.isSome

def choiceNamed (s : ChatToAnthropicState) (choice : ChatStreamChoice) : Bool :=
  along appendToolDelta opensNamed (processTexts choice.delta s).2 choice.delta.toolCalls

def chunkNamed (s : ChatToAnthropicState) (chunk : ChatStreamChunk) : Bool :=
  s.failed.isSome || chunk.error.isSome ||
    along processChoice choiceNamed (ensureMessageStart (noteHeader chunk s)).2 chunk.choices

/-- Every index has been used for a block that the client has seen. -/
structure Numbered (s : ChatToAnthropicState) (count : Nat) : Prop where
  next : s.nextBlockIndex = count
  started : ∀ (key : Int) tool, s.tools[key]? = some tool → tool.started

variable {s : ChatToAnthropicState} {count : Nat}

theorem closeOpenNonTool_numbered : Sends appendBlock Numbered closeOpenNonTool Numbered := by
  intro s count numbered
  unfold closeOpenNonTool
  split
  · exact ⟨count, rfl, numbered⟩
  · exact ⟨count, rfl, { numbered with }⟩

theorem openBlock_numbered (kind : NonToolKind) : Sends appendBlock Numbered (openBlock kind) Numbered := by
  intro s count numbered
  refine ⟨count + 1, run_singleton.trans ?_, ⟨congrArg (· + 1) numbered.next, numbered.started⟩⟩
  exact if_pos numbered.next

theorem appendNonToolDelta_numbered (kind : NonToolKind) (delta : Str) :
    Sends appendBlock Numbered (appendNonToolDelta kind delta) Numbered := by
  have opened : Sends appendBlock Numbered (ensureOpen kind) Numbered := by
    intro s count numbered
    unfold ensureOpen
    split
    · exact ⟨count, rfl, numbered⟩
    · exact (closeOpenNonTool_numbered.followedBy (openBlock_numbered kind)) s count numbered
  refine opened.followedBy fun s count numbered => ⟨count, run_silent fun event mem => ?_, numbered⟩
  obtain ⟨block, -, rfl⟩ := List.mem_map.mp mem
  rfl

theorem receiveFrame_numbered :
    Sends appendBlock (fun s count => s.Numbered count ∧ s.opensNamed call) (receiveFrame call) Numbered := by
  rintro s count ⟨⟨rfl, started⟩, named⟩
  have received : ∃ seen, run appendBlock s.nextBlockIndex (receiveFrame call s).1 = some seen ∧
      ((s.toolAt (s.chatIndex call)).1.receive call).2.Counted (s.toolAt (s.chatIndex call)).2 seen := by
    cases found : s.tools[s.chatIndex call]? with
    | some tool =>
      have place : s.toolAt (s.chatIndex call) = (tool, s.nextBlockIndex) := by rw [toolAt, found]
      have := ToolBlock.receive_numbered call tool s.nextBlockIndex ⟨started _ tool found, rfl⟩
      simp only [receiveFrame, place]
      exact this
    | none =>
      have place : s.toolAt (s.chatIndex call) = (.fresh s.nextBlockIndex, s.nextBlockIndex + 1) := by
        rw [toolAt, found]
      simp only [opensNamed, found, isSome_none, Bool.false_or, Bool.and_eq_true] at named
      have := ToolBlock.receive_fresh_numbered named.1 named.2 (.fresh s.nextBlockIndex) s.nextBlockIndex ⟨rfl, rfl⟩
      simp only [receiveFrame, place]
      exact this
  obtain ⟨seen, ran, startedNow, rfl⟩ := received
  refine ⟨_, ran, rfl, fun key tool found => ?_⟩
  rw [getElem_insert (receiveFrame_tools call s)] at found
  split at found
  · cases found
    exact startedNow
  · exact started key tool found

theorem opensNamed_closeOpenNonTool : (closeOpenNonTool s).2.opensNamed call = s.opensNamed call := by
  unfold closeOpenNonTool
  split <;> rfl

theorem appendToolDelta_numbered :
    Sends appendBlock (fun s count => s.Numbered count ∧ s.opensNamed call) (appendToolDelta call) Numbered := by
  refine followedBy (fun s count ⟨numbered, named⟩ => ?_) (receiveFrame_numbered call)
  obtain ⟨seen, ran, after⟩ := closeOpenNonTool_numbered s count numbered
  exact ⟨seen, ran, after, (opensNamed_closeOpenNonTool call).trans named⟩

theorem appendPieces_numbered (pieces : List Str × List Str) :
    Sends appendBlock Numbered (appendPieces pieces) Numbered :=
  (forEach (fun _ => Numbered) (fun delta _ => appendNonToolDelta_numbered .thinking delta) pieces.1).followedBy
    (forEach (fun _ => Numbered) (fun delta _ => appendNonToolDelta_numbered .text delta) pieces.2)

theorem appendContent_numbered (content : Str) : Sends appendBlock Numbered (appendContent content) Numbered :=
  fun _ count numbered => appendPieces_numbered _ _ count { numbered with }

theorem flushContent_numbered : Sends appendBlock Numbered flushContent Numbered :=
  fun _ count numbered => appendPieces_numbered _ _ count { numbered with }

theorem processTexts_numbered (delta : ChatStreamDelta) :
    Sends appendBlock Numbered (processTexts delta) Numbered :=
  (whenSome (appendNonToolDelta_numbered .thinking) _).followedBy
    ((whenSome appendContent_numbered _).followedBy (whenSome (appendNonToolDelta_numbered .text) _))

theorem processChoice_numbered (choice : ChatStreamChoice) :
    Sends appendBlock (fun s count => s.Numbered count ∧ s.choiceNamed choice) (processChoice choice) Numbered := by
  refine followedBy (fun s count ⟨numbered, named⟩ => ?_)
    ((forEach_along appendToolDelta_numbered choice.delta.toolCalls).followedBy
      (quiet fun s count numbered => ?_))
  · obtain ⟨seen, ran, after⟩ := processTexts_numbered choice.delta s count numbered
    exact ⟨seen, ran, after, named⟩
  · unfold noteFinish
    split
    · exact { numbered with }
    · exact numbered

theorem ensureMessageStart_numbered : Sends appendBlock Numbered ensureMessageStart Numbered := by
  intro s count numbered
  unfold ensureMessageStart
  split
  · exact ⟨count, rfl, numbered⟩
  · exact ⟨count, rfl, { numbered with }⟩

theorem processChunk_numbered (chunk : ChatStreamChunk) :
    Sends appendBlock (fun s count => s.Numbered count ∧ s.chunkNamed chunk) (processChunk chunk) Numbered := by
  have body : Sends appendBlock
      (fun s count => s.Numbered count ∧ along processChoice choiceNamed (ensureMessageStart s).2 chunk.choices)
      (ensureMessageStart.followedBy (forEach processChoice chunk.choices)) Numbered := by
    refine followedBy (fun s count ⟨numbered, named⟩ => ?_)
      (forEach_along processChoice_numbered chunk.choices)
    obtain ⟨seen, ran, after⟩ := ensureMessageStart_numbered s count numbered
    exact ⟨seen, ran, after, named⟩
  rintro s count ⟨numbered, named⟩
  unfold processChunk
  split
  · exact ⟨count, rfl, numbered⟩
  next healthy =>
    split
    · exact ⟨count, rfl, { numbered with }⟩
    next fine =>
      simp only [chunkNamed, healthy, fine, isSome_none, Bool.false_or] at named
      exact body (noteHeader chunk s) count ⟨{ numbered with }, named⟩

theorem closeTool_numbered (key : Int) : Sends appendBlock Numbered (closeTool key) Numbered := by
  intro s count numbered
  unfold closeTool
  split
  · exact ⟨count, rfl, numbered⟩
  next tool found =>
    have started := numbered.started key tool found
    split
    · refine ⟨count, rfl, numbered.next, fun other otherTool foundOther => ?_⟩
      rw [getElem_insert rfl] at foundOther
      split at foundOther
      · cases foundOther
        exact started
      · exact numbered.started other otherTool foundOther
    · rw [if_neg (by simp [started])]
      exact ⟨count, rfl, numbered⟩

theorem closeOpenBlocks_numbered : Sends appendBlock Numbered closeOpenBlocks Numbered :=
  closeOpenNonTool_numbered.followedBy fun s count numbered =>
    forEach (fun _ => Numbered) (fun key _ => closeTool_numbered key) s.tools.keys s count numbered

theorem messageDeltaEvents_numbered (truncated : Bool) :
    Sends appendBlock Numbered (messageDeltaEvents truncated) Numbered := by
  intro s count numbered
  unfold messageDeltaEvents
  split
  · exact ⟨count, rfl, numbered⟩
  · exact ⟨count, rfl, { numbered with }⟩

theorem finalizeInner_numbered (truncated : Bool) :
    Sends appendBlock Numbered (finalizeInner truncated) (fun _ _ => True) := by
  intro s count numbered
  unfold finalizeInner
  split
  · exact ⟨count, rfl, trivial⟩
  · dsimp only
    split
    · exact ⟨count, rfl, trivial⟩
    · split
      · exact ⟨count, rfl, trivial⟩
      · obtain ⟨flushed, ranFlush, after⟩ := (ensureMessageStart_numbered.followedBy flushContent_numbered)
          { s with finalized := true } count { numbered with }
        obtain ⟨closed, ranClose, afterClose⟩ := closeOpenBlocks_numbered _ flushed after
        split
        · exact ⟨count, rfl, trivial⟩
        · obtain ⟨last, ranDelta, -⟩ := messageDeltaEvents_numbered truncated _ closed afterClose
          refine ⟨last, ?_, trivial⟩
          simp only [run_append, ranFlush, bind_some, ranClose, ranDelta]
          rfl

end ChatToAnthropicState

/-- The blocks arrive in the order of their indices if every call is opened by a frame with its id and name. -/
theorem blocks_numbered_in_order (id model : Str) (chunks : List ChatStreamChunk) (truncated : Bool)
    (named : along processChunk chunkNamed (.new id model) chunks) :
    ∃ count, (anthropicStream id model chunks truncated).filterMap (·.started) = List.range count := by
  have fed := forEach_along processChunk_numbered chunks
  obtain ⟨count, ran, -⟩ := (fed.followedBy (finalizeInner_numbered truncated)) (.new id model) 0
    ⟨⟨rfl, by simp [new]⟩, named⟩
  exact ⟨count, started_of_run ran⟩

def alternatingCalls : List ChatStreamChunk :=
  [deltaChunk (some "hi") [], deltaChunk none [toolFrame 0 (some "a") (some "f") ""],
    deltaChunk none [toolFrame 1 (some "b") (some "g") "", toolFrame 0 none none "1"]]

theorem alternating_calls_in_order :
    (anthropicStream [] [] alternatingCalls false).filterMap (·.started) = [0, 1, 2] ∧
      ∃ count, (anthropicStream [] [] alternatingCalls false).filterMap (·.started) = List.range count :=
  ⟨by decide +kernel, blocks_numbered_in_order [] [] alternatingCalls false (by decide +kernel)⟩

/-- A call whose name comes late has its index taken before the text that starts first. -/
theorem text_overtakes_unnamed_call :
    (anthropicStream [] [] [deltaChunk none [toolFrame 0 (some "a") none ""], deltaChunk (some "hi") [],
      deltaChunk none [toolFrame 0 none (some "f") "1"]] false).filterMap (·.started) = [1, 0] := by
  decide +kernel

end LlmGateway
