import LlmGateway.Anthropic.Protocol

namespace LlmGateway

open Machine Emitter List Option MessageClient Sends ChatToAnthropicState

namespace MessageClient

variable {client : MessageClient} {index : Nat} {kind : BlockKind} {block : ContentBlock} {delta : BlockDelta}

def opening (client : MessageClient) (index : Nat) (kind : BlockKind) : MessageClient :=
  { client with opened := (index, kind) :: client.opened }

def stopping (client : MessageClient) (index : Nat) : MessageClient :=
  { client with opened := client.opened.filter (·.1 ≠ index), stopped := index :: client.stopped }

theorem accept_start (phase : client.phase = .streaming) (unknown : ¬client.knows index)
    (room : client.hasRoomFor block.kind) :
    client.accept (.blockStart index block) = some (client.opening index block.kind) := by
  simp [accept, phase, unknown, room, opening]

theorem accept_delta (phase : client.phase = .streaming) (shown : (index, delta.kind) ∈ client.opened) :
    client.accept (.blockDelta index delta) = some client := by
  simp [accept, phase, shown]

theorem accept_stop (phase : client.phase = .streaming) (shown : (index, kind) ∈ client.opened) :
    client.accept (.blockStop index) = some (client.stopping index) := by
  have inside : client.opened.any (·.1 = index) := any_eq_true.mpr ⟨_, shown, by simp⟩
  simp [accept, phase, inside, stopping]

theorem mem_opening {other : Nat} {otherKind : BlockKind} :
    (other, otherKind) ∈ (client.opening index kind).opened ↔
    (other = index ∧ otherKind = kind) ∨ (other, otherKind) ∈ client.opened := by
  simp [opening]

theorem mem_stopping {other : Nat} {otherKind : BlockKind} : (other, otherKind) ∈ (client.stopping index).opened ↔
    (other, otherKind) ∈ client.opened ∧ other ≠ index := by
  simp [stopping]

theorem mem_stopped_stopping {other : Nat} : other ∈ (client.stopping index).stopped ↔
    other = index ∨ other ∈ client.stopped := mem_cons

end MessageClient

theorem ToolBlock.run_start {client : MessageClient} (block : ToolBlock) (streaming : client.phase = .streaming)
    (unknown : ¬client.knows block.anthropicIndex) :
    run accept client (block.startEvent :: block.flushed) =
      some (client.opening block.anthropicIndex .toolUse) := by
  have started : client.accept block.startEvent = some (client.opening block.anthropicIndex .toolUse) :=
    accept_start streaming unknown rfl
  have sent : run accept (client.opening block.anthropicIndex .toolUse) block.flushed =
      some (client.opening block.anthropicIndex .toolUse) := by
    unfold flushed
    split
    · rfl
    · exact run_singleton.trans (accept_delta streaming (mem_opening.mpr (.inl ⟨rfl, rfl⟩)))
  simp [run, started, sent]

theorem ToolBlock.run_whole {client : MessageClient} (block : ToolBlock) (streaming : client.phase = .streaming)
    (unknown : ¬client.knows block.anthropicIndex) :
    run accept client (block.startEvent :: (block.flushed ++ [.blockStop block.anthropicIndex])) =
      some ((client.opening block.anthropicIndex .toolUse).stopping block.anthropicIndex) := by
  have shown : (block.anthropicIndex, .toolUse) ∈ (client.opening block.anthropicIndex .toolUse).opened :=
    mem_opening.mpr (.inl ⟨rfl, rfl⟩)
  rw [← cons_append, run_append, block.run_start streaming unknown, bind_some, run_singleton]
  exact accept_stop streaming shown

section Tool

variable {first : MessageClient} {index : Nat} {was : Bool} {client : MessageClient} {block : ToolBlock}

/-- A client that has the block open as soon as the call has started, and not before. -/
structure ToolBlock.InStep (first : MessageClient) (index : Nat) (was : Bool) (block : ToolBlock)
    (client : MessageClient) : Prop where
  index_eq : block.anthropicIndex = index
  running : block.stopped = false
  kept : was → block.started
  client_eq : client = if block.started && !was then first.opening index .toolUse else first

theorem ToolBlock.InStep.shown (step : block.InStep first index was client)
    (shows : was → (index, .toolUse) ∈ first.opened) (started : block.started) :
    (index, .toolUse) ∈ client.opened := by
  rw [step.client_eq, started]
  cases was with
  | true => exact shows rfl
  | false => exact mem_opening.mpr (.inl ⟨rfl, rfl⟩)

theorem ToolBlock.InStep.phase (step : block.InStep first index was client) :
    client.phase = first.phase := by
  rw [step.client_eq]
  split <;> rfl

theorem ToolBlock.InStep.stopped (step : block.InStep first index was client) :
    client.stopped = first.stopped := by
  rw [step.client_eq]
  split <;> rfl

theorem ToolBlock.InStep.opened (step : block.InStep first index was client)
    (shows : was → (index, .toolUse) ∈ first.opened) {other : Nat} {kind : BlockKind} :
    (other, kind) ∈ client.opened ↔
      (other, kind) ∈ first.opened ∨ kind = .toolUse ∧ index = other ∧ block.started := by
  rw [step.client_eq]
  cases started : block.started with
  | false => simp
  | true =>
    cases was with
    | true =>
      refine ⟨.inl, ?_⟩
      rintro (earlier | ⟨rfl, rfl, -⟩)
      · exact earlier
      · exact shows rfl
    | false =>
      refine mem_opening.trans ?_
      constructor
      · rintro (⟨rfl, rfl⟩ | earlier)
        · exact .inr ⟨rfl, rfl, rfl⟩
        · exact .inl earlier
      · rintro (earlier | ⟨rfl, rfl, -⟩)
        · exact .inr earlier
        · exact .inl ⟨rfl, rfl⟩

variable (streaming : first.phase = .streaming) (shows : was → (index, .toolUse) ∈ first.opened)
  (unknown : was = false → ¬first.knows index)

include streaming shows in
theorem ToolBlock.appendArgs_sends (args : Str) :
    Sends accept (fun block => block.InStep first index was) (appendArgs args)
      (fun block => block.InStep first index was) := by
  intro block client step
  unfold appendArgs
  split
  · exact ⟨client, rfl, step⟩
  · dsimp only
    split
    · exact ⟨client, rfl, { step with }⟩
    · split
      next started =>
        refine ⟨client, run_singleton.trans (accept_delta (step.phase.trans streaming) ?_), { step with }⟩
        rw [step.index_eq]
        exact step.shown shows started
      · exact ⟨client, rfl, { step with }⟩

include streaming unknown in
theorem ToolBlock.startWhenReady_sends :
    Sends accept (fun block => block.InStep first index was) startWhenReady
      (fun block => block.InStep first index was) := by
  intro block client step
  unfold startWhenReady
  split
  next ready =>
    have idle : block.started = false := by
      simp only [Bool.and_eq_true, Bool.not_eq_true'] at ready
      exact ready.1.1
    have untold : was = false := by
      cases was with
      | true => rw [step.kept rfl] at idle; cases idle
      | false => rfl
    have same : client = first := by
      rw [step.client_eq, idle]
      rfl
    subst same
    have index_eq := step.index_eq
    subst index_eq
    refine ⟨client.opening block.anthropicIndex .toolUse, block.run_start streaming (unknown untold),
      { step with kept := fun _ => rfl, client_eq := ?_ }⟩
    simp [begun, untold]
  · exact ⟨client, rfl, step⟩

include streaming shows unknown in
theorem ToolBlock.receive_sends (call : ToolCallDelta) :
    Sends accept (fun block => block.InStep first index was) (receive call)
      (fun block => block.InStep first index was) :=
  (quiet fun _ _ step => { step with }).followedBy
    ((startWhenReady_sends streaming unknown).followedBy
      (whenSome (appendArgs_sends streaming shows) call.argumentsDelta))

end Tool

namespace ChatToAnthropicState

variable (kind : NonToolKind)

def Shows (s : ChatToAnthropicState) (index : Nat) (kind : BlockKind) : Prop :=
  (∃ block, s.openNonTool = some block ∧ block.index = index ∧ block.kind.kind = kind) ∨
    kind = .toolUse ∧ ∃ (key : Int) (tool : ToolBlock),
      s.tools[key]? = some tool ∧ tool.anthropicIndex = index ∧ tool.started ∧ tool.stopped = false

/-- The converter and the client agree on the blocks. -/
structure Tracks (s : ChatToAnthropicState) (client : MessageClient) : Prop where
  opened : ∀ index kind, (index, kind) ∈ client.opened ↔ s.Shows index kind
  stoppedBelow : ∀ index ∈ client.stopped, index < s.nextBlockIndex
  toolsBelow : ∀ (key : Int) tool, s.tools[key]? = some tool → tool.anthropicIndex < s.nextBlockIndex
  apart : ∀ (key other : Int) tool otherTool, s.tools[key]? = some tool → s.tools[other]? = some otherTool →
    tool.anthropicIndex = otherTool.anthropicIndex → key = other
  untold : ∀ (key : Int) tool, s.tools[key]? = some tool → tool.started = false →
    tool.anthropicIndex ∉ client.stopped
  nonToolBelow : ∀ block, s.openNonTool = some block → block.index < s.nextBlockIndex
  nonToolApart : ∀ block, s.openNonTool = some block → ∀ (key : Int) tool, s.tools[key]? = some tool →
    tool.anthropicIndex ≠ block.index

/-- The message has begun, nothing has failed and no call has been closed. -/
structure Feeding (finalized : Bool) (s : ChatToAnthropicState) (client : MessageClient) : Prop where
  phase : client.phase = .streaming
  healthy : s.failed = none
  begun : s.sentMessageStart
  status : s.finalized = finalized
  undelivered : s.hasEmittedMessageDelta = false
  tracks : s.Tracks client
  running : ∀ (key : Int) tool, s.tools[key]? = some tool → tool.stopped = false

variable {s : ChatToAnthropicState} {client : MessageClient} {index : Nat} {finalized : Bool}

theorem Tracks.hasRoom (tracks : s.Tracks client) (free : s.openNonTool = none) (kind : BlockKind) :
    client.hasRoomFor kind := by
  have tools : client.opened.all (·.2 = .toolUse) := by
    refine all_eq_true.mpr fun ⟨index, kind⟩ mem => decide_eq_true ?_
    rcases (tracks.opened index kind).mp mem with ⟨block, shown, -⟩ | ⟨tool, -⟩
    · rw [free] at shown
      cases shown
    · exact tool
  simp [hasRoomFor, tools]

theorem Tracks.knows_below (tracks : s.Tracks client) (known : client.knows index) : index < s.nextBlockIndex := by
  rcases knows_iff.mp known with ⟨kind, mem⟩ | stopped
  · rcases (tracks.opened index kind).mp mem with ⟨block, shown, rfl, -⟩ | ⟨-, key, tool, found, rfl, -⟩
    · exact tracks.nonToolBelow block shown
    · exact tracks.toolsBelow key tool found
  · exact tracks.stoppedBelow index stopped

theorem Tracks.unknown (tracks : s.Tracks client) {key : Int} {tool : ToolBlock} (found : s.tools[key]? = some tool)
    (idle : tool.started = false) : ¬client.knows tool.anthropicIndex := by
  intro known
  rcases knows_iff.mp known with ⟨kind, mem⟩ | stopped
  · rcases (tracks.opened _ kind).mp mem with
      ⟨block, shown, same, -⟩ | ⟨-, other, otherTool, foundOther, same, started, -⟩
    · exact tracks.nonToolApart block shown key tool found same.symm
    · obtain rfl := tracks.apart key other tool otherTool found foundOther same.symm
      rw [found] at foundOther
      cases foundOther
      rw [idle] at started
      cases started
  · exact tracks.untold key tool found idle stopped

theorem closeOpenNonTool_sends :
    Sends accept (Feeding finalized) closeOpenNonTool (fun s client => s.Feeding finalized client ∧
      s.openNonTool = none) := by
  intro s client feeding
  have tracks := feeding.tracks
  unfold closeOpenNonTool
  split
  next free =>
    exact ⟨client, rfl, feeding, free⟩
  next block shown =>
    have inside : (block.index, block.kind.kind) ∈ client.opened :=
      (tracks.opened _ _).mpr (.inl ⟨block, shown, rfl, rfl⟩)
    refine ⟨client.stopping block.index, run_singleton.trans (accept_stop feeding.phase inside),
      { feeding with tracks := ?_ }, rfl⟩
    refine { tracks with opened := fun index kind => ?_, stoppedBelow := fun index mem => ?_,
                         untold := fun key tool found idle mem => ?_,
                         nonToolBelow := fun _ none => by cases none
                         nonToolApart := fun _ none => by cases none }
    · rw [mem_stopping, tracks.opened]
      constructor
      · rintro ⟨⟨other, same, rfl, -⟩ | tool, differs⟩
        · rw [shown] at same
          cases same
          exact absurd rfl differs
        · exact .inr tool
      · rintro (⟨other, none, -⟩ | ⟨tool, key, call, found, rfl, live⟩)
        · cases none
        · exact ⟨.inr ⟨tool, key, call, found, rfl, live⟩, tracks.nonToolApart block shown key call found⟩
    · rcases mem_stopped_stopping.mp mem with rfl | earlier
      · exact tracks.nonToolBelow block shown
      · exact tracks.stoppedBelow index earlier
    · rcases mem_stopped_stopping.mp mem with same | earlier
      · exact tracks.nonToolApart block shown key tool found same
      · exact tracks.untold key tool found idle earlier

theorem openBlock_sends :
    Sends accept (fun s client => s.Feeding finalized client ∧ s.openNonTool = none) (openBlock kind)
      (fun s client => s.Feeding finalized client ∧ s.openNonTool.any (·.kind = kind)) := by
  rintro s client ⟨feeding, free⟩
  have tracks := feeding.tracks
  have fresh : ¬client.knows s.nextBlockIndex := fun known => (tracks.knows_below known).false
  have blockKind : kind.block.kind = kind.kind := by cases kind <;> rfl
  have started := accept_start feeding.phase fresh (tracks.hasRoom free kind.block.kind)
  rw [blockKind] at started
  refine ⟨client.opening s.nextBlockIndex kind.kind, run_singleton.trans started,
    { feeding with tracks := ?_ }, by simp [openBlock]⟩
  have next : s.nextBlockIndex < (openBlock kind s).2.nextBlockIndex := Nat.lt_succ_self _
  refine { tracks with opened := fun index other => ?_, stoppedBelow := fun index mem => ?_,
                       toolsBelow := fun key tool found => (tracks.toolsBelow key tool found).trans next,
                       nonToolBelow := fun block shown => ?_, nonToolApart := fun block shown key tool found => ?_ }
  · rw [mem_opening, tracks.opened]
    constructor
    · rintro (⟨rfl, rfl⟩ | ⟨block, shown, -⟩ | tool)
      · exact .inl ⟨_, rfl, rfl, rfl⟩
      · rw [free] at shown
        cases shown
      · exact .inr tool
    · rintro (⟨block, shown, rfl, rfl⟩ | tool)
      · cases shown
        exact .inl ⟨rfl, rfl⟩
      · exact .inr (.inr tool)
  · exact (tracks.stoppedBelow index mem).trans next
  · cases shown
    exact next
  · cases shown
    exact (tracks.toolsBelow key tool found).ne

theorem sendDelta_sends (delta : Str) :
    Sends accept (fun s client => s.Feeding finalized client ∧ s.openNonTool.any (·.kind = kind))
      (sendDelta kind delta) (Feeding finalized) := by
  rintro s client ⟨feeding, shown⟩
  obtain ⟨block, here, same⟩ := (Option.any_eq_true ..).mp shown
  obtain rfl := of_decide_eq_true same
  refine ⟨client, ?_, feeding⟩
  have deltaKind : (block.kind.delta delta).kind = block.kind.kind := by cases block.kind <;> rfl
  have inside : (block.index, (block.kind.delta delta).kind) ∈ client.opened :=
    (feeding.tracks.opened _ _).mpr (.inl ⟨block, here, rfl, deltaKind.symm⟩)
  simp only [sendDelta, here, toList_some, map_cons, map_nil]
  exact run_singleton.trans (accept_delta feeding.phase inside)

theorem ensureOpen_sends :
    Sends accept (Feeding finalized) (ensureOpen kind)
      (fun s client => s.Feeding finalized client ∧ s.openNonTool.any (·.kind = kind)) := by
  intro s client feeding
  unfold ensureOpen
  split
  next shown =>
    exact ⟨client, rfl, feeding, shown⟩
  · exact (closeOpenNonTool_sends.followedBy (openBlock_sends kind)) s client feeding

theorem appendNonToolDelta_sends (delta : Str) :
    Sends accept (Feeding finalized) (appendNonToolDelta kind delta) (Feeding finalized) :=
  (ensureOpen_sends kind).followedBy (sendDelta_sends kind delta)

section Insert

variable {s' : ChatToAnthropicState} {client' : MessageClient} {key : Int} {tool after : ToolBlock}
  {kind : BlockKind}

def ShowsBeside (s : ChatToAnthropicState) (key : Int) (index : Nat) (kind : BlockKind) : Prop :=
  (∃ block, s.openNonTool = some block ∧ block.index = index ∧ block.kind.kind = kind) ∨
    kind = .toolUse ∧ ∃ (other : Int) (tool : ToolBlock), other ≠ key ∧
      s.tools[other]? = some tool ∧ tool.anthropicIndex = index ∧ tool.started ∧ tool.stopped = false

theorem shows_iff (key : Int) : s.Shows index kind ↔
    s.ShowsBeside key index kind ∨ kind = .toolUse ∧ ∃ tool : ToolBlock,
    s.tools[key]? = some tool ∧ tool.anthropicIndex = index ∧ tool.started ∧ tool.stopped = false := by
  constructor
  · rintro (nonTool | ⟨tools, other, tool, found, live⟩)
    · exact .inl (.inl nonTool)
    · by_cases same : other = key
      · subst same
        exact .inr ⟨tools, tool, found, live⟩
      · exact .inl (.inr ⟨tools, other, tool, same, found, live⟩)
  · rintro ((nonTool | ⟨tools, other, tool, -, found, live⟩) | ⟨tools, tool, found, live⟩)
    · exact .inl nonTool
    · exact .inr ⟨tools, other, tool, found, live⟩
    · exact .inr ⟨tools, key, tool, found, live⟩

theorem getElem_insert (tools : s'.tools = s.tools.insert key after) (other : Int) :
    s'.tools[other]? = if other = key then some after else s.tools[other]? := by
  have same : compare key other = .eq ↔ other = key := Std.LawfulEqCmp.compare_eq_iff_eq.trans eq_comm
  simp [tools, Std.TreeMap.getElem?_insert, same]

theorem shows_insert (tools : s'.tools = s.tools.insert key after) (slot : s'.openNonTool = s.openNonTool) :
    s'.Shows index kind ↔ s.ShowsBeside key index kind ∨
      kind = .toolUse ∧ after.anthropicIndex = index ∧ after.started ∧ after.stopped = false := by
  have beside : s'.ShowsBeside key index kind ↔ s.ShowsBeside key index kind := by
    unfold ShowsBeside
    rw [slot]
    refine or_congr_right (and_congr_right fun _ => exists_congr fun other => exists_congr fun tool => ?_)
    refine and_congr_right fun differs => ?_
    rw [getElem_insert tools, if_neg differs]
  rw [shows_iff key, beside, getElem_insert tools, if_pos rfl]
  simp

theorem Tracks.insert (tracks : s.Tracks client) (tools : s'.tools = s.tools.insert key after)
    (slot : s'.openNonTool = s.openNonTool) (grown : s.nextBlockIndex ≤ s'.nextBlockIndex)
    (below : after.anthropicIndex < s'.nextBlockIndex)
    (stopped : ∀ index ∈ client'.stopped, index ∈ client.stopped ∨ index = after.anthropicIndex ∧ after.started)
    (opened : ∀ index kind, (index, kind) ∈ client'.opened ↔ s.ShowsBeside key index kind ∨
      kind = .toolUse ∧ after.anthropicIndex = index ∧ after.started ∧ after.stopped = false)
    (toolsApart : ∀ (other : Int) tool, other ≠ key → s.tools[other]? = some tool →
      tool.anthropicIndex ≠ after.anthropicIndex)
    (slotApart : ∀ block, s.openNonTool = some block → after.anthropicIndex ≠ block.index)
    (untold : after.started = false → after.anthropicIndex ∉ client.stopped) : s'.Tracks client' := by
  have found {other : Int} {tool : ToolBlock} (held : s'.tools[other]? = some tool) :
      other = key ∧ tool = after ∨ other ≠ key ∧ s.tools[other]? = some tool := by
    rw [getElem_insert tools] at held
    split at held
    next same =>
      exact .inl ⟨same, (Option.some.inj held).symm⟩
    next differs =>
      exact .inr ⟨differs, held⟩
  constructor
  · exact fun index kind => (opened index kind).trans (shows_insert tools slot).symm
  · intro index mem
    rcases stopped index mem with earlier | ⟨rfl, -⟩
    · exact (tracks.stoppedBelow index earlier).trans_le grown
    · exact below
  · intro other tool held
    rcases found held with ⟨-, rfl⟩ | ⟨-, held⟩
    · exact below
    · exact (tracks.toolsBelow other tool held).trans_le grown
  · intro one two tool otherTool heldOne heldTwo same
    rcases found heldOne with ⟨rfl, rfl⟩ | ⟨differsOne, heldOne⟩ <;>
      rcases found heldTwo with ⟨rfl, rfl⟩ | ⟨differsTwo, heldTwo⟩
    · rfl
    · exact absurd same.symm (toolsApart _ _ differsTwo heldTwo)
    · exact absurd same (toolsApart _ _ differsOne heldOne)
    · exact tracks.apart _ _ _ _ heldOne heldTwo same
  · intro other tool held idle mem
    rcases found held with ⟨-, rfl⟩ | ⟨differs, held⟩
    · rcases stopped _ mem with earlier | ⟨-, started⟩
      · exact untold idle earlier
      · rw [idle] at started
        cases started
    · rcases stopped _ mem with earlier | ⟨same, -⟩
      · exact tracks.untold other tool held idle earlier
      · exact toolsApart other tool differs held same
  · intro block shown
    rw [slot] at shown
    exact (tracks.nonToolBelow block shown).trans_le grown
  · intro block shown other tool held
    rw [slot] at shown
    rcases found held with ⟨-, rfl⟩ | ⟨-, held⟩
    · exact slotApart block shown
    · exact tracks.nonToolApart block shown other tool held

end Insert

variable (call : ToolCallDelta)

/-- The block that a frame works on, known to the client if it has started. -/
structure Placed (s : ChatToAnthropicState) (client : MessageClient) (key : Int) (tool : ToolBlock) (next : Nat) :
    Prop where
  grown : s.nextBlockIndex ≤ next
  below : tool.anthropicIndex < next
  shows : tool.started → (tool.anthropicIndex, .toolUse) ∈ client.opened
  unknown : tool.started = false → ¬client.knows tool.anthropicIndex
  running : tool.stopped = false
  held : tool.started → s.tools[key]? = some tool
  empty : ∀ other, s.tools[key]? = some other → other = tool
  toolsApart : ∀ (other : Int) otherTool, other ≠ key → s.tools[other]? = some otherTool →
    otherTool.anthropicIndex ≠ tool.anthropicIndex

theorem Feeding.placed (feeding : s.Feeding finalized client) (key : Int) :
    s.Placed client key (s.toolAt key).1 (s.toolAt key).2 := by
  have tracks := feeding.tracks
  unfold toolAt
  split
  next tool found =>
    exact
      { grown := le_rfl
        below := tracks.toolsBelow key tool found
        shows := fun started => (tracks.opened _ _).mpr
          (.inr ⟨rfl, key, tool, found, rfl, started, feeding.running key tool found⟩)
        unknown := tracks.unknown found
        running := feeding.running key tool found
        held := fun _ => found
        empty := fun other same => Option.some.inj (same.symm.trans found)
        toolsApart := fun other otherTool differs foundOther same =>
          differs (tracks.apart other key otherTool tool foundOther found same) }
  next missing =>
    exact
      { grown := Nat.le_succ _
        below := Nat.lt_succ_self _
        shows := fun started => by cases started
        unknown := fun _ known => (tracks.knows_below known).false
        running := rfl
        held := fun started => by cases started
        empty := fun other same => by rw [missing] at same; cases same
        toolsApart := fun other otherTool _ found => (tracks.toolsBelow other otherTool found).ne }

theorem receiveFrame_tools (s : ChatToAnthropicState) : (receiveFrame call s).2.tools =
    s.tools.insert (s.chatIndex call) ((s.toolAt (s.chatIndex call)).1.receive call).2 := rfl

theorem receiveFrame_sends :
    Sends accept (fun s client => s.Feeding finalized client ∧ s.openNonTool = none) (receiveFrame call)
      (Feeding finalized) := by
  rintro s client ⟨feeding, free⟩
  have tracks := feeding.tracks
  have placed := feeding.placed (s.chatIndex call)
  obtain ⟨client', ran, step⟩ := ToolBlock.receive_sends feeding.phase placed.shows placed.unknown call
    (s.toolAt (s.chatIndex call)).1 client
    ⟨rfl, placed.running, fun started => started, by cases (s.toolAt (s.chatIndex call)).1.started <;> rfl⟩
  refine ⟨client', ran, { feeding with phase := step.phase.trans feeding.phase, tracks := ?_, running := ?_ }⟩
  · refine tracks.insert (receiveFrame_tools call s) rfl placed.grown (step.index_eq.trans_lt placed.below) ?_ ?_
      ?_ ?_ ?_
    · intro index mem
      rw [step.stopped] at mem
      exact .inl mem
    · intro index kind
      rw [step.opened placed.shows, tracks.opened, shows_iff (s.chatIndex call), step.index_eq]
      constructor
      · rintro ((beside | ⟨tools, tool, found, same, started, -⟩) | ⟨tools, same, started⟩)
        · exact .inl beside
        · rw [placed.empty tool found] at same started
          exact .inr ⟨tools, same, step.kept started, step.running⟩
        · exact .inr ⟨tools, same, started, step.running⟩
      · rintro (beside | ⟨tools, same, started, -⟩)
        · exact .inl (.inl beside)
        · exact .inr ⟨tools, same, started⟩
    · intro other tool differs found
      rw [step.index_eq]
      exact placed.toolsApart other tool differs found
    · intro block shown
      rw [free] at shown
      cases shown
    · intro idle mem
      rw [step.index_eq] at mem
      have earlier : (s.toolAt (s.chatIndex call)).1.started = false :=
        Bool.eq_false_iff.mpr fun started => Bool.eq_false_iff.mp idle (step.kept started)
      exact placed.unknown earlier (knows_iff.mpr (.inr mem))
  · intro other tool found
    rw [getElem_insert (receiveFrame_tools call s)] at found
    split at found
    · cases found
      exact step.running
    · exact feeding.running other tool found

theorem appendToolDelta_sends : Sends accept (Feeding finalized) (appendToolDelta call) (Feeding finalized) :=
  closeOpenNonTool_sends.followedBy (receiveFrame_sends call)

theorem appendPieces_sends (pieces : List Str × List Str) :
    Sends accept (Feeding finalized) (appendPieces pieces) (Feeding finalized) :=
  (forEach (fun _ => Feeding finalized) (fun delta _ => appendNonToolDelta_sends .thinking delta)
    pieces.1).followedBy
    (forEach (fun _ => Feeding finalized) (fun delta _ => appendNonToolDelta_sends .text delta) pieces.2)

theorem appendContent_sends (content : Str) :
    Sends accept (Feeding finalized) (appendContent content) (Feeding finalized) :=
  fun _ client feeding => appendPieces_sends _ _ client { feeding with tracks := { feeding.tracks with } }

theorem flushContent_sends : Sends accept (Feeding finalized) flushContent (Feeding finalized) :=
  fun _ client feeding => appendPieces_sends _ _ client { feeding with tracks := { feeding.tracks with } }

theorem processTexts_sends (delta : ChatStreamDelta) :
    Sends accept (Feeding finalized) (processTexts delta) (Feeding finalized) :=
  (whenSome (appendNonToolDelta_sends .thinking) _).followedBy
    ((whenSome appendContent_sends _).followedBy (whenSome (appendNonToolDelta_sends .text) _))

theorem Feeding.noteFinish (feeding : s.Feeding finalized client) (finishReason : Option Str) :
    (noteFinish finishReason s).Feeding finalized client := by
  unfold ChatToAnthropicState.noteFinish
  split
  · exact { feeding with tracks := { feeding.tracks with } }
  · exact feeding

theorem processChoice_sends (choice : ChatStreamChoice) :
    Sends accept (Feeding finalized) (processChoice choice) (Feeding finalized) :=
  (processTexts_sends choice.delta).followedBy
    ((forEach (fun _ => Feeding finalized) (fun call _ => appendToolDelta_sends call) _).followedBy
      (quiet fun _ _ feeding => feeding.noteFinish _))

/-- The converter between two chunks. -/
structure Feeds (finalized : Bool) (s : ChatToAnthropicState) (client : MessageClient) : Prop where
  phase : client.phase = if s.failed.isSome then .failed else if s.sentMessageStart then .streaming else .waiting
  status : s.finalized = finalized
  undelivered : s.hasEmittedMessageDelta = false
  tracks : s.Tracks client
  running : ∀ (key : Int) tool, s.tools[key]? = some tool → tool.stopped = false

theorem Feeding.feeds (feeding : s.Feeding finalized client) : s.Feeds finalized client :=
  { feeding with phase := by rw [feeding.phase, feeding.healthy, feeding.begun]; rfl }

theorem feeds_new (id model : Str) : (new id model).Feeds false .new where
  phase := rfl
  status := rfl
  undelivered := rfl
  tracks :=
    { opened := by simp [MessageClient.new, Shows, new]
      stoppedBelow := by simp [MessageClient.new]
      toolsBelow := by simp [new]
      apart := by simp [new]
      untold := by simp [new]
      nonToolBelow := by simp [new]
      nonToolApart := by simp [new] }
  running := by simp [new]

theorem ensureMessageStart_sends :
    Sends accept (fun s client => s.Feeds finalized client ∧ s.failed = none) ensureMessageStart
      (Feeding finalized) := by
  rintro s client ⟨feeds, healthy⟩
  have phase := feeds.phase
  rw [healthy] at phase
  unfold ensureMessageStart
  split
  next begun =>
    rw [begun] at phase
    exact ⟨client, rfl, { feeds with phase := phase, healthy := healthy, begun := begun }⟩
  next waiting =>
    rw [Bool.eq_false_iff.mpr waiting] at phase
    refine ⟨{ client with phase := .streaming }, ?_, ?_⟩
    · refine run_singleton.trans ?_
      simp [messageStartEvent, accept, phase]
    · exact { feeds with phase := rfl, healthy := healthy, begun := rfl, tracks := { feeds.tracks with } }

theorem processChunk_sends (chunk : ChatStreamChunk) :
    Sends accept (Feeds finalized) (processChunk chunk) (Feeds finalized) := by
  intro s client feeds
  unfold processChunk
  split
  · exact ⟨client, rfl, feeds⟩
  next healthy =>
    have healthy : s.failed = none := not_isSome_iff_eq_none.mp healthy
    split
    next err reported =>
      have phase := feeds.phase
      rw [healthy] at phase
      refine ⟨{ client with phase := .failed }, ?_, { feeds with phase := rfl, tracks := { feeds.tracks with } }⟩
      refine run_singleton.trans ?_
      cases begun : s.sentMessageStart <;> simp [begun] at phase <;> simp [accept, phase]
    · have header : Sends accept (fun s client => s.Feeds finalized client ∧ s.failed = none)
          (quiet (noteHeader chunk)) (fun s client => s.Feeds finalized client ∧ s.failed = none) :=
        quiet fun _ _ ⟨feeds, healthy⟩ => ⟨{ feeds with tracks := { feeds.tracks with } }, healthy⟩
      have choices :=
        forEach (fun _ => Feeding finalized) (fun choice _ => processChoice_sends choice) chunk.choices
      obtain ⟨client', ran, feeding⟩ :=
        (header.followedBy (ensureMessageStart_sends.followedBy choices)) s client ⟨feeds, healthy⟩
      exact ⟨client', ran, feeding.feeds⟩

/-- While the calls are closed: those that are not in `rest` do not run any more. -/
structure Closing (rest : List Int) (s : ChatToAnthropicState) (client : MessageClient) : Prop where
  phase : client.phase = .streaming
  tracks : s.Tracks client
  free : s.openNonTool = none
  undelivered : s.hasEmittedMessageDelta = false
  closed : ∀ (key : Int) tool, s.tools[key]? = some tool → key ∉ rest → tool.started → tool.stopped

section Close

variable {client' : MessageClient} {key : Int} {rest : List Int} {tool after : ToolBlock} {kind : BlockKind}

theorem Tracks.beside_ne (tracks : s.Tracks client) (found : s.tools[key]? = some tool)
    (beside : s.ShowsBeside key index kind) : index ≠ tool.anthropicIndex := by
  rintro rfl
  rcases beside with ⟨block, shown, same, -⟩ | ⟨-, other, otherTool, differs, foundOther, same, -⟩
  · exact tracks.nonToolApart block shown key tool found same.symm
  · exact differs (tracks.apart other key otherTool tool foundOther found same)

theorem Closing.close (closing : Closing (key :: rest) s client) (found : s.tools[key]? = some tool)
    {s' : ChatToAnthropicState} (tools : s'.tools = s.tools.insert key after)
    (slot : s'.openNonTool = s.openNonTool)
    (next : s'.nextBlockIndex = s.nextBlockIndex) (undelivered : s'.hasEmittedMessageDelta = false)
    (sameIndex : after.anthropicIndex = tool.anthropicIndex) (started : after.started)
    (stopped : after.stopped) (phase : client'.phase = .streaming)
    (openedClient : ∀ index kind, (index, kind) ∈ client'.opened ↔
      (index, kind) ∈ client.opened ∧ index ≠ tool.anthropicIndex)
    (stoppedClient : client'.stopped = tool.anthropicIndex :: client.stopped) : Closing rest s' client' := by
  have tracks := closing.tracks
  refine { closing with phase := phase, tracks := ?_, free := slot.trans closing.free,
                        undelivered := undelivered, closed := ?_ }
  · refine tracks.insert tools slot next.ge ?_ ?_ ?_ ?_ ?_ ?_
    · rw [sameIndex, next]
      exact tracks.toolsBelow key tool found
    · intro index mem
      rw [stoppedClient] at mem
      rcases mem_cons.mp mem with rfl | earlier
      · exact .inr ⟨sameIndex.symm, started⟩
      · exact .inl earlier
    · intro index kind
      rw [openedClient, tracks.opened, shows_iff key]
      constructor
      · rintro ⟨beside | ⟨-, other, same, rfl, -⟩, differs⟩
        · exact .inl beside
        · cases found.symm.trans same
          exact absurd rfl differs
      · rintro (beside | ⟨-, -, -, running⟩)
        · exact ⟨.inl beside, tracks.beside_ne found beside⟩
        · rw [stopped] at running
          cases running
    · intro other otherTool differs foundOther same
      exact differs (tracks.apart other key otherTool tool foundOther found (same.trans sameIndex))
    · intro block shown
      rw [sameIndex]
      exact tracks.nonToolApart block shown key tool found
    · intro idle
      rw [started] at idle
      cases idle
  · intro other otherTool foundOther outside startedOther
    rw [getElem_insert tools] at foundOther
    split at foundOther
    · cases foundOther
      exact stopped
    next differs =>
      exact closing.closed other otherTool foundOther (fun mem => (mem_cons.mp mem).elim differs outside)
        startedOther

theorem Closing.skip (closing : Closing (key :: rest) s client) (found : s.tools[key]? = some tool)
    (idle : tool.started → tool.stopped) : Closing rest s client := by
  refine { closing with closed := fun other otherTool foundOther outside started => ?_ }
  by_cases same : other = key
  · subst same
    cases found.symm.trans foundOther
    exact idle started
  · exact closing.closed other otherTool foundOther (fun mem => (mem_cons.mp mem).elim same outside) started

theorem closeTool_sends (key : Int) (rest : List Int) :
    Sends accept (Closing (key :: rest)) (closeTool key) (Closing rest) := by
  intro s client closing
  have tracks := closing.tracks
  unfold closeTool
  split
  next missing =>
    refine ⟨client, rfl, { closing with closed := fun other tool found outside => ?_ }⟩
    refine closing.closed other tool found fun mem => ?_
    rcases mem_cons.mp mem with rfl | later
    · rw [missing] at found
      cases found
    · exact outside later
  next tool found =>
    split
    next live =>
      simp only [Bool.and_eq_true, Bool.not_eq_true'] at live
      have shown : (tool.anthropicIndex, .toolUse) ∈ client.opened :=
        (tracks.opened _ _).mpr (.inr ⟨rfl, key, tool, found, rfl, live⟩)
      exact ⟨client.stopping tool.anthropicIndex, run_singleton.trans (accept_stop closing.phase shown),
        closing.close found rfl rfl rfl closing.undelivered rfl live.1 rfl closing.phase
          (fun _ _ => mem_stopping) rfl⟩
    next notLive =>
      split
      next idle =>
        have idle : tool.started = false := by simpa using idle
        split
        · have fresh := tracks.unknown found idle
          refine ⟨(client.opening tool.anthropicIndex .toolUse).stopping tool.anthropicIndex,
            ((tool.withFallbackId key).withFallbackName).run_whole closing.phase fresh,
            closing.close found rfl rfl rfl closing.undelivered rfl rfl rfl closing.phase
              (fun index kind => ?_) rfl⟩
          rw [mem_stopping, mem_opening]
          exact and_congr_left fun differs => or_iff_right fun same => differs same.1
        · exact ⟨client, rfl, { closing.skip found (by simp [idle]) with tracks := { tracks with } }⟩
      next started =>
        refine ⟨client, rfl, closing.skip found fun _ => ?_⟩
        simp only [Bool.not_eq_true', Bool.not_eq_false] at started
        simpa [started] using notLive

end Close

theorem closeOpenBlocks_sends : Sends accept (Feeding finalized) closeOpenBlocks
    (fun s client => client.phase = .streaming ∧ client.opened = [] ∧ s.hasEmittedMessageDelta = false) := by
  refine closeOpenNonTool_sends.followedBy fun s client ⟨feeding, free⟩ => ?_
  have closing : Closing s.tools.keys s client :=
    { feeding with
      free := free
      closed := fun key tool found outside => by
        have present : key ∈ s.tools := Std.TreeMap.mem_iff_isSome_getElem?.mpr (by simp [found])
        exact absurd (Std.TreeMap.mem_keys.mpr present) outside }
  obtain ⟨client', ran, closed⟩ := forEach Closing closeTool_sends s.tools.keys s client closing
  refine ⟨client', ran, closed.phase, ?_, closed.undelivered⟩
  refine eq_nil_iff_forall_not_mem.mpr fun ⟨index, kind⟩ mem => ?_
  rcases (closed.tracks.opened index kind).mp mem with
    ⟨block, shown, -⟩ | ⟨-, key, tool, found, -, started, running⟩
  · rw [closed.free] at shown
    cases shown
  · rw [closed.closed key tool found not_mem_nil started] at running
    cases running

theorem finalizeInner_sends (truncated : Bool) : Sends accept (Feeds false) (finalizeInner truncated)
    (fun _ client => client.phase = .done ∨ client.phase = .failed) := by
  intro s client feeds
  have phase := feeds.phase
  have failing (message : Str) (healthy : s.failed = none) :
      run accept client [.error message] = some { client with phase := .failed } := by
    rw [healthy] at phase
    refine run_singleton.trans ?_
    cases begun : s.sentMessageStart <;> simp [begun] at phase <;> simp [accept, phase]
  unfold finalizeInner
  rw [if_neg (by simp [feeds.status])]
  dsimp only
  split
  next failed =>
    exact ⟨client, rfl, .inr (by rw [phase, if_pos failed])⟩
  next healthy =>
    have healthy : s.failed = none := not_isSome_iff_eq_none.mp healthy
    split
    · exact ⟨_, failing _ healthy, .inr rfl⟩
    · have started : Feeds true { s with finalized := true } client :=
        { feeds with status := rfl, tracks := { feeds.tracks with } }
      obtain ⟨flushed, ranFlush, feeding⟩ :=
        (ensureMessageStart_sends.followedBy flushContent_sends) _ client ⟨started, healthy⟩
      obtain ⟨closed, ranClose, streaming, none, undelivered⟩ := closeOpenBlocks_sends _ flushed feeding
      split
      · exact ⟨_, failing _ healthy, .inr rfl⟩
      · refine ⟨{ closed with phase := .done }, ?_, .inl rfl⟩
        simp only [run_append, ranFlush, bind_some, ranClose, messageDeltaEvents, undelivered,
          Bool.false_eq_true, if_false, run_singleton]
        simp [accept, streaming, none]

end ChatToAnthropicState

/-- Every stream that the converter sends is well formed, however it is cut off. -/
theorem anthropicStream_wellFormed (id model : Str) (chunks : List ChatStreamChunk) (truncated : Bool) :
    WellFormedStream (anthropicStream id model chunks truncated) := by
  have fed := forEach (fun _ => ChatToAnthropicState.Feeds false)
    (fun chunk _ => processChunk_sends chunk) chunks
  obtain ⟨client, ran, finished⟩ := (fed.followedBy (finalizeInner_sends truncated)) _ _
    (feeds_new id model)
  exact wellFormed_of_run ran finished

end LlmGateway
