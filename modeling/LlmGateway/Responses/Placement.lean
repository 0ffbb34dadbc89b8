import LlmGateway.Responses.Runs

namespace LlmGateway

open Emitter Option

def Shown (order : List OutputRef) (index : Int) (ref : OutputRef) : Prop :=
  ∃ place : Nat, index = place ∧ order[place]? = some ref

section Shown

variable {order : List OutputRef} {index other : Int} {ref ref' : OutputRef}

theorem shown_snoc_iff : Shown (order ++ [ref']) index ref ↔
    Shown order index ref ∨ index = order.length ∧ ref = ref' := by
  constructor
  · rintro ⟨place, rfl, found⟩
    by_cases early : place < order.length
    · rw [List.getElem?_append_left early] at found
      exact .inl ⟨place, rfl, found⟩
    · have bound := (List.getElem?_eq_some_iff.mp found).1
      rw [List.length_append, List.length_singleton] at bound
      have last : place = order.length := by omega
      subst last
      rw [List.getElem?_concat_length] at found
      exact .inr ⟨rfl, (Option.some.inj found).symm⟩
  · rintro (⟨place, rfl, found⟩ | ⟨rfl, rfl⟩)
    · refine ⟨place, rfl, ?_⟩
      rw [List.getElem?_append_left (List.getElem?_eq_some_iff.mp found).1]
      exact found
    · exact ⟨order.length, rfl, List.getElem?_concat_length⟩

theorem Shown.nonneg (shown : Shown order index ref) : 0 ≤ index := by
  obtain ⟨place, rfl, -⟩ := shown
  omega

theorem Shown.lt (shown : Shown order index ref) : index < order.length := by
  obtain ⟨place, rfl, found⟩ := shown
  have bound := (List.getElem?_eq_some_iff.mp found).1
  omega

theorem Shown.ref_eq (shown : Shown order index ref) (also : Shown order index ref') : ref = ref' := by
  obtain ⟨place, rfl, found⟩ := shown
  obtain ⟨place', same, found'⟩ := also
  cases Int.natCast_inj.mp same
  exact Option.some.inj (found.symm.trans found')

end Shown

namespace ChatTool

variable {tool : ChatTool} {status : ResponseStatus}

theorem named_eq (tool : ChatTool) (ctx : ToolContext) (call : ToolCallDelta) :
    ∃ bridged custom toolSearch origName ns, tool.named ctx call = { tool with
      id := call.trimmedId.getD tool.id
      name := call.trimmedName.getD tool.name
      bridged := bridged
      custom := custom
      toolSearch := toolSearch
      origName := origName
      ns := ns } := by
  unfold named
  cases call.trimmedName with
  | none => exact ⟨_, _, _, _, _, rfl⟩
  | some name =>
    dsimp only [classified, getD_some]
    split <;> exact ⟨_, _, _, _, _, rfl⟩

def heard (ctx : ToolContext) (reasoning : Option Str) (call : ToolCallDelta) (tool : ChatTool) : ChatTool :=
  ((tool.named ctx call).withReasoning reasoning).startWhenReady

theorem heard_eq (tool : ChatTool) (ctx : ToolContext) (reasoning : Option Str) (call : ToolCallDelta) :
    ∃ reasoningContent, tool.heard ctx reasoning call =
    { tool.named ctx call with
      reasoningContent := reasoningContent
      started := tool.started || (tool.named ctx call).ready } := by
  obtain ⟨bridged, custom, toolSearch, origName, ns, same⟩ := tool.named_eq ctx call
  unfold heard withReasoning
  rw [same]
  split <;> exact ⟨_, rfl⟩

theorem trimmedId_ne_nil {call : ToolCallDelta} {id : Str} (found : call.trimmedId = some id) :
    id.isEmpty = false := by
  obtain ⟨text, -, trimmed⟩ := bind_eq_some_iff.mp found
  exact Text.nonBlank_ne_nil trimmed

theorem trimmedName_ne_nil {call : ToolCallDelta} {name : Str} (found : call.trimmedName = some name) :
    name.isEmpty = false := by
  obtain ⟨text, -, trimmed⟩ := bind_eq_some_iff.mp found
  exact Text.nonBlank_ne_nil trimmed

theorem ready_named (ready : tool.ready) (ctx : ToolContext) (call : ToolCallDelta) :
    (tool.named ctx call).ready := by
  obtain ⟨bridged, custom, toolSearch, origName, ns, same⟩ := tool.named_eq ctx call
  rw [same]
  simp only [ChatTool.ready, Bool.and_eq_true, Bool.not_eq_true'] at ready ⊢
  constructor
  · cases found : call.trimmedId with
    | none => exact ready.1
    | some id => exact trimmedId_ne_nil found
  · cases found : call.trimmedName with
    | none => exact ready.2
    | some name => exact trimmedName_ne_nil found

/-- The stages of a call follow each other: an announced call has started, and nothing of it is held back. -/
structure Sound (tool : ChatTool) : Prop where
  started : tool.released → tool.started
  ready : tool.started → tool.ready
  flushed : tool.released → tool.pendingArgs = []

theorem Sound.nameless (sound : tool.Sound) (nameless : tool.name.isEmpty) :
    tool.started = false ∧ tool.released = false := by
  have unstarted : tool.started = false := by
    by_contra started
    have ready := sound.ready (by simpa using started)
    simp [ChatTool.ready, nameless] at ready
  refine ⟨unstarted, ?_⟩
  by_contra shown
  have started := sound.started (by simpa using shown)
  simp [unstarted] at started

theorem Sound.fresh : Sound fresh := by constructor <;> simp [ChatTool.fresh]

theorem receive_eq (tool : ChatTool) (ctx : ToolContext) (reasoning : Option Str) (call : ToolCallDelta) :
    ∃ arguments pendingArgs, (tool.receive ctx reasoning call).2 =
      { tool.heard ctx reasoning call with arguments := arguments, pendingArgs := pendingArgs } := by
  show ∃ arguments pendingArgs, (whenSome appendArgs call.argumentsDelta (tool.heard ctx reasoning call)).2 = _
  cases call.argumentsDelta with
  | none => exact ⟨_, _, rfl⟩
  | some args =>
    unfold whenSome appendArgs
    dsimp only
    split <;> exact ⟨_, _, rfl⟩

theorem receive_layout (tool : ChatTool) (ctx : ToolContext) (reasoning : Option Str) (call : ToolCallDelta) :
    (tool.receive ctx reasoning call).2.released = tool.released ∧
      (tool.receive ctx reasoning call).2.outputIndex = tool.outputIndex ∧
      (tool.receive ctx reasoning call).2.done = tool.done ∧
      (tool.receive ctx reasoning call).2.started = (tool.started || (tool.named ctx call).ready) ∧
      (tool.receive ctx reasoning call).2.ready = (tool.named ctx call).ready := by
  obtain ⟨arguments, pendingArgs, same⟩ := tool.receive_eq ctx reasoning call
  obtain ⟨reasoningContent, heard⟩ := tool.heard_eq ctx reasoning call
  obtain ⟨bridged, custom, toolSearch, origName, ns, named⟩ := tool.named_eq ctx call
  rw [same, heard, named]
  exact ⟨rfl, rfl, rfl, rfl, rfl⟩

theorem Sound.receive_released (sound : tool.Sound) (released : tool.released) (ctx : ToolContext)
    (reasoning : Option Str) (call : ToolCallDelta) : tool.receive ctx reasoning call =
      (call.argumentsDelta.toList.flatMap (tool.heard ctx reasoning call).argsEvents,
        { tool.heard ctx reasoning call with arguments := tool.arguments ++ call.argumentsDelta.getD [] }) := by
  obtain ⟨reasoningContent, heard⟩ := tool.heard_eq ctx reasoning call
  obtain ⟨bridged, custom, toolSearch, origName, ns, named⟩ := tool.named_eq ctx call
  have started := sound.started released
  show whenSome appendArgs call.argumentsDelta (tool.heard ctx reasoning call) = _
  rw [heard, named]
  cases call.argumentsDelta with
  | none => simp [whenSome, quiet]
  | some args => simp [whenSome, appendArgs, started, released]

theorem receive_unreleased (unreleased : tool.released = false) (ctx : ToolContext)
    (reasoning : Option Str) (call : ToolCallDelta) :
    tool.receive ctx reasoning call = ([], { tool.heard ctx reasoning call with
      pendingArgs := tool.pendingArgs ++ call.argumentsDelta.getD [] }) := by
  obtain ⟨reasoningContent, heard⟩ := tool.heard_eq ctx reasoning call
  obtain ⟨bridged, custom, toolSearch, origName, ns, named⟩ := tool.named_eq ctx call
  show whenSome appendArgs call.argumentsDelta (tool.heard ctx reasoning call) = _
  rw [heard, named]
  cases call.argumentsDelta with
  | none => simp [whenSome, quiet]
  | some args => simp [whenSome, appendArgs, unreleased]

theorem Sound.receive (sound : tool.Sound) (ctx : ToolContext) (reasoning : Option Str) (call : ToolCallDelta) :
    (tool.receive ctx reasoning call).2.Sound := by
  obtain ⟨released, -, -, started, ready⟩ := tool.receive_layout ctx reasoning call
  refine ⟨?_, ?_, ?_⟩
  · rw [released, started]
    exact fun shown => by rw [sound.started shown, Bool.true_or]
  · rw [started, ready, Bool.or_eq_true]
    rintro (before | now)
    · exact ready_named (sound.ready before) ctx call
    · exact now
  · rw [released]
    intro shown
    obtain ⟨reasoningContent, heard⟩ := tool.heard_eq ctx reasoning call
    obtain ⟨bridged, custom, toolSearch, origName, ns, named⟩ := tool.named_eq ctx call
    rw [sound.receive_released shown, heard, named]
    exact sound.flushed shown

def place (tool : ChatTool) : Option Int := if tool.released then some tool.outputIndex else none

def shownId (tool : ChatTool) : Str := if tool.toolSearch && !tool.bridged && !tool.custom then [] else tool.itemId

theorem itemId_eq (plain : tool.plain) : tool.itemId = tool.shownId := by
  simp only [ChatTool.plain, Bool.and_eq_true, Bool.not_eq_true'] at plain
  simp [shownId, plain.2]

theorem outputItem_id [FloatText] : (tool.outputItem status).id = tool.shownId := by
  unfold outputItem shownId itemId
  cases tool.bridged <;> cases tool.custom <;> cases tool.toolSearch <;> rfl

end ChatTool

namespace ChatToResponsesStreamState

def placeOf (s : ChatToResponsesStreamState) : OutputRef → Option Int
  | .message => if s.textStarted then some s.textOutputIndex else none
  | .reasoning => if s.reasoningStarted then some s.reasoningOutputIndex else none
  | .tool key => s.tools[key]?.bind ChatTool.place

/-- The outputs stand in the order at the indices they were announced with. -/
structure Placed (s : ChatToResponsesStreamState) : Prop where
  next : s.nextOutputIndex = s.outputOrder.length
  shown : ∀ ref index, s.placeOf ref = some index ↔ Shown s.outputOrder index ref
  reasoningDone : s.reasoningDone → s.reasoningStarted
  sound : ∀ (key : Int) (tool : ChatTool), s.tools[key]? = some tool → tool.Sound

section ToolAt

variable {s s' : ChatToResponsesStreamState} {key : Int} {tool : ChatTool}

theorem toolAt_eq (found : s.tools[key]? = some tool) : s.toolAt key = tool := by rw [toolAt, found, getD_some]

theorem toolAt_new (id model : Str) (created : I64) (toolCtx : ToolContext) :
    (ChatToResponsesStreamState.new id model created toolCtx).toolAt key = .fresh := by
  simp [toolAt, ChatToResponsesStreamState.new]

theorem toolAt_insert (tools : s'.tools = s.tools.insert key tool) (other : Int) :
    s'.toolAt other = if other = key then tool else s.toolAt other := by
  rw [toolAt, toolAt, tools, IntMap.get_insert]
  split <;> rfl

theorem Placed.toolAt_sound (placed : s.Placed) (key : Int) : (s.toolAt key).Sound := by
  unfold toolAt
  cases found : s.tools[key]? with
  | none => exact ChatTool.Sound.fresh
  | some tool => exact placed.sound key tool found

end ToolAt

theorem receiveFrame_tools [TableOrder] (reasoning : Option Str) (call : ToolCallDelta)
    (s : ChatToResponsesStreamState) : (receiveFrame reasoning call s).2.tools = s.tools.insert (s.chatIndex call)
      ((s.toolAt (s.chatIndex call)).receive s.toolCtx reasoning call).2 := rfl

namespace Placed

variable {s s' : ChatToResponsesStreamState} {key : Int} {tool after : ChatTool} {ref : OutputRef} {index : Int}

theorem new (id model : Str) (created : I64) (toolCtx : ToolContext) : Placed (.new id model created toolCtx) := by
  constructor
  case shown =>
    rintro (_ | _ | key) index <;> simp [ChatToResponsesStreamState.new, placeOf, Shown]
  all_goals simp [ChatToResponsesStreamState.new]

theorem shown_placed (placed : s.Placed) (absent : s.placeOf ref = none)
    (place : ∀ other, s'.placeOf other = if other = ref then some (s.nextOutputIndex : Int) else s.placeOf other)
    (other : OutputRef) (index : Int) : s'.placeOf other = some index ↔
      Shown (s.outputOrder ++ [ref]) index other := by
  rw [shown_snoc_iff, place, ← placed.shown]
  split
  next same =>
    subst same
    simp [absent, placed.next, eq_comm]
  next different =>
    simp [different]

theorem keep (placed : s.Placed) (next : s'.nextOutputIndex = s.nextOutputIndex)
    (order : s'.outputOrder = s.outputOrder)
    (place : ∀ ref, s'.placeOf ref = s.placeOf ref) (reasoningDone : s'.reasoningDone → s'.reasoningStarted)
    (sound : ∀ (key : Int) (tool : ChatTool), s'.tools[key]? = some tool → tool.Sound) : s'.Placed where
  next := by rw [next, order, placed.next]
  shown ref index := by rw [place, order, placed.shown]
  reasoningDone := reasoningDone
  sound := sound

theorem add (placed : s.Placed) (ref : OutputRef) (absent : s.placeOf ref = none)
    (next : s'.nextOutputIndex = s.nextOutputIndex + 1) (order : s'.outputOrder = s.outputOrder ++ [ref])
    (place : ∀ other, s'.placeOf other = if other = ref then some (s.nextOutputIndex : Int) else s.placeOf other)
    (reasoningDone : s'.reasoningDone → s'.reasoningStarted)
    (sound : ∀ (key : Int) (tool : ChatTool), s'.tools[key]? = some tool → tool.Sound) : s'.Placed where
  next := by rw [next, order, placed.next, List.length_append, List.length_singleton]
  shown := order ▸ placed.shown_placed absent place
  reasoningDone := reasoningDone
  sound := sound

theorem openMessage (placed : s.Placed) : (openMessage s).2.Placed := by
  unfold ChatToResponsesStreamState.openMessage
  split
  · exact placed
  next closed =>
    refine placed.add .message (by simp [placeOf, closed]) rfl rfl ?_ placed.reasoningDone placed.sound
    rintro (_ | _ | key) <;> rfl

theorem openReasoning (placed : s.Placed) : (openReasoning s).2.Placed := by
  unfold ChatToResponsesStreamState.openReasoning
  split
  · exact placed
  next closed =>
    cases again : s.reasoningDone with
    | true =>
      have started := placed.reasoningDone again
      refine placed.keep (by simp) (by simp) ?_ (by simp) (by simpa using placed.sound)
      rintro (_ | _ | key) <;> simp [placeOf, started]
    | false =>
      have unstarted : s.reasoningStarted = false := by simpa [again] using closed
      refine placed.add .reasoning (by simp [placeOf, unstarted]) (by simp [ChatToResponsesStreamState.placed])
        (by simp [ChatToResponsesStreamState.placed]) ?_ (by simp) ?_
      · rintro (_ | _ | key) <;> simp [placeOf, ChatToResponsesStreamState.placed]
      · simpa [ChatToResponsesStreamState.placed] using placed.sound

theorem shareReasoning (placed : s.Placed) (delta : Str) :
    { s with tools := shareReasoning delta s.tools }.Placed := by
  have found (key : Int) : (ChatToResponsesStreamState.shareReasoning delta s.tools)[key]? =
      s.tools[key]?.map fun tool =>
      if tool.started then { tool with reasoningContent := tool.reasoningContent ++ delta } else tool :=
    Std.TreeMap.getElem?_map
  refine placed.keep rfl rfl ?_ placed.reasoningDone fun key tool mem => ?_
  · rintro (_ | _ | key)
    · rfl
    · rfl
    · simp only [placeOf, found]
      cases s.tools[key]? with
      | none => rfl
      | some tool => cases started : tool.started <;> simp [started, ChatTool.place]
  · rw [found] at mem
    obtain ⟨old, oldMember, rfl⟩ := map_eq_some_iff.mp mem
    have kept := placed.sound key old oldMember
    split
    · exact { kept with }
    · exact kept

theorem insert (placed : s.Placed) (tools : s'.tools = s.tools.insert key after)
    (next : s'.nextOutputIndex = s.nextOutputIndex) (order : s'.outputOrder = s.outputOrder)
    (place : ∀ ref, (∀ key, ref ≠ .tool key) → s'.placeOf ref = s.placeOf ref)
    (reasoningDone : s'.reasoningDone → s'.reasoningStarted)
    (same : s.tools[key]?.bind ChatTool.place = after.place)
    (sound : after.Sound) : s'.Placed := by
  have found (other : Int) : s'.tools[other]? = if other = key then some after else s.tools[other]? := by
    rw [tools, IntMap.get_insert]
  refine placed.keep next order ?_ reasoningDone fun other tool mem => ?_
  · rintro (_ | _ | other)
    · exact place _ (by simp)
    · exact place _ (by simp)
    · simp only [placeOf, found]
      split
      next here =>
        rw [here, same, bind_some]
      · rfl
  · rw [found] at mem
    split at mem
    · cases mem
      exact sound
    · exact placed.sound other tool mem

theorem receiveFrame [TableOrder] (placed : s.Placed) (reasoning : Option Str) (call : ToolCallDelta) :
    (receiveFrame reasoning call s).2.Placed := by
  obtain ⟨released, outputIndex, -, -, -⟩ :=
    (s.toolAt (s.chatIndex call)).receive_layout s.toolCtx reasoning call
  refine placed.insert (receiveFrame_tools reasoning call s) rfl rfl (fun ref other => ?_)
    placed.reasoningDone ?_ ?_
  · cases ref with
    | tool key => exact absurd rfl (other key)
    | _ => rfl
  · rw [ChatTool.place, released, outputIndex, toolAt]
    cases s.tools[s.chatIndex call]? with
    | none => rfl
    | some tool => rfl
  · exact (placed.toolAt_sound _).receive s.toolCtx reasoning call

theorem releaseTool [FloatText] (placed : s.Placed) (found : s.tools[key]? = some tool) (started : tool.started)
    (unreleased : tool.released = false) : (releaseTool key tool s).2.Placed := by
  have sound := placed.sound key tool found
  refine placed.add (.tool key) (by simp [placeOf, found, ChatTool.place, unreleased]) rfl rfl ?_
    placed.reasoningDone fun other after mem => ?_
  · rintro (_ | _ | other)
    · rfl
    · rfl
    · simp only [placeOf, ChatToResponsesStreamState.releaseTool, IntMap.get_insert, OutputRef.tool.injEq]
      split <;> rfl
  · rw [ChatToResponsesStreamState.releaseTool, IntMap.get_insert] at mem
    split at mem
    · cases mem
      exact ⟨fun _ => started, fun _ => sound.ready started, fun _ => rfl⟩
    · exact placed.sound other after mem

theorem finishTool [FloatText] (placed : s.Placed) (status : ResponseStatus) (key : Int) :
    (finishTool status key s).2.Placed := by
  have others : ∀ ref : OutputRef, (∀ key, ref ≠ .tool key) → ∀ tools dropped,
      { s with tools := tools, droppedTools := dropped }.placeOf ref = s.placeOf ref := by
    intro ref other tools dropped
    cases ref with
    | tool key => exact absurd rfl (other key)
    | _ => rfl
  rcases finishTool_cases status key s with ⟨-, same⟩ | ⟨tool, found, -, ⟨-, same⟩ | ⟨-, same⟩⟩
  · rw [same]
    exact placed
  · have kept := placed.sound key tool found
    rw [same]
    exact placed.insert rfl rfl rfl (fun ref other => others ref other _ _) placed.reasoningDone
      (by rw [found]; rfl) { kept with }
  · have kept := placed.sound key tool found
    rw [same]
    refine placed.insert rfl rfl rfl (fun ref other => others ref other _ _) placed.reasoningDone
      (by rw [found]; rfl) { kept with ready := fun started => ?_ }
    have ready := kept.ready started
    simp only [ChatTool.ready, ChatTool.withFallbackId, Bool.and_eq_true, Bool.not_eq_true'] at ready ⊢
    simpa [ready.1] using ready

theorem releaseFrom [FloatText] (placed : s.Placed) (force : Bool) (keys : List Int) :
    (releaseFrom force keys s).2.Placed :=
  releaseFrom_invariant Placed (fun _ _ _ held found started unreleased =>
    held.releaseTool found started unreleased) force keys placed

theorem appendTextDelta (placed : s.Placed) (delta : Str) : (appendTextDelta delta s).2.Placed :=
  { placed.openMessage with }

theorem appendReasoningDelta (placed : s.Placed) (delta : Str) : (appendReasoningDelta delta s).2.Placed :=
  { placed.openReasoning.shareReasoning delta with }

theorem closeReasoning (placed : s.Placed) (status : ResponseStatus) : (closeReasoning status s).2.Placed := by
  unfold ChatToResponsesStreamState.closeReasoning
  split
  next running =>
    exact { placed with reasoningDone := fun _ => (Bool.and_eq_true_iff.mp running).1 }
  · exact placed

theorem closeMessage (placed : s.Placed) (status : ResponseStatus) : (closeMessage status s).2.Placed := by
  unfold ChatToResponsesStreamState.closeMessage
  split
  · exact { placed with }
  · exact placed

theorem applyFinishReason (placed : s.Placed) (reason : Str) : (applyFinishReason reason s).Placed := by
  unfold ChatToResponsesStreamState.applyFinishReason
  dsimp only
  split
  · exact { placed with }
  · exact { placed with }

theorem finishTools [FloatText] (placed : s.Placed) (status : ResponseStatus) (keys : List Int) :
    (forEach (ChatToResponsesStreamState.finishTool status) keys s).2.Placed :=
  forEach_invariant Placed (fun key _ held => held.finishTool status key) keys placed

theorem doneDeltaEvents [FloatText] (placed : s.Placed) : (doneDeltaEvents s).2.Placed :=
  ((((placed.releaseFrom false _).releaseFrom true _).closeMessage _).closeReasoning _).finishTools _ _

variable [FloatText] [TableOrder]

theorem appendToolCallDelta (placed : s.Placed) (call : ToolCallDelta) : (appendToolCallDelta call s).2.Placed :=
  ((placed.closeReasoning _).receiveFrame _ call).releaseFrom false _

theorem kept : Kept Placed where
  header _ _ placed := { placed with }
  fail _ _ placed := { placed with }
  created s placed := by
    unfold ensureCreated
    split
    · exact placed
    · exact { placed with }
  think _ _ placed := { placed with }
  reason _ reason placed := placed.applyFinishReason reason
  reasoning _ delta placed := placed.appendReasoningDelta delta
  text _ delta placed := placed.appendTextDelta delta
  call _ call placed := placed.appendToolCallDelta call
  done _ placed := placed.doneDeltaEvents

end Placed

section Frame

variable (s : ChatToResponsesStreamState) (status : ResponseStatus)

theorem openMessage_fresh (unstarted : s.textStarted = false) : openMessage s =
    ([.itemAdded s.nextOutputIndex
      { outputItem "message".toList s.messageId .inProgress [] with role := assistantRole },
      .partAdded .outputText s.nextOutputIndex s.messageId],
      { s.placed .message with textStarted := true, textOutputIndex := s.nextOutputIndex }) :=
  if_neg (by simp [unstarted])

theorem openReasoning_closed (closed : (s.reasoningStarted && !s.reasoningDone) = false) :
    ∃ next order index, openReasoning s =
      ([.itemAdded index (outputItem "reasoning".toList s.reasoningId .inProgress []),
        .partAdded .reasoningSummary index s.reasoningId],
        { s with nextOutputIndex := next, outputOrder := order, reasoningStarted := true, reasoningDone := false,
                 reasoningOutputIndex := index }) ∧
      (index = s.nextOutputIndex ∨ s.reasoningDone ∧ index = s.reasoningOutputIndex) := by
  rw [openReasoning, if_neg (by simp [closed])]
  cases s.reasoningDone with
  | true => exact ⟨_, _, _, rfl, .inr ⟨rfl, rfl⟩⟩
  | false => exact ⟨_, _, _, rfl, .inl rfl⟩

theorem appendTextDelta_frame (delta : Str) : ∃ next order index, (appendTextDelta delta s).2 =
    { s with nextOutputIndex := next, outputOrder := order, textStarted := true, textOutputIndex := index,
             text := s.text ++ delta } := by
  rw [appendTextDelta, followedBy_state, openMessage]
  split
  next started =>
    exact ⟨_, _, _, by rw [← started]⟩
  · exact ⟨_, _, _, rfl⟩

theorem appendReasoningDelta_frame (delta : Str) : ∃ next order index, (appendReasoningDelta delta s).2 =
    { s with nextOutputIndex := next, outputOrder := order, reasoningStarted := true, reasoningDone := false,
             reasoningOutputIndex := index, reasoning := s.reasoning ++ delta,
             tools := shareReasoning delta s.tools } := by
  rw [appendReasoningDelta, followedBy_state, openReasoning]
  split
  next running =>
    simp only [Bool.and_eq_true, Bool.not_eq_true'] at running
    exact ⟨_, _, _, by rw [← running.1, ← running.2]⟩
  · cases s.reasoningDone <;> exact ⟨_, _, _, rfl⟩

theorem closeReasoning_frame :
    (closeReasoning status s).2 = { s with reasoningDone := s.reasoningDone || s.reasoningStarted } := by
  obtain ⟨⟩ := s
  rename_i started done _ _ _ _ _ _ _ _ _
  cases started <;> cases done <;> rfl

theorem closeMessage_frame :
    (closeMessage status s).2 = { s with textDone := s.textDone || s.textStarted } := by
  obtain ⟨⟩ := s
  rename_i started done _ _ _ _ _ _ _ _ _ _ _ _
  cases started <;> cases done <;> rfl

variable [FloatText]

theorem releaseFrom_frame (force : Bool) (keys : List Int) : ∃ next order tools, (releaseFrom force keys s).2 =
    { s with nextOutputIndex := next, outputOrder := order, tools := tools } := by
  refine releaseFrom_invariant (fun s' => ∃ next order tools,
    s' = { s with nextOutputIndex := next, outputOrder := order, tools := tools }) ?_ force keys ⟨_, _, _, rfl⟩
  rintro - key tool ⟨next, order, tools, rfl⟩ - - -
  exact ⟨_, _, _, rfl⟩

theorem finishTools_frame (keys : List Int) : ∃ tools dropped,
    (forEach (finishTool status) keys s).2 = { s with tools := tools, droppedTools := dropped } := by
  refine forEach_invariant (fun s' : ChatToResponsesStreamState => ∃ tools dropped,
    s' = { s with tools := tools, droppedTools := dropped }) ?_ keys ⟨_, _, rfl⟩
  rintro key t ⟨tools, dropped, rfl⟩
  rcases finishTool_cases status key { s with tools := tools, droppedTools := dropped } with
    ⟨-, same⟩ | ⟨tool, -, -, ⟨-, same⟩ | ⟨-, same⟩⟩ <;> exact ⟨_, _, by rw [same]⟩

theorem doneDeltaEvents_frame : ∃ next order tools dropped, (doneDeltaEvents s).2 =
    { s with nextOutputIndex := next, outputOrder := order, tools := tools, droppedTools := dropped,
             textDone := s.textDone || s.textStarted, reasoningDone := s.reasoningDone || s.reasoningStarted } := by
  rw [doneDeltaEvents, followedBy_state, followedBy_state, followedBy_state, followedBy_state, releaseReadyTools,
    releaseReadyTools]
  obtain ⟨next, order, tools, ready⟩ := releaseFrom_frame s false s.tools.keys
  rw [ready]
  obtain ⟨next', order', tools', forced⟩ := releaseFrom_frame
    { s with nextOutputIndex := next, outputOrder := order, tools := tools } true tools.keys
  rw [forced, closeMessage_frame, closeReasoning_frame]
  obtain ⟨tools'', dropped, finished⟩ := finishTools_frame _ _ _
  exact ⟨_, _, _, _, finished⟩

theorem appendToolCallDelta_frame [TableOrder] (call : ToolCallDelta) : ∃ next order tools key,
    (appendToolCallDelta call s).2 =
    { s with nextOutputIndex := next, outputOrder := order, tools := tools, lastToolKey := key,
             reasoningDone := s.reasoningDone || s.reasoningStarted } := by
  rw [appendToolCallDelta, followedBy_state, followedBy_state, closeReasoning_frame, releaseReadyTools,
    receiveFrame]
  obtain ⟨next, order, tools, released⟩ := releaseFrom_frame _ false _
  exact ⟨next, order, tools, _, released⟩

end Frame

end ChatToResponsesStreamState

end LlmGateway
