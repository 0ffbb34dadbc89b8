import LlmGateway.Responses.Ending
import LlmGateway.Responses.ItemProtocol

namespace LlmGateway

open Emitter Machine Function Option ChatTool ItemClient

namespace ItemClient

variable {client : ItemClient} {index : Int} {id : Str} {item : ResponsesOutputOut}

def Live (client : ItemClient) : Prop := client.created = true ∧ client.ended = false

theorem Live.accept_added (live : client.Live) (nonneg : 0 ≤ index) (free : client.opened index = none)
    (item : ResponsesOutputOut) : client.accept (.itemAdded index item) =
      some { client with opened := Function.update client.opened index (some item.id) } := by
  simp [accept, live.1, live.2, nonneg, free]

theorem Live.accept_expected (live : client.Live) (known : client.opened index = some id) (channel : Channel)
    (text : Str) : client.accept (.partAdded channel index id) = some client ∧
      client.accept (.delta channel index id text) = some client ∧
      client.accept (.done channel index id text) = some client ∧
      client.accept (.partDone channel index id text) = some client := by
  simp [accept, live.2, expect, known]

theorem Live.accept_itemDone (live : client.Live) (known : client.opened index = some item.id) :
    client.accept (.itemDone index item) =
      some { client with opened := Function.update client.opened index none } := by
  simp [accept, live.2, expect, known]

theorem Live.run_open (live : client.Live) (nonneg : 0 ≤ index) (free : client.opened index = none)
    (same : item.id = id) (channel : Channel) :
    run accept client [.itemAdded index item, .partAdded channel index id] =
      some { client with opened := Function.update client.opened index (some id) } := by
  have opened : Live { client with opened := Function.update client.opened index (some id) } := live
  have part := (opened.accept_expected (update_self ..) channel []).1
  simp [run, live.accept_added nonneg free, same, part]

theorem Live.run_close (live : client.Live) (known : client.opened index = some id) (same : item.id = id)
    (channel : Channel) (text text' : Str) :
    run accept client [.done channel index id text, .partDone channel index id text', .itemDone index item] =
      some { client with opened := Function.update client.opened index none } := by
  have done := (live.accept_expected known channel text).2.2.1
  have partDone := (live.accept_expected known channel text').2.2.2
  have itemDone := live.accept_itemDone (same.symm ▸ known)
  simp [run, done, partDone, itemDone]

end ItemClient

namespace ChatTool

def running (tool : ChatTool) : Option (Int × Str) :=
  if tool.released && !tool.done then some (tool.outputIndex, tool.shownId) else none

def Settled (tool : ChatTool) : Prop := tool.done = true → tool.started = true → tool.released = true

theorem Settled.pending {tool : ChatTool} (settled : tool.Settled) (started : tool.started = true)
    (unreleased : tool.released = false) : tool.done = false := by
  by_contra ended
  have shown := settled (by simpa using ended) started
  rw [unreleased] at shown
  cases shown

theorem Settled.receive {tool : ChatTool} {ctx : ToolContext} {call : ToolCallDelta} (settled : tool.Settled)
    (reasoning : Option Str) (allowed : tool.released = false →
      (tool.done && (tool.named ctx call).ready) = false) :
    (tool.receive ctx reasoning call).2.Settled := by
  obtain ⟨released, -, done, started, -⟩ := tool.receive_layout ctx reasoning call
  unfold Settled
  rw [released, done, started]
  intro ended began
  cases shown : tool.released with
  | true => rfl
  | false =>
    have silent := allowed shown
    rw [ended, Bool.true_and] at silent
    rw [silent, Bool.or_false] at began
    exact shown ▸ settled ended began

def allows (ctx : ToolContext) (call : ToolCallDelta) (tool : ChatTool) : Bool :=
  let named := tool.named ctx call
  if tool.released then
    if tool.done then call.argumentsDelta.isNone || !named.plain else named.shownId == tool.shownId
  else !(tool.done && named.ready)

section Allowed

variable {tool : ChatTool} {ctx : ToolContext} {call : ToolCallDelta}

/-- What a frame leaves of the item's place, whatever it says. -/
theorem receive_running (reasoning : Option Str) (allowed : tool.allows ctx call = true) :
    (tool.receive ctx reasoning call).2.running = tool.running := by
  obtain ⟨arguments, pendingArgs, same⟩ := tool.receive_eq ctx reasoning call
  obtain ⟨reasoningContent, heard⟩ := tool.heard_eq ctx reasoning call
  obtain ⟨released, outputIndex, done, -, -⟩ := tool.receive_layout ctx reasoning call
  have shownId : (tool.receive ctx reasoning call).2.shownId = (tool.named ctx call).shownId := by
    rw [same, heard]
    rfl
  unfold running
  rw [released, outputIndex, done, shownId]
  cases shown : tool.released with
  | false => rfl
  | true =>
    cases ended : tool.done with
    | true => rfl
    | false =>
      simp only [allows, shown, ended, Bool.false_eq_true, if_true, if_false, beq_iff_eq] at allowed
      rw [allowed]

theorem heard_argsEvents (tool : ChatTool) (ctx : ToolContext) (reasoning : Option Str) (call : ToolCallDelta)
    (args : Str) : (tool.heard ctx reasoning call).argsEvents args = if (tool.named ctx call).plain then
      [.delta .functionArguments tool.outputIndex (tool.named ctx call).itemId args] else [] := by
  obtain ⟨reasoningContent, heard⟩ := tool.heard_eq ctx reasoning call
  obtain ⟨bridged, custom, toolSearch, origName, ns, named⟩ := tool.named_eq ctx call
  rw [heard, named]
  rfl

theorem receive_events (sound : tool.Sound) (reasoning : Option Str) (allowed : tool.allows ctx call = true) :
    (tool.receive ctx reasoning call).1 = [] ∨ ∃ index id args, tool.running = some (index, id) ∧
      (tool.receive ctx reasoning call).1 = [.delta .functionArguments index id args] := by
  cases shown : tool.released with
  | false =>
    rw [receive_unreleased shown]
    exact .inl rfl
  | true =>
    rw [sound.receive_released shown]
    cases given : call.argumentsDelta with
    | none => exact .inl rfl
    | some args =>
      cases plain : (tool.named ctx call).plain with
      | false => exact .inl (by simp [heard_argsEvents, plain])
      | true =>
        cases ended : tool.done with
        | true => simp [allows, shown, ended, given, plain] at allowed
        | false =>
          simp only [allows, shown, ended, Bool.false_eq_true, if_true, if_false, beq_iff_eq] at allowed
          refine .inr ⟨tool.outputIndex, tool.shownId, args, by simp [running, shown, ended], ?_⟩
          simp [heard_argsEvents, plain, itemId_eq plain, allowed]

end Allowed

theorem Sound.withFallbackId {tool : ChatTool} (sound : tool.Sound) (shown : tool.released = true)
    (responseId : Str) (key : Int) : tool.withFallbackId responseId key = tool := by
  have ready := sound.ready (sound.started shown)
  simp only [ChatTool.ready, Bool.and_eq_true, Bool.not_eq_true'] at ready
  simp [ChatTool.withFallbackId, ready.1]

end ChatTool

namespace ItemClient

variable {client : ItemClient} {tool : ChatTool}

theorem Live.run_argsEvents (live : client.Live) (known : client.opened tool.outputIndex = some tool.shownId)
    (args : Str) : run accept client (tool.argsEvents args) = some client := by
  unfold argsEvents
  split
  next plain =>
    rw [run_singleton, itemId_eq plain]
    exact (live.accept_expected known .functionArguments args).2.1
  · rfl

theorem Live.run_doneEvents [FloatText] (live : client.Live)
    (known : client.opened tool.outputIndex = some tool.shownId) (status : ResponseStatus) :
    run accept client (tool.doneEvents status) =
      some { client with opened := Function.update client.opened tool.outputIndex none } := by
  have itemDone := live.accept_itemDone (show client.opened tool.outputIndex = some (tool.outputItem status).id by
    rw [known, outputItem_id])
  have before : ∀ events, run accept client events = some client →
      run accept client (events ++ [.itemDone tool.outputIndex (tool.outputItem status)]) =
        some { client with opened := Function.update client.opened tool.outputIndex none } := by
    intro events taken
    rw [run_snoc, taken]
    exact itemDone
  unfold doneEvents
  refine before _ ?_
  dsimp only
  rw [outputItem_id]
  split
  · rfl
  next ordinary =>
    split
    · have delta := fun input => (live.accept_expected known .customInput input).2.1
      have done := fun input => (live.accept_expected known .customInput input).2.2.1
      split
      · rw [List.nil_append, run_singleton]
        exact done _
      · simp [run, delta, done]
    next notCustom =>
      have plain : tool.plain = true := by
        simp only [Bool.or_eq_true, not_or, Bool.not_eq_true] at ordinary notCustom
        simp [plain, ordinary, notCustom]
      rw [run_singleton, itemId_eq plain]
      exact (live.accept_expected known .functionArguments _).2.2.1

end ItemClient

namespace ChatToResponsesStreamState

def openOf (s : ChatToResponsesStreamState) : OutputRef → Option (Int × Str)
  | .message => if s.textStarted && !s.textDone then some (s.textOutputIndex, s.messageId) else none
  | .reasoning =>
    if s.reasoningStarted && !s.reasoningDone then some (s.reasoningOutputIndex, s.reasoningId) else none
  | .tool key => (s.toolAt key).running

def lifecycleGuard [TableOrder] : Guard where
  text s := !s.textDone
  frame s call := (s.toolAt (s.chatIndex call)).allows s.toolCtx call
  close := namedBegun

/-- The client has open what the state has open. -/
structure Tracks (s : ChatToResponsesStreamState) (client : ItemClient) : Prop where
  placed : s.Placed
  known : s.id.isEmpty = false
  created : s.sentCreated = true
  live : client.Live
  opened : ∀ index id, client.opened index = some id ↔ ∃ ref, s.openOf ref = some (index, id)
  settled : ∀ key, (s.toolAt key).Settled

section Tracks

variable {s s' : ChatToResponsesStreamState} {client : ItemClient} {ref ref' : OutputRef} {index : Int}
  {id id' : Str}

theorem placeOf_of_openOf (found : s.openOf ref = some (index, id)) : s.placeOf ref = some index := by
  cases ref with
  | message | reasoning =>
    simp only [openOf, ite_none_right_eq_some, Bool.and_eq_true, Option.some.injEq, Prod.mk.injEq] at found
    simp [placeOf, found.1.1, found.2.1]
  | tool key =>
    simp only [openOf, ChatTool.running, ite_none_right_eq_some, Bool.and_eq_true, Option.some.injEq,
      Prod.mk.injEq] at found
    cases here : s.tools[key]? with
    | none => simp [toolAt, here, fresh] at found
    | some tool =>
      rw [toolAt_eq here] at found
      simp [placeOf, here, place, found.1.1, found.2.1]

namespace Tracks

theorem shown (tracks : Tracks s client) (found : s.openOf ref = some (index, id)) :
    Shown s.outputOrder index ref :=
  (tracks.placed.shown ref index).mp (placeOf_of_openOf found)

theorem expected (tracks : Tracks s client) (found : s.openOf ref = some (index, id)) :
    client.opened index = some id :=
  (tracks.opened index id).mpr ⟨ref, found⟩

theorem free (tracks : Tracks s client) (unused : ∀ ref id, s.openOf ref ≠ some (index, id)) :
    client.opened index = none := by
  cases found : client.opened index with
  | none => rfl
  | some id =>
    obtain ⟨ref, here⟩ := (tracks.opened index id).mp found
    exact absurd here (unused ref id)

theorem next_free (tracks : Tracks s client) (ref : OutputRef) (id : Str) :
    s.openOf ref ≠ some ((s.nextOutputIndex : Int), id) := by
  intro found
  have bound := (tracks.shown found).lt
  rw [tracks.placed.next] at bound
  omega

theorem keep (tracks : Tracks s client) (placed : s'.Placed) (known : s'.id = s.id)
    (created : s'.sentCreated = s.sentCreated) (same : ∀ ref, s'.openOf ref = s.openOf ref)
    (settled : ∀ key, (s'.toolAt key).Settled) : Tracks s' client where
  placed := placed
  known := known ▸ tracks.known
  created := created ▸ tracks.created
  live := tracks.live
  opened index id := by
    rw [tracks.opened]
    simp [same]
  settled := settled

theorem add (tracks : Tracks s client) (ref : OutputRef) (index : Int) (id : Str) (absent : s.openOf ref = none)
    (unused : ∀ ref id, s.openOf ref ≠ some (index, id)) (placed : s'.Placed) (known : s'.id = s.id)
    (created : s'.sentCreated = s.sentCreated)
    (now : ∀ other, s'.openOf other = if other = ref then some (index, id) else s.openOf other)
    (settled : ∀ key, (s'.toolAt key).Settled) :
    Tracks s' { client with opened := Function.update client.opened index (some id) } where
  placed := placed
  known := known ▸ tracks.known
  created := created ▸ tracks.created
  live := tracks.live
  opened other id' := by
    show Function.update client.opened index (some id) other = some id' ↔ _
    by_cases here : other = index
    · subst here
      rw [update_self, Option.some.injEq]
      constructor
      · rintro rfl
        exact ⟨ref, by rw [now, if_pos rfl]⟩
      · rintro ⟨ref', found⟩
        rw [now] at found
        split at found
        · cases found
          rfl
        · exact absurd found (unused ref' id')
    · rw [update_of_ne here, tracks.opened]
      constructor
      · rintro ⟨ref', found⟩
        refine ⟨ref', ?_⟩
        rw [now, if_neg, found]
        rintro rfl
        rw [absent] at found
        cases found
      · rintro ⟨ref', found⟩
        rw [now] at found
        split at found
        · cases found
          exact absurd rfl here
        · exact ⟨ref', found⟩
  settled := settled

theorem close (tracks : Tracks s client) (found : s.openOf ref = some (index, id)) (placed : s'.Placed)
    (known : s'.id = s.id) (created : s'.sentCreated = s.sentCreated)
    (now : ∀ other, s'.openOf other = if other = ref then none else s.openOf other)
    (settled : ∀ key, (s'.toolAt key).Settled) :
    Tracks s' { client with opened := Function.update client.opened index none } where
  placed := placed
  known := known ▸ tracks.known
  created := created ▸ tracks.created
  live := tracks.live
  opened other id' := by
    show Function.update client.opened index none other = some id' ↔ _
    by_cases here : other = index
    · subst here
      rw [update_self]
      constructor
      · intro impossible
        cases impossible
      · rintro ⟨ref', also⟩
        rw [now] at also
        split at also
        · cases also
        next apart =>
          exact absurd ((tracks.shown also).ref_eq (tracks.shown found)) apart
    · rw [update_of_ne here, tracks.opened]
      refine exists_congr fun ref' => ?_
      rw [now]
      split
      next same =>
        subst same
        rw [found]
        simp [Ne.symm here]
      · rfl
  settled := settled

end Tracks

end Tracks

theorem openMessage_sends : Sends accept (fun s client => Tracks s client ∧ s.textDone = false) openMessage
    fun s client => Tracks s client ∧ s.openOf .message = some (s.textOutputIndex, s.messageId) := by
  rintro s client ⟨tracks, pending⟩
  cases started : s.textStarted with
  | true =>
    rw [openMessage, if_pos started]
    exact ⟨client, rfl, tracks, by simp [openOf, started, pending]⟩
  | false =>
    have placed := tracks.placed.openMessage
    have absent : s.openOf .message = none := by simp [openOf, started]
    rw [openMessage_fresh s started] at placed ⊢
    refine ⟨_, tracks.live.run_open (Int.natCast_nonneg _) (tracks.free tracks.next_free) rfl .outputText,
      tracks.add .message _ s.messageId absent tracks.next_free placed rfl rfl ?_ tracks.settled, ?_⟩
    · rintro (_ | _ | key)
      · simp [openOf, pending, ChatToResponsesStreamState.placed, messageId]
      · rfl
      · rfl
    · simp [openOf, pending, ChatToResponsesStreamState.placed]

theorem appendTextDelta_sends [TableOrder] (delta : Str) : Sends accept
    (fun s client => Tracks s client ∧ lifecycleGuard.text s = true) (appendTextDelta delta) Tracks := by
  refine (openMessage_sends.weaken fun s client held =>
    ⟨held.1, by simpa [lifecycleGuard] using held.2⟩).followedBy ?_
  rintro s client ⟨tracks, opened⟩
  have taken := (tracks.live.accept_expected (tracks.expected opened) .outputText delta).2.1
  refine ⟨client, ?_, tracks.keep { tracks.placed with } rfl rfl ?_ tracks.settled⟩
  · rw [run_singleton]
    exact taken
  · rintro (_ | _ | key) <;> rfl

theorem openReasoning_sends : Sends accept Tracks openReasoning
    fun s client => Tracks s client ∧ s.openOf .reasoning = some (s.reasoningOutputIndex, s.reasoningId) := by
  intro s client tracks
  cases running : s.reasoningStarted && !s.reasoningDone with
  | true =>
    rw [openReasoning, if_pos running]
    exact ⟨client, rfl, tracks, by simp [openOf, running]⟩
  | false =>
    have placed := tracks.placed.openReasoning
    have absent : s.openOf .reasoning = none := by simp [openOf, running]
    obtain ⟨next, order, index, same, fresh⟩ := openReasoning_closed s running
    rw [same] at placed ⊢
    have unused : 0 ≤ index ∧ ∀ ref id, s.openOf ref ≠ some (index, id) := by
      rcases fresh with rfl | ⟨done, rfl⟩
      · exact ⟨Int.natCast_nonneg _, tracks.next_free⟩
      · -- only the reasoning itself stands at its index
        have started := tracks.placed.reasoningDone done
        have here := (tracks.placed.shown .reasoning s.reasoningOutputIndex).mp (by simp [placeOf, started])
        refine ⟨here.nonneg, fun ref id found => ?_⟩
        rw [(tracks.shown found).ref_eq here, absent] at found
        cases found
    refine ⟨_, tracks.live.run_open unused.1 (tracks.free unused.2) rfl .reasoningSummary,
      tracks.add .reasoning _ s.reasoningId absent unused.2 placed rfl rfl ?_ tracks.settled, ?_⟩
    · rintro (_ | _ | key)
      · rfl
      · simp [openOf, reasoningId]
      · rfl
    · simp [openOf]

theorem toolAt_shareReasoning (s : ChatToResponsesStreamState) (delta : Str) (key : Int) :
    ∃ text, { s with tools := shareReasoning delta s.tools }.toolAt key =
      { s.toolAt key with reasoningContent := text } := by
  rw [toolAt, toolAt, shareReasoning, Std.TreeMap.getElem?_map]
  cases s.tools[key]? with
  | none => exact ⟨_, rfl⟩
  | some tool =>
    rw [map_some, getD_some, getD_some]
    split <;> exact ⟨_, rfl⟩

theorem appendReasoningDelta_sends (delta : Str) :
    Sends accept Tracks (appendReasoningDelta delta) Tracks := by
  refine openReasoning_sends.followedBy ?_
  rintro s client ⟨tracks, opened⟩
  have taken := (tracks.live.accept_expected (tracks.expected opened) .reasoningSummary delta).2.1
  refine ⟨client, ?_, tracks.keep { tracks.placed.shareReasoning delta with } rfl rfl ?_ fun key => ?_⟩
  · rw [run_singleton]
    exact taken
  · rintro (_ | _ | key)
    · rfl
    · rfl
    · obtain ⟨text, same⟩ := toolAt_shareReasoning s delta key
      exact (congrArg ChatTool.running same).trans rfl
  · obtain ⟨text, same⟩ := toolAt_shareReasoning s delta key
    have settled : { s.toolAt key with reasoningContent := text }.Settled := tracks.settled key
    rw [← same] at settled
    exact settled

theorem closeReasoning_sends (status : ResponseStatus) : Sends accept Tracks (closeReasoning status) Tracks := by
  intro s client tracks
  have placed := tracks.placed.closeReasoning status
  unfold closeReasoning at placed ⊢
  split at placed
  next running =>
    have opened : s.openOf .reasoning = some (s.reasoningOutputIndex, s.reasoningId) := by simp [openOf, running]
    rw [if_pos running]
    refine ⟨_, tracks.live.run_close (tracks.expected opened) rfl .reasoningSummary s.reasoning s.reasoning,
      tracks.close opened placed rfl rfl ?_ tracks.settled⟩
    rintro (_ | _ | key)
    · rfl
    · simp [openOf]
    · rfl
  next closed =>
    rw [if_neg closed]
    exact ⟨client, rfl, tracks⟩

theorem closeMessage_sends (status : ResponseStatus) : Sends accept Tracks (closeMessage status) Tracks := by
  intro s client tracks
  have placed := tracks.placed.closeMessage status
  unfold closeMessage at placed ⊢
  split at placed
  next running =>
    have opened : s.openOf .message = some (s.textOutputIndex, s.messageId) := by simp [openOf, running]
    rw [if_pos running]
    refine ⟨_, tracks.live.run_close (tracks.expected opened) rfl .outputText s.text s.text,
      tracks.close opened placed rfl rfl ?_ tracks.settled⟩
    rintro (_ | _ | key)
    · simp [openOf]
    · rfl
    · rfl
  next closed =>
    rw [if_neg closed]
    exact ⟨client, rfl, tracks⟩

section Frame

variable [TableOrder]

theorem receiveFrame_sends (reasoning : Option Str) (call : ToolCallDelta) : Sends accept
    (fun s client => Tracks s client ∧ lifecycleGuard.frame s call = true) (receiveFrame reasoning call)
      Tracks := by
  rintro s client ⟨tracks, allowed⟩
  have sound := tracks.placed.toolAt_sound (s.chatIndex call)
  have now := toolAt_insert (receiveFrame_tools reasoning call s)
  have running := receive_running reasoning allowed
  have after : Tracks (receiveFrame reasoning call s).2 client := by
    refine tracks.keep (tracks.placed.receiveFrame reasoning call) rfl rfl ?_ fun key => ?_
    · rintro (_ | _ | key)
      · rfl
      · rfl
      · rw [openOf, openOf, now]
        split
        next here =>
          rw [running, here]
        · rfl
    · rw [now]
      split
      · refine (tracks.settled _).receive reasoning fun shown => ?_
        simpa only [lifecycleGuard, allows, shown, Bool.false_eq_true, if_false, Bool.not_eq_true'] using allowed
      · exact tracks.settled key
  rcases receive_events sound reasoning allowed with silent | ⟨index, id, args, opened, sent⟩
  · exact ⟨client, by rw [receiveFrame, silent]; rfl, after⟩
  · refine ⟨client, ?_, after⟩
    have expected := tracks.expected (show s.openOf (.tool (s.chatIndex call)) = some (index, id) from opened)
    rw [receiveFrame, sent, run_singleton]
    exact (tracks.live.accept_expected expected .functionArguments args).2.1

end Frame

section Insert

variable {s s' : ChatToResponsesStreamState} {key : Int} {tool : ChatTool}

theorem settled_insert (settled : ∀ key, (s.toolAt key).Settled) (tools : s'.tools = s.tools.insert key tool)
    (now : tool.started = true → tool.released = true) (other : Int) : (s'.toolAt other).Settled := by
  rw [toolAt_insert tools]
  split
  · exact fun _ => now
  · exact settled other

theorem listed_or_closed (s : ChatToResponsesStreamState) (key : Int) :
    key ∈ s.tools.keys ∨ (s.toolAt key).running = none := by
  cases found : s.tools[key]? with
  | none => exact .inr (by simp [toolAt, found, ChatTool.running, fresh])
  | some tool => exact .inl (IntMap.mem_keys_of_get found)

end Insert

section Items

variable [FloatText] (status : ResponseStatus) (key : Int) (s : ChatToResponsesStreamState)

theorem releaseTool_sends (tool : ChatTool) : Sends accept (fun s client => Tracks s client ∧
    s.tools[key]? = some tool ∧ tool.started = true ∧ tool.released = false) (releaseTool key tool) Tracks := by
  rintro s client ⟨tracks, found, started, unreleased⟩
  have here := toolAt_eq found
  have pending := (here ▸ tracks.settled key).pending started unreleased
  have now := toolAt_insert (s := s) (show (releaseTool key tool s).2.tools = _ from rfl)
  have absent : s.openOf (.tool key) = none := by simp [openOf, here, ChatTool.running, unreleased]
  have added := tracks.live.accept_added (Int.natCast_nonneg _) (tracks.free tracks.next_free)
    ({ tool with outputIndex := s.nextOutputIndex, released := true }.outputItem .inProgress)
  rw [outputItem_id] at added
  refine ⟨_, ?_, tracks.add (.tool key) s.nextOutputIndex tool.shownId absent tracks.next_free
    (tracks.placed.releaseTool found started unreleased) rfl rfl ?_ fun other => ?_⟩
  · have opened : ItemClient.Live { client with
        opened := Function.update client.opened s.nextOutputIndex (some tool.shownId) } :=
      tracks.live
    show run accept client (_ :: _) = _
    rw [run, added, bind_some]
    split
    · rfl
    · exact opened.run_argsEvents (update_self ..) _
  · rintro (_ | _ | other)
    · rfl
    · rfl
    · rw [openOf, openOf, now]
      simp only [OutputRef.tool.injEq]
      split
      · simp [ChatTool.running, pending]
        rfl
      · rfl
  · rw [now]
    split
    · exact fun _ _ => rfl
    · exact tracks.settled other

theorem finishTool_running (other : Int) (s : ChatToResponsesStreamState) :
    ((finishTool status key s).2.toolAt other).running = if other = key then none
      else (s.toolAt other).running := by
  rcases finishTool_cases status key s with ⟨ended, same⟩ | ⟨tool, found, -, ⟨-, same⟩ | ⟨-, same⟩⟩
  · rw [same]
    split
    next here =>
      subst here
      cases found : s.tools[other]? with
      | none => simp [toolAt, found, ChatTool.running, fresh]
      | some tool => simp [toolAt_eq found, ChatTool.running, ended tool found]
    · rfl
  · rw [same, toolAt_insert (s := s) rfl]
    split
    · simp [ChatTool.running]
    · rfl
  · rw [same, toolAt_insert (s := s) rfl]
    split
    · simp [ChatTool.running]
    · rfl

theorem finishTool_sends : Sends accept
    (fun s client => Tracks s client ∧ s.ReadyToClose) (finishTool status key) Tracks := by
  rintro s client ⟨tracks, closing⟩
  have placed := tracks.placed.finishTool status key
  have running := finishTool_running status key (s := s)
  rcases finishTool_cases status key s with ⟨-, same⟩ | ⟨tool, found, pending, ⟨nameless, same⟩ | ⟨named, same⟩⟩
  · rw [same]
    exact ⟨client, rfl, tracks⟩
  · obtain ⟨unstarted, unreleased⟩ := (tracks.placed.sound key tool found).nameless nameless
    rw [same] at placed running ⊢
    refine ⟨client, rfl, tracks.keep placed rfl rfl ?_ (settled_insert tracks.settled rfl (by simp [unstarted]))⟩
    rintro (_ | _ | other)
    · rfl
    · rfl
    · rw [openOf, running]
      split
      next here =>
        rw [openOf, here, toolAt_eq found]
        simp [ChatTool.running, unreleased]
      · rfl
  · have shown : tool.released = true := by
      have known := closing key
      rw [toolAt_eq found] at known
      exact known pending named
    have sound := tracks.placed.sound key tool found
    rw [same] at placed running ⊢
    rw [sound.withFallbackId shown] at placed running ⊢
    have opened : s.openOf (.tool key) = some (tool.outputIndex, tool.shownId) := by
      simp [openOf, toolAt_eq found, ChatTool.running, shown, pending]
    refine ⟨_, tracks.live.run_doneEvents (tracks.expected opened) status,
      tracks.close opened placed rfl rfl ?_ (settled_insert tracks.settled rfl fun _ => shown)⟩
    rintro (_ | _ | other)
    · rfl
    · rfl
    · rw [openOf, running]
      simp only [OutputRef.tool.injEq]
      rfl

theorem releaseReadyTools_sends (force : Bool) : Sends accept Tracks (releaseReadyTools force) Tracks :=
  fun s client tracks => releaseFrom_sends Tracks releaseTool_sends force s.tools.keys s client tracks

theorem finishTools_running (keys : List Int) (key : Int) (s : ChatToResponsesStreamState)
    (closed : key ∈ keys ∨ (s.toolAt key).running = none) :
    ((forEach (finishTool status) keys s).2.toolAt key).running = none := by
  induction keys generalizing s with
  | nil => exact closed.resolve_left List.not_mem_nil
  | cons first rest ih =>
    rw [forEach, followedBy_state]
    refine ih _ ?_
    rw [finishTool_running]
    by_cases here : key = first
    · exact .inr (if_pos here)
    · rw [if_neg here]
      exact closed.imp_left fun mem => (List.mem_cons.mp mem).resolve_left here

theorem openOf_doneDeltaEvents (ref : OutputRef) :
    (doneDeltaEvents s).2.openOf ref = none := by
  cases ref with
  | tool key =>
    exact finishTools_running _ _ key _ (listed_or_closed _ key)
  | message =>
    obtain ⟨next, order, tools, dropped, same⟩ := doneDeltaEvents_frame s
    rw [same]
    cases s.textStarted <;> simp [openOf]
  | reasoning =>
    obtain ⟨next, order, tools, dropped, same⟩ := doneDeltaEvents_frame s
    rw [same]
    cases s.reasoningStarted <;> simp [openOf]

theorem openOf_closed (ref : OutputRef) : s.closed.openOf ref = none := by
  exact openOf_doneDeltaEvents _ ref

end Items

theorem applyFinishReason_tracks {s : ChatToResponsesStreamState} {client : ItemClient} (tracks : Tracks s client)
    (reason : Str) : Tracks (applyFinishReason reason s) client := by
  have placed := tracks.placed.applyFinishReason reason
  unfold applyFinishReason at placed ⊢
  dsimp only at placed ⊢
  split at placed
  next cut =>
    rw [if_pos cut]
    exact tracks.keep placed rfl rfl (by rintro (_ | _ | key) <;> rfl) tracks.settled
  next whole =>
    rw [if_neg whole]
    exact tracks.keep placed rfl rfl (by rintro (_ | _ | key) <;> rfl) tracks.settled

section Stream

variable [FloatText] [TableOrder]

theorem tracks_keeps : lifecycleGuard.KeepsChunks accept Tracks where
  think s client _ tracks :=
    tracks.keep { tracks.placed with } rfl rfl (by rintro (_ | _ | key) <;> rfl) tracks.settled
  reasoning := appendReasoningDelta_sends
  text := appendTextDelta_sends
  reason s client reason tracks := applyFinishReason_tracks tracks reason
  call call := appendToolCallDelta_rule Tracks allows (closeReasoning_sends .completed)
    (fun reasoning => receiveFrame_sends reasoning call) (releaseReadyTools_sends false)
  done := doneDeltaEvents_rule Tracks releaseReadyTools_sends closeMessage_sends closeReasoning_sends
    finishTool_sends
  header s client chunk tracks := by
    have known : (noteHeader chunk s).id = s.id := by simp [noteHeader, tracks.known]
    refine tracks.keep { tracks.placed with } known rfl ?_ tracks.settled
    rintro (_ | _ | key)
    · simp only [openOf, messageId, known]
      rfl
    · simp only [openOf, reasoningId, known]
      rfl
    · rfl
  fail s client _ tracks :=
    tracks.keep { tracks.placed with } rfl rfl (by rintro (_ | _ | key) <;> rfl) tracks.settled
  created s client tracks := by
    rw [ensureCreated, if_pos tracks.created]
    exact ⟨client, rfl, tracks⟩

theorem tracks_opening {id : Str} (known : id.isEmpty = false) (model : Str) (created : I64)
    (toolCtx : ToolContext) (chunk : ChatStreamChunk) :
    ∃ client, run accept .new (ensureCreated (noteHeader chunk (.new id model created toolCtx))).1 =
      some client ∧ Tracks (ensureCreated (noteHeader chunk (.new id model created toolCtx))).2 client := by
  have placed := Placed.kept.created _ (Placed.kept.header _ chunk (Placed.new id model created toolCtx))
  have tools : ∀ key, (ensureCreated (noteHeader chunk (.new id model created toolCtx))).2.toolAt key = .fresh :=
    fun key => toolAt_new id model created toolCtx
  refine ⟨⟨true, false, fun _ => none⟩, rfl, placed, ?_, rfl, ⟨rfl, rfl⟩, fun index id => ?_, fun key => ?_⟩
  · simp [noteHeader, ensureCreated, ChatToResponsesStreamState.new, known]
  · constructor
    · intro impossible
      cases impossible
    · rintro ⟨_ | _ | key, found⟩
      · cases found
      · cases found
      · rw [openOf, tools] at found
        cases found
  · rw [tools]
    exact fun done => by cases done

theorem firstChunk_sends {id : Str} (known : id.isEmpty = false) (model : Str) (created : I64)
    (toolCtx : ToolContext) (chunk : ChatStreamChunk) (fine : chunk.error = none)
    (allowed : chunkGuarded lifecycleGuard (.new id model created toolCtx) chunk = true) :
    ∃ client, run accept .new (processChunk chunk (.new id model created toolCtx)).1 = some client ∧
      Tracks (processChunk chunk (.new id model created toolCtx)).2 client := by
  obtain ⟨opened, opening, tracks⟩ := tracks_opening known model created toolCtx chunk
  simp only [chunkGuarded, ChatToResponsesStreamState.new, fine, isSome_none, Bool.false_or] at allowed
  obtain ⟨client, ran, after⟩ := tracks_keeps.choices chunk.choices _ opened ⟨tracks, allowed⟩
  have whole : processChunk chunk (.new id model created toolCtx) = (quiet (noteHeader chunk)).followedBy
      (ensureCreated.followedBy (forEach processChoice chunk.choices)) (.new id model created toolCtx) := by
    simp [processChunk, ChatToResponsesStreamState.new, fine]
  rw [whole, followedBy_events, followedBy_state, quiet_state, followedBy_events, followedBy_state]
  refine ⟨client, ?_, after⟩
  rw [quiet, List.nil_append, run_append, opening]
  exact ran

end Stream

end ChatToResponsesStreamState

section Whole

variable [FloatText] [TableOrder]

open ChatToResponsesStreamState

/-- The items live one after the other if the first chunk is no error and the steps meet the conditions. -/
theorem responsesStream_itemLifecycle (id model : Str) (created : I64) (toolCtx : ToolContext)
    (chunks : List ChatStreamChunk) (known : id.isEmpty = false) (begins : chunks.head?.any (·.error.isNone) = true)
    (guarded : streamGuarded lifecycleGuard (.new id model created toolCtx) chunks = true) :
    ItemLifecycle (responsesStream id model created toolCtx chunks) := by
  cases chunks with
  | nil => cases begins
  | cons first rest =>
    obtain ⟨steps, ending⟩ := Bool.and_eq_true_iff.mp guarded
    obtain ⟨now, later⟩ := Bool.and_eq_true_iff.mp steps
    have running : (forEach processChunk (first :: rest) (.new id model created toolCtx)).2.finalized = false :=
      kept_running.run rfl (first :: rest)
    obtain ⟨opened, opening, tracks⟩ :=
      firstChunk_sends known model created toolCtx first (by simpa using begins) now
    obtain ⟨fed, feeding, tracks⟩ := tracks_keeps.chunks rest _ opened ⟨tracks, later⟩
    have ran : run accept .new (forEach processChunk (first :: rest) (.new id model created toolCtx)).1 =
        some fed := by
      rw [forEach, followedBy_events, run_append, opening]
      exact feeding
    have tracks : Tracks (forEach processChunk (first :: rest) (.new id model created toolCtx)).2 fed := tracks
    rw [responsesStream, followedBy_events, finalize, finalizeInner_events running]
    generalize (forEach processChunk (first :: rest) (.new id model created toolCtx)) = result at *
    obtain ⟨events, s⟩ := result
    have tracks : Tracks { s with finalized := true } fed :=
      tracks.keep { tracks.placed with } rfl rfl (by rintro (_ | _ | key) <;> rfl) tracks.settled
    obtain ⟨client, closing, tracks⟩ := tracks_keeps.closing _ fed ⟨tracks, ending⟩
    have taken : run accept .new
        (events ++ (flushContent.followedBy doneDeltaEvents { s with finalized := true }).1) = some client := by
      rw [run_append, ran]
      exact closing
    rw [← List.append_assoc]
    refine itemLifecycle_of_run taken tracks.live.1 tracks.live.2 (fun index => ?_) _ _ _ _
    refine tracks.free fun ref id found => ?_
    rw [followedBy_state, openOf_doneDeltaEvents] at found
    cases found

end Whole

def textThenCall : List ChatStreamChunk :=
  [deltaChunk (some "hi") [], deltaChunk none [toolFrame 0 (some "a") (some "f") "1"],
    deltaChunk none [toolFrame 0 none none "2"]]

theorem textThenCall_itemLifecycle :
    let _ : FloatText := Json.verbatim
    let _ : TableOrder := .sorted
    ChatToResponsesStreamState.streamGuarded ChatToResponsesStreamState.lifecycleGuard
        (.new "resp_1".toList [] 0 .empty) textThenCall = true ∧
      ItemLifecycle (responsesStream "resp_1".toList [] 0 .empty textThenCall) := by
  intro _ _
  have guarded : ChatToResponsesStreamState.streamGuarded ChatToResponsesStreamState.lifecycleGuard
      (.new "resp_1".toList [] 0 .empty) textThenCall = true := by decide +kernel
  exact ⟨guarded, responsesStream_itemLifecycle "resp_1".toList [] 0 .empty textThenCall (by decide) (by decide)
    guarded⟩

/-- The end of a call that was never announced names the index -1. -/
theorem call_without_id_unannounced :
    let _ : FloatText := Json.verbatim
    let _ : TableOrder := .sorted
    ¬ItemLifecycle (responsesStream "resp_1".toList [] 0 .empty idlessCall) := by
  intro _ _ lifecycle
  have negative : ((responsesStream "resp_1".toList [] 0 .empty idlessCall).any fun event =>
      event.target.any (·.1 < 0)) = true := by decide +kernel
  obtain ⟨event, member, named⟩ := List.any_eq_true.mp negative
  obtain ⟨before, after, split⟩ := List.append_of_mem member
  cases target : event.target with
  | none => simp [target] at named
  | some found =>
    have nonneg := (lifecycle.announced before event after split found.1 found.2 target).1
    have below : found.1 < 0 := by simpa [target] using named
    omega

end LlmGateway
