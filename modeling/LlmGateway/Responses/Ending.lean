import LlmGateway.Responses.Placement

namespace LlmGateway

open Emitter List ChatTool

namespace ResponsesOutputOut

def isCall (item : ResponsesOutputOut) : Bool :=
  item.type == "function_call".toList || item.type == "custom_tool_call".toList ||
    item.type == "tool_search_call".toList || item.type == "web_search_call".toList

def callRef (item : ResponsesOutputOut) : Str := item.callId.getD item.id

end ResponsesOutputOut

section Items

variable [FloatText] {tool : ChatTool} {status : ResponseStatus}

theorem ChatTool.outputItem_isCall : (tool.outputItem status).isCall := by
  unfold outputItem
  cases tool.bridged <;> cases tool.custom <;> cases tool.toolSearch <;> rfl

theorem ChatTool.outputItem_callRef : (tool.outputItem status).callRef = tool.id := by
  unfold outputItem
  cases tool.bridged <;> cases tool.custom <;> cases tool.toolSearch <;> rfl

end Items

namespace ChatToResponsesStreamState

def AllReleased (s : ChatToResponsesStreamState) : Prop :=
  ∀ (key : Int) (tool : ChatTool), s.tools[key]? = some tool → tool.started → tool.released

section Release

variable [FloatText] {s : ChatToResponsesStreamState}

theorem releaseFrom_force {keys : List Int} (waiting : ∀ (key : Int) (tool : ChatTool), s.tools[key]? = some tool →
      tool.started → tool.released ∨ key ∈ keys) : (releaseFrom true keys s).2.AllReleased := by
  induction keys generalizing s with
  | nil =>
    intro key tool found started
    exact (waiting key tool found started).resolve_right not_mem_nil
  | cons first rest ih =>
    unfold releaseFrom
    split
    next absent =>
      refine ih fun key tool found started => (waiting key tool found started).imp_right fun mem => ?_
      refine (mem_cons.mp mem).resolve_left fun same => ?_
      rw [same, absent] at found
      cases found
    next present atFirst =>
      split
      next settled =>
        refine ih fun key tool found started => ?_
        rcases waiting key tool found started with released | mem
        · exact .inl released
        · rcases mem_cons.mp mem with same | later
          · rw [same, atFirst] at found
            cases found
            exact .inl (by simpa [started] using settled)
          · exact .inr later
      next unsettled =>
        have started : present.started := by simp at unsettled; exact unsettled.2
        rw [if_pos started]
        refine ih (s := (releaseTool first present s).2) fun key tool found started => ?_
        rw [releaseTool, IntMap.get_insert] at found
        split at found
        · cases found
          exact .inl rfl
        next other =>
          exact (waiting key tool found started).imp_right fun mem => (mem_cons.mp mem).resolve_left other

theorem AllReleased.finishTool (released : s.AllReleased) (status : ResponseStatus) (key : Int) :
    (finishTool status key s).2.AllReleased := by
  have kept : ∀ tool after : ChatTool, s.tools[key]? = some tool → after.started = tool.started →
      after.released = tool.released → ∀ (other : Int) (also : ChatTool),
        (s.tools.insert key after)[other]? = some also → also.started → also.released := by
    intro tool after found sameStart sameRelease other also mem started
    rw [IntMap.get_insert] at mem
    split at mem
    · cases mem
      rw [sameRelease]
      exact released key tool found (sameStart ▸ started)
    · exact released other also mem started
  rcases finishTool_cases status key s with ⟨-, same⟩ | ⟨tool, found, -, ⟨-, same⟩ | ⟨-, same⟩⟩
  · rw [same]
    exact released
  · rw [same]
    exact kept tool _ found rfl rfl
  · rw [same]
    exact kept tool _ found rfl rfl

theorem AllReleased.doneDeltaEvents : (doneDeltaEvents s).2.AllReleased := by
  rw [ChatToResponsesStreamState.doneDeltaEvents, followedBy_state, followedBy_state, followedBy_state,
    followedBy_state, closeMessage_frame, closeReasoning_frame, releaseReadyTools]
  refine forEach_invariant AllReleased (fun key _ held => held.finishTool _ key) _ ?_
  exact releaseFrom_force fun key tool found _ => .inr (IntMap.mem_keys_of_get found)

end Release

def namedBegun (s : ChatToResponsesStreamState) : Bool :=
  s.tools.keys.all fun key =>
    let tool := s.toolAt key
    tool.done || tool.name.isEmpty || tool.started

def ReadyToClose (s : ChatToResponsesStreamState) : Prop :=
  ∀ key, (s.toolAt key).done = false → (s.toolAt key).name.isEmpty = false → (s.toolAt key).released

def NamedBegun (s : ChatToResponsesStreamState) : Prop :=
  ∀ key, (s.toolAt key).done = false → (s.toolAt key).name.isEmpty = false → (s.toolAt key).started

section Closing

variable {s s' : ChatToResponsesStreamState} {key : Int} {tool : ChatTool}

theorem ReadyToClose.insert (closing : s.ReadyToClose) (tools : s'.tools = s.tools.insert key tool)
    (done : tool.done) : s'.ReadyToClose := by
  intro other
  rw [toolAt_insert tools]
  split
  · rw [done]
    exact fun pending => by cases pending
  · exact closing other

theorem NamedBegun.of_allowed (allowed : s.namedBegun) : s.NamedBegun := by
  intro key pending named
  cases found : s.tools[key]? with
  | none => simp [toolAt, found, fresh] at named
  | some tool =>
    have known := all_eq_true.mp allowed key (IntMap.mem_keys_of_get found)
    simpa [pending, named] using known

theorem NamedBegun.readyToClose (begun : s.NamedBegun) (released : s.AllReleased) :
    s.ReadyToClose := by
  intro key pending named
  have started := begun key pending named
  cases found : s.tools[key]? with
  | none => simp [toolAt, found, fresh] at named
  | some tool =>
    rw [toolAt_eq found] at started ⊢
    exact released key tool found started

variable [FloatText]

theorem NamedBegun.releaseReadyTools (begun : s.NamedBegun) (force : Bool) :
    (releaseReadyTools force s).2.NamedBegun := by
  refine releaseFrom_invariant NamedBegun (fun s key tool held found started _ other => ?_) force _ begun
  rw [toolAt_insert (show (releaseTool key tool s).2.tools = _ from rfl)]
  split
  · exact fun _ _ => started
  · exact held other

theorem ReadyToClose.finishTool (closing : s.ReadyToClose) (status : ResponseStatus) (key : Int) :
    (finishTool status key s).2.ReadyToClose := by
  rcases finishTool_cases status key s with ⟨-, same⟩ | ⟨tool, -, -, ⟨-, same⟩ | ⟨-, same⟩⟩
  · rw [same]
    exact closing
  · rw [same]
    exact closing.insert rfl rfl
  · rw [same]
    exact closing.insert rfl rfl

variable {κ : Type*} {accept : κ → ResponsesEvent → Option κ} (inv : ChatToResponsesStreamState → κ → Prop)

/-- The rule for the end of the items: every call that ends with events has been announced. -/
theorem doneDeltaEvents_rule (release : ∀ force, Sends accept inv (releaseReadyTools force) inv)
    (message : ∀ status, Sends accept inv (closeMessage status) inv)
    (reasoning : ∀ status, Sends accept inv (closeReasoning status) inv)
    (finish : ∀ status key, Sends accept (fun s c => inv s c ∧ s.ReadyToClose) (finishTool status key) inv) :
    Sends accept (fun s c => inv s c ∧ s.namedBegun) doneDeltaEvents inv := by
  have released : Sends accept (fun s c => inv s c ∧ s.namedBegun)
      ((releaseReadyTools false).followedBy (releaseReadyTools true)) fun s c => inv s c ∧ s.ReadyToClose := by
    refine (((release false).followedBy (release true)).carry ReadyToClose).weaken ?_
    rintro s c ⟨held, allowed⟩
    refine ⟨held, ?_⟩
    have begun := ((NamedBegun.of_allowed allowed).releaseReadyTools false).releaseReadyTools true
    exact begun.readyToClose (releaseFrom_force fun key tool found _ => .inr (IntMap.mem_keys_of_get found))
  refine released.followedBy fun s c held => ?_
  have finished : Sends accept (fun t c => inv t c ∧ t.ReadyToClose)
      (fun t => forEach (finishTool s.outputStatus) t.tools.keys t) inv := by
    intro t c held
    have each : ∀ key (_ : List Int), Sends accept (fun t c => inv t c ∧ t.ReadyToClose)
        (finishTool s.outputStatus key) fun t c => inv t c ∧ t.ReadyToClose := fun key _ =>
      ((finish s.outputStatus key).carry ReadyToClose).weaken fun t c held => ⟨held, held.2.finishTool _ key⟩
    obtain ⟨c', ran, after, -⟩ := Sends.forEach (fun _ t c => inv t c ∧ t.ReadyToClose) each t.tools.keys t c held
    exact ⟨c', ran, after⟩
  have closedMessage := ((message s.outputStatus).carry ReadyToClose).weaken
    fun t c (held : inv t c ∧ t.ReadyToClose) => ⟨held.1, by rw [closeMessage_frame]; exact held.2⟩
  have closedReasoning := ((reasoning s.outputStatus).carry ReadyToClose).weaken
    fun t c (held : inv t c ∧ t.ReadyToClose) => ⟨held.1, by rw [closeReasoning_frame]; exact held.2⟩
  exact (closedMessage.followedBy (closedReasoning.followedBy finished)) s c held

/-- The rule for a tool frame, with a test of the call that it goes to. -/
theorem appendToolCallDelta_rule [TableOrder] (test : ToolContext → ToolCallDelta → ChatTool → Bool)
    {call : ToolCallDelta} (close : Sends accept inv (closeReasoning .completed) inv)
    (receive : ∀ reasoning, Sends accept
      (fun s c => inv s c ∧ test s.toolCtx call (s.toolAt (s.chatIndex call))) (receiveFrame reasoning call) inv)
    (release : Sends accept inv (releaseReadyTools false) inv) : Sends accept
      (fun s c => inv s c ∧ test s.toolCtx call (s.toolAt (s.chatIndex call))) (appendToolCallDelta call) inv := by
  intro s c held
  have closed := (close.carry fun s => test s.toolCtx call (s.toolAt (s.chatIndex call))).weaken
    fun s c (held : inv s c ∧ test s.toolCtx call (s.toolAt (s.chatIndex call))) =>
      ⟨held.1, by rw [closeReasoning_frame]; exact held.2⟩
  exact (closed.followedBy ((receive s.closedReasoning).followedBy release)) s c held

end Closing

def itemOf [FloatText] (s : ChatToResponsesStreamState) : OutputRef → ResponsesOutputOut
  | .message => s.messageItem s.outputStatus
  | .reasoning => s.reasoningItem s.outputStatus
  | .tool key => (s.toolAt key).outputItem s.outputStatus

def toolKeys (s : ChatToResponsesStreamState) : List Int :=
  s.outputOrder.filterMap fun | .tool key => some key | _ => none

section Output

variable {s : ChatToResponsesStreamState} {key : Int}

theorem mem_toolKeys : key ∈ s.toolKeys ↔ .tool key ∈ s.outputOrder := by
  rw [toolKeys, mem_filterMap]
  constructor
  · rintro ⟨_ | _ | other, mem, same⟩ <;> simp at same
    exact same ▸ mem
  · exact fun mem => ⟨_, mem, rfl⟩

namespace Placed

theorem mem_order_iff (placed : s.Placed) {ref : OutputRef} : ref ∈ s.outputOrder ↔ (s.placeOf ref).isSome := by
  rw [mem_iff_getElem?, Option.isSome_iff_exists]
  constructor
  · rintro ⟨place, found⟩
    exact ⟨place, (placed.shown ref place).mpr ⟨place, rfl, found⟩⟩
  · rintro ⟨index, found⟩
    obtain ⟨place, -, listed⟩ := (placed.shown ref index).mp found
    exact ⟨place, listed⟩

theorem tool_mem_order_iff (placed : s.Placed) :
    .tool key ∈ s.outputOrder ↔ ∃ tool, s.tools[key]? = some tool ∧ tool.released := by
  rw [placed.mem_order_iff, placeOf]
  cases s.tools[key]? with
  | none => simp
  | some tool => cases released : tool.released <;> simp [place, released]

theorem nodup_order (placed : s.Placed) : s.outputOrder.Nodup := by
  refine nodup_iff_getElem?_ne_getElem?.mpr fun i j before bound same => ?_
  obtain ⟨ref, found⟩ : ∃ ref, s.outputOrder[j]? = some ref := ⟨_, List.getElem?_eq_getElem bound⟩
  have first := (placed.shown ref i).mpr ⟨i, rfl, same.trans found⟩
  have second := (placed.shown ref j).mpr ⟨j, rfl, found⟩
  rw [first] at second
  have equal := Int.natCast_inj.mp (Option.some.inj second)
  omega

theorem nodup_toolKeys (placed : s.Placed) : s.toolKeys.Nodup := by
  refine placed.nodup_order.filterMap ?_
  rintro (_ | _ | key) (_ | _ | other) same <;> simp_all

theorem output_eq [FloatText] (placed : s.Placed) : s.finalResponse.output = s.outputOrder.map s.itemOf := by
  rw [finalResponse, filterMap_eq_map_iff_forall_eq_some]
  intro ref mem
  cases ref with
  | message => rfl
  | reasoning => rfl
  | tool key =>
    obtain ⟨tool, found, released⟩ := placed.tool_mem_order_iff.mp mem
    have sound := placed.sound key tool found
    have ready := sound.ready (sound.started released)
    simp only [ChatTool.ready, Bool.and_eq_true] at ready
    simp [outputOf, itemOf, found, toolAt, Option.filter, ready.2]

theorem toolItems [FloatText] (placed : s.Placed) : s.finalResponse.output.filter (·.isCall) =
    s.toolKeys.map fun key => (s.toolAt key).outputItem s.outputStatus := by
  rw [placed.output_eq, toolKeys, map_filterMap, filter_map]
  induction s.outputOrder with
  | nil => rfl
  | cons ref rest ih =>
    cases ref with
    | message => exact ih
    | reasoning => exact ih
    | tool key =>
      have call : ((·.isCall) ∘ s.itemOf) (.tool key) = true := outputItem_isCall
      rw [filter_cons_of_pos call, map_cons, ih]
      rfl

end Placed

end Output

def closed [FloatText] (s : ChatToResponsesStreamState) : ChatToResponsesStreamState :=
  (flushContent.followedBy doneDeltaEvents { s with finalized := true }).2

theorem verdict_frame (truncated : Bool) (s : ChatToResponsesStreamState) : ∃ status incompleteReason,
    (verdict truncated s).2 = { s with status := status, incompleteReason := incompleteReason } := by
  unfold verdict
  split
  · exact ⟨_, _, rfl⟩
  · split
    · exact ⟨_, _, rfl⟩
    · split
      · exact ⟨_, _, rfl⟩
      · split <;> exact ⟨_, _, rfl⟩

section Closed

variable [FloatText]

theorem Placed.closed [TableOrder] {s : ChatToResponsesStreamState} (placed : s.Placed) : s.closed.Placed :=
  Placed.kept.close { placed with }

theorem AllReleased.closed (s : ChatToResponsesStreamState) : s.closed.AllReleased := by
  exact AllReleased.doneDeltaEvents

theorem finalizeInner_events {s : ChatToResponsesStreamState} (running : s.finalized = false) (truncated : Bool) :
    (finalizeInner truncated s).1 = (flushContent.followedBy doneDeltaEvents { s with finalized := true }).1 ++
      [.terminal (s.closed.verdict truncated).1.1 (s.closed.verdict truncated).2.finalResponse
        (s.closed.verdict truncated).1.2 (s.closed.verdict truncated).2.usage] := by
  have last : (doneDeltaEvents (flushContent { s with finalized := true }).2).2 = s.closed := by
    rw [closed, followedBy_state]
  rw [finalizeInner, if_neg (by simp [running]), followedBy_events, followedBy_events, followedBy_events,
    append_assoc, last]
  generalize s.closed = t
  rfl

variable [TableOrder]

theorem kept_running : Kept fun s => s.finalized = false where
  header _ _ running := running
  fail _ _ running := running
  created s running := by
    unfold ensureCreated
    split <;> exact running
  think _ _ running := running
  reason s reason running := by
    unfold applyFinishReason
    dsimp only
    split <;> exact running
  reasoning s delta running := by
    obtain ⟨next, order, index, same⟩ := appendReasoningDelta_frame s delta
    rw [same]
    exact running
  text s delta running := by
    obtain ⟨next, order, index, same⟩ := appendTextDelta_frame s delta
    rw [same]
    exact running
  call s call running := by
    obtain ⟨next, order, tools, key, same⟩ := appendToolCallDelta_frame s call
    rw [same]
    exact running
  done s running := by
    obtain ⟨next, order, tools, dropped, same⟩ := doneDeltaEvents_frame s
    rw [same]
    exact running

end Closed

end ChatToResponsesStreamState

end LlmGateway
