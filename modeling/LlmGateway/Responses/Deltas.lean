import LlmGateway.Responses.Lifecycle

namespace LlmGateway

open Emitter List ResponsesEvent ChatTool

namespace ResponsesEvent

def deltaOn (channel : Channel) : ResponsesEvent → List Str
  | delta other _ _ text => if other = channel then [text] else []
  | _ => []

def doneOn (channel : Channel) : ResponsesEvent → List Str
  | done other _ _ text => if other = channel then [text] else []
  | _ => []

def argsIndex : ResponsesEvent → Option Int
  | delta .functionArguments index _ _ | done .functionArguments index _ _ => some index
  | _ => none

end ResponsesEvent

def deltas (channel : Channel) (events : List ResponsesEvent) : List Str := events.flatMap (·.deltaOn channel)

def dones (channel : Channel) (events : List ResponsesEvent) : List Str := events.flatMap (·.doneOn channel)

def argsEventsAt (index : Int) (events : List ResponsesEvent) : List ResponsesEvent :=
  events.filter (·.argsIndex = some index)

namespace ResponsesOutputOut

def isMessage (item : ResponsesOutputOut) : Bool := item.type == "message".toList

def isReasoning (item : ResponsesOutputOut) : Bool := item.type == "reasoning".toList

def outputText (item : ResponsesOutputOut) : Str := item.content.flatMap (·.text)

def summaryText (item : ResponsesOutputOut) : Str := item.summary.flatMap (·.text)

end ResponsesOutputOut

/-- The pieces of a stream add up to its done events and to the items of its last response. -/
structure DeltasAgree [FloatText] (events : List ResponsesEvent) (output : List ResponsesOutputOut) : Prop where
  text : if (deltas .outputText events).isEmpty then
      dones .outputText events = [] ∧ (output.filter (·.isMessage)).map (·.outputText) = []
    else
      dones .outputText events = [(deltas .outputText events).flatten] ∧
        (output.filter (·.isMessage)).map (·.outputText) = [(deltas .outputText events).flatten]
  reasoning : if (deltas .reasoningSummary events).isEmpty then
      dones .reasoningSummary events = [] ∧ (output.filter (·.isReasoning)).map (·.summaryText) = []
    else
      (dones .reasoningSummary events).getLast? = some (deltas .reasoningSummary events).flatten ∧
        (output.filter (·.isReasoning)).map (·.summaryText) = [(deltas .reasoningSummary events).flatten]
  arguments : ∀ (place : Nat) item, output[place]? = some item → item.type = "function_call".toList →
    ∃ canonical, canonical = canonicalizeJsonStringIfParseable
        (deltas .functionArguments (argsEventsAt place events)).flatten ∧
      dones .functionArguments (argsEventsAt place events) = [canonical] ∧ item.arguments = some (.str canonical)
  placed : ∀ event ∈ events, ∀ index, event.argsIndex = some index →
    ∃ (place : Nat) (item : ResponsesOutputOut), index = place ∧ output[place]? = some item ∧
      item.type = "function_call".toList

section Append

variable (channel : Channel) (first second : List ResponsesEvent)

@[simp] theorem deltas_append : deltas channel (first ++ second) = deltas channel first ++ deltas channel second :=
  flatMap_append

@[simp] theorem dones_append : dones channel (first ++ second) = dones channel first ++ dones channel second :=
  flatMap_append

theorem argsEventsAt_append (index : Int) :
    argsEventsAt index (first ++ second) = argsEventsAt index first ++ argsEventsAt index second :=
  filter_append ..

theorem argsEventsAt_eq_nil {index : Int} {events : List ResponsesEvent}
    (other : ∀ event ∈ events, event.argsIndex ≠ some index) : argsEventsAt index events = [] := by
  refine filter_eq_nil_iff.mpr fun event mem => ?_
  simpa using other event mem

end Append

/-- What was sent on a channel agrees with the text that the state has for it. -/
structure ChannelAgrees (channel : Channel) (trace : List ResponsesEvent) (text : Str) (started done : Bool) :
    Prop where
  pieces : (deltas channel trace).flatten = text
  begun : (deltas channel trace).isEmpty = !started
  ended : done → (dones channel trace).getLast? = some text
  unbegun : started = false → dones channel trace = []

namespace ChannelAgrees

variable {channel : Channel} {trace events : List ResponsesEvent} {text piece : Str} {started done : Bool}

theorem silent (agrees : ChannelAgrees channel trace text started done) (noDelta : deltas channel events = [])
    (noDone : dones channel events = []) : ChannelAgrees channel (trace ++ events) text started done := by
  constructor <;> simp only [deltas_append, dones_append, noDelta, noDone, append_nil]
  exacts [agrees.pieces, agrees.begun, agrees.ended, agrees.unbegun]

theorem delta (agrees : ChannelAgrees channel trace text started done) (one : deltas channel events = [piece]) :
    ChannelAgrees channel (trace ++ events) (text ++ piece) true false where
  pieces := by rw [deltas_append, one, flatten_append, agrees.pieces, flatten_singleton]
  begun := by simp [one]
  ended := by simp
  unbegun := by simp

theorem close (agrees : ChannelAgrees channel trace text true done) (noDelta : deltas channel events = [])
    (one : dones channel events = [text]) : ChannelAgrees channel (trace ++ events) text true true where
  pieces := by rw [deltas_append, noDelta, append_nil, agrees.pieces]
  begun := by rw [deltas_append, noDelta, append_nil, agrees.begun]
  ended := by simp [one]
  unbegun := by simp

end ChannelAgrees

/-- The events carry neither text nor reasoning. -/
structure TextSilent (events : List ResponsesEvent) : Prop where
  noText : deltas .outputText events = [] ∧ dones .outputText events = []
  noReasoning : deltas .reasoningSummary events = [] ∧ dones .reasoningSummary events = []

theorem TextSilent.nil : TextSilent [] := ⟨⟨rfl, rfl⟩, rfl, rfl⟩

theorem TextSilent.append {first second : List ResponsesEvent} (one : TextSilent first) (two : TextSilent second) :
    TextSilent (first ++ second) := by
  constructor <;> simp [deltas_append, dones_append, one.noText, one.noReasoning, two.noText, two.noReasoning]

namespace ChatTool

variable (tool : ChatTool)

def steady (ctx : ToolContext) (call : ToolCallDelta) (tool : ChatTool) : Bool :=
  let named := tool.named ctx call
  if tool.released then named.plain == tool.plain && (!tool.done || !tool.plain || call.argumentsDelta.isNone)
  else !(tool.done && named.ready)

theorem argsEvents_silent (args : Str) : TextSilent (tool.argsEvents args) := by
  unfold argsEvents
  split
  · exact ⟨⟨rfl, rfl⟩, rfl, rfl⟩
  · exact .nil

theorem receive_silent (ctx : ToolContext) (reasoning : Option Str) (call : ToolCallDelta) :
    TextSilent (tool.receive ctx reasoning call).1 := by
  rw [receive, followedBy_events, quiet, nil_append]
  cases call.argumentsDelta with
  | none => exact .nil
  | some args =>
    rw [whenSome, appendArgs]
    split
    · exact argsEvents_silent _ args
    · exact .nil

section Steady

variable {tool} {ctx : ToolContext} {call : ToolCallDelta} (reasoning : Option Str)

theorem receive_plain :
    (tool.receive ctx reasoning call).2.plain = (tool.named ctx call).plain := by
  obtain ⟨arguments, pendingArgs, same⟩ := tool.receive_eq ctx reasoning call
  obtain ⟨reasoningContent, heard⟩ := tool.heard_eq ctx reasoning call
  rw [same, heard]
  rfl

theorem receive_stable (steady : tool.steady ctx call) (released : tool.released) :
    (tool.receive ctx reasoning call).2.released ∧
      (tool.receive ctx reasoning call).2.plain = tool.plain ∧
      (tool.receive ctx reasoning call).2.outputIndex = tool.outputIndex := by
  obtain ⟨sameReleased, outputIndex, -, -, -⟩ := tool.receive_layout ctx reasoning call
  simp only [ChatTool.steady, released, if_true, Bool.and_eq_true, beq_iff_eq] at steady
  exact ⟨sameReleased.trans released, (receive_plain reasoning).trans steady.1, outputIndex⟩

theorem receive_arguments (sound : tool.Sound) (reasoning : Option Str) (steady : tool.steady ctx call)
    (released : tool.released) (plain : tool.plain) :
    (tool.receive ctx reasoning call).2.arguments = tool.arguments ++
        (deltas .functionArguments (argsEventsAt tool.outputIndex (tool.receive ctx reasoning call).1)).flatten ∧
      dones .functionArguments (argsEventsAt tool.outputIndex (tool.receive ctx reasoning call).1) = [] ∧
      (tool.done → (tool.receive ctx reasoning call).2.arguments = tool.arguments) := by
  simp only [ChatTool.steady, released, plain, if_true, Bool.and_eq_true, beq_iff_eq, Bool.or_eq_true,
    Bool.not_eq_true', Bool.not_true, Bool.false_eq_true, or_false] at steady
  rw [sound.receive_released released]
  cases given : call.argumentsDelta with
  | none => simp [argsEventsAt, deltas, dones]
  | some args =>
    have pending : tool.done = false := by simpa [given] using steady.2
    simp [heard_argsEvents, steady.1, argsEventsAt, deltas, dones, argsIndex, deltaOn,
      doneOn, pending]

theorem receive_named (sound : tool.Sound) (reasoning : Option Str) {event : ResponsesEvent} {index : Int}
    (mem : event ∈ (tool.receive ctx reasoning call).1) (named : event.argsIndex = some index) :
    (tool.receive ctx reasoning call).2.released ∧ (tool.receive ctx reasoning call).2.plain ∧
      (tool.receive ctx reasoning call).2.outputIndex = index := by
  obtain ⟨sameReleased, outputIndex, -, -, -⟩ := tool.receive_layout ctx reasoning call
  rw [sameReleased, outputIndex, receive_plain]
  cases released : tool.released with
  | false =>
    rw [receive_unreleased released] at mem
    cases mem
  | true =>
    rw [sound.receive_released released] at mem
    obtain ⟨args, -, sent⟩ := mem_flatMap.mp mem
    rw [heard_argsEvents] at sent
    split at sent
    next plain =>
      cases mem_singleton.mp sent
      exact ⟨rfl, plain, Option.some.inj named⟩
    · cases sent

end Steady

variable [FloatText]

theorem release_silent (index : Int) : TextSilent (tool.release index).1 := by
  have added : ∀ item, TextSilent [.itemAdded index item] := fun _ => ⟨⟨rfl, rfl⟩, rfl, rfl⟩
  rw [release, ← singleton_append]
  refine (added _).append ?_
  split
  · exact .nil
  · exact argsEvents_silent _ _

theorem release_named {index other : Int} {event : ResponsesEvent} (mem : event ∈ (tool.release index).1)
    (named : event.argsIndex = some other) : tool.plain ∧ index = other := by
  rcases mem_cons.mp mem with rfl | sent
  · cases named
  · split at sent
    · cases sent
    · unfold argsEvents at sent
      split at sent
      next plain =>
        cases mem_singleton.mp sent
        exact ⟨plain, Option.some.inj named⟩
      · cases sent

theorem release_arguments (index : Int) (plain : tool.plain) :
    (deltas .functionArguments (argsEventsAt index (tool.release index).1)).flatten = tool.pendingArgs ∧
      dones .functionArguments (argsEventsAt index (tool.release index).1) = [] := by
  have sent : { tool with outputIndex := index, released := true }.argsEvents tool.pendingArgs =
      [.delta .functionArguments index tool.itemId tool.pendingArgs] := if_pos plain
  have all : (tool.release index).1 =
      .itemAdded index ({ tool with outputIndex := index, released := true }.outputItem
      .inProgress) :: if tool.pendingArgs.isEmpty then [] else
        { tool with outputIndex := index, released := true }.argsEvents tool.pendingArgs := rfl
  rw [all, sent]
  cases empty : tool.pendingArgs.isEmpty with
  | true => simp [argsEventsAt, deltas, dones, argsIndex, isEmpty_iff.mp empty]
  | false =>
    simp [argsEventsAt, deltas, dones, argsIndex, deltaOn, doneOn]

theorem doneEvents_named {status : ResponseStatus} {index : Int} {event : ResponsesEvent}
    (mem : event ∈ tool.doneEvents status) (named : event.argsIndex = some index) :
    tool.plain ∧ tool.outputIndex = index := by
  rcases mem_append.mp mem with before | last
  · split at before
    · cases before
    next ordinary =>
      split at before
      · rcases mem_append.mp before with delta | done
        · split at delta
          · cases delta
          · cases mem_singleton.mp delta
            cases named
        · cases mem_singleton.mp done
          cases named
      next notCustom =>
        cases mem_singleton.mp before
        simp only [Bool.or_eq_true, not_or, Bool.not_eq_true] at ordinary notCustom
        exact ⟨by simp [plain, ordinary, notCustom], Option.some.inj named⟩
  · cases mem_singleton.mp last
    cases named

theorem doneEvents_arguments (status : ResponseStatus) (plain : tool.plain) :
    deltas .functionArguments (argsEventsAt tool.outputIndex (tool.doneEvents status)) = [] ∧
      dones .functionArguments (argsEventsAt tool.outputIndex (tool.doneEvents status)) =
        [tool.canonicalArguments] := by
  have all : tool.doneEvents status =
      [.done .functionArguments tool.outputIndex tool.itemId tool.canonicalArguments,
      .itemDone tool.outputIndex (tool.outputItem status)] := by
    simp only [ChatTool.plain, Bool.and_eq_true, Bool.not_eq_true'] at plain
    simp [doneEvents, plain.1.1, plain.1.2, plain.2]
  rw [all]
  simp [argsEventsAt, deltas, dones, argsIndex, deltaOn, doneOn]

theorem doneEvents_silent (status : ResponseStatus) : TextSilent (tool.doneEvents status) := by
  refine .append ?_ ⟨⟨rfl, rfl⟩, rfl, rfl⟩
  split
  · exact .nil
  · split
    · dsimp only
      split <;> exact ⟨⟨rfl, rfl⟩, rfl, rfl⟩
    · exact ⟨⟨rfl, rfl⟩, rfl, rfl⟩

end ChatTool

namespace ChatToResponsesStreamState

/-- Text and reasoning have been sent as the state has them. -/
structure TextsAgree (s : ChatToResponsesStreamState) (trace : List ResponsesEvent) : Prop where
  text : ChannelAgrees .outputText trace s.text s.textStarted s.textDone
  once : (dones .outputText trace).length = if s.textDone then 1 else 0
  reasoning : ChannelAgrees .reasoningSummary trace s.reasoning s.reasoningStarted s.reasoningDone

theorem TextsAgree.new (id model : Str) (created : I64) (toolCtx : ToolContext) :
    TextsAgree (.new id model created toolCtx) [] := by
  refine ⟨⟨rfl, rfl, fun done => ?_, fun _ => rfl⟩, rfl, ⟨rfl, rfl, fun done => ?_, fun _ => rfl⟩⟩
  · cases done
  · cases done

theorem TextsAgree.silent {s s' : ChatToResponsesStreamState} {trace events : List ResponsesEvent}
    (agrees : s.TextsAgree trace) (silent : TextSilent events)
    (text : s'.text = s.text ∧ s'.textStarted = s.textStarted ∧ s'.textDone = s.textDone)
    (reasoning : s'.reasoning = s.reasoning ∧ s'.reasoningStarted = s.reasoningStarted ∧
      s'.reasoningDone = s.reasoningDone) : s'.TextsAgree (trace ++ events) where
  text := by
    rw [text.1, text.2.1, text.2.2]
    exact agrees.text.silent silent.noText.1 silent.noText.2
  once := by
    rw [dones_append, silent.noText.2, append_nil, text.2.2]
    exact agrees.once
  reasoning := by
    rw [reasoning.1, reasoning.2.1, reasoning.2.2]
    exact agrees.reasoning.silent silent.noReasoning.1 silent.noReasoning.2

theorem appendTextDelta_sent (s : ChatToResponsesStreamState) (delta : Str) : ∃ events,
    (appendTextDelta delta s).1 = events ∧ deltas .outputText events = [delta] ∧ dones .outputText events = [] ∧
      deltas .reasoningSummary events = [] ∧ dones .reasoningSummary events = [] ∧
      ∀ event ∈ events, event.argsIndex = none := by
  refine ⟨_, rfl, ?_⟩
  rw [appendTextDelta, followedBy_events]
  cases started : s.textStarted with
  | true =>
    rw [openMessage, if_pos started]
    exact ⟨rfl, rfl, rfl, rfl, by simp [argsIndex]⟩
  | false =>
    rw [openMessage_fresh s started]
    exact ⟨rfl, rfl, rfl, rfl, by simp [argsIndex]⟩

theorem appendReasoningDelta_sent (s : ChatToResponsesStreamState) (delta : Str) : ∃ events,
    (appendReasoningDelta delta s).1 = events ∧ deltas .reasoningSummary events = [delta] ∧
      deltas .outputText events = [] ∧ dones .outputText events = [] ∧
        ∀ event ∈ events, event.argsIndex = none := by
  refine ⟨_, rfl, ?_⟩
  rw [appendReasoningDelta, followedBy_events]
  cases running : s.reasoningStarted && !s.reasoningDone with
  | true =>
    rw [openReasoning, if_pos running]
    exact ⟨rfl, rfl, rfl, by simp [argsIndex]⟩
  | false =>
    obtain ⟨next, order, index, same, -⟩ := openReasoning_closed s running
    rw [same]
    exact ⟨rfl, rfl, rfl, by simp [argsIndex]⟩

section Texts

variable {s : ChatToResponsesStreamState} {trace : List ResponsesEvent}

theorem TextsAgree.appendTextDelta (agrees : s.TextsAgree trace) (pending : s.textDone = false) (delta : Str) :
    (appendTextDelta delta s).2.TextsAgree (trace ++ (appendTextDelta delta s).1) := by
  obtain ⟨events, sent, noted, noDone, noReasoning, noSummary, -⟩ := appendTextDelta_sent s delta
  obtain ⟨next, order, index, same⟩ := appendTextDelta_frame s delta
  have text := agrees.text.delta noted
  have once : (dones .outputText (trace ++ events)).length = 0 := by
    rw [dones_append, noDone, append_nil, agrees.once, pending]
    rfl
  have reasoning := agrees.reasoning.silent noReasoning noSummary
  rw [sent, same]
  refine ⟨?_, ?_, reasoning⟩
  · dsimp only
    rw [pending]
    exact text
  · dsimp only
    rw [pending]
    exact once

theorem TextsAgree.appendReasoningDelta (agrees : s.TextsAgree trace) (delta : Str) :
    (appendReasoningDelta delta s).2.TextsAgree (trace ++ (appendReasoningDelta delta s).1) := by
  obtain ⟨events, sent, noted, noText, noDone, -⟩ := appendReasoningDelta_sent s delta
  obtain ⟨next, order, index, same⟩ := appendReasoningDelta_frame s delta
  have reasoning := agrees.reasoning.delta noted
  have once := agrees.once
  rw [← append_nil (dones .outputText trace), ← noDone, ← dones_append] at once
  have text := agrees.text.silent noText noDone
  rw [sent, same]
  exact ⟨text, once, reasoning⟩

theorem TextsAgree.closeMessage (agrees : s.TextsAgree trace) (status : ResponseStatus) :
    (closeMessage status s).2.TextsAgree (trace ++ (closeMessage status s).1) := by
  unfold ChatToResponsesStreamState.closeMessage
  split
  next running =>
    obtain ⟨started, pending⟩ := Bool.and_eq_true_iff.mp running
    have text := agrees.text
    rw [started] at text
    refine ⟨?_, ?_, agrees.reasoning.silent rfl rfl⟩
    · dsimp only
      rw [started]
      exact text.close rfl rfl
    · have before := agrees.once
      rw [show s.textDone = false by simpa using pending] at before
      rw [dones_append, length_append, before]
      rfl
  · exact agrees.silent .nil ⟨rfl, rfl, rfl⟩ ⟨rfl, rfl, rfl⟩

theorem TextsAgree.closeReasoning (agrees : s.TextsAgree trace) (status : ResponseStatus) :
    (closeReasoning status s).2.TextsAgree (trace ++ (closeReasoning status s).1) := by
  unfold ChatToResponsesStreamState.closeReasoning
  split
  next running =>
    obtain ⟨started, -⟩ := Bool.and_eq_true_iff.mp running
    have reasoning := agrees.reasoning
    rw [started] at reasoning
    refine ⟨agrees.text.silent rfl rfl, ?_, ?_⟩
    · rw [dones_append, length_append, agrees.once]
      rfl
    · dsimp only
      rw [started]
      exact reasoning.close rfl rfl
  · exact agrees.silent .nil ⟨rfl, rfl, rfl⟩ ⟨rfl, rfl, rfl⟩

theorem TextsAgree.finishTool [FloatText] (agrees : s.TextsAgree trace) (status : ResponseStatus) (key : Int) :
    (finishTool status key s).2.TextsAgree (trace ++ (finishTool status key s).1) := by
  rcases finishTool_cases status key s with ⟨-, same⟩ | ⟨tool, -, -, ⟨-, same⟩ | ⟨-, same⟩⟩
  · rw [same]
    exact agrees.silent .nil ⟨rfl, rfl, rfl⟩ ⟨rfl, rfl, rfl⟩
  · rw [same]
    exact agrees.silent .nil ⟨rfl, rfl, rfl⟩ ⟨rfl, rfl, rfl⟩
  · rw [same]
    exact agrees.silent (doneEvents_silent _ _) ⟨rfl, rfl, rfl⟩ ⟨rfl, rfl, rfl⟩

end Texts

def deltaGuard [TableOrder] : Guard where
  text s := !s.textDone
  frame s call := (s.toolAt (s.chatIndex call)).steady s.toolCtx call
  close := namedBegun

section KeepsTexts

variable [FloatText]

theorem releaseReadyTools_textsAgree (force : Bool) :
    Sends remember TextsAgree (releaseReadyTools force) TextsAgree :=
  fun s trace agrees => releaseFrom_sends TextsAgree (fun _ tool => sends_remember_iff.mpr fun _ _ held =>
    held.1.silent (release_silent tool _) ⟨rfl, rfl, rfl⟩ ⟨rfl, rfl, rfl⟩) force s.tools.keys s trace agrees

variable [TableOrder]

theorem textsAgree_keeps : deltaGuard.KeepsChunks remember TextsAgree where
  think _ _ _ agrees := { agrees with }
  reasoning delta := sends_remember_iff.mpr fun _ _ agrees => agrees.appendReasoningDelta delta
  text delta := sends_remember_iff.mpr fun _ _ held =>
    held.1.appendTextDelta (by simpa [deltaGuard] using held.2) delta
  reason s trace reason agrees := by
    unfold applyFinishReason
    dsimp only
    split
    · exact { agrees with }
    · exact { agrees with }
  call call := appendToolCallDelta_rule TextsAgree ChatTool.steady
    (sends_remember_iff.mpr fun _ _ agrees => agrees.closeReasoning _)
    (fun reasoning => sends_remember_iff.mpr fun _ _ held =>
      held.1.silent (receive_silent _ _ _ _) ⟨rfl, rfl, rfl⟩ ⟨rfl, rfl, rfl⟩)
    (releaseReadyTools_textsAgree false)
  done := doneDeltaEvents_rule TextsAgree releaseReadyTools_textsAgree
    (fun status => sends_remember_iff.mpr fun _ _ agrees => agrees.closeMessage status)
    (fun status => sends_remember_iff.mpr fun _ _ agrees => agrees.closeReasoning status)
    (fun status key => sends_remember_iff.mpr fun _ _ held => held.1.finishTool status key)
  header _ _ _ agrees := { agrees with }
  fail _ _ _ agrees := { agrees with }
  created := sends_remember_iff.mpr fun s trace agrees => by
    unfold ensureCreated
    split
    · exact agrees.silent .nil ⟨rfl, rfl, rfl⟩ ⟨rfl, rfl, rfl⟩
    · exact agrees.silent ⟨⟨rfl, rfl⟩, rfl, rfl⟩ ⟨rfl, rfl, rfl⟩ ⟨rfl, rfl, rfl⟩

end KeepsTexts

/-- The arguments of the announced functions have been sent as the state has them. -/
structure ArgsAgree [FloatText] (s : ChatToResponsesStreamState) (trace : List ResponsesEvent) : Prop where
  placed : s.Placed
  arguments : ∀ key, (s.toolAt key).released → (s.toolAt key).plain →
    (deltas .functionArguments (argsEventsAt (s.toolAt key).outputIndex trace)).flatten = (s.toolAt key).arguments ∧
    dones .functionArguments (argsEventsAt (s.toolAt key).outputIndex trace) =
      if (s.toolAt key).done then [(s.toolAt key).canonicalArguments] else []
  known : ∀ event ∈ trace, ∀ index, event.argsIndex = some index →
    ∃ key, (s.toolAt key).released ∧ (s.toolAt key).plain ∧ (s.toolAt key).outputIndex = index
  buffered : ∀ key, (s.toolAt key).released = false → (s.toolAt key).arguments = []
  settled : ∀ key, (s.toolAt key).Settled

section Args

variable {s s' : ChatToResponsesStreamState} {key other : Int} {tool after : ChatTool}
  {trace events : List ResponsesEvent}

theorem Placed.shown_toolAt (placed : s.Placed) (released : (s.toolAt key).released) :
    Shown s.outputOrder (s.toolAt key).outputIndex (.tool key) := by
  refine (placed.shown _ _).mp ?_
  cases found : s.tools[key]? with
  | none => simp [toolAt, found, fresh] at released
  | some tool =>
    rw [toolAt_eq found] at released ⊢
    simp [placeOf, found, ChatTool.place, released]

theorem Placed.toolAt_of_listed (placed : s.Placed) {place : Nat}
    (listed : s.outputOrder[place]? = some (.tool key)) :
    (s.toolAt key).released ∧ (s.toolAt key).outputIndex = place := by
  have found := (placed.shown (.tool key) place).mpr ⟨place, rfl, listed⟩
  obtain ⟨tool, here, shown⟩ := Option.bind_eq_some_iff.mp found
  rw [toolAt_eq here]
  simpa [ChatTool.place] using shown

theorem Placed.key_eq (placed : s.Placed) (released : (s.toolAt key).released)
    (also : (s.toolAt other).released) (same : (s.toolAt other).outputIndex = (s.toolAt key).outputIndex) :
    other = key := by
  have shown := placed.shown_toolAt also
  rw [same] at shown
  exact OutputRef.tool.inj (shown.ref_eq (placed.shown_toolAt released))

variable [FloatText]

theorem ArgsAgree.new (id model : Str) (created : I64) (toolCtx : ToolContext) :
    ArgsAgree (.new id model created toolCtx) [] := by
  refine ⟨.new id model created toolCtx, fun key released => ?_, fun _ mem => (not_mem_nil mem).elim,
    fun key _ => ?_, fun key done => ?_⟩
  · rw [toolAt_new] at released
    cases released
  · rw [toolAt_new]
    rfl
  · rw [toolAt_new] at done
    cases done

theorem ArgsAgree.keep (agrees : s.ArgsAgree trace) (placed : s'.Placed)
    (tools : ∀ key, ∃ text, s'.toolAt key = { s.toolAt key with reasoningContent := text })
    (silent : ∀ event ∈ events, event.argsIndex = none) : s'.ArgsAgree (trace ++ events) := by
  have trace_eq : ∀ index, argsEventsAt index (trace ++ events) = argsEventsAt index trace := by
    intro index
    have nothing : argsEventsAt index events = [] :=
      argsEventsAt_eq_nil fun event mem => by simp [silent event mem]
    rw [argsEventsAt_append, nothing, append_nil]
  refine ⟨placed, fun key => ?_, fun event mem index named => ?_, fun key => ?_, fun key => ?_⟩
  · obtain ⟨text, same⟩ := tools key
    rw [trace_eq, same]
    exact agrees.arguments key
  · rcases mem_append.mp mem with old | new
    · obtain ⟨key, released, plain, outputIndex⟩ := agrees.known event old index named
      obtain ⟨text, same⟩ := tools key
      exact ⟨key, by rw [same]; exact ⟨released, plain, outputIndex⟩⟩
    · rw [silent event new] at named
      cases named
  · obtain ⟨text, same⟩ := tools key
    rw [same]
    exact agrees.buffered key
  · obtain ⟨text, same⟩ := tools key
    rw [same]
    exact agrees.settled key

theorem ArgsAgree.insert (agrees : s.ArgsAgree trace) (placed : s'.Placed)
    (tools : s'.tools = s.tools.insert key after) (stable : (s.toolAt key).released →
      after.released ∧ after.plain = (s.toolAt key).plain ∧ after.outputIndex = (s.toolAt key).outputIndex)
    (mine : ∀ event ∈ events, ∀ index, event.argsIndex = some index →
      after.released ∧ after.plain ∧ after.outputIndex = index)
    (arguments : after.released → after.plain →
      (deltas .functionArguments (argsEventsAt after.outputIndex (trace ++ events))).flatten = after.arguments ∧
      dones .functionArguments (argsEventsAt after.outputIndex (trace ++ events)) =
        if after.done then [after.canonicalArguments] else [])
    (buffered : after.released = false → after.arguments = []) (settled : after.Settled) :
    s'.ArgsAgree (trace ++ events) := by
  have now := toolAt_insert tools
  refine ⟨placed, fun other => ?_, fun event mem index named => ?_, fun other => ?_, fun other => ?_⟩
  · by_cases here : other = key
    · rw [now, if_pos here]
      exact arguments
    · intro released plain
      have apart : ∀ event ∈ events, event.argsIndex ≠ some (s'.toolAt other).outputIndex := by
        intro event mem named
        obtain ⟨shown, -, same⟩ := mine event mem _ named
        have atKey : s'.toolAt key = after := by rw [now, if_pos rfl]
        exact here (placed.key_eq (atKey ▸ shown) released (by rw [atKey, same]))
      rw [now, if_neg here] at released plain apart ⊢
      rw [argsEventsAt_append, argsEventsAt_eq_nil apart, append_nil]
      exact agrees.arguments other released plain
  · rcases mem_append.mp mem with old | new
    · obtain ⟨other, released, plain, outputIndex⟩ := agrees.known event old index named
      refine ⟨other, ?_⟩
      rw [now]
      split
      next here =>
        subst here
        obtain ⟨stillReleased, samePlain, sameIndex⟩ := stable released
        exact ⟨stillReleased, samePlain.trans plain, sameIndex.trans outputIndex⟩
      · exact ⟨released, plain, outputIndex⟩
    · exact ⟨key, by rw [now, if_pos rfl]; exact mine event new index named⟩
  · rw [now]
    split
    · exact buffered
    · exact agrees.buffered other
  · rw [now]
    split
    · exact settled
    · exact agrees.settled other

theorem ArgsAgree.receiveFrame [TableOrder] (agrees : s.ArgsAgree trace) (reasoning : Option Str)
    (call : ToolCallDelta) (allowed : deltaGuard.frame s call) :
    (receiveFrame reasoning call s).2.ArgsAgree (trace ++ (receiveFrame reasoning call s).1) := by
  have placed := agrees.placed.receiveFrame reasoning call
  have tools := receiveFrame_tools reasoning call s
  have sound := agrees.placed.toolAt_sound (s.chatIndex call)
  have layout := (s.toolAt (s.chatIndex call)).receive_layout s.toolCtx reasoning call
  have settled : ((s.toolAt (s.chatIndex call)).receive s.toolCtx reasoning call).2.Settled := by
    refine (agrees.settled _).receive reasoning fun unreleased => ?_
    simpa only [deltaGuard, ChatTool.steady, unreleased, Bool.false_eq_true, if_false,
      Bool.not_eq_true'] using allowed
  refine agrees.insert placed tools (receive_stable reasoning allowed)
    (fun event mem index => receive_named sound reasoning mem) (fun shown plain => ?_) (fun hidden => ?_)
    settled
  · have released : (s.toolAt (s.chatIndex call)).released := by rw [← shown, layout.1]
    obtain ⟨-, samePlain, sameIndex⟩ := receive_stable reasoning allowed released
    rw [samePlain] at plain
    obtain ⟨arguments, noDone, fixed⟩ := receive_arguments sound reasoning allowed released plain
    obtain ⟨joined, ended⟩ := agrees.arguments _ released plain
    rw [sameIndex, argsEventsAt_append, deltas_append, dones_append, flatten_append, joined, ended]
    refine ⟨arguments.symm, ?_⟩
    have silent : dones .functionArguments (argsEventsAt (s.toolAt (s.chatIndex call)).outputIndex
      (ChatToResponsesStreamState.receiveFrame reasoning call s).1) = [] := noDone
    rw [layout.2.2.1, silent, append_nil]
    cases done : (s.toolAt (s.chatIndex call)).done with
    | false => rfl
    | true => rw [if_pos rfl, if_pos rfl, canonicalArguments, canonicalArguments, fixed done]
  · have unreleased : (s.toolAt (s.chatIndex call)).released = false := by rw [← hidden, layout.1]
    obtain ⟨reasoningContent, heard⟩ := (s.toolAt (s.chatIndex call)).heard_eq s.toolCtx reasoning call
    obtain ⟨bridged, custom, toolSearch, origName, ns, named⟩ :=
      (s.toolAt (s.chatIndex call)).named_eq s.toolCtx call
    rw [receive_unreleased unreleased, heard, named]
    exact agrees.buffered _ unreleased

theorem ArgsAgree.releaseTool (agrees : s.ArgsAgree trace) (found : s.tools[key]? = some tool)
    (started : tool.started) (unreleased : tool.released = false) :
    (releaseTool key tool s).2.ArgsAgree (trace ++ (releaseTool key tool s).1) := by
  have here := toolAt_eq found
  have pending := (here ▸ agrees.settled key).pending started unreleased
  have buffered : tool.arguments = [] := here ▸ agrees.buffered key (here ▸ unreleased)
  have placed := agrees.placed.releaseTool found started unreleased
  -- nothing was said of the next index before
  have fresh : argsEventsAt s.nextOutputIndex trace = [] := by
    refine argsEventsAt_eq_nil fun event mem named => ?_
    obtain ⟨other, released, -, same⟩ := agrees.known event mem _ named
    have bound := (agrees.placed.shown_toolAt released).lt
    rw [same, agrees.placed.next] at bound
    omega
  refine agrees.insert placed rfl (fun released => ?_) (fun event mem index named => ?_) (fun _ plain => ?_)
    (fun hidden => by cases hidden) fun _ _ => rfl
  · rw [here, unreleased] at released
    cases released
  · exact ⟨rfl, tool.release_named mem named⟩
  · obtain ⟨joined, noDone⟩ := tool.release_arguments s.nextOutputIndex plain
    have events : (ChatToResponsesStreamState.releaseTool key tool s).1 = (tool.release s.nextOutputIndex).1 := rfl
    rw [argsEventsAt_append, fresh, nil_append, events]
    refine ⟨?_, ?_⟩
    · rw [joined, buffered, nil_append]
    · rw [noDone, pending]
      rfl

theorem ArgsAgree.finishTool (agrees : s.ArgsAgree trace) (closing : s.ReadyToClose) (status : ResponseStatus) :
    (finishTool status key s).2.ArgsAgree (trace ++ (finishTool status key s).1) := by
  have placed := agrees.placed.finishTool status key
  rcases finishTool_cases status key s with ⟨-, same⟩ | ⟨tool, found, pending, ⟨nameless, same⟩ | ⟨named, same⟩⟩
  · rw [same, append_nil]
    exact agrees
  · obtain ⟨unstarted, unreleased⟩ := (agrees.placed.sound key tool found).nameless nameless
    rw [same] at placed ⊢
    refine agrees.insert placed rfl (fun released => ?_) (fun event mem => by cases mem)
      (fun released => ?_) (fun _ => ?_) (fun _ started => ?_)
    · rw [toolAt_eq found, unreleased] at released
      cases released
    · exact absurd (unreleased.symm.trans released) (by simp)
    · exact toolAt_eq found ▸ agrees.buffered key (toolAt_eq found ▸ unreleased)
    · exact absurd (unstarted.symm.trans started) (by simp)
  · have here := toolAt_eq found
    have shown : tool.released := here ▸ closing key (here ▸ pending) (here ▸ named)
    have sound := agrees.placed.sound key tool found
    rw [same] at placed ⊢
    rw [sound.withFallbackId shown] at placed ⊢
    refine agrees.insert placed rfl (fun _ => by rw [here]; exact ⟨shown, rfl, rfl⟩)
      (fun event mem index about => ?_) (fun _ plain => ?_) (fun hidden => ?_) (fun _ _ => shown)
    · exact ⟨shown, doneEvents_named { tool with done := true } mem about⟩
    · obtain ⟨noDelta, done⟩ := doneEvents_arguments { tool with done := true } status plain
      obtain ⟨joined, ended⟩ := agrees.arguments key (here ▸ shown) (here ▸ plain)
      rw [here] at joined ended
      rw [argsEventsAt_append, deltas_append, dones_append, noDelta, done, append_nil, joined, ended, pending]
      exact ⟨rfl, rfl⟩
    · exact absurd (shown.symm.trans hidden) (by simp)

theorem ArgsAgree.keepTools (agrees : s.ArgsAgree trace) (placed : s'.Placed) (tools : s'.tools = s.tools)
    (silent : ∀ event ∈ events, event.argsIndex = none) : s'.ArgsAgree (trace ++ events) :=
  agrees.keep placed (fun key => ⟨(s.toolAt key).reasoningContent, by rw [toolAt, toolAt, tools]⟩) silent

theorem ArgsAgree.same (agrees : s.ArgsAgree trace) (placed : s'.Placed) (tools : s'.tools = s.tools) :
    s'.ArgsAgree trace := by
  have kept : s'.ArgsAgree (trace ++ []) := agrees.keepTools placed tools (by simp)
  rwa [append_nil] at kept

end Args

section KeepsArgs

variable [FloatText] {s : ChatToResponsesStreamState} {trace : List ResponsesEvent}

theorem ArgsAgree.appendTextDelta (agrees : s.ArgsAgree trace) (delta : Str) :
    (appendTextDelta delta s).2.ArgsAgree (trace ++ (appendTextDelta delta s).1) := by
  have placed := agrees.placed.appendTextDelta delta
  obtain ⟨events, sent, -, -, -, -, silent⟩ := appendTextDelta_sent s delta
  obtain ⟨next, order, index, same⟩ := appendTextDelta_frame s delta
  rw [sent]
  refine agrees.keepTools placed ?_ silent
  rw [same]

theorem ArgsAgree.appendReasoningDelta (agrees : s.ArgsAgree trace) (delta : Str) :
    (appendReasoningDelta delta s).2.ArgsAgree (trace ++ (appendReasoningDelta delta s).1) := by
  have placed := agrees.placed.appendReasoningDelta delta
  obtain ⟨events, sent, -, -, -, silent⟩ := appendReasoningDelta_sent s delta
  obtain ⟨next, order, index, same⟩ := appendReasoningDelta_frame s delta
  rw [sent]
  refine agrees.keep placed (fun key => ?_) silent
  rw [same]
  exact toolAt_shareReasoning s delta key

theorem ArgsAgree.closeMessage (agrees : s.ArgsAgree trace) (status : ResponseStatus) :
    (closeMessage status s).2.ArgsAgree (trace ++ (closeMessage status s).1) := by
  refine agrees.keepTools (agrees.placed.closeMessage status) (by rw [closeMessage_frame]) ?_
  unfold ChatToResponsesStreamState.closeMessage
  split <;> simp [argsIndex]

theorem ArgsAgree.closeReasoning (agrees : s.ArgsAgree trace) (status : ResponseStatus) :
    (closeReasoning status s).2.ArgsAgree (trace ++ (closeReasoning status s).1) := by
  refine agrees.keepTools (agrees.placed.closeReasoning status) (by rw [closeReasoning_frame]) ?_
  unfold ChatToResponsesStreamState.closeReasoning
  split <;> simp [argsIndex]

theorem releaseReadyTools_argsAgree (force : Bool) : Sends remember ArgsAgree (releaseReadyTools force) ArgsAgree :=
  fun s trace agrees => releaseFrom_sends ArgsAgree (fun _ _ => sends_remember_iff.mpr fun _ _ held =>
    held.1.releaseTool held.2.1 held.2.2.1 held.2.2.2) force s.tools.keys s trace agrees

variable [TableOrder]

theorem argsAgree_keeps : deltaGuard.KeepsChunks remember ArgsAgree where
  think _ _ _ agrees := agrees.same { agrees.placed with } rfl
  reasoning delta := sends_remember_iff.mpr fun _ _ agrees => agrees.appendReasoningDelta delta
  text delta := sends_remember_iff.mpr fun _ _ held => held.1.appendTextDelta delta
  reason s trace reason agrees := by
    refine agrees.same (agrees.placed.applyFinishReason reason) ?_
    unfold applyFinishReason
    dsimp only
    split <;> rfl
  call call := appendToolCallDelta_rule ArgsAgree ChatTool.steady
    (sends_remember_iff.mpr fun _ _ agrees => agrees.closeReasoning _)
    (fun reasoning => sends_remember_iff.mpr fun _ _ held => held.1.receiveFrame reasoning call held.2)
    (releaseReadyTools_argsAgree false)
  done := doneDeltaEvents_rule ArgsAgree releaseReadyTools_argsAgree
    (fun status => sends_remember_iff.mpr fun _ _ agrees => agrees.closeMessage status)
    (fun status => sends_remember_iff.mpr fun _ _ agrees => agrees.closeReasoning status)
    (fun status key => sends_remember_iff.mpr fun _ _ held => held.1.finishTool held.2 status)
  header _ _ _ agrees := agrees.same { agrees.placed with } rfl
  fail _ _ _ agrees := agrees.same { agrees.placed with } rfl
  created := sends_remember_iff.mpr fun s trace agrees => by
    have placed := Placed.kept.created s agrees.placed
    unfold ensureCreated at placed ⊢
    split at placed
    next sent =>
      rw [if_pos sent, append_nil]
      exact agrees
    next unsent =>
      rw [if_neg unsent]
      exact agrees.keepTools placed rfl (by simp [argsIndex])

end KeepsArgs

theorem Placed.filter_order {s : ChatToResponsesStreamState} (placed : s.Placed) (ref : OutputRef) :
    s.outputOrder.filter (· == ref) = if (s.placeOf ref).isSome then [ref] else [] := by
  rw [filter_beq]
  split
  next listed =>
    rw [count_eq_one_of_mem placed.nodup_order (placed.mem_order_iff.mpr listed), replicate_one]
  next unlisted =>
    rw [count_eq_zero_of_not_mem (fun mem => unlisted (placed.mem_order_iff.mp mem)), replicate_zero]

section Output

variable [FloatText] {s : ChatToResponsesStreamState}

theorem outputItem_isMessage (tool : ChatTool) (status : ResponseStatus) :
    (tool.outputItem status).isMessage = false ∧ (tool.outputItem status).isReasoning = false := by
  unfold ChatTool.outputItem
  cases tool.bridged <;> cases tool.custom <;> cases tool.toolSearch <;> exact ⟨rfl, rfl⟩

theorem Placed.messageItems (placed : s.Placed) : s.finalResponse.output.filter (·.isMessage) =
    if s.textStarted then [s.messageItem s.outputStatus] else [] := by
  have kinds : ((·.isMessage) ∘ s.itemOf) = (· == .message) := by
    funext ref
    cases ref with
    | message => rfl
    | reasoning => rfl
    | tool key => exact (outputItem_isMessage _ _).1
  rw [placed.output_eq, filter_map, kinds, placed.filter_order]
  cases started : s.textStarted <;> simp [placeOf, started, itemOf]

theorem Placed.reasoningItems (placed : s.Placed) : s.finalResponse.output.filter (·.isReasoning) =
    if s.reasoningStarted then [s.reasoningItem s.outputStatus] else [] := by
  have kinds : ((·.isReasoning) ∘ s.itemOf) = (· == .reasoning) := by
    funext ref
    cases ref with
    | message => rfl
    | reasoning => rfl
    | tool key => exact (outputItem_isMessage _ _).2
  rw [placed.output_eq, filter_map, kinds, placed.filter_order]
  cases started : s.reasoningStarted <;> simp [placeOf, started, itemOf]

theorem outputItem_arguments {tool : ChatTool} (plain : tool.plain) (status : ResponseStatus) :
    (tool.outputItem status).arguments = some (.str tool.canonicalArguments) := by
  simp only [ChatTool.plain, Bool.and_eq_true, Bool.not_eq_true'] at plain
  simp [ChatTool.outputItem, plain.1.1, plain.1.2, plain.2]

theorem outputItem_function (tool : ChatTool) (status : ResponseStatus) :
    (tool.outputItem status).type = "function_call".toList ↔ tool.plain := by
  unfold ChatTool.outputItem ChatTool.plain
  cases tool.bridged <;> cases tool.custom <;> cases tool.toolSearch <;> simp [outputItem]

variable {trace : List ResponsesEvent}

theorem TextsAgree.text_agrees (agrees : s.TextsAgree trace) (placed : s.Placed)
    (closed : s.openOf .message = none) :
    if (deltas .outputText trace).isEmpty then
      dones .outputText trace = [] ∧ (s.finalResponse.output.filter (·.isMessage)).map (·.outputText) = []
    else
      dones .outputText trace = [(deltas .outputText trace).flatten] ∧
        (s.finalResponse.output.filter (·.isMessage)).map (·.outputText) =
          [(deltas .outputText trace).flatten] := by
  rw [agrees.text.begun, placed.messageItems]
  cases started : s.textStarted with
  | false => exact ⟨agrees.text.unbegun started, rfl⟩
  | true =>
    have done : s.textDone := by simpa [openOf, started] using closed
    have once := agrees.once
    rw [done, if_pos rfl] at once
    obtain ⟨text, single⟩ := length_eq_one_iff.mp once
    have last := agrees.text.ended done
    rw [single, List.getLast?_singleton, Option.some.injEq] at last
    have shown : (s.messageItem s.outputStatus).outputText = s.text := append_nil _
    rw [agrees.text.pieces, single, last]
    exact ⟨rfl, by rw [if_pos rfl, map_singleton, shown]⟩

theorem TextsAgree.reasoning_agrees (agrees : s.TextsAgree trace) (placed : s.Placed)
    (closed : s.openOf .reasoning = none) :
    if (deltas .reasoningSummary trace).isEmpty then
      dones .reasoningSummary trace = [] ∧ (s.finalResponse.output.filter (·.isReasoning)).map (·.summaryText) = []
    else
      (dones .reasoningSummary trace).getLast? = some (deltas .reasoningSummary trace).flatten ∧
        (s.finalResponse.output.filter (·.isReasoning)).map (·.summaryText) =
          [(deltas .reasoningSummary trace).flatten] := by
  rw [agrees.reasoning.begun, placed.reasoningItems]
  cases started : s.reasoningStarted with
  | false => exact ⟨agrees.reasoning.unbegun started, rfl⟩
  | true =>
    have done : s.reasoningDone := by simpa [openOf, started] using closed
    have shown : (s.reasoningItem s.outputStatus).summaryText = s.reasoning := append_nil _
    rw [agrees.reasoning.pieces]
    exact ⟨agrees.reasoning.ended done, by rw [if_pos rfl, map_singleton, shown]⟩

theorem Placed.output_at (placed : s.Placed) (place : Nat) :
    s.finalResponse.output[place]? = s.outputOrder[place]?.map s.itemOf := by
  rw [placed.output_eq, List.getElem?_map]

theorem ArgsAgree.arguments_agree (agrees : s.ArgsAgree trace) (closed : ∀ key, s.openOf (.tool key) = none)
    {place : Nat} {item : ResponsesOutputOut} (found : s.finalResponse.output[place]? = some item)
    (function : item.type = "function_call".toList) : ∃ canonical, canonical = canonicalizeJsonStringIfParseable
        (deltas .functionArguments (argsEventsAt place trace)).flatten ∧
      dones .functionArguments (argsEventsAt place trace) = [canonical] ∧
        item.arguments = some (.str canonical) := by
  rw [agrees.placed.output_at, Option.map_eq_some_iff] at found
  obtain ⟨ref, listed, rfl⟩ := found
  cases ref with
  | message => exact absurd function (show "message".toList ≠ "function_call".toList by decide)
  | reasoning => exact absurd function (show "reasoning".toList ≠ "function_call".toList by decide)
  | tool key =>
    obtain ⟨released, index⟩ := agrees.placed.toolAt_of_listed listed
    have plain := (outputItem_function _ _).mp function
    have done : (s.toolAt key).done := by simpa [openOf, running, released] using closed key
    obtain ⟨joined, ended⟩ := agrees.arguments key released plain
    rw [index] at joined ended
    rw [done, if_pos rfl] at ended
    refine ⟨(s.toolAt key).canonicalArguments, by rw [joined, canonicalArguments], ended, ?_⟩
    exact outputItem_arguments plain s.outputStatus

theorem ArgsAgree.placed_at (agrees : s.ArgsAgree trace) {event : ResponsesEvent} (mem : event ∈ trace)
    {index : Int}
    (named : event.argsIndex = some index) : ∃ (place : Nat) (item : ResponsesOutputOut), index = place ∧
      s.finalResponse.output[place]? = some item ∧ item.type = "function_call".toList := by
  obtain ⟨key, released, plain, same⟩ := agrees.known event mem index named
  obtain ⟨place, here, listed⟩ := agrees.placed.shown_toolAt released
  refine ⟨place, _, same ▸ here, by rw [agrees.placed.output_at, listed, Option.map_some], ?_⟩
  exact (outputItem_function _ _).mpr plain

theorem deltasAgree_of_state (texts : s.TextsAgree trace) (args : s.ArgsAgree trace)
    (closed : ∀ ref, s.openOf ref = none) : DeltasAgree trace s.finalResponse.output where
  text := texts.text_agrees args.placed (closed .message)
  reasoning := texts.reasoning_agrees args.placed (closed .reasoning)
  arguments _ _ found function := args.arguments_agree (fun key => closed (.tool key)) found function
  placed _ mem _ named := args.placed_at mem named

end Output

end ChatToResponsesStreamState

section Whole

variable [FloatText] [TableOrder]

open ChatToResponsesStreamState

/-- The pieces of a stream add up if its steps meet the conditions. -/
theorem responsesStream_deltasAgree (id model : Str) (created : I64) (toolCtx : ToolContext)
    (chunks : List ChatStreamChunk)
    (guarded : streamGuarded deltaGuard (.new id model created toolCtx) chunks) :
    ∃ type response error usage,
      (responsesStream id model created toolCtx chunks).getLast? = some (.terminal type response error usage) ∧
      DeltasAgree (responsesStream id model created toolCtx chunks) response.output := by
  obtain ⟨steps, ending⟩ := Bool.and_eq_true_iff.mp guarded
  have running : (forEach processChunk chunks (.new id model created toolCtx)).2.finalized = false :=
    kept_running.run rfl chunks
  have texts := sends_remember_iff.mp (textsAgree_keeps.chunks chunks) _ _ ⟨.new id model created toolCtx, steps⟩
  have args := sends_remember_iff.mp (argsAgree_keeps.chunks chunks) _ _ ⟨.new id model created toolCtx, steps⟩
  rw [responsesStream, followedBy_events, finalize, finalizeInner_events running]
  generalize forEach processChunk chunks (.new id model created toolCtx) = result at *
  obtain ⟨events, s⟩ := result
  have texts := sends_remember_iff.mp textsAgree_keeps.closing { s with finalized := true } _
    ⟨{ texts with }, ending⟩
  have args := sends_remember_iff.mp argsAgree_keeps.closing { s with finalized := true } _
    ⟨args.same { args.placed with } rfl, ending⟩
  have open_ := s.openOf_closed
  rw [← closed] at texts args
  rw [nil_append] at texts args
  generalize s.closed = t at *
  obtain ⟨status, incompleteReason, same⟩ := t.verdict_frame false
  rw [← append_assoc]
  generalize events ++ (flushContent.followedBy doneDeltaEvents { s with finalized := true }).1 = trace at *
  refine ⟨_, _, _, _, List.getLast?_concat, ?_⟩
  rw [same]
  have placed : { t with status, incompleteReason }.Placed := { args.placed with }
  have closed : ∀ ref, { t with status, incompleteReason }.openOf ref = none := by
    rintro (_ | _ | key)
    · exact open_ .message
    · exact open_ .reasoning
    · exact open_ (.tool key)
  exact deltasAgree_of_state (texts.silent ⟨⟨rfl, rfl⟩, rfl, rfl⟩ ⟨rfl, rfl, rfl⟩ ⟨rfl, rfl, rfl⟩)
    (args.keepTools placed rfl (by simp [argsIndex])) closed

end Whole

theorem textThenCall_deltasAgree :
    let _ : FloatText := Json.verbatim
    let _ : TableOrder := .sorted
    ∃ type response error usage,
      (responsesStream "resp_1".toList [] 0 .empty textThenCall).getLast? =
        some (.terminal type response error usage) ∧
      DeltasAgree (responsesStream "resp_1".toList [] 0 .empty textThenCall) response.output := by
  intro _ _
  exact responsesStream_deltasAgree "resp_1".toList [] 0 .empty textThenCall (by decide +kernel)

def textAfterFinish : List ChatStreamChunk :=
  [{ deltaChunk none [] with choices := [⟨⟨some (.str "a".toList), none, none, [], none⟩, some "stop".toList⟩] },
    deltaChunk (some "b") []]

theorem late_text_not_in_done :
    let _ : FloatText := Json.verbatim
    let _ : TableOrder := .sorted
    ∀ output, ¬DeltasAgree (responsesStream "resp_1".toList [] 0 .empty textAfterFinish) output := by
  intro _ _ output agrees
  have pieces : deltas .outputText (responsesStream "resp_1".toList [] 0 .empty textAfterFinish) =
      ["a".toList, "b".toList] := by decide +kernel
  have ended : dones .outputText (responsesStream "resp_1".toList [] 0 .empty textAfterFinish) = ["a".toList] := by
    decide +kernel
  generalize responsesStream "resp_1".toList [] 0 .empty textAfterFinish = events at agrees pieces ended
  have text := agrees.text
  rw [pieces, ended] at text
  simp at text

end LlmGateway
