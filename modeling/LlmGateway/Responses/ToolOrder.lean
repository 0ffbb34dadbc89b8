import LlmGateway.Lib.Machine
import LlmGateway.Responses.InputItems

namespace LlmGateway

open Json Text List InputItem MessageOut ShortSha256

def MessageOut.callIds (message : MessageOut) : List Str := message.toolCalls.map ToolCallOut.id

def AnsweredIn (before : List MessageOut) (id : Str) : Prop :=
  ∃ earlier caller tools, before = earlier ++ caller :: tools ∧ caller.isAssistant ∧ id ∈ caller.callIds ∧
    ∀ message ∈ tools, message.isTool

def ToolsAdjacent (messages : List MessageOut) : Prop :=
  ∀ before message after, messages = before ++ message :: after → message.isTool →
    ∃ id, message.toolCallId = some id ∧ AnsweredIn before id

section Messages

variable {messages : List MessageOut} {message : MessageOut} {id : Str}

theorem not_isTool_of_isAssistant (assistant : message.isAssistant) : message.isTool = false := by
  rw [MessageOut.isAssistant, decide_eq_true_eq] at assistant
  rw [MessageOut.isTool, assistant]
  decide

theorem answeredIn_concat : AnsweredIn (messages ++ [message]) id ↔
    message.isAssistant ∧ id ∈ message.callIds ∨ message.isTool ∧ AnsweredIn messages id := by
  refine Machine.exists_split_concat.trans (or_congr (by simp) ⟨?_, ?_⟩)
  · rintro ⟨earlier, caller, tools, rfl, assistant, made, only⟩
    obtain ⟨old, new⟩ := forall_mem_append.mp only
    exact ⟨new message mem_cons_self, earlier, caller, tools, rfl, assistant, made, old⟩
  · rintro ⟨tool, earlier, caller, tools, rfl, assistant, made, only⟩
    exact ⟨earlier, caller, tools, rfl, assistant, made, forall_mem_append.mpr ⟨only, by simpa using tool⟩⟩

theorem toolsAdjacent_concat : ToolsAdjacent (messages ++ [message]) ↔
    ToolsAdjacent messages ∧ (message.isTool → ∃ id, message.toolCallId = some id ∧ AnsweredIn messages id) :=
  Machine.forall_split_concat

theorem toolsAdjacent_concat_other (other : message.isTool = false) :
    ToolsAdjacent (messages ++ [message]) ↔ ToolsAdjacent messages := by
  rw [toolsAdjacent_concat, other]
  exact and_iff_left nofun

theorem answeredIn_bare : AnsweredIn (messages.map bare) id ↔ AnsweredIn messages id := by
  induction messages using List.reverseRecOn with
  | nil =>
    exact iff_of_false (fun ⟨_, _, _, split, _⟩ => by simp at split) (fun ⟨_, _, _, split, _⟩ => by simp at split)
  | append_singleton messages message ih =>
    rw [map_append, map_singleton, answeredIn_concat, answeredIn_concat, ih]
    rfl

theorem toolsAdjacent_bare : ToolsAdjacent (messages.map bare) ↔ ToolsAdjacent messages := by
  induction messages using List.reverseRecOn with
  | nil => rfl
  | append_singleton messages message ih =>
    rw [map_append, map_singleton, toolsAdjacent_concat, toolsAdjacent_concat, ih]
    simp only [answeredIn_bare]
    rfl

def toolScan (messages : List MessageOut) : List Str × Bool :=
  messages.foldl (fun (ids, fine) message =>
    (if message.isAssistant then message.callIds else if message.isTool then ids else [],
      fine && (!message.isTool || message.toolCallId.any fun id => ids.contains id))) ([], true)

theorem answeredIn_iff_toolScan : AnsweredIn messages id ↔ id ∈ (toolScan messages).1 := by
  induction messages using List.reverseRecOn with
  | nil => exact iff_of_false (fun ⟨_, _, _, split, _⟩ => by simp at split) not_mem_nil
  | append_singleton messages message ih =>
    rw [answeredIn_concat, ih, toolScan, toolScan, foldl_concat]
    split_ifs with assistant tool
    · simp [assistant, not_isTool_of_isAssistant assistant]
    · simp [assistant, tool]
    · simp [assistant, tool]

theorem toolsAdjacent_iff_toolScan : ToolsAdjacent messages ↔ (toolScan messages).2 := by
  induction messages using List.reverseRecOn with
  | nil => exact iff_of_true (fun _ _ _ split => by simp at split) rfl
  | append_singleton messages message ih =>
    rw [toolsAdjacent_concat, ih, toolScan, toolScan, foldl_concat]
    simp only [answeredIn_iff_toolScan]
    cases message.isTool with
    | false => simp [toolScan]
    | true => simp [toolScan, Option.any_eq_true]

instance (messages : List MessageOut) : Decidable (ToolsAdjacent messages) :=
  decidable_of_iff _ toolsAdjacent_iff_toolScan.symm

end Messages

namespace InputItem

def isMessage (item : InputItem) : Bool := item.isAssistant || item.isBoundary

end InputItem

def CalledSince (run : List InputItem → Prop) (items : List InputItem) (id : Str) : Prop :=
  ∃ earlier call later, items = earlier ++ call :: later ∧ call.madeId = some id ∧
    (∀ item ∈ later, item.isMessage = false) ∧ run (call :: later)

def Answerable : List InputItem → Str → Prop :=
  CalledSince (List.Pairwise fun one two => one.givesTool → two.isCall = false)

def Joinable : List InputItem → Str → Prop := CalledSince fun run => ∀ item ∈ run, item.givesTool = false

section Items

variable {items : List InputItem} {item : InputItem} {id : Str}

theorem calledSince_concat {run : List InputItem → Prop} : CalledSince run (items ++ [item]) id ↔
    item.madeId = some id ∧ run [item] ∨
      item.isMessage = false ∧ CalledSince (fun since => run (since ++ [item])) items id := by
  refine Machine.exists_split_concat.trans (or_congr (by simp) ⟨?_, ?_⟩)
  · rintro ⟨earlier, call, later, rfl, made, silent, ran⟩
    obtain ⟨old, new⟩ := forall_mem_append.mp silent
    exact ⟨new item mem_cons_self, earlier, call, later, rfl, made, old, ran⟩
  · rintro ⟨quiet, earlier, call, later, rfl, made, silent, ran⟩
    exact ⟨earlier, call, later, rfl, made, forall_mem_append.mpr ⟨silent, by simpa using quiet⟩, ran⟩

theorem joinable_concat : Joinable (items ++ [item]) id ↔
    item.givesTool = false ∧ (item.madeId = some id ∨ item.isMessage = false ∧ Joinable items id) := by
  unfold Joinable
  rw [calledSince_concat]
  constructor
  · rintro (⟨made, none⟩ | ⟨silent, earlier, call, later, split, made, before, none⟩)
    · exact ⟨none item mem_cons_self, .inl made⟩
    · exact ⟨none item (by simp), .inr ⟨silent, earlier, call, later, split, made, before, fun other mem =>
        none other (mem_append_left _ mem)⟩⟩
  · rintro ⟨last, made | ⟨silent, earlier, call, later, split, made, before, none⟩⟩
    · exact .inl ⟨made, by simpa using last⟩
    · refine .inr ⟨silent, earlier, call, later, split, made, before, fun other mem => ?_⟩
      rcases mem_append.mp mem with old | new
      · exact none other old
      · rw [mem_singleton.mp new, last]

theorem Joinable.answerable (joinable : Joinable items id) : Answerable items id := by
  obtain ⟨earlier, call, later, split, made, silent, none⟩ := joinable
  refine ⟨earlier, call, later, split, made, silent, pairwise_of_forall_mem_list fun one mem _ _ given => ?_⟩
  rw [none one mem] at given
  cases given

theorem answerable_concat : Answerable (items ++ [item]) id ↔ item.madeId = some id ∨
    item.isMessage = false ∧ if item.isCall then Joinable items id else Answerable items id := by
  have alone : [item].Pairwise fun one two => one.givesTool → two.isCall = false := pairwise_singleton _ _
  unfold Answerable Joinable
  rw [calledSince_concat, and_iff_left alone]
  simp only [pairwise_append, mem_singleton, forall_eq, and_iff_right alone]
  cases item.isCall with
  | true =>
    have same (since : List InputItem) :
        (since.Pairwise (fun one two => one.givesTool → two.isCall = false) ∧
          ∀ one ∈ since, one.givesTool → true = false) ↔ ∀ one ∈ since, one.givesTool = false := by
      constructor
      · rintro ⟨-, last⟩ one mem
        exact Bool.eq_false_iff.mpr fun given => Bool.noConfusion (last one mem given)
      · intro none
        have never : ∀ one ∈ since, one.givesTool ≠ true := fun one mem => Bool.eq_false_iff.mp (none one mem)
        exact ⟨pairwise_of_forall_mem_list fun one mem _ _ given => (never one mem given).elim,
          fun one mem given => (never one mem given).elim⟩
    simp only [same, if_true]
  | false => simp

theorem answerable_quiet (unmade : item.madeId = none) (silent : item.isMessage = false)
    (other : item.isCall = false) :
    Answerable (items ++ [item]) id ↔ Answerable items id := by
  simp [answerable_concat, unmade, silent, other]

theorem joinable_open (silent : item.isMessage = false) (none : item.givesTool = false) :
    Joinable (items ++ [item]) id ↔ item.madeId = some id ∨ Joinable items id := by
  simp [joinable_concat, silent, none]

theorem answerable_call (silent : item.isMessage = false) (call : item.isCall) :
    Answerable (items ++ [item]) id ↔ item.madeId = some id ∨ Joinable items id := by
  simp [answerable_concat, silent, call]

theorem not_joinable_tool (tool : item.givesTool) : ¬ Joinable (items ++ [item]) id := by
  simp [joinable_concat, tool]

theorem not_answerable_message (unmade : item.madeId = none) (message : item.isMessage) :
    ¬ Answerable (items ++ [item]) id := by
  simp [answerable_concat, unmade, message]

end Items

/-- The messages of a draft answer to its items. -/
structure Draft.Follows (draft : Draft) (items : List InputItem) : Prop where
  answered : ∀ id, AnsweredIn draft.messages id ↔ Answerable items id
  joined : (∃ last ∈ draft.flush.getLast?, last.isAssistant) → ∀ id, Answerable items id → Joinable items id
  opened : (∀ last ∈ draft.flush.getLast?, last.isAssistant = false) → ∀ id, ¬ Joinable items id

namespace Draft

variable {draft : Draft} {items : List InputItem}
  {before : List MessageOut} {content : Json} {callId : Str} {item : InputItem} (tool : ToolCallOut)

theorem flush_of_assistant {last : MessageOut} (whole : draft.flush = before ++ [last])
    (assistant : last.isAssistant) : draft.messages = before ++ [last] := by
  unfold flush flushPendingMedia at whole
  split_ifs at whole
  · exact whole
  · obtain ⟨-, same⟩ := append_inj' whole rfl
    cases singleton_inj.mp same
    cases assistant

theorem toolsAdjacent_flush : ToolsAdjacent draft.flush ↔ ToolsAdjacent draft.messages := by
  unfold flush flushPendingMedia
  split_ifs
  · rfl
  · exact toolsAdjacent_concat_other rfl

theorem toolsAdjacent_callTool :
    ToolsAdjacent (draft.callTool tool).messages ↔ ToolsAdjacent draft.messages := by
  rw [callTool]
  rcases appendToolCall_cases draft.flush tool with ⟨before, last, whole, assistant, joined⟩ | ⟨other, opened⟩
  · have called : MessageOut.isAssistant { last with toolCalls := last.toolCalls ++ [tool] } := assistant
    rw [joined, flush_of_assistant whole assistant, toolsAdjacent_concat_other (not_isTool_of_isAssistant called),
      toolsAdjacent_concat_other (not_isTool_of_isAssistant assistant)]
  · rw [opened, toolsAdjacent_concat_other rfl, toolsAdjacent_flush]

theorem Follows.answeredIn_callTool (follows : draft.Follows items) (tool : ToolCallOut) (id : Str) :
    AnsweredIn (draft.callTool tool).messages id ↔ tool.id = id ∨ Joinable items id := by
  rw [callTool]
  rcases appendToolCall_cases draft.flush tool with ⟨before, last, whole, assistant, joined⟩ | ⟨other, opened⟩
  · have called : MessageOut.isAssistant { last with toolCalls := last.toolCalls ++ [tool] } := assistant
    have ids : MessageOut.callIds { last with toolCalls := last.toolCalls ++ [tool] } =
        last.callIds ++ [tool.id] := by
      simp [MessageOut.callIds]
    have old := follows.answered id
    have same : Joinable items id ↔ Answerable items id :=
      ⟨Joinable.answerable, follows.joined ⟨last, by simp [whole], assistant⟩ id⟩
    rw [flush_of_assistant whole assistant, answeredIn_concat, not_isTool_of_isAssistant assistant] at old
    rw [joined, answeredIn_concat, not_isTool_of_isAssistant called, same, ← old, ids]
    simp [assistant, called, eq_comm, or_comm]
  · have fresh : (⟨assistantRole, none, [tool], none, none⟩ : MessageOut).isAssistant := rfl
    rw [opened, answeredIn_concat, not_isTool_of_isAssistant fresh]
    simp [fresh, MessageOut.callIds, follows.opened other id, eq_comm]

theorem follows_closed (answered : ∀ id, AnsweredIn draft.messages id ↔ Answerable items id)
    (closed : ∀ last ∈ draft.flush.getLast?, last.isAssistant = false) (none : ∀ id, ¬ Joinable items id) :
    draft.Follows items := by
  refine ⟨answered, ?_, fun _ => none⟩
  rintro ⟨last, mem, assistant⟩
  rw [closed last mem] at assistant
  cases assistant

theorem follows_nothing (unanswered : ∀ id, ¬ AnsweredIn draft.messages id) (none : ∀ id, ¬ Answerable items id) :
    draft.Follows items :=
  ⟨fun id => iff_of_false (unanswered id) (none id), fun _ id answerable => (none id answerable).elim,
    fun _ id joinable => none id joinable.answerable⟩

theorem not_answeredIn_plain {role : Str} (proper : role ≠ toolRole) (content : Json) (id : Str) :
    ¬ AnsweredIn (before ++ [plainMessage role content]) id := by
  have other : (plainMessage role content).isTool = false := decide_eq_false proper
  rw [answeredIn_concat, other]
  simp [plainMessage, MessageOut.callIds]

theorem getLast_flush_tool (media : List Json) :
    ∀ last ∈ (flush ⟨before ++ [toolMessage callId content], media⟩).getLast?, last.isAssistant = false := by
  intro last mem
  unfold flush flushPendingMedia at mem
  split_ifs at mem
  · rw [List.getLast?_concat, Option.mem_some] at mem
    rw [← mem]
    rfl
  · rw [List.getLast?_concat, Option.mem_some] at mem
    rw [← mem]
    rfl

theorem follows_nil {messages : List MessageOut} (none : ∀ message ∈ messages, message.isAssistant = false) :
    Follows ⟨messages, []⟩ [] := by
  refine follows_nothing ?_ ?_
  · rintro id ⟨earlier, caller, tools, rfl, assistant, -⟩
    rw [none caller (by simp)] at assistant
    cases assistant
  · rintro id ⟨earlier, call, later, split, -⟩
    simp at split

theorem getLast_callTool :
    ∃ last ∈ (draft.callTool tool).flush.getLast?, last.isAssistant := by
  have same : (draft.callTool tool).flush = appendToolCallToLastAssistant draft.flush tool := rfl
  rw [same]
  rcases appendToolCall_cases draft.flush tool with ⟨before, last, -, assistant, joined⟩ | ⟨-, opened⟩
  · rw [joined, List.getLast?_concat]
    exact ⟨_, rfl, assistant⟩
  · rw [opened, List.getLast?_concat]
    exact ⟨_, rfl, rfl⟩

theorem Follows.quiet (follows : draft.Follows items) (unmade : item.madeId = none)
    (silent : item.isMessage = false) (other : item.isCall = false) (none : item.givesTool = false) :
    draft.Follows (items ++ [item]) := by
  have joins (id : Str) : Joinable (items ++ [item]) id ↔ Joinable items id := by
    simp [joinable_open silent none, unmade]
  refine ⟨fun id => ?_, fun last id => ?_, fun last id => ?_⟩
  · rw [follows.answered, answerable_quiet unmade silent other]
  · rw [answerable_quiet unmade silent other, joins]
    exact follows.joined last id
  · rw [joins]
    exact follows.opened last id

theorem answeredIn_toolMessage {id : Str} :
    AnsweredIn (before ++ [toolMessage callId content]) id ↔ AnsweredIn before id := by
  rw [answeredIn_concat]
  exact ⟨fun either => either.elim (fun assistant => nomatch assistant.1) And.right, fun old => .inr ⟨rfl, old⟩⟩

theorem Follows.take (follows : draft.Follows items) (proper : item.Proper) :
    (draft.take item).Follows (items ++ [item]) := by
  cases item with
  | reasoning text => exact follows.quiet rfl rfl rfl rfl
  | call tool embedded =>
    have calls (id : Str) : tool.id = id ∨ Joinable items id ↔ Answerable (items ++ [.call tool embedded]) id := by
      rw [answerable_call rfl rfl, madeId, Option.some.injEq]
    have joins (id : Str) : Joinable (items ++ [.call tool embedded]) id ↔ tool.id = id ∨ Joinable items id := by
      rw [joinable_open rfl rfl, madeId, Option.some.injEq]
    refine ⟨fun id => (follows.answeredIn_callTool tool id).trans (calls id), ?_, fun closed => ?_⟩
    · exact fun _ id answerable => (joins id).mpr ((calls id).mpr answerable)
    · obtain ⟨last, mem, assistant⟩ := draft.getLast_callTool tool
      rw [closed last mem] at assistant
      cases assistant
  | webSearch tool results embedded =>
    refine follows_closed (fun id => ?_) (getLast_flush_tool _) fun id => not_joinable_tool rfl
    rw [answerable_call rfl rfl, madeId, Option.some.injEq, ← follows.answeredIn_callTool tool id]
    exact answeredIn_toolMessage
  | output callId content media =>
    refine follows_closed (fun id => ?_) (getLast_flush_tool _) fun id => not_joinable_tool rfl
    rw [answerable_quiet rfl rfl rfl, ← follows.answered id]
    exact answeredIn_toolMessage
  | assistant content embedded =>
    exact follows_nothing (not_answeredIn_plain (by decide) content) fun id => not_answerable_message rfl rfl
  | boundary role content =>
    exact follows_nothing (not_answeredIn_plain proper content) fun id => not_answerable_message rfl rfl
  | skipped => exact follows.quiet rfl rfl rfl rfl

theorem toolsAdjacent_toolMessage :
    ToolsAdjacent (before ++ [toolMessage callId content]) ↔ ToolsAdjacent before ∧ AnsweredIn before callId := by
  rw [toolsAdjacent_concat]
  refine and_congr_right fun _ => ⟨fun answers => ?_, fun answered _ => ⟨callId, rfl, answered⟩⟩
  obtain ⟨id, same, answered⟩ := answers rfl
  cases same
  exact answered

attribute [local simp] InputItem.answeredId

theorem Follows.toolsAdjacent_take (follows : draft.Follows items) (proper : item.Proper) :
    ToolsAdjacent (draft.take item).messages ↔
      ToolsAdjacent draft.messages ∧ ∀ id ∈ item.answeredId, Answerable items id := by
  cases item with
  | output callId content media =>
    refine toolsAdjacent_toolMessage.trans (and_congr_right fun _ => ?_)
    rw [follows.answered]
    simp
  | webSearch tool results embedded =>
    have answered : AnsweredIn (draft.callTool tool).messages tool.id :=
      (follows.answeredIn_callTool tool tool.id).mpr (.inl rfl)
    refine toolsAdjacent_toolMessage.trans ?_
    rw [toolsAdjacent_callTool]
    simp [answered]
  | reasoning text => simp [Draft.take]
  | call tool embedded =>
    refine (toolsAdjacent_callTool tool).trans ?_
    simp
  | assistant content embedded =>
    refine (toolsAdjacent_concat_other rfl).trans ?_
    simp
  | boundary role content =>
    have other : (plainMessage role content).isTool = false := decide_eq_false proper
    refine (toolsAdjacent_concat_other other).trans ?_
    rw [toolsAdjacent_flush]
    simp
  | skipped => simp [Draft.take]

theorem Follows.run {items : List InputItem} (proper : ∀ item ∈ items, item.Proper) (start : draft.Follows []) :
    (items.foldl Draft.take draft).Follows items := by
  induction items using List.reverseRecOn with
  | nil => exact start
  | append_singleton items item ih =>
    rw [foldl_concat]
    exact (ih fun other mem => proper other (mem_append_left _ mem)).take (proper item (by simp))

end Draft

def OutputsFollow (items : List InputItem) : Prop :=
  ∀ earlier item later, items = earlier ++ item :: later → ∀ id ∈ item.answeredId, Answerable earlier id

theorem outputsFollow_concat {items : List InputItem} {item : InputItem} :
    OutputsFollow (items ++ [item]) ↔ OutputsFollow items ∧ ∀ id ∈ item.answeredId, Answerable items id :=
  Machine.forall_split_concat

theorem Draft.toolsAdjacent_run {draft : Draft} {items : List InputItem} (proper : ∀ item ∈ items, item.Proper)
    (start : draft.Follows []) (adjacent : ToolsAdjacent draft.messages) :
    ToolsAdjacent (items.foldl Draft.take draft).messages ↔ OutputsFollow items := by
  induction items using List.reverseRecOn with
  | nil => exact iff_of_true adjacent fun earlier item later split => by simp at split
  | append_singleton items item ih =>
    have before : ∀ other ∈ items, other.Proper := fun other mem => proper other (mem_append_left _ mem)
    rw [foldl_concat, (start.run before).toolsAdjacent_take (proper item (by simp)), ih before,
      outputsFollow_concat]

section Request

variable [FloatText] [ShortSha256]

/-- The tool messages are next to their calls exactly when the outputs come while the calls can be answered. -/
theorem tool_messages_adjacent_iff {req : Json} {ctx : ToolContext} {given : List Json} {messages : List MessageOut}
    (found : rawPresent (req.get "input") = some (.arr given))
    (converted : requestMessagesToChat req ctx = .ok messages) :
    ∃ items, given.mapM (read ctx) = .ok items ∧ (ToolsAdjacent messages ↔ OutputsFollow items) := by
  obtain ⟨items, read, rfl⟩ := requestMessages_of_array found converted
  have proper := proper_of_mapM read
  have others := systemMessages_others req
  have start : Draft.Follows ⟨(systemMessages req).map bare, []⟩ [] := by
    refine Draft.follows_nil fun message member => ?_
    obtain ⟨old, inside, rfl⟩ := mem_map.mp member
    exact (others old inside).1
  have adjacent : ToolsAdjacent ((systemMessages req).map bare) := by
    refine toolsAdjacent_bare.mpr fun before message after split tool => ?_
    rw [(others message (by simp [split])).2.1] at tool
    cases tool
  refine ⟨items, read, ?_⟩
  rw [← toolsAdjacent_bare, Conversion.bare_finish, Draft.toolsAdjacent_flush, Conversion.bare_run]
  exact Draft.toolsAdjacent_run proper start adjacent

end Request

def answersEarlier : List Str → List InputItem → Bool
  | _, [] => true
  | made, item :: rest =>
    item.answeredId.all (made.contains ·) && answersEarlier (made ++ item.madeId.toList) rest

def CallsFirst (items : List InputItem) : Prop :=
  ∀ turn ∈ items.splitOnP isBoundary,
    turn.Pairwise (fun one two => one.isOutput → two.isCall = false) ∧ answersEarlier [] turn

instance (items : List InputItem) : Decidable (CallsFirst items) :=
  inferInstanceAs (Decidable (∀ turn ∈ items.splitOnP isBoundary,
    turn.Pairwise (fun one two => one.isOutput → two.isCall = false) ∧ answersEarlier [] turn))

def functionCallItem (id : String) : Json :=
  .obj [("call_id", .str id.toList), ("name", .str "read_file".toList), ("type", .str "function_call".toList)]

def functionOutputItem (id : String) : Json :=
  .obj [("call_id", .str id.toList), ("output", .str "done".toList), ("type", .str "function_call_output".toList)]

def webSearchItem : Json := .obj [("id", .str "ws".toList), ("type", .str "web_search_call".toList)]

def arrayRequest (items : List Json) : Json := .obj [("input", .arr items)]

def searchBetween : List Json :=
  [functionCallItem "a", webSearchItem, functionCallItem "b", functionOutputItem "a", functionOutputItem "b"]

def noTools : ToolContext := @ToolContext.fromRequest blank (.obj [])

/-- The second call opens a message of its own, and the output of the first one comes after it. -/
theorem search_parts_calls : ∃ items messages,
    searchBetween.mapM (@read verbatim blank noTools) = .ok items ∧ CallsFirst items ∧
      @requestMessagesToChat verbatim blank (arrayRequest searchBetween) noTools = .ok messages ∧
      ¬ ToolsAdjacent messages := by
  have first : (searchBetween.mapM (@read verbatim blank noTools)).toOption.any
      (fun items => decide (CallsFirst items)) := by decide +kernel
  have parted : (@requestMessagesToChat verbatim blank (arrayRequest searchBetween) noTools).toOption.any
      (fun messages => decide (¬ ToolsAdjacent messages)) := by decide +kernel
  obtain ⟨items, read, first⟩ := Fallible.exists_of_any first
  obtain ⟨messages, converted, parted⟩ := Fallible.exists_of_any parted
  exact ⟨items, messages, read, of_decide_eq_true first, converted, of_decide_eq_true parted⟩

def searchFirst : List Json :=
  [webSearchItem, functionCallItem "a", functionCallItem "b", functionOutputItem "b", functionOutputItem "a"]

theorem search_first_follows : ∃ items,
    searchFirst.mapM (@read verbatim blank noTools) = .ok items ∧ OutputsFollow items := by
  have adjacent : (@requestMessagesToChat verbatim blank (arrayRequest searchFirst) noTools).toOption.any
      (fun messages => decide (ToolsAdjacent messages)) := by decide +kernel
  obtain ⟨messages, converted, adjacent⟩ := Fallible.exists_of_any adjacent
  obtain ⟨items, read, same⟩ := @tool_messages_adjacent_iff verbatim blank _ _ searchFirst _ rfl converted
  exact ⟨items, read, same.mp (of_decide_eq_true adjacent)⟩

end LlmGateway
