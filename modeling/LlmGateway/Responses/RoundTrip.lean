import LlmGateway.Responses.InputItems
import LlmGateway.Responses.ItemConversion

namespace LlmGateway

open Json Text List Option ShortSha256 MessageOut ToolContext ResponsesOutputOut

/-- A tool call of a chat answer. -/
structure ChatToolCall where
  id : Str
  name : Str
  arguments : Str

/-- A turn of the assistant: text, reasoning and tool calls. -/
structure ChatTurn where
  text : Str
  reasoning : Str
  calls : List ChatToolCall

/-- The call as it is written in an answer. -/
structure ChatToolCall.WrittenAs (call : ChatToolCall) (json : Json) : Prop where
  id : json.getStr "id" = some call.id
  type : json.getStr "type" = none ∨ json.getStr "type" = some "function".toList
  name : toolCallFunction json "name" = some (.str call.name)
  arguments : toolCallFunction json "arguments" = some (.str call.arguments)

/-- The message of an answer, which has nothing but the turn in it. -/
structure ChatTurn.WrittenAs (turn : ChatTurn) (message : Json) : Prop where
  text : message.get "content" = some (.str turn.text)
  reasoning : extractMessageReasoning message = turn.reasoning
  calls : List.Forall₂ ChatToolCall.WrittenAs turn.calls (((message.get "tool_calls").bind Json.asArr).getD [])
  refusal : rawPresent (message.get "refusal") = none
  legacy : rawPresent (message.get "function_call") = none

def ChatTurn.AnsweredBy (turn : ChatTurn) (resp : Json) : Prop :=
  ∃ choice message, resp.get "choices" = some (.arr [choice]) ∧ choice.get "message" = some message ∧
    turn.WrittenAs message

def ChatToolCall.toJson (call : ChatToolCall) : Json :=
  .obj [("function", .obj [("arguments", .str call.arguments), ("name", .str call.name)]), ("id", .str call.id),
    ("type", .str "function".toList)]

def ChatTurn.message (turn : ChatTurn) : Json :=
  .obj [("content", .str turn.text), ("reasoning_content", .str turn.reasoning),
    ("tool_calls", .arr (turn.calls.map ChatToolCall.toJson))]

def ChatTurn.answer (turn : ChatTurn) : Json :=
  .obj [("choices", .arr [.obj [("finish_reason", .str "stop".toList), ("message", turn.message)]])]

theorem ChatTurn.answeredBy_answer (turn : ChatTurn) : turn.AnsweredBy turn.answer := by
  have calls : List.Forall₂ ChatToolCall.WrittenAs turn.calls (turn.calls.map ChatToolCall.toJson) := by
    rw [forall₂_map_right_iff, forall₂_same]
    exact fun call _ => ⟨rfl, .inr rfl, rfl, rfl⟩
  exact ⟨_, turn.message, rfl, rfl, ⟨rfl, rfl, calls, rfl, rfl⟩⟩

section Turn

variable [FloatText] [ShortSha256] {turn : ChatTurn} {before : List MessageOut}

/-- The call has an identifier, names a declared tool, and its arguments are an object. -/
structure ChatToolCall.Declared (call : ChatToolCall) (ctx : ToolContext) (spec : ToolSpec)
    (fields : Fields) : Prop where
  id : isBlank call.id = false
  tool : ctx.lookup call.name = some spec
  arguments : parse (trim call.arguments) = some (.obj fields)
  input : spec.kind = .custom → ∃ text, fields = [("input", .str text)]

def ToolSpec.nameAgain (spec : ToolSpec) (chatName : Str) : Str :=
  match spec.kind, spec.ns with
  | .namespaced, some ns => if isBlank ns then spec.name else flattenNamespaceToolName (trim ns) spec.name
  | _, _ => chatName

def argumentsAgain (kind : ToolKind) (fields : Fields) : Str :=
  let canonical := (Json.obj fields).print
  match kind with
  | .custom => canonical
  | .toolSearch => canonicalJsonString (parseToolArgumentsObject canonical)
  | _ => canonicalizeJsonStringIfParseable canonical

def SettledNumbers (kind : ToolKind) (value : Json) : Prop :=
  match kind with
  | .custom => True
  | .toolSearch => value.reread = some value
  | _ => value.reread = none ∨ value.reread = some value

variable {ctx next : ToolContext} {call : ChatToolCall} {spec : ToolSpec} {fields : Fields}

omit [FloatText] [ShortSha256] in
theorem isBlank_printObject (fields : Fields) : isBlank (Json.obj fields).print = false := by
  rw [isBlank, trim_printObject]
  rfl

omit [ShortSha256] in
theorem canonicalize_printObject_filled (fits : (Json.obj fields).Fits maxDepth) :
    isBlank (canonicalizeJsonStringIfParseable (Json.obj fields).print) = false := by
  rw [canonicalize_printObject fits, reread]
  cases reread.rereadFields fields with
  | none => exact isBlank_printObject fields
  | some others => exact isBlank_printObject others

omit [ShortSha256] in
theorem customToolInput_again {text : Str} (fits : (Json.obj [("input", .str text)]).Fits maxDepth) :
    customToolInputFromChatArguments (Json.obj [("input", .str text)]).print = text := by
  have read : parse (Json.obj [("input", .str text)]).print = some (.obj [("input", .str text)]) :=
    (parse_print fits).trans rfl
  rw [customToolInputFromChatArguments, isBlank_printObject, read]
  rfl

omit [FloatText] [ShortSha256] in
theorem length_escapeChar (c : Char) : 1 ≤ (escapeChar c).length := by
  unfold escapeChar
  split_ifs <;> simp

omit [FloatText] [ShortSha256] in
theorem length_printString (text : Str) : text.length < (printString text).length := by
  have longer : text.length ≤ (text.flatMap escapeChar).length := by
    induction text with
    | nil => exact Nat.le_refl _
    | cons c text ih =>
      have first := length_escapeChar c
      rw [flatMap_cons, length_append, length_cons]
      omega
  rw [printString, length_cons, length_append]
  omega

omit [ShortSha256] in
theorem toolSearchArguments_iff (fits : (Json.obj fields).Fits maxDepth) :
    canonicalJsonString (parseToolArgumentsObject (Json.obj fields).print) = (Json.obj fields).print ↔
      (Json.obj fields).reread = some (.obj fields) := by
  have read : parse (Json.obj fields).print = (Json.obj fields).reread := parse_print fits
  cases again : reread.rereadFields fields with
  | none =>
    have unreadable : (Json.obj fields).reread = none := by rw [reread, again, map_none]
    have wrapped : parseToolArgumentsObject (Json.obj fields).print =
        .obj [("query", .str (Json.obj fields).print)] := by
      simp [parseToolArgumentsObject, isBlank_printObject, read, unreadable]
    rw [wrapped, unreadable]
    refine iff_of_false ?_ (by simp)
    intro same
    have longer := length_printString (Json.obj fields).print
    have lengths := congrArg List.length same
    generalize (Json.obj fields).print = text at longer lengths
    have printed : canonicalJsonString (.obj [("query", .str text)]) =
        '{' :: (printString "query".toList ++ ':' :: printString text ++ ['}']) := rfl
    simp only [printed, length_cons, length_append] at lengths
    omega
  | some others =>
    have readable : (Json.obj fields).reread = some (.obj others) := by rw [reread, again, map_some]
    have fitsAgain : (Json.obj others).Fits maxDepth := fits_of_parse (read.trans readable)
    have parsed : parseToolArgumentsObject (Json.obj fields).print = .obj others := by
      simp [parseToolArgumentsObject, isBlank_printObject, read, readable]
    rw [parsed, canonicalJsonString_of_fits fitsAgain, readable, Option.some.injEq]
    exact ⟨print_injective fitsAgain fits, congrArg Json.print⟩

omit [ShortSha256] in
theorem argumentsAgain_iff (declared : call.Declared ctx spec fields) :
    argumentsAgain spec.kind fields = (Json.obj fields).print ↔ SettledNumbers spec.kind (.obj fields) := by
  have fits : (Json.obj fields).Fits maxDepth := fits_of_parse declared.arguments
  cases spec.kind with
  | function => exact canonicalize_printObject_iff fits
  | custom => exact iff_of_true rfl trivial
  | namespaced => exact canonicalize_printObject_iff fits
  | toolSearch => exact toolSearchArguments_iff fits

omit [FloatText] in
theorem chatNameFor_nameAgain (registered : next.Registered) (chatName : Str) {name ns : Str} :
    next.chatNameFor name (nonBlank ns) = ToolSpec.nameAgain ⟨.namespaced, name, some ns⟩ chatName := by
  unfold ToolSpec.nameAgain
  dsimp only
  cases blank : isBlank ns with
  | true =>
    rw [nonBlank_of_blank blank, if_pos rfl]
    rfl
  | false =>
    rw [nonBlank_of_filled blank, chatNameFor_flatten registered blank, if_neg Bool.false_ne_true]

theorem convert_toolOutput (declared : call.Declared ctx spec fields) (registered : ctx.Registered)
    (again : next.Registered) {json : Json} (written : call.WrittenAs json) (id : Str) (index : Nat)
    (status : ResponseStatus) (reasoning : Str) (state : Conversion) :
    inputItemToChatMessages next state
        (chatToolCallToResponsesOutput json id index status (nonBlank reasoning) ctx).toJson =
      .ok (state.callTool (toolCallOf (trim call.id) (spec.nameAgain call.name) (argumentsAgain spec.kind fields))
        (nonBlank reasoning)) := by
  have fits : (Json.obj fields).Fits maxDepth := fits_of_parse declared.arguments
  have callId : ((json.getStr "id").bind nonBlank).getD (id ++ "_call_".toList ++ Nat.toDigits 10 index) =
      trim call.id := by
    rw [written.id, bind_some, nonBlank_of_filled declared.id]
    rfl
  have trimmed : nonBlank (trim call.id) = some (trim call.id) := nonBlank_nonBlank (nonBlank_of_filled declared.id)
  have name : ((toolCallFunction json "name").bind Json.asStr).getD [] = call.name := by
    rw [written.name]
    rfl
  have canonical : ((toolCallFunction json "arguments").map fun value =>
      canonicalizeJsonStringIfParseable (argumentsString value)).getD [] = (Json.obj fields).print := by
    rw [written.arguments]
    exact canonicalize_object declared.arguments
  have type : (json.getStr "type").getD "function".toList = "function".toList := by
    rcases written.type with absent | given
    · rw [absent]
      rfl
    · rw [given]
      rfl
  have kept : ((nonBlank reasoning).filter fun text => !isBlank text).filter (fun text => !isBlank text) =
      nonBlank reasoning := by
    cases found : nonBlank reasoning with
    | none => rfl
    | some text => rw [filter_filled (isBlank_of_nonBlank found), filter_filled (isBlank_of_nonBlank found)]
  obtain ⟨filled, trimmedName, named⟩ := registered.specs declared.tool
  unfold chatToolCallToResponsesOutput
  dsimp only
  rw [callId, name, canonical, type, declared.tool]
  obtain ⟨kind, specName, ns⟩ := spec
  cases kind with
  | function =>
    have same : specName = call.name := named
    subst same
    refine Eq.trans (convert_functionCall rfl rfl trimmed rfl trimmedName rfl (canonicalize_printObject_filled fits)
      state) ?_
    rw [kept]
    rfl
  | custom =>
    have same : specName = call.name := named
    subst same
    obtain ⟨text, rfl⟩ := declared.input rfl
    refine Eq.trans (convert_customCall rfl rfl trimmed rfl trimmedName rfl state) ?_
    rw [kept, customToolInput_again fits]
    rfl
  | namespaced =>
    cases ns with
    | none => exact named.elim
    | some ns =>
      refine Eq.trans (convert_functionCall rfl rfl trimmed rfl trimmedName rfl
        (canonicalize_printObject_filled fits) state) ?_
      rw [kept, bind_some, chatNameFor_nameAgain again call.name]
      rfl
  | toolSearch =>
    have same : toolSearchProxyName = call.name := named
    refine Eq.trans (convert_toolSearchCall rfl rfl trimmed rfl state) ?_
    rw [kept, same]
    rfl

def ChatToolCall.again (call : ChatToolCall) (ctx : ToolContext) : ToolCallOut :=
  match ctx.lookup call.name, parse (trim call.arguments) with
  | some spec, some (.obj fields) =>
    toolCallOf (trim call.id) (spec.nameAgain call.name) (argumentsAgain spec.kind fields)
  | _, _ => toolCallOf call.id call.name call.arguments

def ChatToolCall.Kept (call : ChatToolCall) (ctx : ToolContext) : Prop :=
  trim call.id = call.id ∧ ∀ spec value, ctx.lookup call.name = some spec →
    parse (trim call.arguments) = some value →
    spec.nameAgain call.name = call.name ∧ SettledNumbers spec.kind value

def ChatToolCall.sent (call : ChatToolCall) : ToolCallOut :=
  toolCallOf call.id call.name (canonicalizeJsonStringIfParseable call.arguments)

theorem again_eq_sent_iff (declared : call.Declared ctx spec fields) :
    call.again ctx = call.sent ↔ call.Kept ctx := by
  have canonical : canonicalizeJsonStringIfParseable call.arguments = (Json.obj fields).print :=
    canonicalize_object declared.arguments
  have numbers := argumentsAgain_iff declared
  simp only [ChatToolCall.again, ChatToolCall.sent, ChatToolCall.Kept, declared.tool, declared.arguments, canonical,
    toolCallOf, ToolCallOut.mk.injEq, FunctionOut.mk.injEq, Option.some.injEq, true_and, numbers]
  refine and_congr_right fun _ => ⟨?_, fun kept => kept spec (.obj fields) rfl rfl⟩
  rintro kept _ _ rfl rfl
  exact kept

theorem namedToolCall_of_declared (declared : call.Declared ctx spec fields) (registered : ctx.Registered)
    {json : Json} (written : call.WrittenAs json) : namedToolCall json := by
  have filled : isBlank call.name = false := (registered.specs declared.tool).1
  rw [namedToolCall, written.name]
  change (nonBlank call.name).isSome
  rw [nonBlank_of_filled filled]
  rfl

theorem foldlM_toolOutputs (registered : ctx.Registered) (again : next.Registered) {calls : List ChatToolCall}
    {jsons : List Json} (written : List.Forall₂ ChatToolCall.WrittenAs calls jsons)
    (declared : ∀ call ∈ calls, ∃ spec fields, call.Declared ctx spec fields) (id : Str) (status : ResponseStatus)
    (reasoning : Str) (index : Nat) (state : Conversion) :
    ((((jsons.zipIdx index).filter fun call => namedToolCall call.1).map fun call =>
        chatToolCallToResponsesOutput call.1 id call.2 status (nonBlank reasoning) ctx).map
          toJson).foldlM (inputItemToChatMessages next) state =
      .ok ((calls.map (·.again ctx)).foldl (fun state tool => state.callTool tool (nonBlank reasoning)) state) := by
  induction written generalizing index state with
  | nil => rfl
  | cons first others ih =>
    rename_i call json calls jsons
    obtain ⟨spec, fields, known⟩ := declared call mem_cons_self
    have rest := ih fun other mem => declared other (mem_cons_of_mem _ mem)
    have named : ((json, index) :: jsons.zipIdx (index + 1)).filter (fun call => namedToolCall call.1) =
        (json, index) :: (jsons.zipIdx (index + 1)).filter fun call => namedToolCall call.1 :=
      filter_cons_of_pos (namedToolCall_of_declared known registered first)
    have same : call.again ctx =
        toolCallOf (trim call.id) (spec.nameAgain call.name) (argumentsAgain spec.kind fields) := by
      simp [ChatToolCall.again, known.tool, known.arguments]
    rw [zipIdx_cons, named, map_cons, map_cons, foldlM_cons,
      convert_toolOutput known registered again first, map_cons, foldl_cons, same]
    exact rest (index + 1) _

omit [FloatText] [ShortSha256] in
theorem separateThink_text_iff (text reasoning : Str) :
    (separateThink text reasoning).1 = text ↔ splitLeadingThink text = none := by
  unfold separateThink
  cases split : splitLeadingThink text with
  | none => exact iff_of_true rfl rfl
  | some pieces =>
    obtain ⟨think, rest⟩ := pieces
    refine iff_of_false ?_ (by simp)
    intro same
    obtain ⟨opened, first, second⟩ := bind_eq_some_iff.mp split
    have front := congrArg List.length (cutAt_eq_append first)
    have back := congrArg List.length (cutAt_eq_append second)
    have shorter : text.length ≤ rest.length := same ▸ trim_sublist.length_le
    have tag : thinkOpen.length = 7 := rfl
    simp only [length_append] at front back
    omega

omit [FloatText] [ShortSha256] in
theorem absent_of_rawPresent {value : Option Json} (absent : rawPresent value = none) :
    value = none ∨ value = some .null := by
  cases value with
  | none => exact .inl rfl
  | some json =>
    cases json with
    | null => exact .inr rfl
    | _ => cases absent

omit [ShortSha256] in
theorem messageOutputs_turn {message : Json} (written : turn.WrittenAs message) (id : Str)
    (status : ResponseStatus) (ctx : ToolContext) :
    messageOutputs message id status ctx =
      (if (separateThink turn.text turn.reasoning).2.isEmpty then []
        else [reasoningOutput id status (separateThink turn.text turn.reasoning).2]) ++
      (if (separateThink turn.text turn.reasoning).1.isEmpty then []
        else [messageOutput id status (separateThink turn.text turn.reasoning).1 []]) ++
      toolOutputs (((message.get "tool_calls").bind Json.asArr).getD []) id status
        (separateThink turn.text turn.reasoning).2 ctx := by
  have refusal : message.getStr "refusal" = none := by
    rcases absent_of_rawPresent written.refusal with absent | null
    · rw [getStr, absent, bind_none]
    · rw [getStr, null]
      rfl
  have texts : extractMessageTextAndRefusals message = (turn.text, []) := by
    simp only [extractMessageTextAndRefusals, written.text, refusal, getD_none]
    split_ifs with empty
    · rw [isEmpty_iff.mp empty]
    · rfl
  have legacy : ∀ output reasoning, legacyToolOutput message output id status reasoning ctx = [] := by
    intro output reasoning
    unfold legacyToolOutput
    rcases absent_of_rawPresent written.legacy with absent | null
    · simp only [absent, ite_self]
    · have nameless : (Json.getStr .null "name").bind nonBlank = none := rfl
      simp only [null, nameless, ite_self]
  simp [messageOutputs, texts, written.reasoning, refusal, legacy, filter_none, toList_none, isEmpty_nil]

omit [FloatText] [ShortSha256] in
def afterText (before : List MessageOut) (text reasoning : Str) : Conversion :=
  let pending := (some reasoning).filter fun text => !isBlank text
  if text.isEmpty then ⟨before, pending, []⟩
    else ⟨before ++ [⟨assistantRole, some (.str text), [], none, pending⟩], none, []⟩

omit [FloatText] [ShortSha256] in
theorem appendPendingReasoning_none (text : Str) :
    appendPendingReasoning none (some text) = (some text).filter fun text => !isBlank text := by
  cases blank : isBlank text with
  | true => rw [appendPendingReasoning, filter_blank blank]
  | false => rw [appendPendingReasoning, filter_filled blank]

omit [FloatText] [ShortSha256] in
theorem filter_twice (reasoning : Option Str) :
    (reasoning.filter fun text => !isBlank text).filter (fun text => !isBlank text) =
      reasoning.filter fun text => !isBlank text := by
  cases reasoning with
  | none => rfl
  | some text =>
    cases blank : isBlank text with
    | true => rw [filter_blank blank, filter_none]
    | false => rw [filter_filled blank, filter_filled blank]

theorem foldlM_text (before : List MessageOut) (id : Str) (status : ResponseStatus) (text reasoning : Str) :
    (((if reasoning.isEmpty then [] else [reasoningOutput id status reasoning]) ++
        (if text.isEmpty then [] else [messageOutput id status text []])).map toJson).foldlM
          (inputItemToChatMessages next) ⟨before, none, []⟩ =
      .ok (afterText before text reasoning) := by
  have thought : ((if reasoning.isEmpty then [] else [reasoningOutput id status reasoning]).map
      toJson).foldlM (inputItemToChatMessages next) ⟨before, none, []⟩ =
        .ok ⟨before, (some reasoning).filter fun text => !isBlank text, []⟩ := by
    split_ifs with empty
    · rw [isEmpty_iff.mp empty]
      rfl
    · rw [map_singleton, foldlM_cons, convert_reasoning, appendPendingReasoning_none]
      rfl
  rw [map_append, foldlM_append, thought]
  unfold afterText
  split_ifs with empty
  · rfl
  · rw [map_singleton]
    change List.foldlM _ _ _ = _
    rw [foldlM_cons, convert_message _ (Bool.eq_false_iff.mpr empty), filter_twice]
    rfl

omit [FloatText] [ShortSha256] in
theorem foldl_afterText (others : ∀ message ∈ before, message.isAssistant = false) (text reasoning : Str)
    (tool : ToolCallOut) (tools : List ToolCallOut) :
    ∃ message, (tool :: tools).foldl (fun state tool => Conversion.callTool state tool (nonBlank reasoning))
        (afterText before text reasoning) = ⟨before ++ [message], none, []⟩ ∧
      message.isAssistant ∧ message.content = (if text.isEmpty then none else some (.str text)) ∧
      message.toolCalls = tool :: tools ∧ (isBlank reasoning = false → message.Repeats reasoning) := by
  obtain ⟨first, started, assistant, content, calls, repeats⟩ : ∃ first,
      (afterText before text reasoning).callTool tool (nonBlank reasoning) = ⟨before ++ [first], none, []⟩ ∧
        first.isAssistant ∧ first.content = (if text.isEmpty then none else some (.str text)) ∧
        first.toolCalls = [tool] ∧ (isBlank reasoning = false → first.Repeats reasoning) := by
    unfold afterText
    split_ifs with empty
    · refine ⟨_, callTool_fresh others, addCall_isAssistant .., addCall_content .., addCall_toolCalls ..,
        fun filled => ?_⟩
      have piece : isBlank (trim reasoning) = false := isBlank_of_nonBlank (nonBlank_of_filled filled)
      have whole : isBlank (reasoning ++ '\n' :: trim reasoning) = false := isBlank_append_left filled
      have pending : appendPendingReasoning (some reasoning) (some (trim reasoning)) =
          some (reasoning ++ '\n' :: trim reasoning) := by
        rw [appendPendingReasoning, filter_filled piece]
      rw [filter_filled filled, nonBlank_of_filled filled, pending]
      refine ⟨_, addCall_fresh whole, whole, ?_⟩
      rw [length_append, length_cons]
      omega
    · refine ⟨_, callTool_last rfl, addCall_isAssistant .., addCall_content .., addCall_toolCalls ..,
        fun filled => ?_⟩
      have piece : isBlank (trim reasoning) = false := isBlank_of_nonBlank (nonBlank_of_filled filled)
      rw [addCall_appendPending, nonBlank_of_filled filled]
      refine ⟨_, addCall_reasoning _ tool (filter_filled filled) filled piece, isBlank_append_left filled, ?_⟩
      rw [length_append, length_cons]
      omega
  obtain ⟨kept, folded⟩ := foldl_addCall first tools (nonBlank reasoning)
  refine ⟨tools.foldl (fun message tool => message.addCall tool (nonBlank reasoning)) first, ?_, ?_, ?_, ?_, ?_⟩
  · rw [foldl_cons, started, foldl_callTool assistant]
  · rw [folded]
    exact assistant
  · rw [folded]
    exact content
  · rw [folded, calls]
    rfl
  · intro filled
    rw [nonBlank_of_filled filled]
    exact (repeats filled).foldl (isBlank_of_nonBlank (nonBlank_of_filled filled)) tools

omit [FloatText] [ShortSha256] in
theorem filter_backfilled (others : ∀ message ∈ before, message.isAssistant = false) :
    (before.map backfilled).filter isAssistant = [] := by
  refine filter_eq_nil_iff.mpr fun message mem => ?_
  obtain ⟨old, held, rfl⟩ := mem_map.mp mem
  rw [backfilled_isAssistant, others old held]
  exact Bool.false_ne_true

omit [FloatText] [ShortSha256] in
theorem finish_one {message : MessageOut} (others : ∀ message ∈ before, message.isAssistant = false)
    (assistant : message.isAssistant) :
    (Conversion.finish ⟨before ++ [message], none, []⟩).filter isAssistant = [message.backfilled] := by
  have flat : Conversion.finish ⟨before ++ [message], none, []⟩ =
      before.map backfilled ++ [message.backfilled] := map_append
  have last : message.backfilled.isAssistant := (backfilled_isAssistant message).trans assistant
  rw [flat, filter_append, filter_backfilled others, nil_append, filter_cons_of_pos last, filter_nil]

omit [FloatText] [ShortSha256] in
theorem finish_none (others : ∀ message ∈ before, message.isAssistant = false) (pending : Option Str) :
    (Conversion.finish ⟨before, pending, []⟩).filter isAssistant = [] := by
  have flat : Conversion.finish ⟨before, pending, []⟩ = before.map backfilled :=
    congrArg backfillToolCallReasoningPlaceholders (attach_none others)
  rw [flat, filter_backfilled others]

def MessageOut.text (message : MessageOut) : Option Str :=
  match message.content with
  | none => some []
  | some content => content.asStr

def ChatTurn.Survives (turn : ChatTurn) (messages : Except Str (List MessageOut)) : Prop :=
  ∃ all message, messages = .ok all ∧ all.filter isAssistant = [message] ∧ message.text = some turn.text ∧
    message.toolCalls = turn.calls.map ChatToolCall.sent ∧
    (isBlank turn.reasoning = false → message.reasoningContent = some turn.reasoning)

def ChatTurn.Kept (turn : ChatTurn) (ctx : ToolContext) : Prop :=
  (turn.text ≠ [] ∨ turn.calls ≠ []) ∧ splitLeadingThink turn.text = none ∧
    (isBlank turn.reasoning ∨ turn.calls = []) ∧ ∀ call ∈ turn.calls, call.Kept ctx

theorem map_again_eq_iff {calls : List ChatToolCall}
    (declared : ∀ call ∈ calls, ∃ spec fields, call.Declared ctx spec fields) :
    calls.map (·.again ctx) = calls.map ChatToolCall.sent ↔ ∀ call ∈ calls, call.Kept ctx := by
  rw [map_inj_left]
  refine forall₂_congr fun call mem => ?_
  obtain ⟨spec, fields, known⟩ := declared call mem
  exact again_eq_sent_iff known

omit [FloatText] [ShortSha256] in
theorem backfilled_of_filled {message : MessageOut} {kept : Str} (held : message.reasoningContent = some kept)
    (filled : isBlank kept = false) : message.backfilled = message := by
  simp [backfilled, held, filled]

omit [FloatText] [ShortSha256] in
theorem backfilled_eq (message : MessageOut) :
    ∃ kept, message.backfilled = { message with reasoningContent := kept } := by
  unfold backfilled
  split_ifs
  · exact ⟨_, rfl⟩
  · exact ⟨_, rfl⟩

omit [ShortSha256] in
theorem ok_survives_iff {all : List MessageOut} {message : MessageOut}
    (one : all.filter isAssistant = [message]) :
    turn.Survives (.ok all) ↔ message.text = some turn.text ∧ message.toolCalls = turn.calls.map ChatToolCall.sent ∧
      (isBlank turn.reasoning = false → message.reasoningContent = some turn.reasoning) := by
  constructor
  · rintro ⟨_, other, same, only, survives⟩
    cases same
    rw [one] at only
    cases only
    exact survives
  · intro survives
    exact ⟨all, message, rfl, one, survives⟩

def ChatTurn.replayed (turn : ChatTurn) (ctx : ToolContext) (before : List MessageOut) : Conversion :=
  let (text, reasoning) := separateThink turn.text turn.reasoning
  (turn.calls.map (·.again ctx)).foldl (fun state tool => state.callTool tool (nonBlank reasoning))
    (afterText before text reasoning)

theorem requestMessages_turn {resp again : Json} {id : Str} {created : I64} (registered : ctx.Registered)
    (known : next.Registered) (answered : turn.AnsweredBy resp)
    (declared : ∀ call ∈ turn.calls, ∃ spec fields, call.Declared ctx spec fields) (fed : again.get "input" =
      some (.arr ((chatResponseToResponses resp id created ctx).output.map toJson))) :
    requestMessagesToChat again next = .ok (turn.replayed ctx (systemMessages again)).finish := by
  obtain ⟨choice, message, choices, said, written⟩ := answered
  have first : firstChoice resp = some choice := by rw [firstChoice, choices]
  obtain ⟨status, output⟩ : ∃ status, (chatResponseToResponses resp id created ctx).output =
      messageOutputs message id status ctx := by
    refine ⟨if (finishReasonToStatus ((choice.getStr "finish_reason").getD [])).1 = .incomplete then .incomplete
      else .completed, ?_⟩
    simp [chatResponseToResponses, first, said]
  have present : rawPresent (again.get "input") =
      some (.arr ((messageOutputs message id status ctx).map toJson)) := by
    rw [fed, output]
    rfl
  have folded : ((messageOutputs message id status ctx).map toJson).foldlM
      (inputItemToChatMessages next) ⟨systemMessages again, none, []⟩ =
        .ok (turn.replayed ctx (systemMessages again)) := by
    rw [messageOutputs_turn written, map_append, foldlM_append, foldlM_text]
    exact foldlM_toolOutputs registered known written.calls declared id status _ 0 _
  simp only [requestMessagesToChat, present, folded]
  rfl

/-- What a turn that came back leaves behind: nothing, or one message of the assistant. -/
inductive ChatTurn.Leaves (ctx : ToolContext) (calls : List ChatToolCall) (text reasoning : Str) :
    List MessageOut → Prop
  | nothing : text = [] → calls = [] → Leaves ctx calls text reasoning []
  | message (message : MessageOut) : message.text = some text → message.toolCalls = calls.map (·.again ctx) →
      (text ≠ [] ∨ calls ≠ []) →
      (isBlank reasoning = false → (message.reasoningContent = some reasoning ↔ calls = [])) →
      Leaves ctx calls text reasoning [message]

theorem replayed_leaves (turn : ChatTurn) (ctx : ToolContext)
    (others : ∀ message ∈ before, message.isAssistant = false) :
    ChatTurn.Leaves ctx turn.calls (separateThink turn.text turn.reasoning).1
      (separateThink turn.text turn.reasoning).2 ((turn.replayed ctx before).finish.filter isAssistant) := by
  unfold ChatTurn.replayed
  generalize separateThink turn.text turn.reasoning = separated
  obtain ⟨text, reasoning⟩ := separated
  dsimp only
  cases called : turn.calls with
  | nil =>
    rw [map_nil, foldl_nil, afterText]
    split_ifs with empty
    · rw [finish_none others]
      exact .nothing (isEmpty_iff.mp empty) rfl
    · rw [finish_one others rfl]
      have quiet : backfilled ⟨assistantRole, some (.str text), [], none,
          (some reasoning).filter fun text => !isBlank text⟩ = ⟨assistantRole, some (.str text), [], none,
          (some reasoning).filter fun text => !isBlank text⟩ := by
        simp [backfilled]
      refine .message _ rfl rfl (.inl fun nil => empty (nil ▸ rfl)) fun filled => ?_
      exact iff_of_true (filter_filled filled) rfl
  | cons call calls =>
    obtain ⟨message, folded, assistant, content, tools, repeats⟩ :=
      foldl_afterText others text reasoning (call.again ctx) (calls.map (·.again ctx))
    rw [map_cons, folded, finish_one others assistant]
    obtain ⟨kept, same⟩ := backfilled_eq message
    refine .message _ ?_ ?_ (.inr (cons_ne_nil _ _)) fun filled => ?_
    · rw [same, MessageOut.text]
      rw [content]
      split_ifs with empty
      · rw [isEmpty_iff.mp empty]
      · rfl
    · rw [same]
      exact tools
    · obtain ⟨held, said, solid, longer⟩ := repeats filled
      rw [backfilled_of_filled said solid, said]
      refine iff_of_false ?_ (cons_ne_nil _ _)
      intro equal
      rw [Option.some.inj equal] at longer
      exact Nat.lt_irrefl _ longer

/-- What is left of a turn in the next one. -/
theorem turn_survives_iff {req resp again : Json} {turn : ChatTurn} {id : Str} {created : I64}
    (answered : turn.AnsweredBy resp)
    (declared : ∀ call ∈ turn.calls, ∃ spec fields, call.Declared (fromRequest req) spec fields)
    (fed : again.get "input" = some (.arr
      ((chatResponseToResponses resp id created (fromRequest req)).output.map toJson))) :
    turn.Survives (requestMessagesToChat again (fromRequest again)) ↔
      turn.Kept (fromRequest req) := by
  have plain := separateThink_text_iff turn.text turn.reasoning
  have calls := map_again_eq_iff declared
  have leaves := replayed_leaves turn (fromRequest req) fun message member =>
    (systemMessages_others again message member).1
  rw [requestMessages_turn (fromRequest_registered req) (fromRequest_registered again) answered
    declared fed, ChatTurn.Kept, ← calls]
  generalize left : (turn.replayed (fromRequest req) (systemMessages again)).finish.filter
    isAssistant = messages at leaves
  cases leaves with
  | nothing empty none =>
    refine iff_of_false ?_ ?_
    · rintro ⟨_, message, same, only, -⟩
      cases same
      rw [left] at only
      cases only
    · rintro ⟨something, unsplit, -⟩
      rw [← plain.mpr unsplit] at something
      exact something.elim (fun text => text empty) fun call => call none
  | message message text tools something reasoning =>
    rw [ok_survives_iff left, text, tools, Option.some.injEq, plain]
    have unsplit : splitLeadingThink turn.text = none →
        separateThink turn.text turn.reasoning = (turn.text, turn.reasoning) := by
      intro none
      rw [separateThink, none]
    constructor
    · rintro ⟨none, same, kept⟩
      rw [unsplit none] at something reasoning
      refine ⟨something, none, ?_, same⟩
      cases blank : isBlank turn.reasoning with
      | true => exact .inl rfl
      | false => exact .inr ((reasoning blank).mp (kept blank))
    · rintro ⟨-, none, once, same⟩
      rw [unsplit none] at reasoning
      refine ⟨none, same, fun filled => (reasoning filled).mpr (once.resolve_left ?_)⟩
      rw [filled]
      exact Bool.false_ne_true

end Turn

def replayRequest [FloatText] [ShortSha256] (req : Json) (turn : ChatTurn) : Json :=
  .obj [("input", .arr ((chatResponseToResponses turn.answer "resp_0".toList 0 (fromRequest req)).output.map
    toJson))]

def weatherRequest : Json :=
  .obj [("tools", .arr [.obj [("name", .str "get_weather".toList), ("type", .str "function".toList)]])]

def weatherFields : Fields := [("city", .str "Paris".toList)]

def weatherCall : ChatToolCall := ⟨"call_1".toList, "get_weather".toList, (Json.obj weatherFields).print⟩

def weatherTurn : ChatTurn := ⟨"Let me see.".toList, "Which city?".toList, [weatherCall]⟩

theorem weatherCall_declared : @ChatToolCall.Declared verbatim weatherCall
    (@fromRequest blank weatherRequest) ⟨.function, "get_weather".toList, none⟩ weatherFields := by
  have fits : (Json.obj weatherFields).Fits maxDepth := by
    simp [weatherFields, Fits, Fits.fitsFields, maxDepth]
  have arguments : @parse verbatim (trim weatherCall.arguments) = some (.obj weatherFields) := by
    rfl
  exact @ChatToolCall.Declared.mk verbatim _ _ _ _ (by decide +kernel) (by decide +kernel) arguments
    (fun custom => by cases custom)

/-- One call is enough for the reasoning to come back twice. -/
theorem weather_reasoning_twice :
    weatherTurn.AnsweredBy weatherTurn.answer ∧
      (∃ spec fields, @ChatToolCall.Declared verbatim weatherCall (@fromRequest blank weatherRequest) spec
        fields) ∧
      ¬ @ChatTurn.Survives verbatim weatherTurn (@requestMessagesToChat verbatim blank
        (@replayRequest verbatim blank weatherRequest weatherTurn)
        (@fromRequest blank (@replayRequest verbatim blank weatherRequest weatherTurn))) := by
  have said : ((@requestMessagesToChat verbatim blank (@replayRequest verbatim blank weatherRequest weatherTurn)
      (@fromRequest blank (@replayRequest verbatim blank weatherRequest weatherTurn))).toOption.map
        fun all => (all.filter isAssistant).map (·.reasoningContent)) =
      some [some "Which city?\nWhich city?".toList] := by decide +kernel
  refine ⟨weatherTurn.answeredBy_answer, ⟨_, _, weatherCall_declared⟩, ?_⟩
  rintro ⟨all, message, same, only, -, -, once⟩
  rw [same] at said
  simp only [Except.toOption, map_some, only, map_cons, map_nil, once (by decide)] at said
  revert said
  decide +kernel

theorem weatherCall_kept :
    @ChatToolCall.Kept verbatim blank weatherCall (@fromRequest blank weatherRequest) := by
  refine ⟨by decide +kernel, ?_⟩
  intro spec value tool arguments
  cases (@ChatToolCall.Declared.tool verbatim _ _ _ _ weatherCall_declared).symm.trans tool
  cases (@ChatToolCall.Declared.arguments verbatim _ _ _ _ weatherCall_declared).symm.trans arguments
  exact ⟨rfl, .inr rfl⟩

def silentTurn : ChatTurn := { weatherTurn with reasoning := [] }

/-- Without reasoning the same call comes back as it was. -/
theorem silent_turn_survives :
    @ChatTurn.Survives verbatim silentTurn (@requestMessagesToChat verbatim blank
      (@replayRequest verbatim blank weatherRequest silentTurn)
      (@fromRequest blank (@replayRequest verbatim blank weatherRequest silentTurn))) := by
  refine (@turn_survives_iff verbatim blank weatherRequest silentTurn.answer _ silentTurn "resp_0".toList 0
    silentTurn.answeredBy_answer ?_ rfl).mpr ?_
  · intro call member
    rw [mem_singleton.mp member]
    exact ⟨_, _, weatherCall_declared⟩
  · refine ⟨.inr (cons_ne_nil _ _), by decide +kernel, .inl rfl, ?_⟩
    intro call member
    rw [mem_singleton.mp member]
    exact weatherCall_kept

end LlmGateway
