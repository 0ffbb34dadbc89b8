import LlmGateway.Anthropic.BlockTurns
import LlmGateway.Anthropic.ConvertResponse
import LlmGateway.Anthropic.ToolUse

namespace LlmGateway

open Json Text List

def declaredName (tool : Json) : Option Str :=
  let name := (tool.getStr "name").getD []
  if tool.getStr "type" = some "BatchTool".toList ∨ name.isEmpty then none else some name

def declaredNames (req : Json) : List Str := (((req.get "tools").bind asArr).getD []).filterMap declaredName

def calledName (block : Json) : Option Str :=
  if block.getStr "type" = some "tool_use".toList then block.getStr "name" else none

def calledIn (message : Json) : List Str :=
  match message.get "content" with
  | some (.arr blocks) => if messageRole message = assistantRole then blocks.filterMap calledName else []
  | _ => []

def calledNames (req : Json) : List Str := (((req.get "messages").bind asArr).getD []).flatMap calledIn

def chosenName (req : Json) : Option Str :=
  (req.get "tool_choice").bind fun choice =>
    if choice.getStr "type" = some "tool".toList then choice.getStr "name" else none

def functionNames (calls : Option Json) : List Str := ((calls.bind asArr).getD []).filterMap functionName

def toolNames (body : Json) : List Str := functionNames (body.get "tools")

def callNames (message : Json) : List Str := functionNames (message.get "tool_calls")

def historyNames (body : Json) : List Str := (((body.get "messages").bind asArr).getD []).flatMap callNames

def choiceName (body : Json) : Option Str := (body.get "tool_choice").bind functionName

/-- The calls that the blocks of a turn have made, none of them in the messages of tools. -/
structure BlockTurn.Calls (turn : BlockTurn) (names : List Str) : Prop where
  calls : turn.toolCalls.filterMap functionName = names
  silent : turn.toolMessages.flatMap callNames = []

theorem callNames_assistantMessages (turn : BlockTurn) (vendorRequiresReasoning : Bool) :
    (assistantMessages turn vendorRequiresReasoning).flatMap callNames = turn.toolCalls.filterMap functionName := by
  unfold assistantMessages
  by_cases nothing : (turn.textParts.isEmpty && turn.toolCalls.isEmpty)
  · rw [if_pos nothing]
    rw [Bool.and_eq_true, List.isEmpty_iff, List.isEmpty_iff] at nothing
    rw [nothing.2]
    rfl
  · rw [if_neg nothing, flatMap_singleton, callNames, get_tool_calls_assistant]
    cases turn.toolCalls with
    | nil => rfl
    | cons call rest => rfl

theorem callNames_userMessages (turn : BlockTurn) : (userMessages turn).flatMap callNames = [] := by
  unfold userMessages
  split_ifs <;> rfl

theorem isEmpty_of_declared {req : Json} {name : Str} (declared : name ∈ declaredNames req) :
    name.isEmpty = false := by
  obtain ⟨tool, -, read⟩ := mem_filterMap.mp declared
  unfold declaredName at read
  dsimp only at read
  split_ifs at read with missing
  cases read
  simpa using fun empty => missing (.inr empty)

section Request

variable [FloatText]

theorem Gives.called {block : Json} {turn : BlockTurn} (gives : Gives block turn) :
    turn.Calls (calledName block).toList := by
  refine ⟨?_, flatMap_eq_nil_iff.mpr fun message mem => ?_⟩
  · rw [calledName]
    rcases gives.uses with ⟨none, other⟩ | ⟨id, name, type, -, named, only⟩
    · rw [none, if_neg other]
      rfl
    · rw [only, if_pos type, named]
      rfl
  · rw [callNames, (gives.tool_role message mem).2]
    rfl

theorem called_gifts {blocks : List Json}
    (accepted : ∀ block ∈ blocks, convertBlock .empty block = .ok (gift block)) :
    (gifts blocks).Calls (blocks.filterMap calledName) := by
  have each (block : Json) (mem : block ∈ blocks) := (gives_of_ok (accepted block mem)).called
  refine ⟨?_, flatMap_eq_nil_iff.mpr fun message mem => ?_⟩
  · rw [gifts, filterMap_flatMap, filterMap_eq_flatMap_toList]
    exact flatMap_congr fun block mem => (each block mem).calls
  · obtain ⟨block, present, inside⟩ := mem_flatMap.mp mem
    exact flatMap_eq_nil_iff.mp (each block present).silent message inside

theorem callNames_convertMessage {vendorRequiresReasoning : Bool} {message : Json} {messages : List Json}
    (converted : convertMessageToChat vendorRequiresReasoning message = .ok messages) :
    messages.flatMap callNames = calledIn message := by
  rw [calledIn]
  rcases convertMessage_cases converted with ⟨blocks, found, accepted, rfl⟩ | ⟨plain, content, rfl⟩
  · have calls := called_gifts accepted
    rw [found, flatMap_append, calls.silent, nil_append]
    split_ifs
    · rw [callNames_assistantMessages, calls.calls]
    · exact callNames_userMessages _
  · cases found : message.get "content" with
    | none => rfl
    | some content =>
      rw [found] at plain
      cases content with
      | arr blocks => cases plain
      | _ => rfl

theorem callNames_convertMessages {vendorRequiresReasoning : Bool} {given : List Json} {messages : List (List Json)}
    (converted : given.mapM (convertMessageToChat vendorRequiresReasoning) = .ok messages) :
    messages.flatten.flatMap callNames = given.flatMap calledIn := by
  have each := Fallible.mapM_ok converted
  clear converted
  induction each with
  | nil => rfl
  | cons here _ ih =>
    rw [flatten_cons, flatMap_append, callNames_convertMessage here, ih, flatMap_cons]

end Request

section Names

variable [ShortSha256]

theorem functionName_convertTool (tool : Json) :
    (convertTool tool).bind functionName = (declaredName tool).map shortName := by
  unfold convertTool declaredName
  dsimp only
  split_ifs
  · rfl
  · have distinct : ((toolFields tool ((tool.getStr "name").getD [])).map Prod.fst).Nodup := by simp [toolFields]
    change ((Json.record (toolFields tool ((tool.getStr "name").getD []))).get "name").bind asStr = _
    rw [get_record distinct]
    rfl

theorem functionNames_convertTools (tools : Option Json) :
    functionNames (((convertTools tools).filter fun tools => !tools.isEmpty).map Json.arr) =
      (((tools.bind asArr).getD []).filterMap declaredName).map shortName := by
  unfold convertTools
  cases tools.bind asArr with
  | none => rfl
  | some given =>
    have names : (given.filterMap convertTool).filterMap functionName =
        (given.filterMap declaredName).map shortName := by
      rw [filterMap_filterMap, map_filterMap]
      exact filterMap_congr fun tool _ => functionName_convertTool tool
    rw [Option.map_some, Option.getD_some, ← names]
    cases given.filterMap convertTool with
    | nil => rfl
    | cons tool rest => rfl

theorem convertTools_isSome {tools : Option Json} {name : Str}
    (declared : name ∈ ((tools.bind asArr).getD []).filterMap declaredName) :
    (((convertTools tools).filter fun tools => !tools.isEmpty).map Json.arr).isSome := by
  have names := functionNames_convertTools tools
  cases found : ((convertTools tools).filter fun tools => !tools.isEmpty).map Json.arr with
  | some sent => rfl
  | none =>
    rw [found] at names
    rw [map_eq_nil_iff.mp names.symm] at declared
    cases declared

variable [Lowercase]

theorem chatRequestFields_nodup (req : Json) (gatingModel model : Str) (messages : List Json) :
    ((chatRequestFields req gatingModel model messages).map Prod.fst).Nodup := by
  simp [chatRequestFields]

variable [FloatText] {req body : Json} {gatingModel baseUrl : Str}

theorem converted_cases (converted : anthropicRequestToChat req gatingModel baseUrl = .ok body) :
    ∃ model given messages, (req.get "messages").bind asArr = some given ∧
      given.mapM (convertMessageToChat (requiresReasoningContent gatingModel baseUrl)) = .ok messages ∧
      body = .record (chatRequestFields req gatingModel model
        (((systemToText (req.get "system")).map (chatMessage "system".toList ∘ .str)).toList ++
          messages.flatten)) := by
  unfold anthropicRequestToChat at converted
  split at converted
  · cases converted
  next model _ =>
    unfold convertMessages at converted
    obtain ⟨all, inside, rfl⟩ := Fallible.map_eq_ok.mp converted
    split at inside
    · cases inside
    next given found =>
      obtain ⟨messages, read, rfl⟩ := Fallible.map_eq_ok.mp inside
      exact ⟨model, given, messages, found, read, rfl⟩

theorem toolNames_converted (converted : anthropicRequestToChat req gatingModel baseUrl = .ok body) :
    toolNames body = (declaredNames req).map shortName := by
  obtain ⟨model, given, messages, -, -, rfl⟩ := converted_cases converted
  rw [toolNames, get_record (chatRequestFields_nodup req gatingModel _ _)]
  exact functionNames_convertTools (req.get "tools")

theorem historyNames_converted (converted : anthropicRequestToChat req gatingModel baseUrl = .ok body) :
    historyNames body = calledNames req := by
  obtain ⟨model, given, messages, found, read, rfl⟩ := converted_cases converted
  have silent : ((systemToText (req.get "system")).map (chatMessage "system".toList ∘ .str)).toList.flatMap
      callNames =
      [] := by
    cases systemToText (req.get "system") <;> rfl
  rw [historyNames, get_record (chatRequestFields_nodup req gatingModel _ _)]
  change (_ ++ messages.flatten).flatMap callNames = _
  rw [flatMap_append, silent, callNames_convertMessages read, calledNames, found]
  rfl

theorem choiceName_converted (converted : anthropicRequestToChat req gatingModel baseUrl = .ok body)
    {name : Str} (declared : name ∈ declaredNames req) (chosen : chosenName req = some name) :
    choiceName body = some name := by
  obtain ⟨model, given, messages, -, -, rfl⟩ := converted_cases converted
  obtain ⟨choice, found, named⟩ := Option.bind_eq_some_iff.mp chosen
  rw [choiceName, get_record (chatRequestFields_nodup req gatingModel _ _)]
  change (if _ then convertToolChoice (req.get "tool_choice") else none).bind functionName = _
  rw [if_pos (convertTools_isSome declared), found]
  split_ifs at named with type
  cases choice with
  | obj fields =>
    change (fields.lookup "type").bind asStr = _ at type
    change (fields.lookup "name").bind asStr = _ at named
    simp only [convertToolChoice, if_pos type, named]
    rfl
  | _ => cases type

end Names

/-- A call under the one name comes back to the client under the other, whole or streamed. -/
structure ReturnedAs [FloatText] [FloatCast] (sent declared : Str) : Prop where
  whole : ∀ resp id out message calls position call, chatResponseToAnthropic resp id = .ok out →
    (firstChoice resp).bind (get · "message") = some message → (message.get "tool_calls").bind asArr = some calls →
    calls[position]? = some call → functionName call = some sent →
      ∃ callId input, chatToolCallToToolUse call position = some (.toolUse callId declared input) ∧
        .toolUse callId declared input ∈ out.content
  streamed : ∀ chunks start model truncated key callId,
    MakesCall (ChatToAnthropicState.resolvedFrames (.new start model) chunks) key callId sent →
      ∃ index, .blockStart index (.toolUse callId declared) ∈ anthropicStream start model chunks truncated

/-- One name for each tool upstream, wherever it is named, and back to the name it was declared with. -/
structure NamesConsistent [FloatText] [FloatCast] (req body : Json) (sent : Str → Str) : Prop where
  tools : toolNames body = (declaredNames req).map sent
  history : historyNames body = (calledNames req).map sent
  choice : ∀ name ∈ declaredNames req, chosenName req = some name → choiceName body = some (sent name)
  distinct : ∀ name ∈ declaredNames req, ∀ other ∈ declaredNames req, sent name = sent other → name = other
  returned : ∀ name ∈ declaredNames req, ReturnedAs (sent name) name

section Returned

variable [FloatText] [FloatCast] {sent declared : Str}

theorem returnedAs_trim (filled : (trim sent).isEmpty = false) : ReturnedAs sent (trim sent) where
  whole resp id out message calls position call converted found given place named := by
    have made : chatToolCallToToolUse call position = some (.toolUse
        (orElseText (trim ((call.getStr "id").getD [])) ("tool_call_".toList ++ Nat.toDigits 10 position))
          (trim sent)
        (toolInput (trim (((toolCallFunction call "arguments").bind asStr).getD [])))) := by
      unfold functionName at named
      unfold chatToolCallToToolUse
      simp only [named, Option.getD_some, filled, Bool.and_false, Bool.false_and, Bool.false_eq_true, if_false,
        orElseText]
    refine ⟨_, _, made, ?_⟩
    have used : AnthropicBlock.toolUse
        (orElseText (trim ((call.getStr "id").getD [])) ("tool_call_".toList ++ Nat.toDigits 10 position))
          (trim sent)
        (toolInput (trim (((toolCallFunction call "arguments").bind asStr).getD []))) ∈ toolUses calls := by
      refine mem_filterMap.mpr ⟨(call, position), ?_, made⟩
      rw [mem_zipIdx_iff_getElem?]
      exact place
    unfold chatResponseToAnthropic at converted
    rw [found] at converted
    dsimp only at converted
    split_ifs at converted with dropped
    cases converted
    refine mem_append_right _ ?_
    unfold messageToolUses
    rw [given, Option.getD_some]
    rw [if_neg (by
      rw [List.isEmpty_iff]
      exact ne_nil_of_mem used)]
    exact used
  streamed chunks start model truncated key callId makes := toolUse_of_makesCall makes filled truncated

def oneCallBody (name : Str) : Json :=
  .obj [("choices",
    .arr [.obj [("message", .obj [("tool_calls", .arr [.obj [("function", .obj [("name", .str name)]),
    ("id", .str ['c'])]])])]])]

theorem ReturnedAs.eq_trim (returned : ReturnedAs sent declared) :
    declared = orElseText (trim sent) "unknown_tool".toList := by
  have made : chatToolCallToToolUse (.obj [("function", .obj [("name", .str sent)]), ("id", .str ['c'])]) 0 =
      some (.toolUse ['c'] (orElseText (trim sent) "unknown_tool".toList) (toolInput [])) := rfl
  obtain ⟨out, converted⟩ : ∃ out, chatResponseToAnthropic (oneCallBody sent) [] = .ok out := ⟨_, rfl⟩
  obtain ⟨callId, input, same, -⟩ := returned.whole _ _ out _ _ 0 _ converted rfl rfl rfl rfl
  cases same
  rfl

end Returned

theorem utf8Len_trim (text : Str) : utf8Len (trim text) ≤ utf8Len text := by
  have sub : ((trim text).map Char.utf8Size).Sublist (text.map Char.utf8Size) := trim_sublist.map _
  exact sub.sum_le_sum fun _ _ => Nat.zero_le _

section Consistent

variable [ShortSha256] [FloatText] [FloatCast] [Lowercase]

/-- The names stay together exactly when each of them is short enough and has no blanks at its ends. -/
theorem names_consistent_iff (hexadecimal : ShortSha256.Hexadecimal) {req body : Json} {gatingModel baseUrl : Str}
    (converted : anthropicRequestToChat req gatingModel baseUrl = .ok body) :
    (∃ sent, NamesConsistent req body sent) ↔
      ∀ name ∈ declaredNames req, utf8Len name ≤ chatToolNameMaxLen ∧ trim name = name := by
  constructor
  · rintro ⟨sent, consistent⟩ name declared
    have renamed : sent name = shortName name := by
      have same := consistent.tools.symm.trans (toolNames_converted converted)
      exact map_inj_left.mp same name declared
    have back := (consistent.returned name declared).eq_trim
    rw [renamed] at back
    by_cases blank : (trim (shortName name)).isEmpty
    · -- the fallback is short, and nothing of it is cut
      rw [orElseText, if_pos blank] at back
      subst back
      have same : shortName "unknown_tool".toList = "unknown_tool".toList := if_neg (by decide)
      rw [same] at blank
      exact absurd blank (by decide)
    · rw [orElseText, if_neg blank] at back
      have short : utf8Len name ≤ chatToolNameMaxLen := by
        calc utf8Len name = utf8Len (trim (shortName name)) := congrArg utf8Len back
          _ ≤ utf8Len (shortName name) := utf8Len_trim _
          _ ≤ chatToolNameMaxLen := utf8Len_shortName hexadecimal name
      have same : shortName name = name := if_neg (by simpa [isLongName] using short)
      exact ⟨short, by rw [same] at back; exact back.symm⟩
  · intro short
    have same : ∀ name ∈ declaredNames req, shortName name = name := fun name declared =>
      if_neg (by simpa [isLongName] using (short name declared).1)
    refine ⟨id, ⟨?_, ?_, fun name declared chosen => ?_, fun _ _ _ _ equal => equal, fun name declared => ?_⟩⟩
    · rw [toolNames_converted converted]
      exact map_congr_left same
    · rw [historyNames_converted converted, map_id]
    · exact choiceName_converted converted declared chosen
    · have returned := @returnedAs_trim _ _ name (by
        rw [(short name declared).2]
        exact isEmpty_of_declared declared)
      rwa [(short name declared).2] at returned

def oneToolRequest (name : Str) : Json :=
  .obj [("messages", .arr [.obj [("content", .arr [.obj [("id", .str "t1".toList), ("name", .str name),
      ("type", .str "tool_use".toList)]]), ("role", .str assistantRole)]]),
    ("model", .str ['m']),
    ("tool_choice", .obj [("name", .str name), ("type", .str "tool".toList)]),
    ("tools", .arr [.obj [("name", .str name)]])]

end Consistent

theorem weather_names_consistent : let _ : ShortSha256 := .zeros; let _ : FloatText := verbatim
    let _ : FloatCast := .zero; let _ : Lowercase := .ascii
    ∃ body, anthropicRequestToChat (oneToolRequest "get_weather".toList) ['m'] [] = .ok body ∧
      ∃ sent, NamesConsistent (oneToolRequest "get_weather".toList) body sent := by
  intro _ _ _ _
  have accepted : (anthropicRequestToChat (oneToolRequest "get_weather".toList) ['m'] []).isOk := by decide +kernel
  obtain ⟨body, converted⟩ := Fallible.exists_of_isOk accepted
  refine ⟨body, converted, (names_consistent_iff ShortSha256.zeros_hexadecimal converted).mpr ?_⟩
  decide +kernel

/-- A name of 65 letters is cut where the tool is declared, and nowhere else. -/
theorem long_name_not_consistent : let _ : ShortSha256 := .zeros; let _ : FloatText := verbatim
    let _ : FloatCast := .zero; let _ : Lowercase := .ascii
    ∃ body, anthropicRequestToChat (oneToolRequest (List.replicate 65 'a')) ['m'] [] = .ok body ∧
      toolNames body = [List.replicate 46 'a' ++ "__0000000000000000".toList] ∧
      historyNames body = [List.replicate 65 'a'] ∧ choiceName body = some (List.replicate 65 'a') ∧
      ¬∃ sent, NamesConsistent (oneToolRequest (List.replicate 65 'a')) body sent := by
  intro _ _ _ _
  have accepted : (anthropicRequestToChat (oneToolRequest (List.replicate 65 'a')) ['m'] []).isOk := by
    decide +kernel
  obtain ⟨body, converted⟩ := Fallible.exists_of_isOk accepted
  have tools := toolNames_converted converted
  have history := historyNames_converted converted
  refine ⟨body, converted, tools.trans (by decide +kernel), history.trans (by decide +kernel),
    choiceName_converted converted (by decide +kernel) (by decide +kernel), ?_⟩
  rintro ⟨sent, consistent⟩
  have declared := map_inj_left.mp (consistent.tools.symm.trans tools) (List.replicate 65 'a') (by decide +kernel)
  have called := map_inj_left.mp ((consistent.history.symm.trans history).trans (map_id _).symm)
    (List.replicate 65 'a') (by decide +kernel)
  exact absurd (declared.symm.trans called) (by decide +kernel)

end LlmGateway
