import LlmGateway.Anthropic.BlockTurns

namespace LlmGateway

open Json Text List

def toolUseId (block : Json) : Option Str :=
  if block.getStr "type" = some "tool_use".toList then some ((block.getStr "id").getD []) else none

def toolResultId (block : Json) : Option Str :=
  if block.getStr "type" = some "tool_result".toList then some ((block.getStr "tool_use_id").getD []) else none

def blocksOf (message : Json) : List Json := ((message.get "content").bind asArr).getD []

def toolUseIds (message : Json) : List Str := (blocksOf message).filterMap toolUseId

def toolResultIds (message : Json) : List Str := (blocksOf message).filterMap toolResultId

def callIds (message : Json) : List Str :=
  (((message.get "tool_calls").bind asArr).getD []).map fun call => (call.getStr "id").getD []

def answeredId (message : Json) : Str := (message.getStr "tool_call_id").getD []

def ToolsAnswered (given : List Json) : Prop :=
  ∀ before assistant after, given = before ++ assistant :: after → messageRole assistant = assistantRole →
    toolUseIds assistant ≠ [] → ∃ user rest, after = user :: rest ∧ messageRole user = userRole ∧
      (toolResultIds user).Perm (toolUseIds assistant)

/-- What one message becomes: a tool message for each of its results, then the rest, with the calls of an assistant.
-/
structure Becomes (message : Json) (results rest : List Json) : Prop where
  role : ∀ result ∈ results, result.getStr "role" = some "tool".toList ∧ result.get "tool_calls" = none
  answers : results.map answeredId = toolResultIds message
  other : ∀ other ∈ rest, other.getStr "role" ∈ [some (messageRole message), some userRole]
  calls : messageRole message = assistantRole → toolUseIds message ≠ [] →
    ∃ call, rest = [call] ∧ call.getStr "role" = some assistantRole ∧ callIds call = toolUseIds message
  quiet : messageRole message ≠ assistantRole ∨ toolUseIds message = [] →
    ∀ other ∈ rest, other.get "tool_calls" = none

/-- The output message by message of the input: behind the calls of an assistant stand at once their tool messages,
in the order of the results and one for each call, and then nothing of the tools. -/
def ResultsFollow (given output : List Json) : Prop :=
  ∃ (system : List Json) (segments : List (List Json × List Json)),
    output = system ++ segments.flatMap (fun segment => segment.1 ++ segment.2) ∧
    (∀ message ∈ system, message.getStr "role" = some "system".toList ∧ message.get "tool_calls" = none) ∧
    Forall₂ (fun message segment => Becomes message segment.1 segment.2) given segments ∧
    ∀ before assistant user after, given = before ++ assistant :: user :: after →
      messageRole assistant = assistantRole → toolUseIds assistant ≠ [] →
      ∃ front own call results rest back, segments = front ++ (own, [call]) :: (results, rest) :: back ∧
        front.length = before.length ∧ callIds call = toolUseIds assistant ∧
        results.map answeredId = toolResultIds user ∧ (results.map answeredId).Perm (callIds call) ∧
        ∀ other ∈ rest, other.getStr "role" = some userRole ∧ other.get "tool_calls" = none

theorem plain_userMessages {turn : BlockTurn} {message : Json} (mem : message ∈ userMessages turn) :
    message.getStr "role" = some userRole ∧ message.get "tool_calls" = none := by
  rw [userMessages, mem_append] at mem
  rcases mem with media | text
  · split_ifs at media
    · cases media
    · cases mem_singleton.mp media
      exact ⟨rfl, rfl⟩
  · split_ifs at text
    · cases text
    · cases mem_singleton.mp text
      exact ⟨rfl, rfl⟩

section Conversion

variable [FloatText]

theorem Gives.ids {block : Json} {turn : BlockTurn} (gives : Gives block turn) :
    turn.toolMessages.map answeredId = (toolResultId block).toList ∧
      (turn.toolCalls.map fun call => (call.getStr "id").getD []) = (toolUseId block).toList := by
  constructor
  · rw [toolResultId]
    rcases gives.answers with ⟨none, other⟩ | ⟨type, only⟩
    · rw [none, if_neg other]
      rfl
    · rw [only, if_pos type]
      rfl
  · rw [toolUseId]
    rcases gives.uses with ⟨none, other⟩ | ⟨id, name, type, identified, -, only⟩
    · rw [none, if_neg other]
      rfl
    · rw [only, if_pos type, identified]
      rfl

section Blocks

variable {blocks : List Json} (accepted : ∀ block ∈ blocks, convertBlock .empty block = .ok (gift block))
include accepted

theorem answeredIds_gifts : (gifts blocks).toolMessages.map answeredId = blocks.filterMap toolResultId := by
  rw [gifts, map_flatMap, filterMap_eq_flatMap_toList]
  exact flatMap_congr fun block mem => (gives_of_ok (accepted block mem)).ids.1

theorem callIds_gifts :
    ((gifts blocks).toolCalls.map fun call => (call.getStr "id").getD []) = blocks.filterMap toolUseId := by
  rw [gifts, map_flatMap, filterMap_eq_flatMap_toList]
  exact flatMap_congr fun block mem => (gives_of_ok (accepted block mem)).ids.2

theorem tool_role_gifts : ∀ message ∈ (gifts blocks).toolMessages,
    message.getStr "role" = some "tool".toList ∧ message.get "tool_calls" = none := by
  intro message mem
  obtain ⟨block, present, inside⟩ := mem_flatMap.mp mem
  exact (gives_of_ok (accepted block present)).tool_role message inside

end Blocks

variable {vendorRequiresReasoning : Bool}

theorem becomes_blocks {given : Json} {blocks : List Json} (found : given.get "content" = some (.arr blocks))
    (accepted : ∀ block ∈ blocks, convertBlock .empty block = .ok (gift block)) :
    Becomes given (gifts blocks).toolMessages (if messageRole given = assistantRole then
      assistantMessages (gifts blocks) vendorRequiresReasoning else userMessages (gifts blocks)) := by
  have same : blocksOf given = blocks := by
    rw [blocksOf, found]
    rfl
  have ids := callIds_gifts accepted
  refine ⟨tool_role_gifts accepted, by rw [answeredIds_gifts accepted, toolResultIds, same], ?_, ?_, ?_⟩
  · intro other mem
    split_ifs at mem with role
    · rw [assistantMessages] at mem
      split_ifs at mem
      · cases mem
      · cases mem_singleton.mp mem
        rw [role, getStr, get_record (nodup_assistantFields _ _)]
        exact mem_cons_self
    · exact mem_cons_of_mem _ (mem_singleton.mpr (plain_userMessages mem).1)
  · intro role some
    rw [toolUseIds, same, ← ids] at some
    have calls : (gifts blocks).toolCalls.isEmpty = false := by
      cases held : (gifts blocks).toolCalls with
      | nil => simp [held] at some
      | cons call rest => rfl
    rw [if_pos role, assistantMessages, calls, Bool.and_false, if_neg Bool.false_ne_true]
    refine ⟨_, rfl, ?_, ?_⟩
    · rw [getStr, get_record (nodup_assistantFields _ _)]
      rfl
    · rw [callIds, get_tool_calls_assistant, calls, toolUseIds, same, ← ids]
      rfl
  · rintro none other mem
    split_ifs at mem with role
    · rw [assistantMessages] at mem
      split_ifs at mem
      · cases mem
      · cases mem_singleton.mp mem
        have unused := none.resolve_left (not_not_intro role)
        rw [toolUseIds, same, ← ids, map_eq_nil_iff] at unused
        rw [get_tool_calls_assistant, unused]
        rfl
    · exact (plain_userMessages mem).2

theorem becomes_of_converted {given : Json} {messages : List Json}
    (converted : convertMessageToChat vendorRequiresReasoning given = .ok messages) :
    ∃ results rest, messages = results ++ rest ∧ Becomes given results rest := by
  rcases convertMessage_cases converted with ⟨blocks, found, accepted, whole⟩ | ⟨plain, content, rfl⟩
  · exact ⟨_, _, whole, becomes_blocks found accepted⟩
  · have empty : blocksOf given = [] := by
      rw [blocksOf, plain]
      rfl
    refine ⟨[], _, rfl, by simp, by rw [toolResultIds, empty]; rfl, ?_, fun _ some => ?_, fun _ other mem => ?_⟩
    · intro other mem
      cases mem_singleton.mp mem
      exact mem_cons_self
    · rw [toolUseIds, empty] at some
      exact absurd rfl some
    · cases mem_singleton.mp mem
      rfl

theorem segments_of_converted {given : List Json} {messages : List (List Json)}
    (converted : Forall₂ (fun one many => convertMessageToChat vendorRequiresReasoning one = .ok many) given
      messages) :
    ∃ segments : List (List Json × List Json), messages.flatten = segments.flatMap (fun one => one.1 ++ one.2) ∧
      Forall₂ (fun message segment => Becomes message segment.1 segment.2) given segments := by
  induction converted with
  | nil => exact ⟨[], rfl, .nil⟩
  | cons here later ih =>
    obtain ⟨segments, whole, become⟩ := ih
    obtain ⟨results, rest, rfl, becomes⟩ := becomes_of_converted here
    exact ⟨(results, rest) :: segments, by rw [flatten_cons, whole, flatMap_cons], .cons becomes become⟩

omit [FloatText] in
theorem pair_segments {first second : Json} {before after : List Json} {segments : List (List Json × List Json)}
    (become : Forall₂ (fun message segment => Becomes message segment.1 segment.2)
      (before ++ first :: second :: after) segments) :
    ∃ front one two back, segments = front ++ one :: two :: back ∧ front.length = before.length ∧
      Becomes first one.1 one.2 ∧ Becomes second two.1 two.2 := by
  induction before generalizing segments with
  | nil =>
    obtain ⟨one, _, here, more, rfl⟩ := forall₂_cons_left_iff.mp become
    obtain ⟨two, back, next, -, rfl⟩ := forall₂_cons_left_iff.mp more
    exact ⟨[], one, two, back, rfl, rfl, here, next⟩
  | cons message before ih =>
    obtain ⟨segment, _, -, more, rfl⟩ := forall₂_cons_left_iff.mp become
    obtain ⟨front, one, two, back, rfl, length, here, next⟩ := ih more
    exact ⟨segment :: front, one, two, back, rfl, congrArg Nat.succ length, here, next⟩

/-- In a conversation whose calls are answered, the answers stand next to the calls. -/
theorem tool_results_follow {req : Json} {vendorRequiresReasoning : Bool} {given output : List Json}
    (found : (req.get "messages").bind asArr = some given)
    (converted : convertMessages req vendorRequiresReasoning = .ok output) (answered : ToolsAnswered given) :
    ResultsFollow given output := by
  rw [convertMessages, found] at converted
  dsimp only at converted
  obtain ⟨messages, read, rfl⟩ := Fallible.map_eq_ok.mp converted
  obtain ⟨segments, whole, become⟩ := segments_of_converted (Fallible.mapM_ok read)
  refine ⟨_, segments, by rw [whole], ?_, become, ?_⟩
  · intro message mem
    obtain ⟨text, -, rfl⟩ := Option.map_eq_some_iff.mp (Option.mem_toList.mp mem)
    exact ⟨rfl, rfl⟩
  · rintro before assistant user after rfl role some
    obtain ⟨front, ⟨own, made⟩, ⟨results, rest⟩, back, rfl, length, calling, answering⟩ := pair_segments become
    obtain ⟨call, rfl, -, ids⟩ := calling.calls role some
    obtain ⟨next, _, same, asked, perm⟩ := answered before assistant _ rfl role some
    cases same
    refine ⟨front, own, call, results, rest, back, rfl, length, ids, answering.answers, ?_, fun other mem => ?_⟩
    · rw [answering.answers, ids]
      exact perm
    · have quiet := answering.quiet (.inl (by rw [asked]; decide)) other mem
      have role := answering.other other mem
      rw [asked] at role
      simpa [quiet] using role

end Conversion

def toolUseBlock (id : String) : Json :=
  .obj [("id", .str id.toList), ("input", .obj []), ("name", .str "f".toList), ("type", .str "tool_use".toList)]

def toolResultBlock (id : String) : Json :=
  .obj [("tool_use_id", .str id.toList), ("type", .str "tool_result".toList)]

def swappedTurns : List Json :=
  [.obj [("content", .arr [toolUseBlock "a", toolUseBlock "b"]), ("role", .str "assistant".toList)],
    .obj [("content", .arr [.obj [("text", .str "done".toList), ("type", .str "text".toList)], toolResultBlock "b",
      toolResultBlock "a"]), ("role", .str "user".toList)]]

theorem swapped_answered : ToolsAnswered swappedTurns := by
  intro before assistant after split role calls
  match before with
  | [] =>
    obtain ⟨rfl, rfl⟩ := List.cons.inj split
    exact ⟨_, _, rfl, rfl, List.Perm.swap _ _ _⟩
  | [first] =>
    obtain ⟨rfl, -⟩ := List.cons.inj (List.cons.inj split).2
    exact absurd role (by decide)
  | first :: second :: more =>
    have short := congrArg List.length split
    simp only [swappedTurns, length_cons, length_nil, length_append] at short
    omega

theorem swapped_results_follow : let _ : FloatText := verbatim
    ∃ output, convertMessages (.obj [("messages", .arr swappedTurns)]) false = .ok output ∧
      ResultsFollow swappedTurns output := by
  intro _
  have accepted : (convertMessages (.obj [("messages", .arr swappedTurns)]) false).isOk := by decide +kernel
  obtain ⟨output, converted⟩ := Fallible.exists_of_isOk accepted
  exact ⟨output, converted, tool_results_follow rfl converted swapped_answered⟩

end LlmGateway
