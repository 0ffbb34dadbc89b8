import LlmGateway.Anthropic.ConvertRequest
import LlmGateway.Lib.Fallible

namespace LlmGateway

open Json Text BlockTurn

def blockType (block : Json) : String := String.ofList ((block.getStr "type").getD [])

theorem blockType_eq_iff {block : Json} {type : String} (named : type ≠ "") :
    blockType block = type ↔ block.getStr "type" = some type.toList := by
  rw [blockType, ← String.toList_inj, String.toList_ofList]
  cases block.getStr "type" with
  | none =>
    refine iff_of_false (fun same => named ?_) (by simp)
    rw [← String.toList_inj, ← same]
    rfl
  | some text => rw [Option.getD_some, Option.some.injEq]

def BlockTurn.append (turn more : BlockTurn) : BlockTurn :=
  ⟨turn.toolMessages ++ more.toolMessages, turn.textParts ++ more.textParts, turn.toolCalls ++ more.toolCalls,
    turn.reasoning ++ more.reasoning, turn.pendingMedia ++ more.pendingMedia⟩

@[simp] theorem BlockTurn.append_empty (turn : BlockTurn) : turn.append .empty = turn := by
  simp [append, empty]

@[simp] theorem BlockTurn.empty_append (turn : BlockTurn) : BlockTurn.empty.append turn = turn := rfl

theorem BlockTurn.append_assoc (one two three : BlockTurn) :
    (one.append two).append three = one.append (two.append three) := by
  simp [append, List.append_assoc]

section Assistant

variable (turn : BlockTurn) (vendorRequiresReasoning : Bool)

theorem nodup_assistantFields : ((assistantFields turn vendorRequiresReasoning).map Prod.fst).Nodup := by
  simp [assistantFields]

theorem get_role_assistant :
    (Json.record (assistantFields turn vendorRequiresReasoning)).get "role" = some (.str assistantRole) := by
  rw [get_record (nodup_assistantFields turn vendorRequiresReasoning)]
  rfl

theorem get_content_assistant :
    (Json.record (assistantFields turn vendorRequiresReasoning)).get "content" = some (assistantContent turn) := by
  rfl

theorem get_tool_calls_assistant :
    (Json.record (assistantFields turn vendorRequiresReasoning)).get "tool_calls" =
      if turn.toolCalls.isEmpty then none else some (.arr turn.toolCalls) := by
  rw [get_record (nodup_assistantFields turn vendorRequiresReasoning), assistantFields]
  cases turn.toolCalls with
  | nil => rfl
  | cons call rest => rfl

end Assistant

variable [FloatText]

def isMediaType (type : String) : Bool := type = "image" || type = "document" || type = "audio"

def toolResultMessage (block : Json) : Json :=
  let toolUseId := (block.getStr "tool_use_id").getD []
  .obj [("content", .str (toolResultContentWithMedia (block.get "content") toolUseId).1),
    ("role", .str "tool".toList), ("tool_call_id", .str toolUseId)]

def toolResultMedia (block : Json) : List Json :=
  (toolResultContentWithMedia (block.get "content") ((block.getStr "tool_use_id").getD [])).2

/-- The ways in which a block is accepted, with what it adds to an empty turn. -/
inductive Gives (block : Json) : BlockTurn → Prop
  | text {text} (type : blockType block = "text") (found : block.getStr "text" = some text)
      (solid : isBlank text = false) : Gives block ⟨[], [textPart text], [], [], []⟩
  | blank (type : blockType block = "text") (blank : (block.getStr "text").all isBlank) : Gives block .empty
  | media {part} (type : isMediaType (blockType block)) (found : mediaBlockToChatPart block = some part) :
      Gives block ⟨[], [part], [], [], []⟩
  | unreadMedia (type : isMediaType (blockType block)) (missing : mediaBlockToChatPart block = none) :
      Gives block .empty
  | toolUse {id name} (type : blockType block = "tool_use") (identified : block.getStr "id" = some id)
      (named : block.getStr "name" = some name) (filled : id ≠ [] ∧ name ≠ []) :
      Gives block ⟨[], [], [historyToolCall id name ((block.get "input").getD (.obj []))], [], []⟩
  | toolResult (type : blockType block = "tool_result") :
      Gives block ⟨[toolResultMessage block], [], [], [], toolResultMedia block⟩
  | thinking {thoughts} (type : blockType block = "thinking" ∨ blockType block = "redacted_thinking") :
      Gives block ⟨[], [], [], thoughts, []⟩
  | other (type : blockType block ∉ ["text", "image", "document", "audio", "tool_use", "tool_result", "thinking",
      "redacted_thinking"]) : Gives block ⟨[], [textPart (canonicalJsonString block)], [], [], []⟩

theorem gives_of_ok {block : Json} {turn : BlockTurn} (accepted : convertBlock .empty block = .ok turn) :
    Gives block turn := by
  unfold convertBlock at accepted
  split at accepted
  next type =>
    cases found : block.getStr "text" with
    | none =>
      rw [found] at accepted
      cases accepted
      exact .blank type (by rw [found]; rfl)
    | some text =>
      rw [found] at accepted
      cases accepted
      by_cases blank : isBlank text
      · rw [if_pos blank]
        exact .blank type (by rw [found]; exact blank)
      · rw [if_neg blank]
        exact .text type found (Bool.eq_false_iff.mpr blank)
  iterate 3
    next type =>
      have media : isMediaType (blockType block) := by
        rw [blockType, type]
        rfl
      cases found : mediaBlockToChatPart block with
      | none =>
        rw [found] at accepted
        cases accepted
        exact .unreadMedia media found
      | some part =>
        rw [found] at accepted
        cases accepted
        exact .media media found
  next type =>
    dsimp only at accepted
    split_ifs at accepted with missing
    cases accepted
    cases identified : block.getStr "id" with
    | none => simp [identified] at missing
    | some id =>
      cases named : block.getStr "name" with
      | none => simp [named] at missing
      | some name =>
        rw [identified, named] at missing
        exact .toolUse type identified named (by simpa using missing)
  next type =>
    cases accepted
    exact .toolResult type
  next type =>
    cases found : block.getStr "thinking" with
    | none =>
      rw [found] at accepted
      cases accepted
      exact .thinking (.inl type)
    | some thinking =>
      rw [found] at accepted
      cases accepted
      split_ifs
      · exact .thinking (.inl type)
      · exact .thinking (.inl type)
  next type =>
    cases accepted
    exact .thinking (.inr type)
  · cases accepted
    refine .other ?_
    simp only [List.mem_cons, List.not_mem_nil, or_false, not_or]
    exact ⟨by assumption, by assumption, by assumption, by assumption, by assumption, by assumption, by assumption,
      by assumption⟩

section Given

variable {block : Json} {turn : BlockTurn} (gives : Gives block turn)
include gives

theorem Gives.uses : turn.toolCalls = [] ∧ block.getStr "type" ≠ some "tool_use".toList ∨
    ∃ id name, block.getStr "type" = some "tool_use".toList ∧ block.getStr "id" = some id ∧
      block.getStr "name" = some name ∧
      turn.toolCalls = [historyToolCall id name ((block.get "input").getD (.obj []))] := by
  rw [ne_eq, ← blockType_eq_iff (by decide)]
  cases gives with
  | toolUse type identified named filled => exact .inr ⟨_, _, type, identified, named, rfl⟩
  | text type | blank type | toolResult type => exact .inl ⟨rfl, by rw [type]; decide⟩
  | media type | unreadMedia type => exact .inl ⟨rfl, fun same => by rw [same] at type; cases type⟩
  | thinking type => exact .inl ⟨rfl, fun same => by rw [same] at type; revert type; decide⟩
  | other type => exact .inl ⟨rfl, fun same => type (by simp [same])⟩

theorem Gives.answers : turn.toolMessages = [] ∧ block.getStr "type" ≠ some "tool_result".toList ∨
    block.getStr "type" = some "tool_result".toList ∧ turn.toolMessages = [toolResultMessage block] := by
  rw [ne_eq, ← blockType_eq_iff (by decide)]
  cases gives with
  | toolResult type => exact .inr ⟨type, rfl⟩
  | text type | blank type | toolUse type => exact .inl ⟨rfl, by rw [type]; decide⟩
  | media type | unreadMedia type => exact .inl ⟨rfl, fun same => by rw [same] at type; cases type⟩
  | thinking type => exact .inl ⟨rfl, fun same => by rw [same] at type; revert type; decide⟩
  | other type => exact .inl ⟨rfl, fun same => type (by simp [same])⟩

theorem Gives.tool_role :
    ∀ message ∈ turn.toolMessages, message.getStr "role" = some "tool".toList ∧
      message.get "tool_calls" = none := by
  intro message mem
  rcases gives.answers with ⟨none, -⟩ | ⟨-, only⟩
  · rw [none] at mem
    cases mem
  · rw [only] at mem
    cases List.mem_singleton.mp mem
    exact ⟨rfl, rfl⟩

end Given

theorem convertBlock_eq (turn : BlockTurn) (block : Json) :
    convertBlock turn block = (convertBlock .empty block).map turn.append := by
  unfold convertBlock
  split
  · cases block.getStr "text" with
    | none => simp [Except.map]
    | some text =>
      by_cases blank : isBlank text
      · simp [Except.map, blank]
      · simp [Except.map, blank, BlockTurn.withPart, BlockTurn.append, BlockTurn.empty]
  iterate 3
    · cases mediaBlockToChatPart block with
      | none => simp [Except.map]
      | some part => simp [Except.map, BlockTurn.withPart, BlockTurn.append, BlockTurn.empty]
  · dsimp only
    split_ifs
    · rfl
    · simp [Except.map, BlockTurn.append, BlockTurn.empty]
  · simp [Except.map, BlockTurn.append, BlockTurn.empty]
  · cases block.getStr "thinking" with
    | none => simp [Except.map]
    | some thinking =>
      by_cases empty : thinking.isEmpty
      · simp [Except.map, empty]
      · simp [Except.map, empty, BlockTurn.append, BlockTurn.empty]
  · simp [Except.map, BlockTurn.append, BlockTurn.empty]
  · simp [Except.map, BlockTurn.withPart, BlockTurn.append, BlockTurn.empty]

def gift (block : Json) : BlockTurn := (convertBlock .empty block).toOption.getD .empty

def gifts (blocks : List Json) : BlockTurn :=
  ⟨blocks.flatMap fun block => (gift block).toolMessages, blocks.flatMap fun block => (gift block).textParts,
    blocks.flatMap fun block => (gift block).toolCalls, blocks.flatMap fun block => (gift block).reasoning,
    blocks.flatMap fun block => (gift block).pendingMedia⟩

theorem gifts_cons (block : Json) (rest : List Json) :
    gifts (block :: rest) = (gift block).append (gifts rest) := by
  simp [gifts, BlockTurn.append]

theorem foldlM_convertBlock {turn turn' : BlockTurn} {blocks : List Json}
    (converted : blocks.foldlM convertBlock turn = .ok turn') :
    turn' = turn.append (gifts blocks) ∧ ∀ block ∈ blocks, convertBlock .empty block = .ok (gift block) := by
  induction blocks generalizing turn with
  | nil =>
    cases converted
    exact ⟨(append_empty turn').symm, by simp⟩
  | cons block rest ih =>
    rw [List.foldlM_cons, convertBlock_eq] at converted
    obtain ⟨middle, here, converted⟩ := Fallible.bind_eq_ok.mp converted
    obtain ⟨given, first, rfl⟩ := Fallible.map_eq_ok.mp here
    obtain ⟨whole, accepted⟩ := ih converted
    have same : gift block = given := by
      rw [gift, first]
      rfl
    refine ⟨by rw [whole, gifts_cons, same, append_assoc], fun other mem => ?_⟩
    rcases List.mem_cons.mp mem with rfl | later
    · rw [first, same]
    · exact accepted other later

theorem foldlM_convertBlock_of_accepted {blocks : List Json}
    (accepted : ∀ block ∈ blocks, convertBlock .empty block = .ok (gift block)) (turn : BlockTurn) :
    blocks.foldlM convertBlock turn = .ok (turn.append (gifts blocks)) := by
  induction blocks generalizing turn with
  | nil => exact congrArg Except.ok (append_empty turn).symm
  | cons block rest ih =>
    rw [List.foldlM_cons, convertBlock_eq, accepted block List.mem_cons_self, gifts_cons, ← append_assoc]
    exact ih (fun other mem => accepted other (List.mem_cons_of_mem _ mem)) (turn.append (gift block))

theorem convertMessage_cases {vendorRequiresReasoning : Bool} {message : Json} {messages : List Json}
    (converted : convertMessageToChat vendorRequiresReasoning message = .ok messages) :
    (∃ blocks, message.get "content" = some (.arr blocks) ∧
      (∀ block ∈ blocks, convertBlock .empty block = .ok (gift block)) ∧
      messages = (gifts blocks).toolMessages ++
        if messageRole message = assistantRole then assistantMessages (gifts blocks) vendorRequiresReasoning
        else userMessages (gifts blocks)) ∨
    ((message.get "content").bind asArr = none ∧ ∃ content, messages =
      [chatMessage (messageRole message) content]) := by
  unfold convertMessageToChat at converted
  split at converted
  next blocks found =>
    obtain ⟨turn, read, rfl⟩ := Fallible.map_eq_ok.mp converted
    obtain ⟨whole, accepted⟩ := foldlM_convertBlock read
    rw [empty_append] at whole
    exact .inl ⟨blocks, found, accepted, by rw [whole]⟩
  next content other found =>
    cases converted
    refine .inr ⟨?_, content, rfl⟩
    rw [found, Option.bind_some]
    cases content with
    | arr blocks => exact absurd rfl (other blocks)
    | _ => rfl
  next missing =>
    cases converted
    exact .inr ⟨by rw [missing]; rfl, .null, rfl⟩

end LlmGateway
