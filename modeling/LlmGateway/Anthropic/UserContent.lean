import LlmGateway.Anthropic.ToolAdjacency

namespace LlmGateway

open Json Text List

def partsIn (message : Json) : List Json :=
  if message.getStr "role" = some "tool".toList then [message]
  else
    match message.get "content" with
    | some (.str text) => [textPart text]
    | some (.arr parts) => parts
    | _ => []

def BlankText (block : Json) : Prop :=
  blockType block = "text" ∧
    match block.get "text" with
    | none | some .null => True
    | some (.str text) => isBlank text
    | _ => False

def OddText (block : Json) : Prop :=
  match block.get "text" with
  | none | some .null | some (.str _) => False
  | _ => True

def Dropped (block : Json) : Prop :=
  blockType block ∈ ["tool_use", "thinking", "redacted_thinking"] ∨
    (isMediaType (blockType block) ∧ mediaBlockToChatPart block = none) ∨
    (blockType block = "text" ∧ OddText block)

theorem isMediaType_iff {type : String} :
    isMediaType type ↔ type = "image" ∨ type = "document" ∨ type = "audio" := by
  simp [isMediaType, or_assoc]

section Dropped

variable {block : Json} (dropped : Dropped block)
include dropped

theorem Dropped.odd (type : blockType block = "text") : OddText block := by
  rcases dropped with silent | ⟨media, _⟩ | ⟨_, odd⟩
  · simp [type] at silent
  · simp [type, isMediaType] at media
  · exact odd

theorem Dropped.unread (type : isMediaType (blockType block)) : mediaBlockToChatPart block = none := by
  rcases dropped with silent | ⟨_, missing⟩ | ⟨text, _⟩
  · rw [isMediaType_iff] at type
    rcases type with type | type | type <;> simp [type] at silent
  · exact missing
  · simp [text, isMediaType] at type

theorem Dropped.known : blockType block ≠ "tool_result" ∧ blockType block ∈ ["text", "image", "document", "audio",
    "tool_use", "tool_result", "thinking", "redacted_thinking"] := by
  rcases dropped with silent | ⟨media, _⟩ | ⟨text, _⟩
  · simp only [mem_cons, not_mem_nil, or_false] at silent
    rcases silent with type | type | type <;> simp [type]
  · rw [isMediaType_iff] at media
    rcases media with type | type | type <;> simp [type]
  · simp [text]

theorem Dropped.not_blank : ¬BlankText block := by
  rintro ⟨type, blank⟩
  have odd := dropped.odd type
  rw [OddText] at odd
  cases found : block.get "text" with
  | none =>
    rw [found] at odd
    exact odd
  | some value =>
    rw [found] at odd blank
    cases value with
    | null | str => exact odd
    | _ => exact blank

end Dropped

theorem oddText_getStr {block : Json} (odd : OddText block) : block.getStr "text" = none := by
  rw [OddText] at odd
  rw [getStr]
  cases found : block.get "text" with
  | none => rfl
  | some value =>
    rw [found] at odd
    cases value with
    | null | str => exact absurd odd id
    | _ => rfl

theorem isPlainPart_of_media {block part : Json} (found : mediaBlockToChatPart block = some part) :
    isPlainPart part = false := by
  have read := (Option.filter_eq_some_iff.mp found).2
  rw [isPlainPart, Bool.eq_false_iff]
  intro plain
  rw [of_decide_eq_true plain] at read
  exact absurd read (by decide)

section Shares

variable [FloatText]

/-- What may stand for a block in the chat messages. Only a blank text may be left out. -/
inductive Share (block : Json) : List Json → Prop
  | blank (blank : BlankText block) : Share block []
  | text {text} (type : blockType block = "text") (found : block.getStr "text" = some text) :
      Share block [textPart text]
  | media {part} (type : isMediaType (blockType block)) (found : mediaBlockToChatPart block = some part) :
      Share block [part]
  | tool (type : blockType block = "tool_result") : Share block (toolResultMessage block :: toolResultMedia block)
  | canonical (other : blockType block ≠ "tool_result") : Share block [textPart (canonicalJsonString block)]

def NothingDropped (blocks messages : List Json) : Prop :=
  ∃ shares, List.Forall₂ Share blocks shares ∧ shares.flatten.Perm (messages.flatMap partsIn)

def giftParts (block : Json) : List Json :=
  (gift block).toolMessages ++ ((gift block).pendingMedia ++ (gift block).textParts)

theorem Gives.plain {block : Json} {turn : BlockTurn} (gives : Gives block turn) :
    ∀ part ∈ turn.textParts, isPlainPart part → ∃ text, part = textPart text := by
  intro part mem plain
  cases gives with
  | text => exact ⟨_, mem_singleton.mp mem⟩
  | other => exact ⟨_, mem_singleton.mp mem⟩
  | media type found =>
    cases mem_singleton.mp mem
    rw [isPlainPart_of_media found] at plain
    cases plain
  | _ => cases mem

section Blocks

variable {blocks : List Json} (accepted : ∀ block ∈ blocks, convertBlock .empty block = .ok (gift block))
include accepted

theorem plain_gifts : ∀ part ∈ (gifts blocks).textParts, isPlainPart part → ∃ text, part = textPart text := by
  intro part mem
  obtain ⟨block, present, inside⟩ := mem_flatMap.mp mem
  exact (gives_of_ok (accepted block present)).plain part inside

theorem partsIn_toolMessages : (gifts blocks).toolMessages.flatMap partsIn = (gifts blocks).toolMessages := by
  have each : ∀ message ∈ (gifts blocks).toolMessages, partsIn message = [message] := fun message mem => by
    rw [partsIn, if_pos (tool_role_gifts accepted message mem).1]
  rw [flatMap_congr each, flatMap_singleton']

theorem partsIn_userMessages : (userMessages (gifts blocks)).flatMap partsIn =
    (gifts blocks).pendingMedia ++ (gifts blocks).textParts := by
  have media : (if (gifts blocks).pendingMedia.isEmpty then []
      else [chatMessage userRole (.arr (gifts blocks).pendingMedia)]).flatMap partsIn =
        (gifts blocks).pendingMedia := by
    cases (gifts blocks).pendingMedia with
    | nil => rfl
    | cons part rest => exact append_nil _
  have plain := plain_gifts accepted
  rw [userMessages, flatMap_append, media]
  congr 1
  rcases shown : (gifts blocks).textParts with _ | ⟨part, _ | _⟩
  · rfl
  · rw [shown] at plain
    by_cases isPlain : isPlainPart part
    · obtain ⟨text, rfl⟩ := plain part (by simp) isPlain
      rfl
    · simp only [isPlain]
      rfl
  · exact append_nil _

theorem partsIn_converted :
    (((gifts blocks).toolMessages ++ userMessages (gifts blocks)).flatMap partsIn).Perm
      (blocks.flatMap giftParts) := by
  rw [flatMap_append, partsIn_toolMessages accepted, partsIn_userMessages accepted]
  refine (List.Perm.append_left _ (flatMap_append_perm blocks _ _)).trans ?_
  exact flatMap_append_perm blocks _ _

end Blocks

variable {turn : BlockTurn} {block : Json}

theorem Gives.share (gives : Gives block turn) (kept : ¬Dropped block) :
    Share block (turn.toolMessages ++ (turn.pendingMedia ++ turn.textParts)) := by
  rw [Dropped, not_or, not_or] at kept
  obtain ⟨known, readable, textual⟩ := kept
  cases gives with
  | text type found => exact .text type found
  | blank type blank =>
    refine .blank ⟨type, ?_⟩
    have textual := fun odd => textual ⟨type, odd⟩
    rw [OddText] at textual
    rw [getStr] at blank
    cases found : block.get "text" with
    | none => trivial
    | some value =>
      rw [found] at textual blank
      cases value with
      | null => trivial
      | str text => exact blank
      | _ => exact textual trivial
  | media type found => exact .media type found
  | unreadMedia type missing => exact absurd ⟨type, missing⟩ readable
  | toolUse type => exact absurd (by simp [type]) known
  | toolResult type => simpa using Share.tool type
  | thinking type => exact absurd (by rcases type with type | type <;> simp [type]) known
  | other type => exact .canonical fun same => type (by simp [same])

theorem Gives.nothing (gives : Gives block turn) (dropped : Dropped block) :
    turn.toolMessages ++ (turn.pendingMedia ++ turn.textParts) = [] := by
  cases gives with
  | text type found =>
    rw [oddText_getStr (dropped.odd type)] at found
    cases found
  | media type found =>
    rw [dropped.unread type] at found
    cases found
  | toolResult type => exact absurd type dropped.known.1
  | other type => exact absurd dropped.known.2 type
  | _ => rfl

theorem Share.filled {share : List Json} (has : Share block share) (said : ¬BlankText block) :
    1 ≤ share.length := by
  cases has with
  | blank blank => exact absurd blank said
  | _ => simp

theorem Share.eq_tool {share : List Json} (has : Share block share) (type : blockType block = "tool_result") :
    share = toolResultMessage block :: toolResultMedia block := by
  cases has with
  | blank blank => exact absurd (type.symm.trans blank.1) (by decide)
  | text other => exact absurd (type.symm.trans other) (by decide)
  | media other =>
    rw [type] at other
    cases other
  | tool => rfl
  | canonical other => exact absurd type other

theorem Gives.length_le {share : List Json} (gives : Gives block turn) (has : Share block share) :
    (turn.toolMessages ++ (turn.pendingMedia ++ turn.textParts)).length ≤ share.length := by
  cases gives with
  | text type found solid =>
    refine has.filled fun blank => ?_
    have blank := blank.2
    obtain ⟨value, held, string⟩ := Option.bind_eq_some_iff.mp found
    rw [held] at blank
    cases value with
    | str text =>
      cases string
      cases solid.symm.trans blank
    | _ => cases string
  | media type => exact has.filled fun blank => by simp [blank.1, isMediaType] at type
  | toolResult type => simp [has.eq_tool type]
  | other type => exact has.filled fun blank => type (by simp [blank.1])
  | _ => exact Nat.zero_le _

theorem Gives.length_lt {share : List Json} (gives : Gives block turn) (has : Share block share)
    (dropped : Dropped block) :
    (turn.toolMessages ++ (turn.pendingMedia ++ turn.textParts)).length < share.length := by
  rw [gives.nothing dropped]
  exact has.filled dropped.not_blank

theorem kept_of_length {blocks : List Json} {shares : List (List Json)} (has : List.Forall₂ Share blocks shares)
    (accepted : ∀ block ∈ blocks, convertBlock .empty block = .ok (gift block)) :
    (blocks.flatMap giftParts).length ≤ shares.flatten.length ∧
      (shares.flatten.length ≤ (blocks.flatMap giftParts).length → ∀ block ∈ blocks, ¬Dropped block) := by
  induction has with
  | nil => simp
  | @cons block share blocks shares here later ih =>
    obtain ⟨shorter, kept⟩ := ih fun other mem => accepted other (mem_cons_of_mem _ mem)
    have gives := gives_of_ok (accepted block mem_cons_self)
    have bound := gives.length_le here
    rw [flatMap_cons, flatten_cons, length_append, length_append, giftParts]
    refine ⟨by omega, fun same other mem => ?_⟩
    rcases mem_cons.mp mem with rfl | inside
    · intro dropped
      have strict := gives.length_lt here dropped
      omega
    · exact kept (by omega) other inside

/-- A user message keeps all of its content, unless a block is of a kind or in a form that is passed over. -/
theorem user_content_kept_iff {vendorRequiresReasoning : Bool} {message : Json} {blocks messages : List Json}
    (role : messageRole message = userRole) (content : message.get "content" = some (.arr blocks))
    (converted : convertMessageToChat vendorRequiresReasoning message = .ok messages) :
    NothingDropped blocks messages ↔ ∀ block ∈ blocks, ¬Dropped block := by
  rcases convertMessage_cases converted with ⟨others, found, accepted, whole⟩ | ⟨missing, _⟩
  · cases content.symm.trans found
    have other : userRole ≠ assistantRole := by decide
    rw [if_neg (by rw [role]; exact other)] at whole
    have parts := partsIn_converted accepted
    rw [← whole] at parts
    constructor
    · rintro ⟨shares, has, same⟩
      exact (kept_of_length has accepted).2 (same.trans parts).length_eq.le
    · intro kept
      refine ⟨blocks.map giftParts, ?_, ?_⟩
      · rw [forall₂_map_right_iff, forall₂_same]
        intro block member
        exact (gives_of_ok (accepted block member)).share (kept block member)
      · rw [← flatMap_def]
        exact parts.symm
  · rw [content] at missing
    cases missing

end Shares

def userTurn (blocks : List Json) : Json := .obj [("content", .arr blocks), ("role", .str "user".toList)]

def linkedDocument : Json :=
  .obj [("source", .obj [("type", .str "url".toList), ("url", .str "https://example.com/a.png".toList)]),
    ("type", .str "document".toList)]

def helloBlock : Json := .obj [("text", .str "hello".toList), ("type", .str "text".toList)]

def pictureBlock : Json :=
  .obj [("source", .obj [("data", .str "QUJD".toList), ("media_type", .str "image/png".toList),
      ("type", .str "base64".toList)]), ("type", .str "image".toList)]

def resultBlock : Json :=
  .obj [("content", .str "42".toList), ("tool_use_id", .str "call_1".toList), ("type", .str "tool_result".toList)]

theorem mixed_turn_kept : let _ : FloatText := verbatim
    ∃ messages, convertMessageToChat false (userTurn [resultBlock, helloBlock, pictureBlock]) = .ok messages ∧
      NothingDropped [resultBlock, helloBlock, pictureBlock] messages := by
  intro _
  have accepted : (convertMessageToChat false (userTurn [resultBlock, helloBlock, pictureBlock])).isOk := by
    decide +kernel
  obtain ⟨messages, converted⟩ := Fallible.exists_of_isOk accepted
  refine ⟨messages, converted, (user_content_kept_iff rfl rfl converted).mpr ?_⟩
  rw [forall_mem_cons, forall_mem_cons, forall_mem_singleton]
  refine ⟨?result, ?text, ?picture⟩
  case result =>
    rintro (silent | ⟨media, _⟩ | ⟨text, _⟩)
    · exact absurd silent (by decide)
    · cases media
    · exact absurd text (by decide)
  case text =>
    rintro (silent | ⟨media, _⟩ | ⟨_, odd⟩)
    · exact absurd silent (by decide)
    · cases media
    · exact odd
  case picture =>
    rintro (silent | ⟨_, unread⟩ | ⟨text, _⟩)
    · exact absurd silent (by decide)
    · exact absurd unread (by decide +kernel)
    · exact absurd text (by decide)

theorem linked_document_dropped : let _ : FloatText := verbatim
    convertMessageToChat false (userTurn [linkedDocument]) = .ok [] ∧ ¬NothingDropped [linkedDocument] [] := by
  intro _
  have converted : convertMessageToChat false (userTurn [linkedDocument]) = .ok [] := by rfl
  refine ⟨converted, ?_⟩
  rintro ⟨shares, has, same⟩
  cases has with
  | @cons _ share _ _ here later =>
    have filled := here.filled fun blank => absurd blank.1 (by decide)
    have nothing := same.length_eq
    rw [flatten_cons, length_append, flatMap_nil, length_nil] at nothing
    omega

end LlmGateway
