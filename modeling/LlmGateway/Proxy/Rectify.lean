import LlmGateway.Proxy.Passes

namespace LlmGateway

open Json Text List

section Errors

def mentions (text : Str) (words : List String) : Bool := words.any fun word => containsWord text word.toList

def isUnsupportedImageError (message : Str) : Bool :=
  let message := toAsciiLowercase message
  mentions message ["only support text", "only supports text"] ||
    (mentions message ["image", "vision", "multimodal", "multi-modal", "modality", "modalities", "media",
      "attachment"] &&
      mentions message ["unsupported", "not supported", "does not support", "doesn't support", "do not support",
        "don't support", "text only", "text-only", "invalid content type", "invalid message content",
        "unknown variant",
        "unknown content type", "unrecognized content type", "cannot process", "cannot handle", "can't process",
        "can't handle", "unable to process"])

def isThinkingError [Lowercase] (message : Str) : Bool :=
  let lower := Lowercase.lower message
  let all := fun words : List String => words.all fun word => containsWord lower word.toList
  all ["invalid", "signature", "thinking", "block"] ||
    (all ["thought signature"] && mentions lower ["not valid", "invalid"]) ||
    all ["must start with a thinking block"] ||
    (all ["expected", "found", "tool_use"] && mentions lower ["thinking", "redacted_thinking"]) ||
    all ["signature", "field required"] || all ["signature", "extra inputs are not permitted"] ||
    (mentions lower ["thinking", "redacted_thinking"] && all ["cannot be modified"]) ||
    mentions lower ["非法请求", "illegal request", "invalid request"]

def isThinkingBudgetError (message : Str) : Bool :=
  let message := toAsciiLowercase message
  mentions message ["budget_tokens", "thinking budget", "budget tokens"] &&
    mentions message ["must be", "greater than", "less than", "minimum", "invalid", "exceeds"]

def extractErrorText [FloatText] (body : List UInt8) : Str :=
  let raw := Utf8.decodeLossy body
  match parse raw with
  | some json => ((((json.get "error").bind (·.getStr "message")).or (json.getStr "message")).or
      (json.getStr "detail")).getD raw
  | none => raw

end Errors

section Rewrites

def itemsOf (json : Json) (key : String) : List Json := ((json.get key).bind asArr).getD []

def overItems (rewrite : List Json → List Json) : Json → Json
  | .arr items => .arr (rewrite items)
  | other => other

def onItems (key : String) (rewrite : List Json → List Json) : Json → Json
  | .obj fields => .obj (modifyField key (overItems rewrite) fields)
  | other => other

def overBlocks (step : Json → List Json) (body : Json) : Json :=
  onItems "messages" (map (onItems "content" (flatMap step))) body

def allBlocks (body : Json) : List Json := (itemsOf body "messages").flatMap (itemsOf · "content")

def withoutField (key : String) : Json → Json
  | .obj fields => .obj (removeField key fields)
  | other => other

def hasType (types : List String) (part : Json) : Bool :=
  types.any fun type => part.getStr "type" = some type.toList

def isImagePart : Json → Bool := hasType ["image_url", "image"]

def isImageItem : Json → Bool := hasType ["input_image"]

def unsupportedImage (type : String) : Json :=
  .obj [("text", .str "[Unsupported Image]".toList), ("type", .str type.toList)]

def replaceTyped (types : List String) (type : String) (part : Json) : Json :=
  if hasType types part then unsupportedImage type else part

def replacePart : Json → Json := replaceTyped ["image_url", "image"] "text"

def replaceItem : Json → Json := replaceTyped ["input_image"] "input_text"

def replaceImageParts (body : Json) : Json × Nat :=
  (onItems "input" (map replaceItem) (overBlocks (fun part => [replacePart part]) body),
    (allBlocks body).countP isImagePart + (itemsOf body "input").countP isImageItem)

def isThinkingBlock : Json → Bool := hasType ["thinking", "redacted_thinking"]

def stripBlock (block : Json) : List Json := if isThinkingBlock block then [] else [withoutField "signature" block]

def stripThinkingBlocks (body : Json) : Json × Nat :=
  (overBlocks stripBlock body,
    (allBlocks body).countP fun block => isThinkingBlock block || (block.get "signature").isSome)

def thinkingEnabled (body : Json) : Bool := ((body.get "thinking").bind (·.getStr "type")) = some "enabled".toList

def isAssistantTurn (message : Json) : Bool := message.getStr "role" = some "assistant".toList

def removeTopLevelThinkingIfBroken (body : Json) : Bool :=
  thinkingEnabled body && match (itemsOf body "messages").reverse.find? isAssistantTurn with
    | none => false
    | some last => !(itemsOf last "content").head?.any isThinkingBlock

def budgetTokens (body : Json) : Option Nat := ((body.get "thinking").bind (·.get "budget_tokens")).bind asU64

def maxTokens (body : Json) : Option Nat := (body.get "max_tokens").bind asU64

def withBudget : Json → Json
  | .obj fields => .obj (modifyField "thinking" (setField "budget_tokens" (.num (.int 32000))) fields)
  | other => other

def raiseBudget (body : Json) : Json × Bool :=
  if (budgetTokens body).any (32000 ≤ ·) then (body, false) else (withBudget body, true)

def raiseMaxTokens (body : Json) : Json × Bool :=
  if (maxTokens body).any (64000 ≤ ·) then (body, false) else (setField "max_tokens" (.num (.int 64000)) body, true)

def raiseThinkingBudget (body : Json) : Json × Bool :=
  if thinkingEnabled body then
    let budget := raiseBudget body
    let tokens := raiseMaxTokens budget.1
    (tokens.1, budget.2 || tokens.2)
  else (body, false)

end Rewrites

section Rectify

variable [Lowercase]

def rectifyMedia (message : Str) (body : Json) : Json × Bool :=
  if isUnsupportedImageError message then ((replaceImageParts body).1, decide (0 < (replaceImageParts body).2))
  else (body, false)

def rectifyThinking (native : Bool) (message : Str) (body : Json) : Json × Bool :=
  if isThinkingError message && native then
    let stripped := stripThinkingBlocks body
    if removeTopLevelThinkingIfBroken stripped.1 then (withoutField "thinking" stripped.1, true)
    else (stripped.1, decide (0 < stripped.2))
  else (body, false)

def rectifyBudget (native : Bool) (message : Str) (body : Json) : Json × Bool :=
  if native && isThinkingBudgetError message then raiseThinkingBudget body else (body, false)

def rewritten (native : Bool) (message : Str) (body : Json) : Json × Bool :=
  let media := rectifyMedia message body
  let thinking := rectifyThinking native message media.1
  let budget := rectifyBudget native message thinking.1
  (budget.1, media.2 || thinking.2 || budget.2)

variable [FloatText]

def rectifyBody (native : Bool) (errorBody : List UInt8) (status : Nat) (body : Json) : Option Json :=
  let result := rewritten native (extractErrorText errorBody) body
  if status ∈ [400, 413, 415, 422] ∧ result.2 then some result.1 else none

def rectifyOutbound (native : Bool) (outbound errorBody : List UInt8) (status : Nat) : Option Json :=
  (jsonOfBytes outbound).bind (rectifyBody native errorBody status)

end Rectify

def stripMediaOutbound [FloatText] (outbound : List UInt8) : Option Json :=
  (jsonOfBytes outbound).bind fun body =>
    if (replaceImageParts body).2 = 0 then none else some (replaceImageParts body).1

section Reads

variable {key other : String} {rewrite : List Json → List Json} {json body block : Json} {step : Json → List Json}
  {types : List String}

theorem get_onItems : (onItems key rewrite json).get key = (json.get key).map (overItems rewrite) := by
  cases json with
  | obj fields => exact lookup_modifyField
  | _ => rfl

theorem get_onItems_ne (different : other ≠ key) : (onItems key rewrite json).get other = json.get other := by
  cases json with
  | obj fields => exact lookup_modifyField_ne different
  | _ => rfl

theorem onItems_onItems {first : List Json → List Json} :
    onItems key rewrite (onItems key first json) = onItems key (rewrite ∘ first) json := by
  cases json with
  | obj fields =>
    simp only [onItems, modifyField, map_map]
    refine congrArg Json.obj (map_congr_left fun field _ => ?_)
    rw [Function.comp]
    split_ifs with here
    · simp only [here]
      cases field.2 <;> rfl
    · rfl
  | _ => rfl

theorem onItems_id : onItems key id json = json := by
  cases json with
  | obj fields =>
    refine congrArg Json.obj ((map_congr_left fun field _ => ?_).trans (map_id _))
    split_ifs
    · cases held : field.2 <;> exact Prod.ext rfl held.symm
    · rfl
  | _ => rfl

theorem itemsOf_onItems (empty : rewrite [] = []) :
    itemsOf (onItems key rewrite json) key = rewrite (itemsOf json key) := by
  unfold itemsOf
  rw [get_onItems]
  cases json.get key with
  | none => exact empty.symm
  | some value =>
    cases value with
    | arr items => rfl
    | _ => exact empty.symm

theorem itemsOf_onItems_ne (different : other ≠ key) :
    itemsOf (onItems key rewrite json) other = itemsOf json other := by
  rw [itemsOf, get_onItems_ne different, itemsOf]

theorem itemsOf_overBlocks : itemsOf (overBlocks step body) "messages" =
    (itemsOf body "messages").map (onItems "content" (flatMap step)) := itemsOf_onItems rfl

theorem allBlocks_overBlocks : allBlocks (overBlocks step body) = (allBlocks body).flatMap step := by
  unfold allBlocks
  rw [itemsOf_overBlocks, flatMap_map, flatMap_assoc]
  exact congrArg (flatMap · _) (funext fun message => itemsOf_onItems rfl)

theorem allBlocks_congr (same : json.get "messages" = body.get "messages") : allBlocks json = allBlocks body := by
  rw [allBlocks, itemsOf, same, allBlocks, itemsOf]

theorem get_withoutField_self : (withoutField key json).get key = none := by
  cases json with
  | obj fields => exact lookup_removeField_self
  | _ => rfl

theorem get_withoutField_ne (different : other ≠ key) : (withoutField key json).get other = json.get other := by
  cases json with
  | obj fields => exact lookup_removeField different fields
  | _ => rfl

theorem hasType_withoutSignature : hasType types (withoutField "signature" block) = hasType types block := by
  rw [hasType, getStr, get_withoutField_ne (by decide), ← getStr, hasType]

theorem hasType_marker (type : String) :
    hasType types (unsupportedImage type) = types.any (type.toList = ·.toList) := by
  simp [hasType, unsupportedImage, getStr, Json.get, asStr, List.lookup]

theorem hasType_absent {wanted : List String} (typed : hasType types block)
    (apart : ∀ type ∈ types, type ∉ wanted) : hasType wanted block = false := by
  obtain ⟨type, mem, is⟩ := any_eq_true.mp typed
  refine any_eq_false.mpr fun other place same => apart type mem ?_
  have equal := (of_decide_eq_true is).symm.trans (of_decide_eq_true same)
  rwa [String.toList_inj.mp (Option.some_inj.mp equal)]

end Reads

section Stages

variable {native : Bool} {message : Str} {body json block old : Json} {key : String} {step : Json → List Json}

theorem replaceTyped_cases {types : List String} {type : String} (fresh : type ∉ types) (part : Json) :
    hasType types (replaceTyped types type part) = false ∧
      (replaceTyped types type part = part ∨ replaceTyped types type part = unsupportedImage type) := by
  unfold replaceTyped
  split_ifs with image
  · refine ⟨(hasType_marker type).trans (any_eq_false.mpr fun other mem same => fresh ?_), .inr rfl⟩
    rwa [String.toList_inj.mp (of_decide_eq_true same)]
  · exact ⟨eq_false_of_ne_true image, .inl rfl⟩

theorem stripBlock_mem (mem : block ∈ stripBlock old) :
    block = withoutField "signature" old ∧ isThinkingBlock block = false ∧ block.get "signature" = none := by
  unfold stripBlock at mem
  split_ifs at mem with thinking
  · cases mem
  · cases mem_singleton.mp mem
    exact ⟨rfl, hasType_withoutSignature.trans (eq_false_of_ne_true thinking), get_withoutField_self⟩

theorem assistants_overBlocks :
    (itemsOf (overBlocks step body) "messages").any isAssistantTurn =
      (itemsOf body "messages").any isAssistantTurn := by
  rw [itemsOf_overBlocks, any_map]
  refine congrArg (any _) (funext fun message => ?_)
  have role : (onItems "content" (flatMap step) message).get "role" = message.get "role" :=
    get_onItems_ne (by decide)
  rw [Function.comp, isAssistantTurn, getStr, role, ← getStr, ← isAssistantTurn]

theorem broken_strip : removeTopLevelThinkingIfBroken (stripThinkingBlocks body).1 =
    (thinkingEnabled body && (itemsOf body "messages").any isAssistantTurn) := by
  rw [← @assistants_overBlocks body stripBlock]
  unfold removeTopLevelThinkingIfBroken stripThinkingBlocks thinkingEnabled
  dsimp only
  rw [show (overBlocks stripBlock body).get "thinking" = _ from get_onItems_ne (by decide)]
  congr 1
  rw [← any_reverse, ← isSome_find?]
  cases last : (itemsOf (overBlocks stripBlock body) "messages").reverse.find? isAssistantTurn with
  | none => rfl
  | some message =>
    have mem := mem_reverse.mp (mem_of_find?_eq_some last)
    rw [itemsOf_overBlocks] at mem
    obtain ⟨before, _, rfl⟩ := mem_map.mp mem
    dsimp only
    rw [itemsOf_onItems rfl]
    cases first : (flatMap stripBlock (itemsOf before "content")).head? with
    | none => rfl
    | some block =>
      obtain ⟨_, _, stripped⟩ := mem_flatMap.mp (mem_of_head? first)
      simp [(stripBlock_mem stripped).2.1]

def MediaQuiet (message : Str) (body : Json) : Prop := isUnsupportedImageError message →
  (∀ block ∈ allBlocks body, isImagePart block = false) ∧ ∀ item ∈ itemsOf body "input", isImageItem item = false

def ThinkingQuiet [Lowercase] (native : Bool) (message : Str) (body : Json) : Prop :=
  (isThinkingError message && native) →
    (∀ block ∈ allBlocks body, isThinkingBlock block = false ∧ block.get "signature" = none) ∧
      (thinkingEnabled body && (itemsOf body "messages").any isAssistantTurn) = false

def BudgetQuiet (native : Bool) (message : Str) (body : Json) : Prop :=
  (native && isThinkingBudgetError message) → thinkingEnabled body →
    (budgetTokens body).any (32000 ≤ ·) ∧ (maxTokens body).any (64000 ≤ ·)

theorem MediaQuiet.congr (quiet : MediaQuiet message body) (messages : json.get "messages" = body.get "messages")
    (input : json.get "input" = body.get "input") : MediaQuiet message json := by
  rwa [MediaQuiet, allBlocks_congr messages, itemsOf, input]

theorem BudgetQuiet.congr (quiet : BudgetQuiet native message body)
    (thinking : json.get "thinking" = body.get "thinking")
    (tokens : json.get "max_tokens" = body.get "max_tokens") : BudgetQuiet native message json := by
  rwa [BudgetQuiet, thinkingEnabled, budgetTokens, maxTokens, thinking, tokens]

theorem get_rectifyMedia (messages : key ≠ "messages") (input : key ≠ "input") :
    (rectifyMedia message body).1.get key = body.get key := by
  unfold rectifyMedia
  split_ifs
  · exact (get_onItems_ne input).trans (get_onItems_ne messages)
  · rfl

theorem mediaQuiet_rectifyMedia : MediaQuiet message (rectifyMedia message body).1 := by
  intro image
  rw [rectifyMedia, if_pos image, replaceImageParts]
  constructor
  · intro block mem
    rw [allBlocks_congr (get_onItems_ne (by decide)), allBlocks_overBlocks] at mem
    obtain ⟨old, _, replaced⟩ := mem_flatMap.mp mem
    rw [mem_singleton.mp replaced]
    exact (replaceTyped_cases (by decide) old).1
  · intro item mem
    rw [itemsOf_onItems rfl] at mem
    obtain ⟨old, _, rfl⟩ := mem_map.mp mem
    exact (replaceTyped_cases (by decide) old).1

theorem flag_rectifyMedia : (rectifyMedia message body).2 = false ↔ MediaQuiet message body := by
  unfold rectifyMedia MediaQuiet
  split_ifs with image
  · simp [replaceImageParts, image]
  · simp [image]

theorem BudgetQuiet.rectifyMedia (quiet : BudgetQuiet native message body) :
    BudgetQuiet native message (rectifyMedia message body).1 :=
  quiet.congr (get_rectifyMedia (by decide) (by decide)) (get_rectifyMedia (by decide) (by decide))

theorem get_raiseBudget (thinking : key ≠ "thinking") : (raiseBudget body).1.get key = body.get key := by
  unfold raiseBudget
  split_ifs
  · rfl
  · cases body with
    | obj fields => exact lookup_modifyField_ne thinking
    | _ => rfl

theorem get_raiseMaxTokens (tokens : key ≠ "max_tokens") : (raiseMaxTokens body).1.get key = body.get key := by
  unfold raiseMaxTokens
  split_ifs
  · rfl
  · exact get_setField_ne tokens body

theorem get_raise (thinking : key ≠ "thinking") (tokens : key ≠ "max_tokens") :
    (raiseThinkingBudget body).1.get key = body.get key := by
  unfold raiseThinkingBudget
  split_ifs
  · exact (get_raiseMaxTokens tokens).trans (get_raiseBudget thinking)
  · rfl

variable [Lowercase]

theorem ThinkingQuiet.rectifyMedia (quiet : ThinkingQuiet native message body) :
    ThinkingQuiet native message (rectifyMedia message body).1 := by
  intro broken
  obtain ⟨free, settled⟩ := quiet broken
  rw [thinkingEnabled, get_rectifyMedia (by decide) (by decide), ← thinkingEnabled]
  unfold LlmGateway.rectifyMedia
  split_ifs with image
  · unfold replaceImageParts
    dsimp only
    rw [allBlocks_congr (get_onItems_ne (by decide)), allBlocks_overBlocks, itemsOf_onItems_ne (by decide),
      assistants_overBlocks]
    refine ⟨fun block mem => ?_, settled⟩
    obtain ⟨old, place, replaced⟩ := mem_flatMap.mp mem
    rw [mem_singleton.mp replaced, replacePart]
    rcases (@replaceTyped_cases ["image_url", "image"] "text" (by decide) old).2 with same | marked
    · rw [same]
      exact free _ place
    · rw [marked]
      exact ⟨(hasType_marker "text").trans (by decide), rfl⟩
  · exact ⟨free, settled⟩

theorem rectifyThinking_eq : rectifyThinking native message body =
    if isThinkingError message && native then
      if thinkingEnabled body && (itemsOf body "messages").any isAssistantTurn then
        (withoutField "thinking" (overBlocks stripBlock body), true)
      else (overBlocks stripBlock body, decide (0 < (stripThinkingBlocks body).2))
    else (body, false) := by
  rw [← broken_strip]
  rfl

theorem get_rectifyThinking (messages : key ≠ "messages") (thinking : key ≠ "thinking") :
    (rectifyThinking native message body).1.get key = body.get key := by
  rw [rectifyThinking_eq]
  split_ifs
  · exact (get_withoutField_ne thinking).trans (get_onItems_ne messages)
  · exact get_onItems_ne messages
  · rfl

theorem messages_rectifyThinking : (rectifyThinking native message body).1.get "messages" =
    (if isThinkingError message && native then overBlocks stripBlock body else body).get "messages" := by
  rw [rectifyThinking_eq]
  split_ifs
  · exact get_withoutField_ne (by decide)
  · rfl
  · rfl

theorem thinking_rectifyThinking : (rectifyThinking native message body).1.get "thinking" = none ∨
    (rectifyThinking native message body).1.get "thinking" = body.get "thinking" := by
  rw [rectifyThinking_eq]
  split_ifs
  · exact .inl get_withoutField_self
  · exact .inr (get_onItems_ne (by decide))
  · exact .inr rfl

omit [Lowercase] in
theorem enabled_of_absent (absent : body.get "thinking" = none) : thinkingEnabled body = false := by
  rw [thinkingEnabled, absent]
  rfl

theorem MediaQuiet.rectifyThinking (quiet : MediaQuiet message body) :
    MediaQuiet message (rectifyThinking native message body).1 := by
  intro image
  obtain ⟨free, items⟩ := quiet image
  rw [allBlocks_congr messages_rectifyThinking, itemsOf, get_rectifyThinking (by decide) (by decide), ← itemsOf]
  refine ⟨fun block mem => ?_, items⟩
  split_ifs at mem
  · rw [allBlocks_overBlocks] at mem
    obtain ⟨old, place, stripped⟩ := mem_flatMap.mp mem
    rw [(stripBlock_mem stripped).1]
    exact hasType_withoutSignature.trans (free old place)
  · exact free block mem

theorem thinkingQuiet_rectifyThinking : ThinkingQuiet native message (rectifyThinking native message body).1 := by
  intro broken
  have messages := @messages_rectifyThinking native message body _
  rw [if_pos broken] at messages
  rw [allBlocks_congr messages, allBlocks_overBlocks, itemsOf, messages, ← itemsOf, assistants_overBlocks]
  constructor
  · intro block mem
    obtain ⟨_, _, stripped⟩ := mem_flatMap.mp mem
    exact (stripBlock_mem stripped).2
  · rw [rectifyThinking_eq, if_pos broken]
    split_ifs with enabled
    · rw [enabled_of_absent get_withoutField_self, Bool.false_and]
    · rw [thinkingEnabled, show (overBlocks stripBlock body).get "thinking" = _ from get_onItems_ne (by decide)]
      exact eq_false_of_ne_true enabled

theorem BudgetQuiet.rectifyThinking (quiet : BudgetQuiet native message body) :
    BudgetQuiet native message (rectifyThinking native message body).1 := by
  rcases @thinking_rectifyThinking native message body _ with gone | same
  · intro _ enabled
    rw [enabled_of_absent gone] at enabled
    cases enabled
  · exact quiet.congr same (get_rectifyThinking (by decide) (by decide))

theorem flag_rectifyThinking : (rectifyThinking native message body).2 = false ↔
    ThinkingQuiet native message body := by
  rw [rectifyThinking_eq, ThinkingQuiet]
  split_ifs with broken enabled
  · simp [broken, enabled]
  · simp [broken, enabled, stripThinkingBlocks]
  · simp [broken]

omit [Lowercase]

theorem exists_of_enabled (enabled : thinkingEnabled body) :
    ∃ fields inner, body = .obj fields ∧ fields.lookup "thinking" = some (.obj inner) := by
  obtain ⟨thinking, found, type⟩ := Option.bind_eq_some_iff.mp (of_decide_eq_true enabled)
  cases body with
  | obj fields =>
    cases thinking with
    | obj inner => exact ⟨fields, inner, rfl, found⟩
    | _ => cases type
  | _ => cases found

theorem at_least {least : Nat} {value : Option Nat} :
    (if value.any (least ≤ ·) then value else some least) = some (max least (value.getD 0)) := by
  cases value with
  | none => simp
  | some given =>
    rw [Option.any_some, Option.getD_some]
    split_ifs with ample
    · rw [max_eq_right (of_decide_eq_true ample)]
    · rw [max_eq_left (Nat.le_of_not_le (by simpa using ample))]

theorem raise_spec (enabled : thinkingEnabled body) :
    thinkingEnabled (raiseThinkingBudget body).1 ∧
      budgetTokens (raiseThinkingBudget body).1 = some (max 32000 ((budgetTokens body).getD 0)) ∧
      maxTokens (raiseThinkingBudget body).1 = some (max 64000 ((maxTokens body).getD 0)) ∧
      ((raiseThinkingBudget body).2 = false ↔
        (budgetTokens body).any (32000 ≤ ·) ∧ (maxTokens body).any (64000 ≤ ·)) := by
  obtain ⟨fields, inner, rfl, found⟩ := exists_of_enabled enabled
  have thinking : (raiseMaxTokens (raiseBudget (.obj fields)).1).1.get "thinking" = _ :=
    get_raiseMaxTokens (by decide)
  have tokens : maxTokens (raiseBudget (.obj fields)).1 = maxTokens (.obj fields) :=
    congrArg (·.bind asU64) (get_raiseBudget (by decide))
  rw [raiseThinkingBudget, if_pos enabled]
  dsimp only
  refine ⟨?_, ?_, ?_, ?_⟩
  · rw [thinkingEnabled, thinking, ← thinkingEnabled, raiseBudget]
    split_ifs
    · exact enabled
    · rw [thinkingEnabled, show (withBudget (.obj fields)).get "thinking" = _ from lookup_modifyField, found]
      rw [thinkingEnabled, show (Json.obj fields).get "thinking" = _ from found] at enabled
      rwa [Option.map_some, Option.bind_some, getStr, get_setField_ne (by decide)]
  · rw [budgetTokens, thinking, ← budgetTokens, ← at_least, raiseBudget]
    split_ifs
    · rfl
    · rw [budgetTokens, show (withBudget (.obj fields)).get "thinking" = _ from lookup_modifyField, found]
      exact congrArg (·.bind asU64) (lookup_insertField _ _ inner)
  · rw [← tokens, ← at_least, raiseMaxTokens]
    split_ifs
    · rfl
    · obtain ⟨after, object⟩ : ∃ after, (raiseBudget (.obj fields)).1 = .obj after := by
        unfold raiseBudget
        split_ifs <;> exact ⟨_, rfl⟩
      rw [object]
      exact congrArg (·.bind asU64) (lookup_insertField _ _ after)
  · rw [raiseMaxTokens, tokens, raiseBudget]
    split_ifs <;> simp_all

theorem budgetQuiet_rectifyBudget : BudgetQuiet native message (rectifyBudget native message body).1 := by
  intro budget
  rw [rectifyBudget, if_pos budget]
  intro still
  by_cases enabled : thinkingEnabled body
  · obtain ⟨_, raised, tokens, _⟩ := raise_spec enabled
    simp [raised, tokens]
  · rw [raiseThinkingBudget, if_neg enabled] at still
    exact absurd still enabled

theorem flag_rectifyBudget : (rectifyBudget native message body).2 = false ↔ BudgetQuiet native message body := by
  unfold rectifyBudget BudgetQuiet
  split_ifs with budget
  · by_cases enabled : thinkingEnabled body
    · simp only [budget, enabled, true_implies]
      exact (raise_spec enabled).2.2.2
    · simp [raiseThinkingBudget, enabled]
  · simp [budget]

theorem get_rectifyBudget (thinking : key ≠ "thinking") (tokens : key ≠ "max_tokens") :
    (rectifyBudget native message body).1.get key = body.get key := by
  unfold rectifyBudget
  split_ifs
  · exact get_raise thinking tokens
  · rfl

theorem enabled_rectifyBudget : thinkingEnabled (rectifyBudget native message body).1 = thinkingEnabled body := by
  unfold rectifyBudget
  split_ifs
  · cases enabled : thinkingEnabled body with
    | true => exact (raise_spec enabled).1
    | false => rwa [raiseThinkingBudget, if_neg (by simp [enabled])]
  · rfl

variable [Lowercase]

theorem ThinkingQuiet.rectifyBudget (quiet : ThinkingQuiet native message body) :
    ThinkingQuiet native message (rectifyBudget native message body).1 := by
  have messages : (LlmGateway.rectifyBudget native message body).1.get "messages" = body.get "messages" :=
    get_rectifyBudget (by decide) (by decide)
  rwa [ThinkingQuiet, allBlocks_congr messages, enabled_rectifyBudget, itemsOf, messages]

theorem rewritten_quiet (native : Bool) (message : Str) (body : Json) :
    MediaQuiet message (rewritten native message body).1 ∧
      ThinkingQuiet native message (rewritten native message body).1 ∧
      BudgetQuiet native message (rewritten native message body).1 :=
  ⟨mediaQuiet_rectifyMedia.rectifyThinking.congr (get_rectifyBudget (by decide) (by decide))
    (get_rectifyBudget (by decide) (by decide)), thinkingQuiet_rectifyThinking.rectifyBudget,
    budgetQuiet_rectifyBudget⟩

theorem rewritten_settled (native : Bool) (message : Str) (body : Json) :
    (rewritten native message (rewritten native message body).1).2 = false := by
  obtain ⟨media, thinking, budget⟩ := rewritten_quiet native message body
  set fixed := (rewritten native message body).1
  change ((rectifyMedia message fixed).2 || (rectifyThinking native message (rectifyMedia message fixed).1).2 ||
    (rectifyBudget native message (rectifyThinking native message (rectifyMedia message fixed).1).1).2) = false
  rw [flag_rectifyMedia.mpr media, flag_rectifyThinking.mpr thinking.rectifyMedia,
    flag_rectifyBudget.mpr budget.rectifyMedia.rectifyThinking]
  rfl

end Stages

section Results

variable [Lowercase] [FloatText] {native : Bool} {outbound errorBody : List UInt8} {status : Nat}
  {fixed body : Json}

theorem rectifyOutbound_eq_some (found : rectifyOutbound native outbound errorBody status = some fixed) :
    ∃ body, jsonOfBytes outbound = some body ∧ rewritten native (extractErrorText errorBody) body =
      (fixed, true) := by
  obtain ⟨body, read, result⟩ := Option.bind_eq_some_iff.mp found
  unfold rectifyBody at result
  dsimp only at result
  split_ifs at result with changed
  exact ⟨body, read, Prod.ext (Option.some_inj.mp result) changed.2⟩

/-- What is sent the second time is not rewritten again. -/
theorem rectified_once (found : rectifyOutbound native outbound errorBody status = some fixed) :
    rectifyBody native errorBody status fixed = none ∧
      ∀ sent, jsonOfBytes sent = some fixed → rectifyOutbound native sent errorBody status = none := by
  obtain ⟨body, _, result⟩ := rectifyOutbound_eq_some found
  have settled := rewritten_settled native (extractErrorText errorBody) body
  rw [result] at settled
  have once : rectifyBody native errorBody status fixed = none := by
    refine if_neg fun changed => ?_
    rw [changed.2] at settled
    cases settled
  refine ⟨once, fun sent read => ?_⟩
  rw [rectifyOutbound, read, Option.bind_some, once]

end Results

def rejected (outbound message : String) : Option Json :=
  let _ : FloatText := verbatim
  let _ : Lowercase := .ascii
  rectifyOutbound true (Utf8.encode outbound) (Utf8.encode message) 400

def signed : String := "\x7b\"messages\":[\x7b\"content\":[\x7b\"type\":\"thinking\"\x7d,\x7b\"text\":\"hi\"," ++
  "\"signature\":1\x7d]\x7d]\x7d"

theorem rejected_once : let _ : FloatText := verbatim; let _ : Lowercase := .ascii
    ∃ fixed, rejected signed "invalid request" = some fixed ∧
      rectifyBody true (Utf8.encode "invalid request") 400 fixed = none := by
  intro _ _
  have run : (rejected signed "invalid request").isSome := by
    decide +kernel
  obtain ⟨fixed, found⟩ := Option.isSome_iff_exists.mp run
  exact ⟨fixed, found, (rectified_once found).1⟩

section Budget

variable [Lowercase] [FloatText] {outbound errorBody : List UInt8} {status : Nat} {fixed body : Json}

/-- The budget rules hold afterwards just when the two bounds, each raised on its own, are in the right order. -/
theorem raised_budget_valid_iff (read : jsonOfBytes outbound = some body)
    (budget : isThinkingBudgetError (extractErrorText errorBody))
    (found : rectifyOutbound true outbound errorBody status = some fixed) (enabled : thinkingEnabled fixed) :
    (∃ budget tokens, budgetTokens fixed = some budget ∧ maxTokens fixed = some tokens ∧ 32000 ≤ budget ∧
      budget < tokens) ↔
      max 32000 ((budgetTokens body).getD 0) < max 64000 ((maxTokens body).getD 0) := by
  obtain ⟨other, other_eq, result⟩ := rectifyOutbound_eq_some found
  cases Option.some_inj.mp (other_eq.symm.trans read)
  set thinking :=
    (rectifyThinking true (extractErrorText errorBody) (rectifyMedia (extractErrorText errorBody) body).1).1
  have fixed_eq : fixed = (rectifyBudget true (extractErrorText errorBody) thinking).1 :=
    (congrArg Prod.fst result).symm
  subst fixed_eq
  rw [enabled_rectifyBudget] at enabled
  have same : thinking.get "thinking" = body.get "thinking" := by
    rcases thinking_rectifyThinking with gone | same
    · rw [enabled_of_absent gone] at enabled
      cases enabled
    · exact same.trans (get_rectifyMedia (by decide) (by decide))
  have tokens : thinking.get "max_tokens" = body.get "max_tokens" :=
    (get_rectifyThinking (by decide) (by decide)).trans (get_rectifyMedia (by decide) (by decide))
  obtain ⟨_, raised, limit, _⟩ := raise_spec enabled
  rw [rectifyBudget, if_pos (by rw [budget]; rfl), raised, limit, budgetTokens, maxTokens, same, tokens,
    ← budgetTokens, ← maxTokens]
  simp

end Budget

def bareThinking : String := "\x7b\"thinking\":\x7b\"type\":\"enabled\"\x7d\x7d"

theorem small_budget_raised : let _ : FloatText := verbatim; let _ : Lowercase := .ascii
    ∃ fixed, rejected bareThinking "budget_tokens: minimum" = some fixed ∧
      ∃ budget tokens, budgetTokens fixed = some budget ∧ maxTokens fixed = some tokens ∧ 32000 ≤ budget ∧
        budget < tokens := by
  intro _ _
  have run : (rejected bareThinking "budget_tokens: minimum").map thinkingEnabled =
      some true := by decide +kernel
  have given : (jsonOfBytes (Utf8.encode bareThinking)).map
      (fun body => (budgetTokens body, maxTokens body)) = some (none, none) := by decide +kernel
  obtain ⟨fixed, found, enabled⟩ := Option.map_eq_some_iff.mp run
  obtain ⟨body, read, numbers⟩ := Option.map_eq_some_iff.mp given
  refine ⟨fixed, found, (raised_budget_valid_iff read (by decide +kernel) found enabled).mpr ?_⟩
  rw [(Prod.mk.inj numbers).1, (Prod.mk.inj numbers).2]
  decide

theorem large_budget_stays_invalid :
    (rejected "\x7b\"thinking\":\x7b\"type\":\"enabled\",\"budget_tokens\":70000\x7d,\"max_tokens\":1000\x7d"
      "budget_tokens must be less than max_tokens").map (fun fixed => (thinkingEnabled fixed, budgetTokens fixed,
        maxTokens fixed)) = some (true, some 70000, some 64000) := by
  decide +kernel

section Thinking

variable [Lowercase] {text : Str} {fixed body : Json}

/-- `after` is `before`, but for a signature. -/
def SameButSignature (before after : Json) : Prop :=
  (before.get "signature" = none → after = before) ∧ ∀ key, key ≠ "signature" → after.get key = before.get key

/-- The message `after` is `before` without its thinking blocks and signatures. -/
structure MessageKept (before after : Json) : Prop where
  blocks : Forall₂ SameButSignature ((itemsOf before "content").filter (!isThinkingBlock ·))
    (itemsOf after "content")
  content : (∀ blocks, before.get "content" ≠ some (.arr blocks)) → after.get "content" = before.get "content"
  others : ∀ key, key ≠ "content" → after.get key = before.get key

/-- What a native body rejected for its thinking has to become. -/
structure ThinkingStripped (body fixed : Json) : Prop where
  free : ∀ block ∈ allBlocks fixed, isThinkingBlock block = false ∧ block.get "signature" = none
  kept : Forall₂ MessageKept (itemsOf body "messages") (itemsOf fixed "messages")
  filled : ∀ message ∈ itemsOf fixed "messages", message.get "content" ≠ some (.arr [])

def mediaStep (text : Str) (block : Json) : List Json :=
  [if isUnsupportedImageError text then replacePart block else block]

omit [Lowercase] in
theorem messages_rectifyMedia : itemsOf (rectifyMedia text body).1 "messages" =
    (itemsOf body "messages").map (onItems "content" (flatMap (mediaStep text))) := by
  unfold rectifyMedia mediaStep
  split_ifs
  · exact (itemsOf_onItems_ne (by decide)).trans itemsOf_overBlocks
  · have same : (flatMap fun block : Json => [block]) = id := funext fun blocks => flatMap_singleton' blocks
    rw [same, show onItems "content" id = id from funext fun _ => onItems_id, map_id]

theorem messages_rewritten (thinking : isThinkingError text)
    (result : rewritten true text body = (fixed, true)) : itemsOf fixed "messages" =
      (itemsOf body "messages").map (onItems "content" (flatMap stripBlock ∘ flatMap (mediaStep text))) := by
  obtain rfl : (rectifyBudget true text (rectifyThinking true text (rectifyMedia text body).1).1).1 = fixed :=
    congrArg Prod.fst result
  rw [itemsOf, get_rectifyBudget (by decide) (by decide), messages_rectifyThinking, thinking,
    if_pos (Bool.and_self _), ← itemsOf, itemsOf_overBlocks, messages_rectifyMedia, map_map]
  exact congrArg (map · _) (funext fun _ => onItems_onItems)

omit [Lowercase] in
theorem mediaStep_of_not {block : Json}
    (plain : isUnsupportedImageError text = false ∨ isImagePart block = false) :
    mediaStep text block = [block] := by
  unfold mediaStep replacePart replaceTyped
  rcases plain with plain | plain
  · simp [plain]
  · simp [show hasType ["image_url", "image"] block = false from plain]

omit [Lowercase] in
theorem sameButSignature_withoutField {block : Json} : SameButSignature block (withoutField "signature" block) := by
  refine ⟨fun unsigned => ?_, fun key other => get_withoutField_ne other⟩
  cases block with
  | obj fields =>
    refine congrArg Json.obj (filter_eq_self.mpr fun field mem => decide_eq_true fun here => ?_)
    exact bne_iff_ne.mp (lookup_eq_none_iff.mp unsigned field mem) here.symm
  | _ => rfl

omit [Lowercase] in
theorem flatMap_stripBlock (blocks : List Json) : blocks.flatMap stripBlock =
    (blocks.filter (!isThinkingBlock ·)).map (withoutField "signature") := by
  induction blocks with
  | nil => rfl
  | cons block rest ih =>
    rw [flatMap_cons, ih, filter_cons, stripBlock]
    cases isThinkingBlock block <;> rfl

omit [Lowercase] in
theorem strip_thinking {blocks : List Json} (thinks : ∀ block ∈ blocks, isThinkingBlock block) :
    (blocks.flatMap (mediaStep text)).flatMap stripBlock = [] := by
  rw [flatMap_assoc, flatMap_eq_nil_iff]
  intro block inside
  rw [mediaStep_of_not (.inr (hasType_absent (thinks block inside) (by decide)))]
  simp [stripBlock, thinks block inside]

omit [Lowercase] in
/-- A picture among the blocks would be left. -/
theorem MessageKept.unpictured {message after block : Json} (kept : MessageKept message after)
    (quiet : ∀ block ∈ itemsOf after "content", isImagePart block = false)
    (inside : block ∈ itemsOf message "content") : isImagePart block = false := by
  by_contra pictured
  have picture : isImagePart block := eq_true_of_ne_false pictured
  have plain : isThinkingBlock block = false := hasType_absent picture (by decide)
  have left : block ∈ (itemsOf message "content").filter (!isThinkingBlock ·) :=
    mem_filter.mpr ⟨inside, by rw [plain]; rfl⟩
  obtain ⟨index, rfl⟩ := mem_iff_get.mp left
  have bound := index.2.trans_eq kept.blocks.length_eq
  have same := kept.blocks.get index.2 bound
  have still := quiet _ (get_mem _ ⟨index, bound⟩)
  rw [isImagePart, hasType, getStr, same.2 "type" (by decide), ← getStr, ← hasType, ← isImagePart] at still
  exact pictured still

theorem thinking_stripped_iff [FloatText] {outbound errorBody : List UInt8} {status : Nat}
    (read : jsonOfBytes outbound = some body) (thinking : isThinkingError (extractErrorText errorBody))
    (found : rectifyOutbound true outbound errorBody status = some fixed) :
    ThinkingStripped body fixed ↔
      (∀ message ∈ itemsOf body "messages", ∀ blocks, message.get "content" = some (.arr blocks) →
        ∃ block ∈ blocks, isThinkingBlock block = false) ∧
      (isUnsupportedImageError (extractErrorText errorBody) = false ∨
        ∀ block ∈ allBlocks body, isImagePart block = false) := by
  obtain ⟨other, other_eq, result⟩ := rectifyOutbound_eq_some found
  cases Option.some_inj.mp (other_eq.symm.trans read)
  generalize extractErrorText errorBody = text at *
  obtain ⟨mediaQuiet, thinkingQuiet, _⟩ := rewritten_quiet true text body
  rw [result] at mediaQuiet thinkingQuiet
  have messages := messages_rewritten thinking result
  constructor
  · intro stripped
    have kept := stripped.kept
    rw [messages, forall₂_map_right_iff, forall₂_same] at kept
    constructor
    · intro message member blocks content
      by_contra! all
      refine stripped.filled _ (messages ▸ mem_map_of_mem member) ?_
      rw [get_onItems, content, Option.map_some, overItems, Function.comp,
        strip_thinking fun block inside => eq_true_of_ne_false (all block inside)]
    · cases image : isUnsupportedImageError text with
      | false => exact .inl rfl
      | true =>
        refine .inr fun block place => ?_
        obtain ⟨message, member, inside⟩ := mem_flatMap.mp place
        refine (kept message member).unpictured (fun other held => (mediaQuiet image).1 other ?_) inside
        exact mem_flatMap.mpr ⟨_, messages ▸ mem_map_of_mem member, held⟩
  · rintro ⟨speaks, pictures⟩
    have same : ∀ message ∈ itemsOf body "messages", (itemsOf message "content").flatMap
        (mediaStep text) = itemsOf message "content" := by
      intro message member
      refine (flatMap_congr fun block inside => mediaStep_of_not ?_).trans (flatMap_singleton' _)
      exact pictures.imp_right fun none => none block (mem_flatMap.mpr ⟨message, member, inside⟩)
    refine ⟨(thinkingQuiet (by rw [thinking]; rfl)).1, ?_, ?_⟩
    · rw [messages, forall₂_map_right_iff, forall₂_same]
      intro message member
      refine ⟨?_, fun plain => ?_, fun key other => get_onItems_ne other⟩
      · rw [itemsOf_onItems rfl, Function.comp, same message member, flatMap_stripBlock, forall₂_map_right_iff,
          forall₂_same]
        exact fun block _ => sameButSignature_withoutField
      · rw [get_onItems]
        cases held : message.get "content" with
        | none => rfl
        | some value =>
          cases value with
          | arr blocks => exact absurd held (plain blocks)
          | _ => rfl
    · intro after place content
      rw [messages] at place
      obtain ⟨message, member, rfl⟩ := mem_map.mp place
      rw [get_onItems] at content
      obtain ⟨value, given, empty⟩ := Option.map_eq_some_iff.mp content
      cases value with
      | arr blocks =>
        obtain ⟨block, inside, plain⟩ := speaks message member blocks given
        have items : itemsOf message "content" = blocks := by
          rw [itemsOf, given]
          rfl
        have gone : flatMap stripBlock blocks = [] := by
          rw [← items, ← same message member, items]
          exact Json.arr.inj empty
        have none := flatMap_eq_nil_iff.mp gone block inside
        simp [stripBlock, plain] at none
      | _ => cases empty

end Thinking

theorem signature_stripped : let _ : FloatText := verbatim; let _ : Lowercase := .ascii
    ∃ body fixed, jsonOfBytes (Utf8.encode signed) = some body ∧
      rejected signed "invalid request" = some fixed ∧
        ThinkingStripped body fixed := by
  intro _ _
  have given : (jsonOfBytes (Utf8.encode signed)).map
      (fun body => (itemsOf body "messages").all fun message =>
        ((message.get "content").bind asArr).all fun blocks =>
        blocks.any fun block => !isThinkingBlock block) = some true := by decide +kernel
  have run : (rejected signed "invalid request").isSome := by
    decide +kernel
  obtain ⟨body, read, speaks⟩ := Option.map_eq_some_iff.mp given
  obtain ⟨fixed, found⟩ := Option.isSome_iff_exists.mp run
  refine ⟨body, fixed, read, found, (thinking_stripped_iff read (by decide +kernel) found).mpr
    ⟨fun message member blocks content => ?_, .inl (by decide +kernel)⟩⟩
  have speaks := all_eq_true.mp speaks message member
  rw [content] at speaks
  simpa [asArr] using speaks

theorem thinking_turn_emptied :
    (rejected "\x7b\"messages\":[\x7b\"content\":[\x7b\"type\":\"thinking\"\x7d]\x7d]\x7d" "invalid request").map
      (fun fixed => (itemsOf fixed "messages").map fun message =>
        (((message.get "content").bind asArr).map length)) =
        some [some 0] := by
  decide +kernel

def isMedia : Json → Bool := hasType ["image_url", "image", "input_image"]

/-- `inner` is `root`, or stands at any depth in the arrays of parts that `root` has under one of `keys`. -/
def Within (keys : List String) : Json → Json → Prop :=
  Relation.ReflTransGen fun part inner => ∃ key ∈ keys, inner ∈ itemsOf part key

def MediaFree (keys : List String) (root : Json) : Prop := ∀ part, Within keys root part → isMedia part = false

/-- `after` is `before`, but for images at any depth. -/
inductive SameButMedia (keys : List String) : Json → Json → Prop
  | same (part : Json) : SameButMedia keys part part
  | image {part : Json} (media : isMedia part) (after : Json) : SameButMedia keys part after
  | inside {part after : Json} {key : String} {parts : List Json} (so : SameButMedia keys part after)
    (mem : key ∈ keys) (inner : Forall₂ (SameButMedia keys) (itemsOf after key) parts) :
      SameButMedia keys part (onItems key (fun _ => parts) after)

/-- What a body for an upstream without images has to become. -/
structure MediaStripped (body after : Json) : Prop where
  free : (∀ part ∈ allBlocks after, MediaFree ["content"] part) ∧
    ∀ item ∈ itemsOf after "input", MediaFree ["content", "output"] item
  blocks : Forall₂ (fun message stripped => (∀ key, key ≠ "content" → stripped.get key = message.get key) ∧
    Forall₂ (SameButMedia ["content"]) (itemsOf message "content") (itemsOf stripped "content"))
      (itemsOf body "messages") (itemsOf after "messages")
  items : Forall₂ (SameButMedia ["content", "output"]) (itemsOf body "input") (itemsOf after "input")

section Media

variable {types keys : List String} {type : String} {part root : Json}

theorem mediaFree_iff : MediaFree keys root ↔
    isMedia root = false ∧ ∀ key ∈ keys, ∀ part ∈ itemsOf root key, MediaFree keys part := by
  constructor
  · exact fun free => ⟨free root .refl, fun key mem part place inner inside =>
      free inner (.head ⟨key, mem, place⟩ inside)⟩
  · rintro ⟨plain, free⟩ part inside
    rcases inside.cases_head with rfl | ⟨next, ⟨key, mem, place⟩, rest⟩
    · exact plain
    · exact free key mem next place part rest

theorem itemsOf_marker {key : String} : itemsOf (unsupportedImage type) key = [] := by
  unfold itemsOf unsupportedImage Json.get
  simp only [lookup]
  split <;> [rfl; split <;> rfl]

theorem mediaFree_replaceTyped (plain : isMedia (unsupportedImage type) = false) :
    MediaFree keys (replaceTyped types type part) ↔ hasType types part ∨ MediaFree keys part := by
  unfold replaceTyped
  split_ifs with image
  · rw [mediaFree_iff]
    simp [plain, image, itemsOf_marker]
  · simp [image]

theorem sameButMedia_replaceTyped (sub : types ⊆ ["image_url", "image", "input_image"]) :
    SameButMedia keys part (replaceTyped types type part) := by
  unfold replaceTyped
  split_ifs with typed
  · obtain ⟨other, mem, is⟩ := any_eq_true.mp typed
    exact .image (any_eq_true.mpr ⟨other, sub mem, is⟩) _
  · exact .same part

end Media

theorem media_stripped_iff [FloatText] {outbound : List UInt8} {body : Json}
    (read : jsonOfBytes outbound = some body) :
    MediaStripped body ((stripMediaOutbound outbound).getD body) ↔
      (∀ part ∈ allBlocks body, isImagePart part ∨ MediaFree ["content"] part) ∧
        ∀ item ∈ itemsOf body "input", isImageItem item ∨ MediaFree ["content", "output"] item := by
  obtain ⟨after, sent, outcome⟩ : ∃ after, (stripMediaOutbound outbound).getD body = after ∧
      ((replaceImageParts body).2 = 0 ∧ after = body ∨ after = (replaceImageParts body).1) := by
    rw [stripMediaOutbound, read, Option.bind_some]
    split_ifs with none
    · exact ⟨_, rfl, .inl ⟨none, rfl⟩⟩
    · exact ⟨_, rfl, .inr rfl⟩
  rw [sent]
  have blocks : allBlocks after = (allBlocks body).map replacePart := by
    rcases outcome with ⟨none, rfl⟩ | rfl
    · have free := countP_eq_zero.mp (Nat.eq_zero_of_add_eq_zero none).1
      exact ((map_congr_left fun part mem => if_neg (free part mem)).trans (map_id _)).symm
    · refine (allBlocks_congr (get_onItems_ne (by decide))).trans (allBlocks_overBlocks.trans ?_)
      exact map_eq_flatMap.symm
  have items : itemsOf after "input" = (itemsOf body "input").map replaceItem := by
    rcases outcome with ⟨none, rfl⟩ | rfl
    · have free := countP_eq_zero.mp (Nat.eq_zero_of_add_eq_zero none).2
      exact ((map_congr_left fun item mem => if_neg (free item mem)).trans (map_id _)).symm
    · exact (itemsOf_onItems rfl).trans (congrArg (map replaceItem) (itemsOf_onItems_ne (by decide)))
  have parts (part : Json) : MediaFree ["content"] (replacePart part) ↔ isImagePart part ∨ _ :=
    mediaFree_replaceTyped ((hasType_marker _).trans (by decide))
  have inputs (item : Json) : MediaFree ["content", "output"] (replaceItem item) ↔ isImageItem item ∨ _ :=
    mediaFree_replaceTyped ((hasType_marker _).trans (by decide))
  constructor
  · rintro ⟨free, -, -⟩
    simpa only [blocks, items, forall_mem_map, parts, inputs] using free
  · intro free
    refine ⟨by simpa only [blocks, items, forall_mem_map, parts, inputs] using free, ?_, ?_⟩
    · rcases outcome with ⟨-, rfl⟩ | rfl
      · exact forall₂_same.mpr fun message _ => ⟨fun _ _ => rfl, forall₂_same.mpr fun part _ => .same part⟩
      · rw [show itemsOf (replaceImageParts body).1 "messages" = _ from
          (itemsOf_onItems_ne (by decide)).trans itemsOf_overBlocks, forall₂_map_right_iff, forall₂_same]
        refine fun message _ => ⟨fun key other => get_onItems_ne other, ?_⟩
        rw [itemsOf_onItems rfl, ← map_eq_flatMap, forall₂_map_right_iff, forall₂_same]
        exact fun part _ => sameButMedia_replaceTyped (by decide)
    · rw [items, forall₂_map_right_iff, forall₂_same]
      exact fun item _ => sameButMedia_replaceTyped (by decide)

def pictured : List UInt8 := Utf8.encode ("\x7b\"input\":[\x7b\"type\":\"input_image\"\x7d," ++
  "\x7b\"content\":[\x7b\"type\":\"input_text\"\x7d]\x7d]\x7d")

theorem direct_image_stripped : let _ : FloatText := verbatim
    ∃ body, jsonOfBytes pictured = some body ∧ MediaStripped body
      ((stripMediaOutbound pictured).getD body) := by
  intro _
  have given : (jsonOfBytes pictured).map (fun body => (allBlocks body).isEmpty &&
      (itemsOf body "input").all fun item =>
      isImageItem item || !isMedia item && ["content", "output"].all fun key => (itemsOf item key).all fun part =>
        !isMedia part && ["content", "output"].all fun key => (itemsOf part key).isEmpty) =
          some true := by decide +kernel
  obtain ⟨body, read, flat⟩ := Option.map_eq_some_iff.mp given
  simp only [Bool.and_eq_true, Bool.or_eq_true, Bool.not_eq_true', all_eq_true, List.isEmpty_iff] at flat
  refine ⟨body, read, (media_stripped_iff read).mpr ⟨by simp [flat.1], fun item mem => ?_⟩⟩
  refine (flat.2 item mem).imp_right fun ⟨plain, inner⟩ => mediaFree_iff.mpr ⟨plain, fun key known part place => ?_⟩
  obtain ⟨quiet, empty⟩ := inner key known part place
  exact mediaFree_iff.mpr ⟨quiet, fun other under inner inside => by simp [empty other under] at inside⟩

theorem result_images_stay : let _ : FloatText := verbatim
    let outbound := Utf8.encode ("\x7b\"messages\":[\x7b\"content\":[\x7b\"type\":\"tool_result\",\"content\":" ++
      "[\x7b\"type\":\"image\"\x7d]\x7d]\x7d]\x7d")
    (stripMediaOutbound outbound).isNone ∧
      (jsonOfBytes outbound).map (fun body => ((allBlocks body).flatMap (itemsOf · "content")).any isMedia) =
        some true := by
  decide +kernel

end LlmGateway
