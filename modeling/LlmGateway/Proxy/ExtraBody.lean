import LlmGateway.Proxy.FastPath

namespace LlmGateway

open Json Text Option List Fallible

namespace Outbound

variable {ctx : Outbound} {provider : Provider} {base body : Json} {key : String} {rest : List String} {v : Json}

def configured (ctx : Outbound) (provider : Provider) : Json :=
  .obj ((mergeDeep provider.extraBody ctx.route.extraBody).fields.filter fun field => field.1 ∉ extraManagedKeys)

theorem get_configured (free : key ∉ extraManagedKeys) :
    (ctx.configured provider).get key = (mergeDeep provider.extraBody ctx.route.extraBody).get key := by
  have read := @lookup_filter (mergeDeep provider.extraBody ctx.route.extraBody).fields key
    fun key => decide (key ∉ extraManagedKeys)
  rw [if_pos (decide_eq_true free), ← get_eq_lookup] at read
  exact read

theorem configured_sorted : (ctx.configured provider).isSorted := by
  have sorted := isSorted_mergeDeep _ provider.sorted _ ctx.route.sorted
  unfold configured
  cases merged : mergeDeep provider.extraBody ctx.route.extraBody with
  | obj fields =>
    rw [merged] at sorted
    obtain ⟨order, values⟩ := isSorted_obj_iff.mp sorted
    refine isSorted_obj_iff.mpr ⟨order.filter _, fun field mem => values field (mem_filter.mp mem).1⟩
  | _ => rfl

theorem applyExtra_eq (enabled : ctx.extraBodyEnabled) :
    applyExtra body (ctx.extra provider) = body.mergeDeep (ctx.configured provider) := by
  rw [extra, if_pos enabled, effectiveExtra, configured]
  cases body with
  | obj held =>
    cases mergeDeep provider.extraBody ctx.route.extraBody with
    | obj fields =>
      change applyExtra _ (if (fields.filter fun field => field.1 ∉ extraManagedKeys).isEmpty then none else _) =
        mergeDeep _ (.obj (fields.filter fun field => field.1 ∉ extraManagedKeys))
      split_ifs with empty
      · rw [isEmpty_iff.mp empty]
        rfl
      · rw [mergeDeep, applyExtra, List.filter_filter]
        simp [Bool.and_self]
    | _ => rfl
  | _ => rfl

def asked (ctx : Outbound) (provider : Provider) (base : Json) (key : String) : Option Json :=
  ((ctx.configured provider).get key).or (base.get key)

theorem isObj_mergeDeep {dst src : Json} : (dst.mergeDeep src).isObj = dst.isObj := by
  cases src with
  | obj fields => cases dst <;> rfl
  | _ => rfl

theorem get_merged_bind {α : Type} {reader : Json → Option α} (object : base.isObj)
    (scalar : ∀ value : Json, value.isObj → reader value = none) :
    ((base.mergeDeep (ctx.configured provider)).get key).bind reader =
      (ctx.asked provider base key).bind reader := by
  obtain ⟨order, -⟩ := isSorted_obj_iff.mp (show (ctx.configured provider).isSorted = true from configured_sorted)
  cases base with
  | obj held =>
    unfold asked
    change (lookup key (mergeDeep.mergeFields held _)).bind reader = _
    rw [lookup_mergeFields order]
    change Option.bind _ reader = ((lookup key _).or (held.lookup key)).bind reader
    generalize lookup key _ = given
    cases given with
    | none => rfl
    | some value =>
      rw [some_or, bind_some, bind_some]
      split
      next old _ =>
        split_ifs with both
        · rw [Bool.and_eq_true] at both
          rw [scalar value both.2]
          exact scalar _ (isObj_mergeDeep.trans both.1)
        · rfl
      · rfl
  | _ => cases object

theorem dig_merged (sorted : base.isObj) (free : key ∉ extraManagedKeys) (leaf : v.isObj = false)
    (found : (mergeDeep provider.extraBody ctx.route.extraBody).dig (key :: rest) = some v) :
    (base.mergeDeep (ctx.configured provider)).dig (key :: rest) = some v := by
  refine dig_mergeDeep_leaf configured_sorted sorted leaf ?_ (cons_ne_nil _ _)
  rw [dig, get_configured free]
  exact found

theorem asStr_obj (value : Json) (object : value.isObj) : value.asStr = none := by
  cases value with
  | obj fields => rfl
  | _ => cases object

theorem asBool_obj (value : Json) (object : value.isObj) : value.asBool = none := by
  cases value with
  | obj fields => rfl
  | _ => cases object

section Pipeline

def converts (ctx : Outbound) (provider : Provider) : Bool :=
  ctx.endpoint.anthropic && !nativeAnthropic provider || ctx.endpoint.responses && !nativeResponses provider

def gates (ctx : Outbound) (provider : Provider) : Bool :=
  !(ctx.endpoint.anthropic && !nativeAnthropic provider) && (ctx.endpoint.responses && !nativeResponses provider)

def reasons (ctx : Outbound) (provider : Provider) : Bool :=
  ctx.converts provider || !(ctx.endpoint.anthropic && nativeAnthropic provider)

/-- No pass but the last takes the leaf away or puts another in its place. -/
def PassesKeep [Lowercase] (ctx : Outbound) (provider : Provider) (base : Json) (key : String) (rest : List String)
    (v : Json) : Prop :=
  if key = "messages" then
    ctx.systemHead → rest = [] → ∀ messages, v = .arr messages → SystemFirst messages ctx.systemHeadMerge
  else if key ∈ responsesDialectOnlyFields then
    ctx.gates provider → key.toList ∈ ctx.route.passthroughFieldList
  else if ctx.reasons provider = true then
    if key = "reasoning_effort" then ∀ effort, rest = [] → v = .str effort → ctx.EffortKept effort
    else if key = "reasoning" then
      ∀ effort, (((ctx.asked provider base "reasoning_effort").bind asStr).bind fun effort =>
        wrappedEffort (ctx.outcomeOf effort)) = some effort → rest = ["effort"] ∧ v = .str effort
    else if key ∈ thinkingFields then
      ctx.asksReasoning ((ctx.asked provider base "reasoning_effort").bind asStr)
        ((ctx.asked provider base "enable_thinking").bind asBool) ∧ SwitchKept ctx.route.thinkingForm key rest v
    else True
  else True

def Visible (path : List String) (v : Json) : Prop :=
  visiblePath (maxUnderscoreDepth + 1) false path ∧
    hasUnderscoreAtDepth (maxUnderscoreDepth + 1 - path.length) (endsInSchemaMap false path) v = false

instance (path : List String) (v : Json) : Decidable (Visible path v) := inferInstanceAs (Decidable (_ ∧ _))

def LeafKept [Lowercase] (ctx : Outbound) (provider : Provider) (base : Json) (key : String) (rest : List String)
    (v : Json) : Prop :=
  ctx.PassesKeep provider base key rest v ∧ (ctx.converts provider = false → Visible (key :: rest) v)

variable [Lowercase]

def gated (ctx : Outbound) (provider : Provider) (body : Json) : Json :=
  if ctx.gates provider then applyDialectFieldGate (ctx.headed body) ctx.route else ctx.headed body

def beforeStrip (ctx : Outbound) (provider : Provider) (body : Json) : Json :=
  if ctx.reasons provider then ctx.applyReasoningConfig (ctx.gated provider body) else ctx.gated provider body

def finish (ctx : Outbound) (provider : Provider) (body : Json) : Json :=
  ctx.named (if ctx.converts provider then ctx.beforeStrip provider body
    else stripUnderscoreFields (ctx.beforeStrip provider body))

def headOf (ctx : Outbound) : Json → Json
  | .arr messages =>
    if ctx.systemHead then .arr (collectSystemToHead messages ctx.systemHeadMerge) else .arr messages
  | other => other

theorem get_headed (ctx : Outbound) (body : Json) (key : String) : (ctx.headed body).get key =
    if key = "messages" then (body.get key).map ctx.headOf else body.get key := by
  unfold headed applySystemHead
  cases body with
  | obj fields =>
    dsimp only
    by_cases here : key = "messages"
    · subst here
      rw [if_pos rfl]
      change _ = (fields.lookup "messages").map ctx.headOf
      cases found : fields.lookup "messages" with
      | none => exact found
      | some value =>
        cases value with
        | arr messages =>
          dsimp only
          rw [map_some, headOf]
          split_ifs with enabled
          · refine lookup_modifyField.trans ?_
            rw [found]
            rfl
          · exact found
        | _ => exact found
    · rw [if_neg here]
      split
      · split_ifs
        · exact lookup_modifyField_ne here
        · rfl
      · rfl
  | _ => exact (ite_self none).symm

theorem isObj_headed : (ctx.headed body).isObj = body.isObj := by
  unfold headed applySystemHead
  cases body with
  | obj fields =>
    dsimp only
    split
    · split_ifs <;> rfl
    · rfl
  | _ => rfl

theorem gated_obj (object : body.isObj) : ∃ fields, ctx.gated provider body = .obj fields := by
  have headed : (ctx.headed body).isObj := isObj_headed.trans object
  unfold gated
  cases here : ctx.headed body with
  | obj fields =>
    split_ifs
    · exact ⟨_, rfl⟩
    · exact ⟨_, rfl⟩
  | _ =>
    rw [here] at headed
    cases headed

theorem get_gated_messages : (ctx.gated provider body).get "messages" = (body.get "messages").map ctx.headOf := by
  unfold gated
  split_ifs
  · rw [get_gate, if_pos (.inl (by decide)), get_headed, if_pos rfl]
  · rw [get_headed, if_pos rfl]

theorem get_gated (other : key ≠ "messages") : (ctx.gated provider body).get key =
    if key ∈ responsesDialectOnlyFields ∧ ctx.gates provider ∧ key.toList ∉ ctx.route.passthroughFieldList then none
    else body.get key := by
  unfold gated
  by_cases gates : ctx.gates provider
  · rw [if_pos gates, get_gate, get_headed, if_neg other]
    by_cases dialect : key ∈ responsesDialectOnlyFields <;>
      by_cases allowed : key.toList ∈ ctx.route.passthroughFieldList <;> simp [dialect, allowed, gates]
  · rw [if_neg gates, get_headed, if_neg other, if_neg fun all => gates all.2.1]

theorem get_beforeStrip_other (object : body.isObj)
    (other : ctx.reasons provider → key ≠ "reasoning_effort" ∧ key ≠ "reasoning" ∧ key ∉ thinkingFields) :
    (ctx.beforeStrip provider body).get key = (ctx.gated provider body).get key := by
  unfold beforeStrip
  split_ifs with reasons
  · obtain ⟨effort, wrapper, switch⟩ := other reasons
    obtain ⟨fields, here⟩ := @gated_obj ctx provider body _ object
    rw [here, get_applyReasoningConfig, if_neg switch, lookup_effortFields effort wrapper]
    rfl
  · rfl

theorem get_gated_plain (other : key ≠ "messages") (dialect : key ∉ responsesDialectOnlyFields) :
    (ctx.gated provider body).get key = body.get key := by
  rw [get_gated other, if_neg fun all => dialect all.1]

theorem headOf_keeps {value : Json} (leaf : v.isObj = false) (found : value.dig rest = some v) :
    (ctx.headOf value).dig rest = some v ↔
      (ctx.systemHead → rest = [] → ∀ messages, v = .arr messages → SystemFirst messages ctx.systemHeadMerge) := by
  cases value with
  | arr messages =>
    obtain ⟨rfl, rfl⟩ := (dig_scalar scalar_arr).mp found
    rw [headOf]
    split_ifs with enabled
    · rw [dig, Option.some.injEq, Json.arr.injEq]
      constructor
      · intro same _ _ other equal
        cases equal
        rw [← same]
        exact systemFirst_collect
      · intro first
        exact collect_eq_self (first enabled rfl messages rfl)
    · exact iff_of_true rfl fun on => absurd on enabled
  | obj fields =>
    refine iff_of_true found fun _ empty => ?_
    subst empty
    cases found
    cases leaf
  | _ =>
    refine iff_of_true found fun _ empty messages array => ?_
    subst empty
    cases found
    cases array

theorem dig_beforeStrip_iff (object : base.isObj) (leaf : v.isObj = false)
    (found : (base.mergeDeep (ctx.configured provider)).dig (key :: rest) = some v) :
    (ctx.beforeStrip provider (base.mergeDeep (ctx.configured provider))).dig (key :: rest) = some v ↔
      ctx.PassesKeep provider base key rest v := by
  have effort := @get_merged_bind ctx provider base "reasoning_effort" _ asStr object asStr_obj
  have enabled := @get_merged_bind ctx provider base "enable_thinking" _ asBool object asBool_obj
  have whole : (base.mergeDeep (ctx.configured provider)).isObj := isObj_mergeDeep.trans object
  generalize base.mergeDeep (ctx.configured provider) = body at *
  unfold PassesKeep
  by_cases messages : key = "messages"
  · subst messages
    rw [if_pos rfl, dig, get_beforeStrip_other whole fun _ => by decide, get_gated_messages]
    obtain ⟨value, here, later⟩ := get_of_dig_cons found
    rw [here]
    exact headOf_keeps leaf later
  rw [if_neg messages]
  by_cases dialect : key ∈ responsesDialectOnlyFields
  · have outside : key ≠ "reasoning_effort" ∧ key ≠ "reasoning" ∧ key ∉ thinkingFields := by
      revert dialect
      simp only [responsesDialectOnlyFields, mem_cons, not_mem_nil, or_false]
      rintro (rfl | rfl | rfl | rfl) <;> decide
    rw [if_pos dialect, dig, get_beforeStrip_other whole fun _ => outside, get_gated messages]
    by_cases dropped : ctx.gates provider ∧ key.toList ∉ ctx.route.passthroughFieldList
    · rw [if_pos ⟨dialect, dropped⟩]
      exact iff_of_false (by simp) fun kept => dropped.2 (kept dropped.1)
    · rw [if_neg fun all => dropped all.2]
      exact iff_of_true found fun gates => by_contra fun missing => dropped ⟨gates, missing⟩
  rw [if_neg dialect]
  have plain : ∀ other, other ≠ "messages" → other ∉ responsesDialectOnlyFields →
      (ctx.gated provider body).get other = body.get other := fun _ => get_gated_plain
  by_cases reasons : ctx.reasons provider
  swap
  · rw [if_neg reasons, dig, get_beforeStrip_other whole fun on => absurd on reasons, plain key messages dialect]
    exact iff_of_true found trivial
  rw [if_pos reasons]
  obtain ⟨fields, gated⟩ := @gated_obj ctx provider body _ whole
  rw [gated] at plain
  have given := plain "reasoning_effort" (by decide) (by decide)
  have switch := plain "enable_thinking" (by decide) (by decide)
  rw [← given] at effort
  rw [← switch] at enabled
  have found : (fields.lookup key).bind (·.dig rest) = some v := by
    have read := plain key messages dialect
    rw [dig, ← read] at found
    exact found
  rw [dig, beforeStrip, if_pos reasons, gated, get_applyReasoningConfig]
  by_cases field : key = "reasoning_effort"
  · subst field
    rw [if_pos rfl, if_neg (by decide)]
    exact dig_effort_iff found
  rw [if_neg field]
  by_cases wrapper : key = "reasoning"
  · subst wrapper
    rw [if_pos rfl, if_neg (by decide), ← effort]
    exact dig_wrapper_iff leaf found
  rw [if_neg wrapper]
  by_cases thinking : key ∈ thinkingFields
  · rw [if_pos thinking, if_pos thinking, ← effort, ← enabled, switchesOf, reasoningIntent_eq]
    refine switch_kept_iff leaf thinking fun budget => ?_
    subst budget
    rw [lookup_effortFields (by decide) (by decide)]
    exact bind_eq_some_iff.mp found
  · rw [if_neg thinking, if_neg thinking, lookup_effortFields field wrapper]
    exact iff_of_true found trivial

theorem get_beforeStrip_cases {value : Json} (object : body.isObj) (unconverted : ctx.converts provider = false)
    (other : key ≠ "messages") (found : (ctx.beforeStrip provider body).get key = some value) :
    body.get key = some value ∨ Plain value := by
  have ungated : ctx.gates provider = false := by
    rw [converts, Bool.or_eq_false_iff] at unconverted
    rw [gates, unconverted.2, Bool.and_false]
  have plain : ∀ other, other ≠ "messages" → (ctx.gated provider body).get other = body.get other := by
    intro other apart
    rw [get_gated apart, if_neg]
    rw [ungated]
    exact fun all => Bool.false_ne_true all.2.1
  by_cases reasons : ctx.reasons provider
  swap
  · rw [get_beforeStrip_other object fun on => absurd on reasons, plain key other] at found
    exact .inl found
  obtain ⟨fields, gated⟩ := @gated_obj ctx provider body _ object
  rw [gated] at plain
  rw [beforeStrip, if_pos reasons, gated, get_applyReasoningConfig] at found
  have read := plain key other
  split_ifs at found with switch
  · rcases plain_switch (mem_of_lookup_eq_some found) with held | new
    · have outside : key ≠ "reasoning_effort" ∧ key ≠ "reasoning" := by
        revert switch
        simp only [thinkingFields, mem_cons, not_mem_nil, or_false]
        rintro (rfl | rfl | rfl | rfl) <;> decide
      rw [lookup_effortFields outside.1 outside.2] at held
      exact .inl (read.symm.trans held)
    · exact .inr new
  · by_cases effort : key = "reasoning_effort"
    · subst effort
      rw [lookup_effort_effortFields] at found
      split at found
      · exact .inl (read.symm.trans found)
      · obtain ⟨text, -, rfl⟩ := map_eq_some_iff.mp found
        exact .inr (.str _)
    by_cases wrapper : key = "reasoning"
    · subst wrapper
      rw [lookup_wrapper_effortFields] at found
      split at found
      · exact .inl (read.symm.trans found)
      · cases found
        exact .inr (.single (by decide) (.str _))
    rw [lookup_effortFields effort wrapper] at found
    exact .inl (read.symm.trans found)

theorem headOf_strip {levels : Nat} {value w : Json} (found : value.dig rest = some v)
    (here : (ctx.headOf value).dig rest = some w)
    (same : stripUnderscoreAtDepth (levels + 2 - rest.length) (endsInSchemaMap false ("messages" :: rest)) w = v) :
    w = v := by
  have untouched : ctx.headOf value = value → w = v := by
    intro equal
    rw [equal, found] at here
    exact (Option.some.inj here).symm
  cases value with
  | arr messages =>
    by_cases enabled : ctx.systemHead
    · rw [headOf, if_pos enabled] at here
      obtain ⟨rfl, rfl⟩ := (dig_scalar scalar_arr).mp found
      obtain ⟨-, rfl⟩ := (dig_scalar scalar_arr).mp here
      have stripped : (collectSystemToHead messages ctx.systemHeadMerge).map
          (stripUnderscoreAtDepth (levels + 1) false) = messages := Json.arr.inj same
      have first : SystemFirst messages ctx.systemHeadMerge := by
        rw [← stripped, systemFirst_strip]
        exact systemFirst_collect
      rw [collect_eq_self first]
    · exact untouched (if_neg enabled)
  | _ => exact untouched rfl

theorem eq_of_strip_eq {w : Json} (object : body.isObj) (unconverted : ctx.converts provider = false)
    (found : body.dig (key :: rest) = some v)
    (here : (ctx.beforeStrip provider body).dig (key :: rest) = some w)
    (same : stripUnderscoreAtDepth (maxUnderscoreDepth + 1 - (key :: rest).length)
      (endsInSchemaMap false (key :: rest)) w = v) : w = v := by
  obtain ⟨value, held, later⟩ := get_of_dig_cons here
  obtain ⟨old, was, deep⟩ := get_of_dig_cons found
  by_cases messages : key = "messages"
  · subst messages
    rw [get_beforeStrip_other object fun _ => by decide, get_gated_messages, was] at held
    cases held
    rw [length_cons, Nat.add_sub_add_right] at same
    change stripUnderscoreAtDepth (30 + 2 - rest.length) (endsInSchemaMap false ("messages" :: rest)) w = v at same
    exact headOf_strip deep later same
  · rcases get_beforeStrip_cases object unconverted messages held with kept | plain
    · rw [was] at kept
      cases kept
      rw [deep] at later
      exact (Option.some.inj later).symm
    · rw [plain rest w _ _ later] at same
      exact same

theorem dig_finish_iff (object : base.isObj) (free : key ∉ extraManagedKeys) (leaf : v.isObj = false)
    (found : (mergeDeep provider.extraBody ctx.route.extraBody).dig (key :: rest) = some v) :
    (ctx.finish provider (base.mergeDeep (ctx.configured provider))).dig (key :: rest) = some v ↔
      ctx.LeafKept provider base key rest v := by
  have merged := @dig_merged ctx provider base key rest v object free leaf found
  have whole : (base.mergeDeep (ctx.configured provider)).isObj := isObj_mergeDeep.trans object
  have unnamed : key ≠ "model" := by
    rintro rfl
    exact free (by decide)
  rw [finish, named, dig, get_setField_ne unnamed, LeafKept, ← dig_beforeStrip_iff object leaf merged]
  by_cases converts : ctx.converts provider
  · rw [if_pos converts]
    have never : ¬ctx.converts provider = false := by simp [converts]
    exact ⟨fun kept => ⟨kept, fun off => absurd off never⟩, fun both => both.1⟩
  · rw [if_neg converts]
    have unconverted : ctx.converts provider = false := by simpa using converts
    change (stripUnderscoreFields _).dig (key :: rest) = some v ↔ _
    rw [stripUnderscoreFields, dig_strip]
    constructor
    · intro kept
      split_ifs at kept with visible
      obtain ⟨w, here, same⟩ := map_eq_some_iff.mp kept
      cases eq_of_strip_eq whole unconverted merged here same
      exact ⟨here, fun _ => ⟨visible, clean_of_strip_eq_self same⟩⟩
    · rintro ⟨here, visible⟩
      obtain ⟨path, clean⟩ := visible unconverted
      rw [if_pos path, here, map_some, strip_eq_self clean]

end Pipeline

section Authority

theorem isObj_ensureIncludeUsage {streamed : Bool} : (ensureIncludeUsage body streamed).isObj = body.isObj := by
  unfold ensureIncludeUsage
  cases body with
  | obj fields =>
    dsimp only
    split_ifs
    · split <;> rfl
    · rfl
  | _ => rfl

theorem isObj_setField {value : Json} : (setField key value body).isObj = body.isObj := by
  cases body <;> rfl

theorem isObj_of_prepared [FloatText] [ContentCoding] {request : ClientRequest} {downgradeTo : Option Str}
    {route : ModelRoute} {config : OutboundConfig}
    (prepared : prepareOutbound request downgradeTo route config = some ctx) : ctx.json.isObj := by
  obtain ⟨parsed, -, prepared⟩ := bind_eq_some_iff.mp prepared
  obtain ⟨requested, asked, prepared⟩ := bind_eq_some_iff.mp prepared
  have object : (normalizeRequest request.endpoint parsed).1.isObj := by
    obtain ⟨found, -⟩ := filter_eq_some_iff.mp asked
    obtain ⟨value, here, -⟩ := bind_eq_some_iff.mp found
    obtain ⟨fields, same⟩ := isObj_of_get here
    have same : (normalizeRequest request.endpoint parsed).1 = .obj fields := same
    rw [same]
    rfl
  cases prepared
  cases downgradeTo with
  | none => exact object
  | some other => exact isObj_setField.trans object

variable [Lowercase] [FloatText] [ShortSha256]

/-- The request in the dialect of the upstream, before anything configured is added. -/
def converted (ctx : Outbound) (provider : Provider) : Except Str Json :=
  if ctx.endpoint.anthropic && !nativeAnthropic provider then
    (anthropicRequestToChat ctx.json ctx.gatingModel provider.baseUrl).map (ensureIncludeUsage · ctx.streamed)
  else if ctx.endpoint.responses && !nativeResponses provider then
    (enrichRequestWithHistory ctx.history ctx.json).1.bind fun enriched =>
      (responsesRequestToChat enriched ctx.gatingModel).map (ensureIncludeUsage · ctx.streamed)
  else if ctx.streamed && !ctx.endpoint.responses && !ctx.endpoint.anthropic then
    .ok (ensureIncludeUsage ctx.json ctx.streamed)
  else .ok ctx.json

/-- Every branch merges what is configured over the request and runs its passes, or passes the request on as it is.
-/
theorem buildOutboundRaw_cases {out : Sent} {path : Str}
    (sent : ctx.buildOutboundRaw provider = .ok (out, path)) (read : ctx.converted provider = .ok base) :
    out = .built (ctx.finish provider (applyExtra base (ctx.extra provider))) ∨ ctx.extra provider = none := by
  unfold buildOutboundRaw at sent
  unfold converted at read
  dsimp only at sent
  by_cases anthropic : (ctx.endpoint.anthropic && !nativeAnthropic provider)
  · rw [if_pos anthropic] at sent read
    obtain ⟨body, chat, rfl⟩ := map_eq_ok.mp read
    rw [chat] at sent
    cases sent
    left
    simp [finish, beforeStrip, gated, reasons, converts, gates, anthropic]
  rw [if_neg anthropic] at sent read
  rw [Bool.not_eq_true] at anthropic
  by_cases responses : (ctx.endpoint.responses && !nativeResponses provider)
  · rw [if_pos responses] at sent read
    obtain ⟨json, enriched, read⟩ := bind_eq_ok.mp read
    obtain ⟨body, chat, rfl⟩ := map_eq_ok.mp read
    rw [enriched, Except.bind, chat] at sent
    cases sent
    left
    simp [finish, beforeStrip, gated, reasons, converts, gates, anthropic, responses]
  rw [if_neg responses] at sent read
  rw [Bool.not_eq_true] at responses
  by_cases stream : (ctx.streamed && !ctx.endpoint.responses && !ctx.endpoint.anthropic)
  · rw [if_pos stream] at sent read
    cases read
    cases sent
    left
    have chat : ctx.endpoint.anthropic = false := by
      rw [Bool.and_eq_true, Bool.not_eq_true'] at stream
      exact stream.2
    simp [finish, beforeStrip, gated, reasons, converts, gates, responses, chat]
  rw [if_neg stream] at sent read
  cases read
  by_cases rebuild : ctx.needsRebuild provider
  · rw [if_pos rebuild] at sent
    cases sent
    left
    simp only [finish, beforeStrip, gated, reasons, converts, gates, rebuilt, responses, anthropic, Bool.or_false,
      Bool.false_or, Bool.not_eq_true', Bool.and_false, Bool.false_eq_true, if_false]
    by_cases native : (ctx.endpoint.anthropic && nativeAnthropic provider)
    · simp [native, Bool.true_eq_false]
    · rw [Bool.not_eq_true] at native
      simp [native]
  · right
    rw [Bool.not_eq_true] at rebuild
    unfold needsRebuild at rebuild
    simp only [Bool.or_eq_false_iff, isSome_eq_false_iff, isNone_iff_eq_none] at rebuild
    exact rebuild.1.1.1.1.1.1

theorem isObj_anthropicRequestToChat {req : Json} {gatingModel baseUrl : Str}
    (read : anthropicRequestToChat req gatingModel baseUrl = .ok body) : body.isObj := by
  unfold anthropicRequestToChat at read
  split at read
  · cases read
  next model _ =>
    obtain ⟨messages, -, rfl⟩ := map_eq_ok.mp read
    rfl

theorem isObj_responsesRequestToChat {req : Json} {gatingModel : Str}
    (read : responsesRequestToChat req gatingModel = .ok body) : body.isObj := by
  unfold responsesRequestToChat at read
  dsimp only at read
  split_ifs at read
  · cases read
  · obtain ⟨_, -, read⟩ := bind_eq_ok.mp read
    obtain ⟨messages, -, read⟩ := bind_eq_ok.mp read
    obtain ⟨tools, -, read⟩ := bind_eq_ok.mp read
    split_ifs at read
    all_goals
      obtain ⟨toolChoice, -, read⟩ := bind_eq_ok.mp read
      obtain ⟨responseFormat, -, read⟩ := bind_eq_ok.mp read
      cases read
      rfl

theorem isObj_converted (request : ctx.json.isObj) (read : ctx.converted provider = .ok base) :
    base.isObj := by
  unfold converted at read
  split_ifs at read
  · obtain ⟨body, chat, rfl⟩ := map_eq_ok.mp read
    exact isObj_ensureIncludeUsage.trans (isObj_anthropicRequestToChat chat)
  · obtain ⟨json, -, read⟩ := bind_eq_ok.mp read
    obtain ⟨body, chat, rfl⟩ := map_eq_ok.mp read
    exact isObj_ensureIncludeUsage.trans (isObj_responsesRequestToChat chat)
  · cases read
    exact isObj_ensureIncludeUsage.trans request
  · cases read
    exact request

/-- What is configured is sent exactly when the passes after the merge leave each of its leaves alone. -/
theorem extra_body_authoritative_iff [ContentCoding] {request : ClientRequest} {downgradeTo : Option Str}
    {route : ModelRoute} {config : OutboundConfig} {out : Sent} {path : Str}
    (prepared : prepareOutbound request downgradeTo route config = some ctx) (enabled : config.extraBodyEnabled)
    (read : ctx.converted provider = .ok base) (sent : ctx.buildOutboundRaw provider = .ok (out, path)) :
    ((∀ key rest v, (mergeDeep provider.extraBody route.extraBody).dig (key :: rest) = some v → v.isObj = false →
        key ∉ extraManagedKeys → out.json.bind (·.dig (key :: rest)) = some v) ∧
      ∀ body keys v, body.dig keys = some v → (ctx.configured provider).overlaps keys = false →
        (applyExtra body (ctx.extra provider)).dig keys = some v) ↔
    ∀ key rest v, (mergeDeep provider.extraBody route.extraBody).dig (key :: rest) = some v → v.isObj = false →
      key ∉ extraManagedKeys → ctx.LeafKept provider base key rest v := by
  have object := isObj_converted (isObj_of_prepared prepared) read
  obtain ⟨on, same⟩ : ctx.extraBodyEnabled ∧ ctx.route = route := by
    obtain ⟨parsed, -, prepared⟩ := bind_eq_some_iff.mp prepared
    obtain ⟨requested, -, prepared⟩ := bind_eq_some_iff.mp prepared
    cases prepared
    exact ⟨enabled, rfl⟩
  subst same
  have frame : ∀ body keys v, body.dig keys = some v → (ctx.configured provider).overlaps keys = false →
      (applyExtra body (ctx.extra provider)).dig keys = some v := by
    intro body keys v found apart
    rw [applyExtra_eq on]
    exact dig_mergeDeep_frame configured_sorted apart found
  have each : ∀ key rest v, (mergeDeep provider.extraBody ctx.route.extraBody).dig (key :: rest) = some v →
      v.isObj = false → key ∉ extraManagedKeys →
      (out.json.bind (·.dig (key :: rest)) = some v ↔ ctx.LeafKept provider base key rest v) := by
    intro key rest v found leaf free
    rcases buildOutboundRaw_cases sent read with rfl | none
    · rw [applyExtra_eq on]
      exact dig_finish_iff object free leaf found
    · -- with nothing configured there is no leaf
      have merged := @dig_merged ctx provider (.obj []) key rest v rfl free leaf found
      rw [← applyExtra_eq on, none] at merged
      cases merged
  constructor
  · rintro ⟨all, -⟩ key rest v found leaf free
    exact (each key rest v found leaf free).mp (all key rest v found leaf free)
  · intro kept
    exact ⟨fun key rest v found leaf free =>
      (each key rest v found leaf free).mpr (kept key rest v found leaf free), frame⟩

theorem converted_eq (chat : ctx.endpoint.anthropic = false ∧ ctx.endpoint.responses = false)
    (whole : ctx.streamed = false) : ctx.converted provider = .ok ctx.json := by
  simp [converted, chat.1, chat.2, whole]

theorem buildOutboundRaw_rebuilt (chat : ctx.endpoint.anthropic = false ∧ ctx.endpoint.responses = false)
    (whole : ctx.streamed = false) (rebuild : ctx.needsRebuild provider) :
    ctx.buildOutboundRaw provider = .ok (.built (ctx.rebuilt provider), ctx.endpoint.upstream) := by
  simp [buildOutboundRaw, chat.1, chat.2, whole, rebuild]

end Authority

def providerWith (key : String) (value : Json) (sorted : (Json.obj [(key, value)]).isSorted) : Provider :=
  ⟨"openai".toList, "https://upstream/v1".toList, .obj [(key, value)], sorted⟩

def tierProvider : Provider := providerWith "service_tier" (.str "flex".toList) (by decide)

def switchProvider : Provider := providerWith "enable_thinking" (.bool true) (by decide)

/-- A field that no pass knows of. -/
theorem tier_authoritative : let _ : FloatText := verbatim; let _ : ContentCoding := .none
    let _ : Lowercase := .ascii; let _ : ShortSha256 := .zeros
    ∃ ctx out path,
      prepareOutbound (chatRequest "\x7b\"model\":\"m\"\x7d") none (routeWith none none) defaultConfig = some ctx ∧
      ctx.buildOutboundRaw tierProvider = .ok (out, path) ∧
      (∀ key rest v, (mergeDeep tierProvider.extraBody (routeWith none none).extraBody).dig (key :: rest) = some v →
        v.isObj = false → key ∉ extraManagedKeys → out.json.bind (·.dig (key :: rest)) = some v) ∧
      ∀ body keys v, body.dig keys = some v → (ctx.configured tierProvider).overlaps keys = false →
        (applyExtra body (ctx.extra tierProvider)).dig keys = some v := by
  intro _ _ _ _
  have read : (prepareOutbound (chatRequest "\x7b\"model\":\"m\"\x7d") none (routeWith none none) defaultConfig).map
      (fun ctx => (ctx.endpoint.anthropic, ctx.endpoint.responses, ctx.streamed, ctx.needsRebuild tierProvider)) =
      some (false, false, false, true) := by decide +kernel
  obtain ⟨ctx, prepared, same⟩ := map_eq_some_iff.mp read
  simp only [Prod.mk.injEq] at same
  obtain ⟨anthropic, responses, streamed, rebuild⟩ := same
  have sent := buildOutboundRaw_rebuilt ⟨anthropic, responses⟩ streamed rebuild
  refine ⟨ctx, _, _, prepared, sent, (extra_body_authoritative_iff prepared rfl
    (converted_eq ⟨anthropic, responses⟩ streamed) sent).mpr fun key rest v found leaf _ => ?_⟩
  obtain ⟨rfl, rfl, rfl⟩ : key = "service_tier" ∧ rest = [] ∧ v = .str "flex".toList := by
    have found : (Json.obj [("service_tier", .str "flex".toList)]).dig (key :: rest) = some v := found
    obtain ⟨keys, rfl⟩ := (dig_single leaf scalar_str).mp found
    obtain ⟨rfl, rfl⟩ := cons.inj keys
    exact ⟨rfl, rfl, rfl⟩
  refine ⟨?_, fun _ => by decide⟩
  unfold PassesKeep
  rw [if_neg (by decide), if_neg (by decide)]
  split
  · rw [if_neg (by decide), if_neg (by decide), if_neg (by decide)]
    trivial
  · trivial

/-- A switch of the provider is taken away again, where the route has no form for it. -/
theorem configured_switch_dropped : let _ : FloatText := verbatim; let _ : ContentCoding := .none
    let _ : Lowercase := .ascii; let _ : ShortSha256 := .zeros
    ∃ ctx out path,
      prepareOutbound (chatRequest "\x7b\"model\":\"m\"\x7d") none (routeWith none none) defaultConfig = some ctx ∧
      ctx.buildOutboundRaw switchProvider = .ok (out, path) ∧
      (mergeDeep switchProvider.extraBody (routeWith none none).extraBody).dig ["enable_thinking"] =
        some (.bool true) ∧
      "enable_thinking" ∉ extraManagedKeys ∧ out.json.bind (·.dig ["enable_thinking"]) = none := by
  intro _ _ _ _
  have read : (prepareOutbound (chatRequest "\x7b\"model\":\"m\"\x7d") none (routeWith none none) defaultConfig).map
      (fun ctx => ((ctx.endpoint.anthropic, ctx.endpoint.responses, ctx.streamed, ctx.needsRebuild switchProvider),
        ((ctx.rebuilt switchProvider).dig ["enable_thinking"]).isNone)) =
      some ((false, false, false, true), true) := by decide +kernel
  obtain ⟨ctx, prepared, same⟩ := map_eq_some_iff.mp read
  simp only [Prod.mk.injEq, isNone_iff_eq_none] at same
  obtain ⟨⟨anthropic, responses, streamed, rebuild⟩, dropped⟩ := same
  exact ⟨ctx, _, _, prepared, buildOutboundRaw_rebuilt ⟨anthropic, responses⟩ streamed rebuild,
    rfl, by decide, dropped⟩

end Outbound

end LlmGateway
