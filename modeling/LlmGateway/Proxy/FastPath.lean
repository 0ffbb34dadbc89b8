import LlmGateway.Lib.Fallible
import LlmGateway.Proxy.Passes

namespace LlmGateway

open Json Text List

section Normalize

variable {fields : Fields} {key : String} {json : Json} {depth : Nat}

theorem sorted_of_fits (fits : (Json.obj fields).Fits depth) :
    fields.Pairwise fun left right => left.1 < right.1 := by
  cases depth with
  | zero => exact fits.elim
  | succ depth => exact fitsFields_sorted fits

theorem modifyField_eq_self {value : Json} (sorted : fields.Pairwise fun left right => left.1 < right.1)
    (found : fields.lookup key = some value) : modifyField key (fun _ => value) fields = fields := by
  have each : ∀ field ∈ fields, (if field.1 = key then (field.1, value) else field) = id field := by
    intro field mem
    split_ifs with here
    · have held := lookup_eq_some_of_mem sorted (show (field.1, field.2) ∈ fields from mem)
      rw [here, found] at held
      rw [Option.some.inj held]
      rfl
    · rfl
  rw [modifyField, map_congr_left each, map_id]

theorem normalizeElements_unchanged {rewrite : Json → Option Json} (fits : json.Fits depth)
    (unchanged : (normalizeElements key rewrite json).2 = false) :
    (normalizeElements key rewrite json).1 = json := by
  unfold normalizeElements at unchanged ⊢
  split at unchanged
  next fields =>
    split at unchanged
    next items found =>
      have same : (items.map fun item => (rewrite item).getD item) = items := by
        refine (map_congr_left fun item mem => ?_).trans (map_id _)
        have untouched := any_eq_false.mp unchanged item mem
        cases found : rewrite item with
        | none => rfl
        | some other => simp [found] at untouched
      rw [same, modifyField_eq_self (sorted_of_fits fits) found]
    · rfl
  · rfl

theorem normalizeTools_unchanged (fits : json.Fits depth) (unchanged : (normalizeTools json).2 = false) :
    (normalizeTools json).1 = json := by
  unfold normalizeTools at unchanged ⊢
  split at unchanged
  next fields =>
    split at unchanged
    next tools found =>
      have same : tools.filter isClientTool = tools := by
        have length : tools.length = (tools.filter isClientTool).length := by simpa using unchanged
        exact filter_eq_self.mpr (length_filter_eq_length_iff.mp length.symm)
      dsimp only
      rw [same, modifyField_eq_self (sorted_of_fits fits) found]
    · rfl
  · rfl

theorem normalizeChatRoles_unchanged (fits : json.Fits depth) (unchanged : (normalizeChatRoles json).2 = false) :
    (normalizeChatRoles json).1 = json := by
  have both : ((normalizeElements "messages" normalizeRole json).2 || (normalizeElements "input" normalizeItemRole
      (normalizeElements "messages" normalizeRole json).1).2) = false := unchanged
  obtain ⟨messages, input⟩ := Bool.or_eq_false_iff.mp both
  have first := normalizeElements_unchanged fits messages
  change (normalizeElements "input" normalizeItemRole (normalizeElements "messages" normalizeRole json).1).1 = json
  rw [first] at input ⊢
  exact normalizeElements_unchanged fits input

theorem normalizeRequest_unchanged {endpoint : Endpoint} (fits : json.Fits depth)
    (unchanged : (normalizeRequest endpoint json).2 = false) : (normalizeRequest endpoint json).1 = json := by
  unfold normalizeRequest at unchanged ⊢
  split_ifs at unchanged ⊢ with anthropic responses
  · rfl
  · exact normalizeChatRoles_unchanged fits unchanged
  · obtain ⟨roles, tools⟩ := Bool.or_eq_false_iff.mp unchanged
    have first := normalizeChatRoles_unchanged fits roles
    dsimp only at tools ⊢
    rw [first] at tools ⊢
    exact normalizeTools_unchanged fits tools

end Normalize

theorem trim_of_identity {text : Str} (same : toAsciiLowercase text = "identity".toList) : trim text = text := by
  have letters : ∀ c ∈ "identity".toList, isWhitespace c = false := by decide
  have solid : ∀ c ∈ text, isWhitespace c = false := by
    intro c mem
    have lower : asciiLower c ∈ "identity".toList := by
      rw [← same]
      exact mem_map.mpr ⟨c, mem, rfl⟩
    rw [← isWhitespace_asciiLower]
    exact letters _ lower
  exact trim_eq_self (fun c mem => solid c (mem_of_head? mem))
    fun c mem => solid c (mem_of_getLast? mem)

theorem decompress_plain [ContentCoding] {request : ClientRequest} (plain : hadContentEncoding request = false) :
    decompressRequestBody request.body request.contentEncoding = some request.body := by
  unfold hadContentEncoding at plain
  unfold decompressRequestBody
  cases given : request.contentEncoding with
  | none => rfl
  | some text =>
    rw [given, Option.any_some, Bool.and_eq_false_iff] at plain
    have word : (toAsciiLowercase (trim text)).isEmpty ∨ toAsciiLowercase (trim text) = "identity".toList := by
      rcases plain with blank | identity
      · left
        have empty : trim text = [] := by simpa using blank
        rw [empty]
        rfl
      · right
        have lower : toAsciiLowercase text = "identity".toList := by
          cases same : eqIgnoreAsciiCase text "identity".toList with
          | true => exact eqIgnoreAsciiCase_iff.mp same
          | false =>
            rw [same] at identity
            cases identity
        rw [trim_of_identity lower, lower]
    rw [Option.map_some]
    dsimp only
    rw [if_pos (Bool.or_eq_true_iff.mpr (word.imp_right decide_eq_true))]

namespace Outbound

/-- What the route makes of the reasoning is there already: its effort is let through, its switches have the form.
-/
structure ReasoningSettled (ctx : Outbound) : Prop where
  effort : ∀ effort, ctx.json.getStr "reasoning_effort" = some effort → ctx.EffortKept effort
  switches : ∀ key ∈ thinkingFields,
    ctx.json.get key = (switchesOf ctx.json.fields ctx.route.thinkingForm).lookup key

section Reasoning

variable {ctx : Outbound} {effort : Str} {fields : Fields}

theorem effort_settled (sorted : fields.Pairwise fun left right => left.1 < right.1)
    (kept : ∀ effort, (fields.lookup "reasoning_effort").bind asStr = some effort → ctx.EffortKept effort) :
    ctx.applyEffortMode (.obj fields) = .obj fields := by
  rw [applyEffortMode_eq, effortFields]
  cases given : (fields.lookup "reasoning_effort").bind asStr with
  | none => rfl
  | some effort =>
    have left := effortKept_iff.mp (kept effort given)
    dsimp only
    cases outcome : ctx.outcomeOf effort with
    | kept => rfl
    | clamped other =>
      rw [outcome] at left
      cases left
      exact congrArg Json.obj (insertField_eq_self sorted (lookup_of_effort given))
    | _ =>
      rw [outcome] at left
      cases left

theorem reasoning_settled (sorted : fields.Pairwise fun left right => left.1 < right.1)
    (json : ctx.json = .obj fields) (settled : ctx.ReasoningSettled) :
    ctx.applyReasoningConfig ctx.json = ctx.json := by
  have effort : ctx.applyEffortMode ctx.json = ctx.json := by
    rw [json]
    refine effort_settled sorted fun effort given => settled.effort effort ?_
    rw [json]
    exact given
  rw [applyReasoningConfig, effort, json, applyThinkingForm_eq]
  refine congrArg Json.obj (fields_ext (thinkingForm_sorted sorted) sorted fun key => ?_)
  rw [lookup_thinkingForm]
  split_ifs with switch
  · have same := settled.switches key switch
    rw [json] at same
    exact same.symm
  · rfl

theorem settled_of_rebuilt [Lowercase] (json : ctx.json = .obj fields)
    (sorted : fields.Pairwise fun left right => left.1 < right.1)
    (same : ctx.named (stripUnderscoreFields (ctx.applyReasoningConfig ctx.json)) = ctx.json) :
    ctx.ReasoningSettled := by
  have visible : ∀ key, isPrivateKey key = false → key ≠ "model" → ctx.json.get key =
      ((ctx.applyReasoningConfig ctx.json).get key).map
        (stripUnderscoreAtDepth maxUnderscoreDepth (isSchemaNameMap key)) := by
    intro key seen other
    rw [← get_strip seen]
    have read := congrArg (Json.get · key) same
    exact read.symm.trans (get_setField_ne other _)
  have effort : ∀ effort, (fields.lookup "reasoning_effort").bind asStr = some effort → ctx.EffortKept effort := by
    intro effort given
    have read := visible "reasoning_effort" (by decide) (by decide)
    rw [applyReasoningConfig, json, applyEffortMode_eq, applyThinkingForm_eq] at read
    change fields.lookup "reasoning_effort" = Option.map _ (List.lookup "reasoning_effort" _) at read
    rw [lookup_thinkingForm, if_neg (by decide), lookup_effort_effortFields, lookup_of_effort given] at read
    rw [effortKept_iff]
    change _ = Option.map _ (Option.map Json.str (effortLeft effort (ctx.outcomeOf effort))) at read
    cases left : effortLeft effort (ctx.outcomeOf effort) with
    | none =>
      rw [left] at read
      cases read
    | some other =>
      rw [left] at read
      cases read
      rfl
  refine ⟨fun given found => effort given ?_, fun key switch => ?_⟩
  · rw [json] at found
    exact found
  · have hidden : isPrivateKey key = false ∧ key ≠ "model" := by
      revert switch
      simp only [thinkingFields, mem_cons, not_mem_nil, or_false]
      rintro (rfl | rfl | rfl | rfl) <;> decide
    have read := visible key hidden.1 hidden.2
    rw [applyReasoningConfig, json, effort_settled sorted effort, applyThinkingForm_eq] at read
    change fields.lookup key = Option.map _ (List.lookup key _) at read
    rw [lookup_thinkingForm, if_pos switch] at read
    rw [json]
    change fields.lookup key = (switchesOf fields ctx.route.thinkingForm).lookup key
    cases found : (switchesOf fields ctx.route.thinkingForm).lookup key with
    | none =>
      rw [found] at read
      exact read
    | some value =>
      rw [found] at read
      rcases plain_switch (mem_of_lookup_eq_some found) with held | plain
      · exact held
      · rw [read, Option.map_some, plain.strip]

end Reasoning

section Fast

variable [FloatText] {request : ClientRequest} {downgradeTo : Option Str}
  {route : ModelRoute} {config : OutboundConfig} {ctx : Outbound} {provider : Provider}

/-- The request as it was read, where nothing is to be done. -/
structure Untouched (ctx : Outbound) (fields : Fields) : Prop where
  bytes : jsonOfBytes ctx.body = some ctx.json
  json : ctx.json = .obj fields
  sorted : fields.Pairwise fun left right => left.1 < right.1
  model : fields.lookup "model" = some (.str ctx.outboundModel)

theorem untouched_of_fast [ContentCoding] (prepared : prepareOutbound request downgradeTo route config = some ctx)
    (roles : ctx.rolesRewritten = false) (plain : ctx.hadContentEncoding = false)
    (same : ctx.outboundModel = ctx.model) (plan : ctx.planDowngraded = false) :
    ∃ fields, ctx.Untouched fields := by
  obtain ⟨parsed, read, prepared⟩ := Option.bind_eq_some_iff.mp prepared
  obtain ⟨requested, asked, prepared⟩ := Option.bind_eq_some_iff.mp prepared
  cases prepared
  cases downgradeTo with
  | some other => cases plan
  | none =>
    have bytes : jsonOfBytes request.body = some parsed := by
      rw [parseRequestJson, decompress_plain plain] at read
      exact read
    have fits : parsed.Fits maxDepth := by
      obtain ⟨text, -, parse⟩ := Option.bind_eq_some_iff.mp bytes
      exact fits_of_parse parse
    have unchanged : (normalizeRequest request.endpoint parsed).1 = parsed := normalizeRequest_unchanged fits roles
    have asked : ((normalizeRequest request.endpoint parsed).1.getStr "model").filter
        (fun model => !model.isEmpty) =
        some requested := asked
    rw [unchanged] at asked
    have model : parsed.get "model" = some (.str requested) := by
      obtain ⟨found, -⟩ := Option.filter_eq_some_iff.mp asked
      obtain ⟨value, here, text⟩ := Option.bind_eq_some_iff.mp found
      cases value with
      | str other =>
        cases text
        exact here
      | _ => cases text
    cases parsed with
    | obj fields =>
      refine ⟨fields, ⟨bytes.trans (congrArg some unchanged.symm), unchanged, sorted_of_fits fits, ?_⟩⟩
      exact model.trans (congrArg (fun text => some (Json.str text)) same.symm)
    | _ => cases model

variable [Lowercase] [ShortSha256]

theorem raw_cases {bytes : List UInt8} {path : Str}
    (fast : ctx.buildOutboundRaw provider = .ok (.raw bytes, path)) :
    ctx.needsRebuild provider = false ∧ bytes = ctx.body := by
  unfold buildOutboundRaw at fast
  split_ifs at fast with anthropic responses streamed rebuild
  · obtain ⟨chat, -, same⟩ := Fallible.map_eq_ok.mp fast
    cases same
  · obtain ⟨json, -, fast⟩ := Fallible.bind_eq_ok.mp fast
    obtain ⟨chat, -, same⟩ := Fallible.map_eq_ok.mp fast
    cases same
  · cases fast
  · cases fast
  · cases fast
    exact ⟨by simpa using rebuild, rfl⟩

/-- The bytes passed on stand for the body built anew exactly when the reasoning is settled, or is left alone. -/
theorem fast_path_sound_iff [ContentCoding] {bytes : List UInt8} {path : Str}
    (prepared : prepareOutbound request downgradeTo route config = some ctx)
    (fast : ctx.buildOutboundRaw provider = .ok (.raw bytes, path)) :
    jsonOfBytes bytes = some (ctx.rebuilt provider) ↔
      (ctx.endpoint.anthropic ∧ nativeAnthropic provider) ∨ ctx.ReasoningSettled := by
  obtain ⟨idle, rfl⟩ := raw_cases fast
  unfold needsRebuild at idle
  simp only [Bool.or_eq_false_iff, Option.isSome_eq_false_iff, Option.isNone_iff_eq_none, decide_eq_false_iff_not,
    not_not] at idle
  obtain ⟨⟨⟨⟨⟨⟨noExtra, roles⟩, plain⟩, noHead⟩, same⟩, clean⟩, plan⟩ := idle
  obtain ⟨fields, untouched⟩ := untouched_of_fast prepared roles plain same plan
  have headless : ctx.headed (applyExtra ctx.json (ctx.extra provider)) = ctx.json := by
    rw [noExtra, untouched.json, headed, noHead]
    unfold applySystemHead applyExtra
    dsimp only
    split <;> rfl
  have renamed : ctx.named ctx.json = ctx.json := by
    rw [named, untouched.json]
    exact congrArg Json.obj (insertField_eq_self untouched.sorted untouched.model)
  have stripped : stripUnderscoreFields ctx.json = ctx.json := strip_eq_self clean
  rw [untouched.bytes, Option.some.injEq, rebuilt, headless]
  by_cases native : (ctx.endpoint.anthropic && nativeAnthropic provider)
  · rw [if_pos native, stripped, renamed]
    exact iff_of_true rfl (.inl (by simpa using native))
  · rw [if_neg native]
    constructor
    · intro equal
      exact .inr (settled_of_rebuilt untouched.json untouched.sorted equal.symm)
    · rintro (both | settled)
      · exact absurd (by simpa using both) native
      · rw [reasoning_settled untouched.sorted untouched.json settled, stripped, renamed]

theorem buildOutboundRaw_raw (chat : ctx.endpoint.anthropic = false ∧ ctx.endpoint.responses = false)
    (whole : ctx.streamed = false) (idle : ctx.needsRebuild provider = false) :
    ctx.buildOutboundRaw provider = .ok (.raw ctx.body, ctx.endpoint.upstream) := by
  simp [buildOutboundRaw, chat.1, chat.2, whole, idle]

end Fast

def chatEndpoint : Endpoint := ⟨chatCompletionsPath, false, false⟩

def plainProvider : Provider := ⟨"openai".toList, "https://upstream/v1".toList, .obj [], isSorted_empty⟩

def routeWith (effortMode thinkingForm : Option String) : ModelRoute :=
  ⟨none, .obj [], false, false, effortMode.map String.toList, thinkingForm.map String.toList, none, isSorted_empty⟩

def defaultConfig : OutboundConfig := ⟨true, [], .new⟩

def chatRequest (body : String) : ClientRequest := ⟨Utf8.encode body, none, chatEndpoint⟩

/-- An effort that the route lets through. -/
theorem high_effort_sound : let _ : FloatText := verbatim; let _ : ContentCoding := .none
    let _ : Lowercase := .ascii; let _ : ShortSha256 := .zeros
    ∃ ctx bytes path,
      prepareOutbound (chatRequest "\x7b\"model\":\"m\",\"reasoning_effort\":\"high\"\x7d") none
        (routeWith (some "deepseek") none) defaultConfig = some ctx ∧
      ctx.buildOutboundRaw plainProvider = .ok (.raw bytes, path) ∧
      jsonOfBytes bytes = some (ctx.rebuilt plainProvider) := by
  intro _ _ _ _
  have read : (prepareOutbound (chatRequest "\x7b\"model\":\"m\",\"reasoning_effort\":\"high\"\x7d") none
      (routeWith (some "deepseek") none) defaultConfig).map (fun ctx =>
        ((ctx.endpoint.anthropic, ctx.endpoint.responses,
        ctx.streamed, ctx.needsRebuild plainProvider), ctx.json.getStr "reasoning_effort",
          decide (ctx.EffortKept "high".toList), thinkingFields.all fun key => (ctx.json.get key).isNone &&
            ((switchesOf ctx.json.fields ctx.route.thinkingForm).lookup key).isNone)) =
      some ((false, false, false, false), some "high".toList, true, true) := by decide +kernel
  obtain ⟨ctx, prepared, same⟩ := Option.map_eq_some_iff.mp read
  simp only [Prod.mk.injEq, decide_eq_true_eq, all_eq_true, Bool.and_eq_true, Option.isNone_iff_eq_none] at same
  obtain ⟨⟨anthropic, responses, streamed, idle⟩, given, kept, switches⟩ := same
  have fast := buildOutboundRaw_raw ⟨anthropic, responses⟩ streamed idle
  refine ⟨ctx, _, _, prepared, fast, (fast_path_sound_iff prepared fast).mpr (.inr ⟨?_, ?_⟩)⟩
  · intro effort found
    rw [given] at found
    cases found
    exact kept
  · intro key switch
    rw [(switches key switch).1, (switches key switch).2]

/-- A switch that the route has no form for is passed on, and would be taken away. -/
theorem switch_passes_fast_path : let _ : FloatText := verbatim; let _ : ContentCoding := .none
    let _ : Lowercase := .ascii; let _ : ShortSha256 := .zeros
    ∃ ctx bytes path,
      prepareOutbound (chatRequest "\x7b\"enable_thinking\":true,\"model\":\"m\"\x7d") none
        (routeWith none none) defaultConfig = some ctx ∧
      ctx.buildOutboundRaw plainProvider = .ok (.raw bytes, path) ∧
      jsonOfBytes bytes ≠ some (ctx.rebuilt plainProvider) := by
  intro _ _ _ _
  have read : (prepareOutbound (chatRequest "\x7b\"enable_thinking\":true,\"model\":\"m\"\x7d") none
      (routeWith none none) defaultConfig).map (fun ctx => ((ctx.endpoint.anthropic, ctx.endpoint.responses,
        ctx.streamed, ctx.needsRebuild plainProvider),
        ((jsonOfBytes ctx.body).bind (get · "enable_thinking")).isSome,
          ((ctx.rebuilt plainProvider).get "enable_thinking").isSome)) =
      some ((false, false, false, false), true, false) := by decide +kernel
  obtain ⟨ctx, prepared, same⟩ := Option.map_eq_some_iff.mp read
  simp only [Prod.mk.injEq] at same
  obtain ⟨⟨anthropic, responses, streamed, idle⟩, passed, gone⟩ := same
  refine ⟨ctx, _, _, prepared, buildOutboundRaw_raw ⟨anthropic, responses⟩ streamed idle, fun equal => ?_⟩
  rw [equal, Option.bind_some, gone] at passed
  cases passed

end Outbound

end LlmGateway
