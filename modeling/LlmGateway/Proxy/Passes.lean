import LlmGateway.Proxy.Outbound

namespace LlmGateway

open Json Text List

section Strip

variable {levels : Nat} {inSchemaMap : Bool} {json value : Json}

theorem lookup_filter_map {fields : Fields} {keep : String → Bool} {change : String → Json → Json}
    {key : String} (kept : keep key) :
    ((fields.filter fun field => keep field.1).map fun field => (field.1, change field.1 field.2)).lookup key =
      (fields.lookup key).map (change key) := by
  induction fields with
  | nil => rfl
  | cons field rest ih =>
    obtain ⟨name, value⟩ := field
    by_cases here : key = name
    · subst here
      rw [filter_cons_of_pos (p := fun field : String × Json => keep field.1) kept]
      simp [List.lookup]
    · have skip : (key == name) = false := by simp [here]
      by_cases stays : keep name
      · rw [filter_cons_of_pos (p := fun field : String × Json => keep field.1) stays]
        simp only [map_cons, List.lookup, skip]
        exact ih
      · rw [filter_cons_of_neg (p := fun field : String × Json => keep field.1) stays]
        simp only [List.lookup, skip]
        exact ih

theorem lookup_filter_map_none {fields : Fields} {keep : String → Bool} {change : String → Json → Json}
    {key : String} (dropped : keep key = false) :
    ((fields.filter fun field => keep field.1).map fun field => (field.1, change field.1 field.2)).lookup key =
      none := by
  refine lookup_eq_none_iff.mpr fun field mem => ?_
  obtain ⟨old, held, rfl⟩ := mem_map.mp mem
  have other : key ≠ old.1 := by
    rintro rfl
    have kept := (mem_filter.mp held).2
    rw [dropped] at kept
    cases kept
  simp [other]

theorem get_stripAt (key : String) : (stripUnderscoreAtDepth (levels + 1) inSchemaMap json).get key =
    if inSchemaMap || !isPrivateKey key then
      (json.get key).map (stripUnderscoreAtDepth levels (isSchemaNameMap key)) else none := by
  cases json with
  | obj fields =>
    split_ifs with kept
    · exact @lookup_filter_map fields (fun key => inSchemaMap || !isPrivateKey key)
        (fun key => stripUnderscoreAtDepth levels (isSchemaNameMap key)) key kept
    · exact @lookup_filter_map_none fields (fun key => inSchemaMap || !isPrivateKey key)
        (fun key => stripUnderscoreAtDepth levels (isSchemaNameMap key)) key (by simpa using kept)
  | _ => exact (ite_self none).symm

theorem get_strip {key : String} (visible : isPrivateKey key = false) : (stripUnderscoreFields json).get key =
    (json.get key).map (stripUnderscoreAtDepth maxUnderscoreDepth (isSchemaNameMap key)) := by
  rw [stripUnderscoreFields, get_stripAt, visible]
  rfl

def visiblePath : Nat → Bool → List String → Bool
  | levels + 1, inSchemaMap, key :: rest =>
    (inSchemaMap || !isPrivateKey key) && visiblePath levels (isSchemaNameMap key) rest
  | _, _, _ => true

def endsInSchemaMap (inSchemaMap : Bool) (path : List String) : Bool :=
  (path.getLast?.map isSchemaNameMap).getD inSchemaMap

theorem endsInSchemaMap_cons (key : String) (rest : List String) :
    endsInSchemaMap inSchemaMap (key :: rest) = endsInSchemaMap (isSchemaNameMap key) rest := by
  cases rest with
  | nil => rfl
  | cons next more =>
    unfold endsInSchemaMap
    rfl

theorem strip_zero : stripUnderscoreAtDepth 0 inSchemaMap json = json := by
  rw [stripUnderscoreAtDepth]

theorem dig_strip (path : List String) : (stripUnderscoreAtDepth levels inSchemaMap json).dig path =
    if visiblePath levels inSchemaMap path then
      (json.dig path).map (stripUnderscoreAtDepth (levels - path.length) (endsInSchemaMap inSchemaMap path))
    else none := by
  induction path generalizing levels inSchemaMap json with
  | nil =>
    cases levels <;> rfl
  | cons key rest ih =>
    cases levels with
    | zero =>
      have whole : stripUnderscoreAtDepth 0 (endsInSchemaMap inSchemaMap (key :: rest)) = id :=
        funext fun _ => strip_zero
      rw [strip_zero, Nat.zero_sub, whole, Option.map_id]
      rfl
    | succ levels =>
      rw [dig, get_stripAt, visiblePath, endsInSchemaMap_cons, length_cons, Nat.add_sub_add_right, dig]
      by_cases kept : (inSchemaMap || !isPrivateKey key)
      · rw [if_pos kept, kept, Bool.true_and]
        cases json.get key with
        | none => exact (ite_self none).symm
        | some value => exact ih
      · rw [if_neg kept]
        simp only [Bool.not_eq_true] at kept
        rw [kept, Bool.false_and]
        rfl

theorem strip_eq_self : ∀ {levels : Nat} {inSchemaMap : Bool} {value : Json},
    hasUnderscoreAtDepth levels inSchemaMap value = false →
      stripUnderscoreAtDepth levels inSchemaMap value = value := by
  intro levels
  induction levels with
  | zero => exact fun _ => rfl
  | succ levels ih =>
    intro inSchemaMap value clean
    cases value with
    | obj fields =>
      simp only [hasUnderscoreAtDepth, Bool.or_eq_false_iff, any_eq_false] at clean
      simp only [stripUnderscoreAtDepth]
      have all : (fields.filter fun field => inSchemaMap || !isPrivateKey field.1) = fields := by
        refine filter_eq_self.mpr fun field mem => ?_
        have kept := clean.1
        cases inSchemaMap with
        | true => rfl
        | false =>
          simp only [Bool.not_false, Bool.true_and, any_eq_false] at kept
          simpa using kept field mem
      rw [all]
      refine congrArg Json.obj ((map_congr_left fun field mem => ?_).trans (map_id _))
      rw [ih (by simpa using clean.2 field mem)]
      rfl
    | arr items =>
      simp only [hasUnderscoreAtDepth, any_eq_false] at clean
      refine congrArg Json.arr ((map_congr_left fun item mem => ?_).trans (map_id _))
      exact ih (by simpa using clean item mem)
    | _ => rfl

theorem map_eq_self {α : Type*} {change : α → α} {items : List α} (same : items.map change = items) :
    ∀ item ∈ items, change item = item := by
  induction items with
  | nil => simp
  | cons first rest ih =>
    obtain ⟨head, tail⟩ := List.cons.inj same
    exact forall_mem_cons.mpr ⟨head, ih tail⟩

theorem clean_of_strip_eq_self : ∀ {levels : Nat} {inSchemaMap : Bool} {value : Json},
    stripUnderscoreAtDepth levels inSchemaMap value = value →
      hasUnderscoreAtDepth levels inSchemaMap value = false := by
  intro levels
  induction levels with
  | zero => exact fun _ => rfl
  | succ levels ih =>
    intro inSchemaMap value same
    cases value with
    | obj fields =>
      have same := Json.obj.inj same
      have all : (fields.filter fun field => inSchemaMap || !isPrivateKey field.1) = fields := by
        refine filter_eq_self.mpr (length_filter_eq_length_iff.mp ?_)
        have length := congrArg List.length same
        rwa [length_map] at length
      rw [all] at same
      have each := map_eq_self same
      simp only [hasUnderscoreAtDepth, Bool.or_eq_false_iff, Bool.and_eq_false_iff, any_eq_false]
      refine ⟨?_, fun field mem => ?_⟩
      · cases inSchemaMap with
        | true => exact .inl rfl
        | false =>
          refine .inr fun field mem => ?_
          simpa using filter_eq_self.mp all field mem
      · rw [ih (congrArg Prod.snd (each field mem))]
        exact Bool.false_ne_true
    | arr items =>
      rw [stripUnderscoreAtDepth] at same
      simp only [hasUnderscoreAtDepth, any_eq_false]
      intro item mem
      rw [ih (map_eq_self (Json.arr.inj same) item mem)]
      exact Bool.false_ne_true
    | _ => rfl

theorem clean_strip : ∀ {levels : Nat} {inSchemaMap : Bool} {value : Json},
    hasUnderscoreAtDepth levels inSchemaMap (stripUnderscoreAtDepth levels inSchemaMap value) = false := by
  intro levels
  induction levels with
  | zero => exact rfl
  | succ levels ih =>
    intro inSchemaMap value
    cases value with
    | obj fields =>
      simp only [stripUnderscoreAtDepth, hasUnderscoreAtDepth, Bool.or_eq_false_iff, any_map, any_eq_false]
      refine ⟨?_, fun field _ => by simp [ih]⟩
      cases inSchemaMap <;> simp
    | arr items =>
      simp only [stripUnderscoreAtDepth, hasUnderscoreAtDepth, any_map, any_eq_false]
      exact fun item _ => by simp [ih]
    | _ => rfl

/-- The fast path sees a private field exactly if stripping changes the value, which it does only once. -/
theorem underscore_detection_exact (value : Json) :
    (hasUnderscoreFields value = false ↔ stripUnderscoreFields value = value) ∧
      stripUnderscoreFields (stripUnderscoreFields value) = stripUnderscoreFields value :=
  ⟨⟨strip_eq_self, clean_of_strip_eq_self⟩, strip_eq_self clean_strip⟩

theorem asStr_strip : (stripUnderscoreAtDepth levels inSchemaMap value).asStr = value.asStr := by
  cases levels with
  | zero => rw [strip_zero]
  | succ levels => cases value <;> rfl

theorem isSystemMessage_strip :
    isSystemMessage (stripUnderscoreAtDepth (levels + 1) false json) = isSystemMessage json := by
  have role : (stripUnderscoreAtDepth (levels + 1) false json).getStr "role" = json.getStr "role" := by
    rw [getStr, get_stripAt, if_pos (by decide), getStr, Option.bind_map]
    exact congrArg _ (funext fun _ => asStr_strip)
  rw [isSystemMessage, role, isSystemMessage]

def Plain (value : Json) : Prop := ∀ path v levels inSchemaMap,
  value.dig path = some v → stripUnderscoreAtDepth levels inSchemaMap v = v

theorem Plain.strip (plain : Plain value) : stripUnderscoreAtDepth levels inSchemaMap value = value :=
  plain [] value levels inSchemaMap rfl

theorem Plain.str (text : Str) : Plain (.str text) := by
  intro path v levels inSchemaMap found
  cases path with
  | nil =>
    cases found
    cases levels <;> rfl
  | cons key rest => cases found

theorem Plain.bool (truth : Bool) : Plain (.bool truth) := by
  intro path v levels inSchemaMap found
  cases path with
  | nil =>
    cases found
    cases levels <;> rfl
  | cons key rest => cases found

theorem Plain.single {key : String} (visible : isPrivateKey key = false) (plain : Plain value) :
    Plain (.obj [(key, value)]) := by
  intro path v levels inSchemaMap found
  cases path with
  | nil =>
    cases found
    cases levels with
    | zero => exact strip_zero
    | succ levels => simp [stripUnderscoreAtDepth, visible, plain.strip]
  | cons first rest =>
    obtain ⟨inner, here, later⟩ := get_of_dig_cons found
    have here : [(key, value)].lookup first = some inner := here
    cases mem_singleton.mp (mem_of_lookup_eq_some here)
    exact plain rest v levels inSchemaMap later

end Strip

section Head

variable {messages : List Json} {merge : Bool}

def SystemFirst (messages : List Json) (merge : Bool) : Prop :=
  (messages.Pairwise fun left right => isSystemMessage right → isSystemMessage left) ∧
    (merge → (messages.filter isSystemMessage).length ≤ 1)

theorem partition_eq_self
    (order : messages.Pairwise fun left right => isSystemMessage right → isSystemMessage left) :
    messages.filter isSystemMessage ++ messages.filter (fun message => !isSystemMessage message) = messages := by
  induction messages with
  | nil => rfl
  | cons message rest ih =>
    obtain ⟨first, others⟩ := pairwise_cons.mp order
    by_cases system : isSystemMessage message
    · simp only [filter_cons, system, Bool.not_true, Bool.false_eq_true, if_true, if_false, cons_append]
      rw [ih others]
    · have none : ∀ other ∈ rest, isSystemMessage other = false := by
        intro other mem
        by_contra found
        exact system (first other mem (by simpa using found))
      have empty : rest.filter isSystemMessage = [] := filter_eq_nil_iff.mpr fun other mem => by
        rw [none other mem]
        exact Bool.false_ne_true
      have whole : rest.filter (fun message => !isSystemMessage message) = rest :=
        filter_eq_self.mpr fun other mem => by rw [none other mem]; rfl
      simp only [Bool.not_eq_true] at system
      simp [system, empty, whole]

theorem collect_eq_self (first : SystemFirst messages merge) : collectSystemToHead messages merge = messages := by
  have few : (decide ((messages.filter isSystemMessage).length ≤ 1) || !merge) := by
    cases merge with
    | false => exact Bool.or_true _
    | true => rw [decide_eq_true (first.2 rfl), Bool.true_or]
  rw [collectSystemToHead, if_pos few]
  exact partition_eq_self first.1

theorem systemFirst_collect : SystemFirst (collectSystemToHead messages merge) merge := by
  have others : ∀ message ∈ messages.filter (fun message => !isSystemMessage message), isSystemMessage message =
      false := by
    intro message mem
    simpa using (mem_filter.mp mem).2
  have rest : (messages.filter (fun message => !isSystemMessage message)).Pairwise
      fun left right => isSystemMessage right → isSystemMessage left := by
    refine pairwise_of_forall_mem_list fun left _ right mem system => ?_
    rw [others right mem] at system
    cases system
  have none : (messages.filter (fun message => !isSystemMessage message)).filter isSystemMessage = [] :=
    filter_eq_nil_iff.mpr fun message mem => by
      rw [others message mem]
      exact Bool.false_ne_true
  unfold collectSystemToHead
  dsimp only
  split_ifs with few empty
  · refine ⟨pairwise_append.mpr ⟨?_, rest, fun left mem _ _ _ => ?_⟩, fun merged => ?_⟩
    · exact pairwise_of_forall_mem_list fun left mem _ _ _ => (mem_filter.mp mem).2
    · exact (mem_filter.mp mem).2
    · rw [merged] at few
      simpa using few
  · exact ⟨rest, fun _ => by rw [none]; exact Nat.zero_le _⟩
  · have system : ∀ content, isSystemMessage (chatMessage "system".toList content) := fun _ => rfl
    refine ⟨pairwise_cons.mpr ⟨fun _ _ _ => system _, rest⟩, fun _ => ?_⟩
    rw [filter_cons_of_pos (system _), none]
    rfl

theorem systemFirst_strip {levels : Nat} :
    SystemFirst (messages.map (stripUnderscoreAtDepth (levels + 1) false)) merge ↔ SystemFirst messages merge := by
  unfold SystemFirst
  rw [pairwise_map, filter_map, length_map]
  have same : isSystemMessage ∘ stripUnderscoreAtDepth (levels + 1) false = isSystemMessage :=
    funext fun _ => isSystemMessage_strip
  simp [isSystemMessage_strip, same]

end Head

section Lookup

variable {fields : Fields} {key other : String} {change : Json → Json}

theorem lookup_modifyField : (modifyField key change fields).lookup key = (fields.lookup key).map change := by
  induction fields with
  | nil => rfl
  | cons field rest ih =>
    obtain ⟨name, value⟩ := field
    by_cases here : key = name
    · subst here
      simp [modifyField, List.lookup]
    · have skip : (key == name) = false := by simp [here]
      rw [modifyField, map_cons, if_neg (Ne.symm here)]
      simp only [List.lookup, skip]
      exact ih

theorem lookup_modifyField_ne (different : other ≠ key) :
    (modifyField key change fields).lookup other = fields.lookup other := by
  induction fields with
  | nil => rfl
  | cons field rest ih =>
    obtain ⟨name, value⟩ := field
    rw [modifyField, map_cons]
    by_cases here : other = name
    · subst here
      rw [if_neg different]
      simp [List.lookup]
    · have skip : (other == name) = false := by simp [here]
      rw [show (if name = key then (name, change value) else (name, value)) =
        (name, if name = key then change value else value) by split_ifs <;> rfl]
      simp only [List.lookup, skip]
      exact ih

theorem lookup_filter {keep : String → Bool} : (fields.filter fun field => keep field.1).lookup key =
    if keep key then fields.lookup key else none := by
  split_ifs with kept
  · have mapped := @lookup_filter_map fields keep (fun _ value => value) key kept
    rwa [map_id', Option.map_id'] at mapped
  · have mapped := @lookup_filter_map_none fields keep (fun _ value => value) key (by simpa using kept)
    rwa [map_id'] at mapped

theorem get_gate {body : Json} {route : ModelRoute} : (applyDialectFieldGate body route).get key =
    if key ∉ responsesDialectOnlyFields ∨ key.toList ∈ route.passthroughFieldList then body.get key else none := by
  cases body with
  | obj fields =>
    have read := @lookup_filter fields key fun key =>
      decide (key ∉ responsesDialectOnlyFields) || decide (key.toList ∈ route.passthroughFieldList)
    refine read.trans ?_
    simp only [Bool.or_eq_true, decide_eq_true_eq]
    rfl
  | _ => exact (ite_self none).symm

theorem get_setField_ne {key other : String} {value : Json} (different : other ≠ key) (json : Json) :
    (setField key value json).get other = json.get other := by
  cases json with
  | obj fields => exact lookup_insertField_ne different
  | _ => rfl

end Lookup

def ModelRoute.effortMode (route : ModelRoute) : Str := trim (route.reasoningEffortMode.getD [])

namespace Outbound

variable {ctx : Outbound} {key : String} {rest : List String} {v : Json}

section Reasoning

def effortLevels (ctx : Outbound) : Option (List Str) :=
  if ctx.route.effortMode = "zen".toList then zenEffortLevelsFor ctx.zenEffortTable (some ctx.gatingModel) else none

def EffortKept (ctx : Outbound) (effort : Str) : Prop :=
  effortIsOff effort = false ∧ (ctx.route.effortMode = [] ∨ ctx.route.effortMode = "passthrough".toList ∨
    ctx.route.effortMode ≠ "openrouter".toList ∧
      clampReasoningEffortFor effort ctx.route.effortMode ctx.effortLevels = some effort)

instance (ctx : Outbound) (effort : Str) : Decidable (ctx.EffortKept effort) := inferInstanceAs (Decidable (_ ∧ _))

def outcomeOf (ctx : Outbound) (effort : Str) : EffortOutcome :=
  effortOutcome ctx.zenEffortTable (ctx.route.reasoningEffortMode.getD []) (some ctx.gatingModel) effort

def effortFields (ctx : Outbound) (fields : Fields) : Fields :=
  match (fields.lookup "reasoning_effort").bind asStr with
  | none => fields
  | some effort => (ctx.outcomeOf effort).rewrite fields

variable {fields : Fields} {effort : Str}

theorem lookup_of_effort (given : (fields.lookup "reasoning_effort").bind asStr = some effort) :
    fields.lookup "reasoning_effort" = some (.str effort) := by
  obtain ⟨value, found, text⟩ := Option.bind_eq_some_iff.mp given
  cases value with
  | str other =>
    cases text
    exact found
  | _ => cases text

theorem applyEffortMode_eq : ctx.applyEffortMode (.obj fields) = .obj (ctx.effortFields fields) := by
  unfold applyEffortMode effortFields
  cases given : (fields.lookup "reasoning_effort").bind asStr with
  | none => exact applyEffort_absent given
  | some effort => exact applyEffort_eq given

theorem lookup_effortFields (effort : key ≠ "reasoning_effort") (wrapper : key ≠ "reasoning") :
    (ctx.effortFields fields).lookup key = fields.lookup key := by
  unfold effortFields
  split
  · rfl
  · exact EffortOutcome.lookup_other _ effort wrapper

def effortLeft (effort : Str) : EffortOutcome → Option Str
  | .kept => some effort
  | .clamped other => some other
  | _ => none

theorem effortLeft_eq : effortLeft effort (ctx.outcomeOf effort) =
    if effortIsOff effort then none
    else if ctx.route.effortMode = [] ∨ ctx.route.effortMode = "passthrough".toList then some effort
    else if ctx.route.effortMode = "openrouter".toList then none
    else clampReasoningEffortFor effort ctx.route.effortMode ctx.effortLevels := by
  have idle_iff : (ctx.route.effortMode.isEmpty || ctx.route.effortMode = "passthrough".toList) ↔
      ctx.route.effortMode = [] ∨ ctx.route.effortMode = "passthrough".toList := by
    rw [Bool.or_eq_true, List.isEmpty_iff, decide_eq_true_eq]
  have levels : (if ctx.route.effortMode = "zen".toList then
      zenEffortLevelsFor ctx.zenEffortTable (some ctx.gatingModel) else none) = ctx.effortLevels := rfl
  unfold outcomeOf effortOutcome
  rw [← ModelRoute.effortMode]
  dsimp only
  rw [levels]
  generalize clampReasoningEffortFor effort ctx.route.effortMode ctx.effortLevels = result
  simp only [idle_iff]
  split_ifs with off router idle router
  · rfl
  · rfl
  · rfl
  · cases result <;> rfl
  · cases result <;> rfl

theorem effortKept_iff : ctx.EffortKept effort ↔ effortLeft effort (ctx.outcomeOf effort) = some effort := by
  rw [effortLeft_eq, EffortKept, ← or_assoc]
  split_ifs <;> simp_all

theorem lookup_effort_rewrite (given : fields.lookup "reasoning_effort" = some (.str effort))
    (outcome : EffortOutcome) :
    (outcome.rewrite fields).lookup "reasoning_effort" = (effortLeft effort outcome).map Json.str := by
  cases outcome with
  | kept => exact given
  | dropped => exact lookup_removeField_self
  | clamped other => exact lookup_insertField _ _ _
  | wrapped other => exact (lookup_insertField_ne (by decide)).trans lookup_removeField_self

theorem lookup_effort_effortFields : (ctx.effortFields fields).lookup "reasoning_effort" =
    match (fields.lookup "reasoning_effort").bind asStr with
    | none => fields.lookup "reasoning_effort"
    | some effort => (effortLeft effort (ctx.outcomeOf effort)).map Json.str := by
  unfold effortFields
  cases given : (fields.lookup "reasoning_effort").bind asStr with
  | none => rfl
  | some effort => exact lookup_effort_rewrite (lookup_of_effort given) _

def wrappedEffort : EffortOutcome → Option Str
  | .wrapped effort => some effort
  | _ => none

theorem lookup_wrapper_effortFields : (ctx.effortFields fields).lookup "reasoning" =
    match ((fields.lookup "reasoning_effort").bind asStr).bind fun effort =>
      wrappedEffort (ctx.outcomeOf effort) with
    | none => fields.lookup "reasoning"
    | some effort => some (effortObject effort) := by
  unfold effortFields
  cases given : (fields.lookup "reasoning_effort").bind asStr with
  | none => rfl
  | some effort =>
    rw [Option.bind_some]
    dsimp only
    cases ctx.outcomeOf effort with
    | kept => rfl
    | dropped => exact lookup_removeField (by decide) fields
    | clamped other => exact lookup_insertField_ne (by decide)
    | wrapped other => exact lookup_insertField _ _ _

theorem get_applyReasoningConfig : (ctx.applyReasoningConfig (.obj fields)).get key =
    if key ∈ thinkingFields then (switchesOf (ctx.effortFields fields) ctx.route.thinkingForm).lookup key
    else (ctx.effortFields fields).lookup key := by
  rw [applyReasoningConfig, applyEffortMode_eq, applyThinkingForm_eq]
  exact lookup_thinkingForm key

def asksReasoning (ctx : Outbound) (effort : Option Str) (enabled : Option Bool) : Bool :=
  ((effort.bind fun effort => effortLeft effort (ctx.outcomeOf effort)).any fun effort => !effortIsOff effort) ||
    enabled.getD false

theorem reasoningIntent_eq : reasoningIntent (ctx.effortFields fields) =
    ctx.asksReasoning ((fields.lookup "reasoning_effort").bind asStr)
      ((fields.lookup "enable_thinking").bind asBool) := by
  unfold reasoningIntent asksReasoning
  rw [lookup_effort_effortFields, @lookup_effortFields _ "enable_thinking" _ (by decide) (by decide)]
  cases given : (fields.lookup "reasoning_effort").bind asStr with
  | none =>
    rw [given]
    rfl
  | some effort =>
    rw [Option.bind_some]
    dsimp only
    cases effortLeft effort (ctx.outcomeOf effort) <;> rfl

/-- The form of the route has the switch with this value at the end of the path. -/
def SwitchKept (form : Option Str) (key : String) (rest : List String) (v : Json) : Prop :=
  match String.ofList ((form.bind nonBlank).getD []) with
  | "thinking_param" => key = "thinking" ∧ rest = ["type"] ∧ v = .str "enabled".toList
  | "reasoning_split" => key = "reasoning_split" ∧ rest = [] ∧ v = .bool true
  | "enable_thinking" => key = "thinking_budget" ∨ key = "enable_thinking" ∧ rest = [] ∧ v = .bool true
  | _ => False

theorem dig_scalar {value : Json} (scalar : ∀ key, value.get key = none) :
    value.dig rest = some v ↔ rest = [] ∧ v = value := by
  cases rest with
  | nil =>
    rw [dig, Option.some.injEq]
    exact ⟨fun same => ⟨rfl, same.symm⟩, fun both => both.2.symm⟩
  | cons first more =>
    rw [dig, scalar]
    simp

theorem scalar_str {text : Str} : ∀ key, (Json.str text).get key = none := fun _ => rfl

theorem scalar_bool {truth : Bool} : ∀ key, (Json.bool truth).get key = none := fun _ => rfl

theorem scalar_arr {items : List Json} : ∀ key, (Json.arr items).get key = none := fun _ => rfl

theorem dig_single {name : String} {value : Json} (leaf : v.isObj = false) (scalar : ∀ key, value.get key = none) :
    (Json.obj [(name, value)]).dig rest = some v ↔ rest = [name] ∧ v = value := by
  cases rest with
  | nil =>
    refine iff_of_false (fun same => ?_) (by simp)
    cases same
    cases leaf
  | cons first more =>
    rw [dig]
    change ([(name, value)].lookup first).bind _ = some v ↔ _
    by_cases here : first = name
    · subst here
      simp [List.lookup, dig_scalar scalar]
    · have skip : (first == name) = false := by simp [here]
      simp [List.lookup, skip, here]

theorem switch_kept_iff {form : Option Str} {intent : Bool} {budget : Option Json} (leaf : v.isObj = false)
    (switch : key ∈ thinkingFields)
    (held : key = "thinking_budget" → ∃ value, budget = some value ∧ value.dig rest = some v) :
    ((formSwitches form intent budget).lookup key).bind (·.dig rest) = some v ↔
      intent ∧ SwitchKept form key rest v := by
  unfold formSwitches SwitchKept
  cases intent with
  | false => simp
  | true =>
    rw [if_pos rfl]
    generalize String.ofList ((form.bind nonBlank).getD []) = word
    split
    · by_cases here : key = "thinking"
      · subst here
        simp [List.lookup, dig_single leaf scalar_str]
      · have skip : (key == "thinking") = false := by simp [here]
        simp [List.lookup, skip, here]
    · by_cases here : key = "reasoning_split"
      · subst here
        simp [List.lookup, dig_scalar scalar_bool]
      · have skip : (key == "reasoning_split") = false := by simp [here]
        simp [List.lookup, skip, here]
    · by_cases here : key = "enable_thinking"
      · subst here
        simp [List.lookup, dig_scalar scalar_bool]
      · have skip : (key == "enable_thinking") = false := by simp [here]
        by_cases named : key = "thinking_budget"
        · obtain ⟨value, rfl, found⟩ := held named
          subst named
          simp [List.lookup, found]
        · have other : (key == "thinking_budget") = false := by simp [named]
          cases budget <;> simp [List.lookup, skip, here, named, other]
    · simp

theorem dig_effort_iff (found : (fields.lookup "reasoning_effort").bind (·.dig rest) = some v) :
    ((ctx.effortFields fields).lookup "reasoning_effort").bind (·.dig rest) = some v ↔
      ∀ effort, rest = [] → v = .str effort → ctx.EffortKept effort := by
  rw [lookup_effort_effortFields]
  cases given : (fields.lookup "reasoning_effort").bind asStr with
  | none =>
    refine iff_of_true found fun effort empty text => ?_
    subst empty text
    obtain ⟨value, here, same⟩ := Option.bind_eq_some_iff.mp found
    cases same
    rw [here] at given
    cases given
  | some effort =>
    rw [lookup_of_effort given, Option.bind_some] at found
    obtain ⟨rfl, rfl⟩ := (dig_scalar scalar_str).mp found
    dsimp only
    simp only [true_implies, Json.str.injEq, forall_eq', effortKept_iff]
    cases effortLeft effort (ctx.outcomeOf effort) <;> simp [dig]

theorem dig_wrapper_iff (leaf : v.isObj = false)
    (found : (fields.lookup "reasoning").bind (·.dig rest) = some v) :
    ((ctx.effortFields fields).lookup "reasoning").bind (·.dig rest) = some v ↔
      ∀ effort, (((fields.lookup "reasoning_effort").bind asStr).bind fun effort =>
        wrappedEffort (ctx.outcomeOf effort)) = some effort → rest = ["effort"] ∧ v = .str effort := by
  rw [lookup_wrapper_effortFields]
  cases ((fields.lookup "reasoning_effort").bind asStr).bind fun effort => wrappedEffort (ctx.outcomeOf effort) with
  | none => exact iff_of_true found fun effort none => nomatch none
  | some sent =>
    rw [Option.bind_some, effortObject, dig_single leaf scalar_str]
    constructor
    · intro both effort same
      cases same
      exact both
    · exact fun all => all sent rfl

theorem plain_switch {form : Option Str} {value : Json} (mem : (key, value) ∈ switchesOf fields form) :
    fields.lookup key = some value ∨ Plain value := by
  unfold switchesOf formSwitches at mem
  split at mem
  · split at mem
    · cases mem_singleton.mp mem
      exact .inr (.single (by decide) (.str _))
    · cases mem_singleton.mp mem
      exact .inr (.bool _)
    · rcases mem_cons.mp mem with first | later
      · cases first
        exact .inr (.bool _)
      · obtain ⟨budget, found, same⟩ := Option.map_eq_some_iff.mp (Option.mem_toList.mp later)
        cases same
        exact .inl found
    · cases mem
  · cases mem

def EffortStays (ctx : Outbound) (effort : Str) : Prop :=
  ctx.route.effortMode = [] ∨ ctx.route.effortMode = "passthrough".toList ∨
    (ctx.route.effortMode ≠ "openrouter".toList ∧ (zenEffortRank effort).isSome ∧
      (ctx.route.effortMode = "zen".toList →
        ∃ levels ∈ ctx.effortLevels, ∃ level ∈ levels, (zenEffortRank level).isSome))

theorem effortLeft_on (on : effortIsOff effort = false) :
    ((effortLeft effort (ctx.outcomeOf effort)).any fun effort => !effortIsOff effort) ↔
      ctx.EffortStays effort := by
  rw [effortLeft_eq, if_neg (by rw [on]; decide), EffortStays, ← or_assoc]
  split_ifs with idle router
  · exact iff_of_true (congrArg not on) (.inl idle)
  · rw [or_iff_right idle]
    exact iff_of_false Bool.false_ne_true fun stays => stays.1 router
  · rw [or_iff_right idle, and_iff_right router]
    exact clamp_on on router

theorem asksReasoning_eq_iff : reasoningIntent (ctx.effortFields fields) = reasoningIntent fields ↔
    (fields.lookup "enable_thinking").bind asBool = some true ∨
      ∀ effort, (fields.lookup "reasoning_effort").bind asStr = some effort → effortIsOff effort = false →
        ctx.EffortStays effort := by
  rw [reasoningIntent_eq, asksReasoning, reasoningIntent]
  generalize (fields.lookup "enable_thinking").bind asBool = enabled
  have switch : enabled.getD false ↔ enabled = some true := by
    rcases enabled with _ | _ | _ <;> decide
  rw [← switch]
  cases enabled.getD false with
  | true => simp
  | false =>
    cases (fields.lookup "reasoning_effort").bind asStr with
    | none => simp
    | some effort =>
      cases off : effortIsOff effort with
      | true =>
        have gone : effortLeft effort (ctx.outcomeOf effort) = none := effortLeft_eq.trans (if_pos off)
        simp [gone, off]
      | false => simpa [off] using effortLeft_on off

/-- The form follows what the client asks for just as long as the mode of the route leaves the effort in its field.
-/
theorem form_follows_intent_iff (ctx : Outbound) (body : Json) {field : String} {value : Json}
    (recognised : formSwitch ctx.route.thinkingForm = some (field, value)) :
    ((ctx.applyReasoningConfig body).get field = if reasoningIntent body.fields then some value else none) ↔
      (body.get "enable_thinking").bind asBool = some true ∨
        ∀ effort, (body.get "reasoning_effort").bind asStr = some effort → effortIsOff effort = false →
          ctx.EffortStays effort := by
  rw [get_eq_lookup body, get_eq_lookup body, ← asksReasoning_eq_iff]
  obtain ⟨switch, _⟩ := lookup_formSwitch recognised true none
  cases body with
  | obj fields =>
    rw [get_applyReasoningConfig, if_pos switch, switchesOf, (lookup_formSwitch recognised _ _).2]
    change (_ = if reasoningIntent fields then some value else none) ↔
      reasoningIntent (ctx.effortFields fields) = reasoningIntent fields
    cases reasoningIntent (ctx.effortFields fields) <;> cases reasoningIntent fields <;> simp
  | _ => exact iff_of_true rfl rfl

def routedBy (mode form : String) : Outbound :=
  ⟨[], .null, ⟨[], false, false⟩,
    ⟨none, .obj [], false, false, some mode.toList, some form.toList, none, isSorted_empty⟩,
    [], [], [], false, false, false, false, false, [], .new⟩

theorem clamped_form_follows_intent :
    ((routedBy "deepseek" "thinking_param").applyReasoningConfig
      (.obj [("reasoning_effort", .str "low".toList)])).get
      "thinking" = if reasoningIntent [("reasoning_effort", .str "low".toList)] then
        some (.obj [("type", .str "enabled".toList)]) else none := by
  refine (form_follows_intent_iff (routedBy "deepseek" "thinking_param") (.obj _) rfl).mpr
    (.inr fun effort given _ => .inr (.inr ⟨by decide, ?_, fun zen => absurd zen (by decide)⟩))
  cases given
  decide

/-- The effort has moved into the object of the router before the form looks for it. -/
theorem router_loses_form :
    ((routedBy "openrouter" "thinking_param").applyReasoningConfig
      (.obj [("reasoning_effort", .str "high".toList)])).get
      "thinking" = none ∧ reasoningIntent [("reasoning_effort", .str "high".toList)] := by
  decide +kernel

end Reasoning

end Outbound

end LlmGateway
