import LlmGateway.Lib.JsonFields
import LlmGateway.Lib.Table

/-- The lower case of a text. -/
class Lowercase where
  lower : Str → Str

/-- Only the letters of ASCII have a lower case. -/
@[reducible] def Lowercase.ascii : Lowercase := ⟨Text.toAsciiLowercase⟩

namespace LlmGateway

open Json Text

def bareModel (model : Str) : Str := (model.reverse.takeWhile (· != '/')).reverse

def isOpenaiOSeries (model : Str) : Bool :=
  match bareModel model with
  | 'o' :: c :: _ => c.isDigit
  | _ => false

def containsWord (text word : Str) : Bool := (cutAt word text).isSome

section Family

variable [Lowercase]

def isMiniMax (model : Str) : Bool :=
  let normalized := Lowercase.lower model
  containsWord normalized "minimax".toList || containsWord normalized "abab".toList

def supportsReasoningEffort (model : Str) : Bool :=
  let bare := bareModel (Lowercase.lower model)
  let newGpt :=
    match bare with
    | 'g' :: 'p' :: 't' :: '-' :: c :: _ => c.isDigit && '5' ≤ c
    | _ => false
  isOpenaiOSeries bare || newGpt || bare == "grok-4.5".toList || "grok-4.5-".toList.isPrefixOf bare ||
    "grok-build-".toList.isPrefixOf bare

end Family

def plainWord (text : Str) : String := String.ofList (toAsciiLowercase (trim text))

def effortIsOff (effort : Str) : Bool :=
  let word := plainWord effort
  word == "none" || word == "off" || word == "disabled"

def zenEffortRank (effort : Str) : Option Nat :=
  match plainWord effort with
  | "minimal" => some 0
  | "low" => some 1
  | "medium" => some 2
  | "high" => some 3
  | "xhigh" => some 4
  | "max" => some 5
  | "ultra" => some 6
  | _ => none

def minByKey {α : Type*} (rank : α → Nat) : List α → Option α
  | [] => none
  | a :: rest =>
    match minByKey rank rest with
    | none => some a
    | some b => if rank a ≤ rank b then some a else some b

def zenLevel (levels : List Str) (requested : Nat) : Option Str :=
  let ranked := levels.filterMap fun level => (zenEffortRank level).map fun rank => (rank, level)
  ((minByKey Prod.fst (ranked.filter fun entry => requested ≤ entry.1)).or (Table.maxByKey Prod.fst ranked)).map
    Prod.snd

def clampReasoningEffortFor (effort : Str) (mode : Str) (levels : Option (List Str)) : Option Str :=
  let word := plainWord effort
  if effortIsOff effort then none
  else
    match String.ofList mode with
    | "deepseek" =>
      if word ∈ ["max", "xhigh", "ultra"] then some "max".toList
      else if word ∈ ["minimal", "low", "medium", "high"] then some "high".toList
      else none
    | "low_high" =>
      if word ∈ ["minimal", "low"] then some "low".toList
      else if word ∈ ["medium", "high", "xhigh", "max", "ultra"] then some "high".toList
      else none
    | "openrouter" =>
      if word ∈ ["max", "xhigh", "ultra"] then some "xhigh".toList
      else if word ∈ ["high", "medium", "low", "minimal"] then some word.toList
      else none
    | "zen" => do
      let levels ← levels
      let requested ← zenEffortRank word.toList
      zenLevel levels requested
    | _ => if word ∈ ["minimal", "low", "medium", "high", "xhigh", "max", "ultra"] then some word.toList else none

/-- The levels of the models whose names start with a pattern. -/
def parseZenEffortTable (text : Str) : List (Str × List Str) :=
  ((text.splitOn ';').filter fun entry => !(trim entry).isEmpty).filterMap fun entry =>
    match cutAt ['='] entry with
    | none => none
    | some (pattern, given) =>
      let levels := ((given.splitOn ',').map trim).filter fun level => !level.isEmpty
      if levels.isEmpty then none else some (toAsciiLowercase (trim pattern), levels)

def zenEffortLevelsFor (table : Str) (model : Option Str) : Option (List Str) :=
  model.bind fun model =>
    (Table.maxByKey (fun entry => utf8Len entry.1) ((parseZenEffortTable table).filter fun entry =>
      entry.1.isPrefixOf (toAsciiLowercase model))).map Prod.snd

def effortObject (effort : Str) : Json := .obj [("effort", .str effort)]

/-- The effort of a request in the form the route asks for. -/
def applyReasoningEffortModeForModel (table : Str) (body : Json) (mode : Str) (gatingModel : Option Str) : Json :=
  let mode := trim mode
  match body with
  | .obj fields =>
    match (fields.lookup "reasoning_effort").bind asStr with
    | none => body
    | some effort =>
      let without := removeField "reasoning_effort" fields
      if effortIsOff effort then
        if mode = "openrouter".toList then .obj (insertField "reasoning" (effortObject "none".toList) without)
        else .obj without
      else if mode.isEmpty || mode = "passthrough".toList then body
      else
        let levels := if mode = "zen".toList then zenEffortLevelsFor table gatingModel else none
        match clampReasoningEffortFor effort mode levels with
        | none => .obj without
        | some clamped =>
          if mode = "openrouter".toList then .obj (insertField "reasoning" (effortObject clamped) without)
          else .obj (insertField "reasoning_effort" (.str clamped) fields)
  | _ => body

def thinkingFields : List String := ["thinking", "enable_thinking", "thinking_budget", "reasoning_split"]

/-- The switch for reasoning in the form the route asks for. All others are taken away. -/
def applyThinkingForm (body : Json) (form : Option Str) : Json :=
  match body with
  | .obj fields =>
    let clientThinkingEnabled := ((fields.lookup "enable_thinking").bind asBool).getD false
    let clientBudget := fields.lookup "thinking_budget"
    let effortIntent := ((fields.lookup "reasoning_effort").bind asStr).any fun effort => !effortIsOff effort
    let plain := thinkingFields.foldl (fun fields key => removeField key fields) fields
    match form.bind nonBlank with
    | none => .obj plain
    | some form =>
      if effortIntent || clientThinkingEnabled then
        match String.ofList form with
        | "thinking_param" => .obj (insertField "thinking" (.obj [("type", .str "enabled".toList)]) plain)
        | "reasoning_split" => .obj (insertField "reasoning_split" (.bool true) plain)
        | "enable_thinking" =>
          let enabled := insertField "enable_thinking" (.bool true) plain
          match clientBudget with
          | some budget => .obj (insertField "thinking_budget" budget enabled)
          | none => .obj enabled
        | _ => .obj plain
      else .obj plain
  | _ => body

section Effort

/-- What becomes of the effort that a request asks for. -/
inductive EffortOutcome
  | kept
  | dropped
  | clamped (effort : Str)
  | wrapped (effort : Str)

def EffortOutcome.rewrite (fields : Fields) : EffortOutcome → Fields
  | kept => fields
  | dropped => removeField "reasoning_effort" fields
  | clamped effort => insertField "reasoning_effort" (.str effort) fields
  | wrapped effort => insertField "reasoning" (effortObject effort) (removeField "reasoning_effort" fields)

def effortOutcome (table mode : Str) (gatingModel : Option Str) (effort : Str) : EffortOutcome :=
  let mode := trim mode
  if effortIsOff effort then if mode = "openrouter".toList then .wrapped "none".toList else .dropped
  else if mode.isEmpty || mode = "passthrough".toList then .kept
  else
    match clampReasoningEffortFor effort mode (if mode = "zen".toList then zenEffortLevelsFor table gatingModel
      else none) with
    | none => .dropped
    | some effort => if mode = "openrouter".toList then .wrapped effort else .clamped effort

variable {table mode effort : Str} {gatingModel : Option Str} {fields : Fields}

theorem applyEffort_eq (given : (fields.lookup "reasoning_effort").bind asStr = some effort) :
    applyReasoningEffortModeForModel table (.obj fields) mode gatingModel =
      .obj ((effortOutcome table mode gatingModel effort).rewrite fields) := by
  simp only [applyReasoningEffortModeForModel, effortOutcome, given]
  by_cases off : effortIsOff effort
  · rw [if_pos off, if_pos off]
    by_cases router : trim mode = "openrouter".toList
    · rw [if_pos router, if_pos router]
      rfl
    · rw [if_neg router, if_neg router]
      rfl
  · rw [if_neg off, if_neg off]
    by_cases idle : ((trim mode).isEmpty || trim mode = "passthrough".toList)
    · rw [if_pos idle, if_pos idle]
      rfl
    · rw [if_neg idle, if_neg idle]
      cases clampReasoningEffortFor effort (trim mode)
          (if trim mode = "zen".toList then zenEffortLevelsFor table gatingModel else none) with
      | none => rfl
      | some clamped =>
        by_cases router : trim mode = "openrouter".toList
        · simp only [if_pos router]
          rfl
        · simp only [if_neg router]
          rfl

theorem applyEffort_absent (missing : (fields.lookup "reasoning_effort").bind asStr = none) :
    applyReasoningEffortModeForModel table (.obj fields) mode gatingModel = .obj fields := by
  simp [applyReasoningEffortModeForModel, missing]

theorem removeField_sorted {key : String} (sorted : fields.Pairwise fun left right => left.1 < right.1) :
    (removeField key fields).Pairwise fun left right => left.1 < right.1 := sorted.filter _

theorem EffortOutcome.lookup_other (outcome : EffortOutcome) {key : String} (effort : key ≠ "reasoning_effort")
    (wrapper : key ≠ "reasoning") : (outcome.rewrite fields).lookup key = fields.lookup key := by
  cases outcome with
  | kept => rfl
  | dropped => exact lookup_removeField effort fields
  | clamped _ => exact lookup_insertField_ne effort
  | wrapped _ => exact (lookup_insertField_ne wrapper).trans (lookup_removeField effort fields)

end Effort

section Thinking

variable {fields : Fields} {form : Option Str}

def reasoningIntent (fields : Fields) : Bool :=
  (((fields.lookup "reasoning_effort").bind asStr).any fun effort => !effortIsOff effort) ||
    ((fields.lookup "enable_thinking").bind asBool).getD false

/-- The switches of a form. -/
def formSwitches (form : Option Str) (intent : Bool) (budget : Option Json) : Fields :=
  if intent then
    match String.ofList ((form.bind nonBlank).getD []) with
    | "thinking_param" => [("thinking", .obj [("type", .str "enabled".toList)])]
    | "reasoning_split" => [("reasoning_split", .bool true)]
    | "enable_thinking" => ("enable_thinking", .bool true) :: (budget.map ("thinking_budget", ·)).toList
    | _ => []
  else []

def switchesOf (fields : Fields) (form : Option Str) : Fields :=
  formSwitches form (reasoningIntent fields) (fields.lookup "thinking_budget")

def withoutSwitches (fields : Fields) : Fields :=
  thinkingFields.foldl (fun fields key => removeField key fields) fields

theorem applyThinkingForm_eq : applyThinkingForm (.obj fields) form =
    .obj ((switchesOf fields form).foldl (fun fields field => insertField field.1 field.2 fields)
      (withoutSwitches fields)) := by
  unfold applyThinkingForm switchesOf formSwitches
  by_cases intent : reasoningIntent fields
  · rw [if_pos intent]
    unfold reasoningIntent at intent
    cases form.bind nonBlank with
    | none => rfl
    | some form =>
      simp only [intent, if_true, Option.getD_some]
      split
      · rfl
      · rfl
      · cases fields.lookup "thinking_budget" <;> rfl
      · rfl
  · rw [if_neg intent]
    unfold reasoningIntent at intent
    cases form.bind nonBlank with
    | none => rfl
    | some form =>
      simp only [intent]
      rfl

theorem lookup_withoutSwitches (key : String) :
    (withoutSwitches fields).lookup key = if key ∈ thinkingFields then none else fields.lookup key := by
  have fold : ∀ (keys : List String) (fields : Fields),
      (keys.foldl (fun fields key => removeField key fields) fields).lookup key =
        if key ∈ keys then none else fields.lookup key := by
    intro keys
    induction keys with
    | nil => exact fun fields => rfl
    | cons first rest ih =>
      intro fields
      rw [List.foldl_cons, ih]
      by_cases here : key = first
      · rw [here, lookup_removeField_self, if_pos List.mem_cons_self]
        split <;> rfl
      · rw [lookup_removeField here]
        simp [here]
  exact fold thinkingFields fields

theorem lookup_foldl_insertField (switches : Fields) (distinct : (switches.map Prod.fst).Nodup)
    (fields : Fields) (key : String) :
    (switches.foldl (fun fields field => insertField field.1 field.2 fields) fields).lookup key =
      (switches.lookup key).or (fields.lookup key) := by
  induction switches generalizing fields with
  | nil => rfl
  | cons switch rest ih =>
    obtain ⟨fresh, others⟩ := List.nodup_cons.mp distinct
    rw [List.foldl_cons, ih others]
    by_cases here : key = switch.1
    · have absent : rest.lookup key = none := by
        refine List.lookup_eq_none_iff.mpr fun field mem => ?_
        have other : key ≠ field.1 := by
          rintro rfl
          exact fresh (List.mem_map.mpr ⟨field, mem, here⟩)
        simp [other]
      rw [absent, here, lookup_insertField]
      simp [List.lookup]
    · have skip : (key == switch.1) = false := by simp [here]
      rw [lookup_insertField_ne here]
      simp [List.lookup, skip]

theorem switchesOf_keys (fields : Fields) (form : Option Str) :
    ((switchesOf fields form).map Prod.fst).Nodup ∧ ∀ field ∈ switchesOf fields form, field.1 ∈ thinkingFields := by
  unfold switchesOf formSwitches
  split
  · split
    · simp [thinkingFields]
    · simp [thinkingFields]
    · cases fields.lookup "thinking_budget" <;> simp [thinkingFields]
    · simp
  · simp

theorem lookup_thinkingForm (key : String) :
    ((switchesOf fields form).foldl (fun fields field => insertField field.1 field.2 fields)
      (withoutSwitches fields)).lookup key =
        if key ∈ thinkingFields then (switchesOf fields form).lookup key else fields.lookup key := by
  obtain ⟨distinct, known⟩ := switchesOf_keys fields form
  rw [lookup_foldl_insertField _ distinct, lookup_withoutSwitches]
  by_cases switch : key ∈ thinkingFields
  · rw [if_pos switch, if_pos switch, Option.or_none]
  · have absent : (switchesOf fields form).lookup key = none := by
      refine List.lookup_eq_none_iff.mpr fun field mem => ?_
      have other : key ≠ field.1 := by
        rintro rfl
        exact switch (known field mem)
      simp [other]
    rw [if_neg switch, if_neg switch, absent, Option.none_or]

theorem thinkingForm_sorted (sorted : fields.Pairwise fun left right => left.1 < right.1) :
    ((switchesOf fields form).foldl (fun fields field => insertField field.1 field.2 fields)
      (withoutSwitches fields)).Pairwise fun left right => left.1 < right.1 := by
  have inserted : ∀ (switches fields : Fields), (fields.Pairwise fun left right => left.1 < right.1) →
      (switches.foldl (fun fields field => insertField field.1 field.2 fields) fields).Pairwise
        fun left right => left.1 < right.1 := by
    intro switches
    induction switches with
    | nil => exact fun fields held => held
    | cons switch rest ih => exact fun fields held => ih _ (insertField_sorted held)
  refine inserted _ _ ?_
  exact removeField_sorted (removeField_sorted (removeField_sorted (removeField_sorted sorted)))

end Thinking

section Levels

variable {text effort mode : Str} {levels : List Str} {requested : Nat}

theorem plainWord_plainWord : plainWord (plainWord text).toList = plainWord text := by
  have lower (text : Str) : toAsciiLowercase (toAsciiLowercase text) = toAsciiLowercase text := by
    simp [toAsciiLowercase, asciiLower_asciiLower]
  rw [plainWord, plainWord, String.toList_ofList, trim_toAsciiLowercase, trim_trim, lower]

theorem ranked_iff : (zenEffortRank effort).isSome ↔
    plainWord effort ∈ ["minimal", "low", "medium", "high", "xhigh", "max", "ultra"] := by
  unfold zenEffortRank
  split <;> simp_all

theorem ranked_on (ranked : (zenEffortRank effort).isSome) : effortIsOff effort = false := by
  have known := ranked_iff.mp ranked
  unfold effortIsOff
  generalize plainWord effort = word at known ⊢
  revert word
  decide

theorem minByKey_mem {α : Type*} {rank : α → Nat} {rows : List α} {row : α}
    (found : minByKey rank rows = some row) :
    row ∈ rows := by
  induction rows with
  | nil => cases found
  | cons a rest ih =>
    rw [minByKey] at found
    cases least : minByKey rank rest with
    | none => simp_all
    | some b =>
      simp only [least] at found
      split_ifs at found with le
      · cases found
        exact List.mem_cons_self
      · exact List.mem_cons_of_mem _ (ih (least.trans found))

/-- The effort of a table is one of its levels, so it is not an off value. -/
theorem zenLevel_on : ((zenLevel levels requested).any fun effort => !effortIsOff effort) ↔
    ∃ level ∈ levels, (zenEffortRank level).isSome := by
  unfold zenLevel
  dsimp only
  set ranked := levels.filterMap fun level => (zenEffortRank level).map fun rank => (rank, level) with entries
  cases best : (minByKey Prod.fst (ranked.filter fun entry => requested ≤ entry.1)).or
      (Table.maxByKey Prod.fst ranked) with
  | none =>
    have empty : ranked = [] := Table.maxByKey_eq_none_iff.mp (Option.or_eq_none_iff.mp best).2
    rw [entries, List.filterMap_eq_nil_iff] at empty
    simpa using empty
  | some entry =>
    have mem : entry ∈ ranked := by
      rcases Option.or_eq_some_iff.mp best with least | ⟨_, most⟩
      · exact List.mem_of_mem_filter (minByKey_mem least)
      · exact (Table.maxByKey_eq_some most).1
    clear best
    obtain ⟨level, place, found⟩ := List.mem_filterMap.mp mem
    obtain ⟨rank, rank_eq, rfl⟩ := Option.map_eq_some_iff.mp found
    have ranked : (zenEffortRank level).isSome := Option.isSome_of_eq_some rank_eq
    exact iff_of_true (congrArg not (ranked_on ranked)) ⟨level, place, ranked⟩

theorem clamp_on (on : effortIsOff effort = false) (router : mode ≠ "openrouter".toList)
    {table : Option (List Str)} :
    ((clampReasoningEffortFor effort mode table).any fun effort => !effortIsOff effort) ↔
      (zenEffortRank effort).isSome ∧
        (mode = "zen".toList → ∃ levels ∈ table, ∃ level ∈ levels, (zenEffortRank level).isSome) := by
  have same : zenEffortRank (plainWord effort).toList = zenEffortRank effort := by
    rw [zenEffortRank, zenEffortRank, plainWord_plainWord]
  have named {name : String} (is : String.ofList mode = name) :
      mode = name.toList := by rw [← is, String.toList_ofList]
  rw [clampReasoningEffortFor, if_neg (by simp [on])]
  by_cases zen : mode = "zen".toList
  · subst zen
    cases table with
    | none => simp
    | some levels =>
      cases rank : zenEffortRank effort with
      | none => simp [same, rank]
      | some requested => simpa [same, rank] using zenLevel_on
  · simp only [zen, false_implies, and_true]
    rw [ranked_iff]
    generalize plainWord effort = word
    by_cases known : word ∈ ["minimal", "low", "medium", "high", "xhigh", "max", "ultra"]
    · refine iff_of_true ?_ known
      split
      · revert word
        decide +kernel
      · revert word
        decide +kernel
      · exact absurd (named ‹_›) router
      · exact absurd (named ‹_›) zen
      · revert word
        decide +kernel
    · refine iff_of_false ?_ known
      split
      · simp_all
      · simp_all
      · exact absurd (named ‹_›) router
      · exact absurd (named ‹_›) zen
      · rw [if_neg known]
        exact Bool.false_ne_true

end Levels

def formSwitch (form : Option Str) : Option (String × Json) :=
  match String.ofList ((form.bind nonBlank).getD []) with
  | "thinking_param" => some ("thinking", .obj [("type", .str "enabled".toList)])
  | "reasoning_split" => some ("reasoning_split", .bool true)
  | "enable_thinking" => some ("enable_thinking", .bool true)
  | _ => none

theorem lookup_formSwitch {form : Option Str} {field : String} {value : Json}
    (recognised : formSwitch form = some (field, value)) (intent : Bool) (budget : Option Json) :
    field ∈ thinkingFields ∧ (formSwitches form intent budget).lookup field = if intent then some value
      else none := by
  unfold formSwitch at recognised
  unfold formSwitches
  cases intent with
  | false | true =>
    split at recognised <;> cases recognised
    all_goals exact ⟨by decide, rfl⟩

end LlmGateway
