import LlmGateway.Stream.Converters
import LlmGateway.Stream.UsageFrames

namespace LlmGateway

open Option ChatUsage

def IsCount (field : Option Json) : Prop :=
  ∀ value, field = some value → ∃ n : Nat, n ≤ 9223372036854775807 ∧ value = .num (.int n)

def countNames : List String :=
  ["prompt_tokens", "completion_tokens", "input_tokens", "output_tokens", "cache_read_tokens",
    "cache_read_input_tokens",
    "cache_write_tokens", "cache_creation_input_tokens", "cache_write_input_tokens", "deepseek_cache_hit",
    "prompt_cache_hit_tokens"]

def IsDetails (field : Option Json) : Prop :=
  ∀ value, field = some value → (∃ fields, value = .obj fields) ∧ IsCount (value.get "cached_tokens") ∧
    IsCount (value.get "cache_write_tokens")

/-- A usage object whose numbers are non-negative integers. -/
structure PlainUsage (usage : Json) : Prop where
  isObject : ∃ fields, usage = .obj fields
  counts : ∀ name ∈ countNames, IsCount (usage.get name)
  details : ∀ name ∈ ["prompt_tokens_details", "input_tokens_details"], IsDetails (usage.get name)

def isCountValue : Json → Bool
  | .num (.int n) => 0 ≤ n && n ≤ 9223372036854775807
  | _ => false

theorem isCount_iff {field : Option Json} : field.all isCountValue ↔ IsCount field := by
  constructor
  · rintro counted value rfl
    match value with
    | .num (.int n) =>
      simp only [all_some, isCountValue, Bool.and_eq_true, decide_eq_true_eq] at counted
      exact ⟨n.toNat, by omega, by rw [Int.toNat_of_nonneg counted.1]⟩
  · intro counted
    cases field with
    | none => rfl
    | some value =>
      obtain ⟨n, small, rfl⟩ := counted value rfl
      simp only [all_some, isCountValue, Bool.and_eq_true, decide_eq_true_eq]
      omega

instance {field : Option Json} : Decidable (IsCount field) := decidable_of_iff _ isCount_iff

def isDetailsValue (value : Json) : Bool :=
  isObject value && decide (IsCount (value.get "cached_tokens")) &&
    decide (IsCount (value.get "cache_write_tokens"))

theorem isObject_iff {value : Json} : isObject value ↔ ∃ fields, value = .obj fields := by
  cases value <;> simp [isObject]

theorem isDetails_iff {field : Option Json} : field.all isDetailsValue ↔ IsDetails field := by
  cases field with
  | none => simp [IsDetails]
  | some value =>
    simp only [all_some, isDetailsValue, Bool.and_eq_true, decide_eq_true_eq, isObject_iff, and_assoc]
    exact ⟨fun known other same => Option.some.inj same ▸ known, fun known => known value rfl⟩

instance {field : Option Json} : Decidable (IsDetails field) := decidable_of_iff _ isDetails_iff

instance {usage : Json} : Decidable (PlainUsage usage) :=
  decidable_of_iff (isObject usage ∧ (∀ name ∈ countNames, IsCount (usage.get name)) ∧
      ∀ name ∈ ["prompt_tokens_details", "input_tokens_details"], IsDetails (usage.get name))
    ⟨fun ⟨object, counts, details⟩ => ⟨isObject_iff.mp object, counts, details⟩,
      fun plain => ⟨isObject_iff.mpr plain.isObject, plain.counts, plain.details⟩⟩

/-- The counts of a usage object, under every name that one of the normalisers knows. -/
structure UsageCounts where
  promptTokens : Option I64
  completionTokens : Option I64
  inputTokens : Option I64
  outputTokens : Option I64
  cacheReadTokens : Option I64
  cacheReadInputTokens : Option I64
  cacheWriteTokens : Option I64
  cacheCreationInputTokens : Option I64
  cacheWriteInputTokens : Option I64
  deepseekCacheHit : Option I64
  promptCacheHitTokens : Option I64
  promptCached : Option I64
  promptCacheWrite : Option I64
  inputCached : Option I64
  inputCacheWrite : Option I64

def i64Of (usage : Json) (name : String) : Option I64 := (usage.get name).bind Json.asI64

namespace UsageCounts

def ofJson (usage : Json) : UsageCounts where
  promptTokens := i64Of usage "prompt_tokens"
  completionTokens := i64Of usage "completion_tokens"
  inputTokens := i64Of usage "input_tokens"
  outputTokens := i64Of usage "output_tokens"
  cacheReadTokens := i64Of usage "cache_read_tokens"
  cacheReadInputTokens := i64Of usage "cache_read_input_tokens"
  cacheWriteTokens := i64Of usage "cache_write_tokens"
  cacheCreationInputTokens := i64Of usage "cache_creation_input_tokens"
  cacheWriteInputTokens := i64Of usage "cache_write_input_tokens"
  deepseekCacheHit := i64Of usage "deepseek_cache_hit"
  promptCacheHitTokens := i64Of usage "prompt_cache_hit_tokens"
  promptCached := detailsI64 (usage.get "prompt_tokens_details") "cached_tokens"
  promptCacheWrite := detailsI64 (usage.get "prompt_tokens_details") "cache_write_tokens"
  inputCached := detailsI64 (usage.get "input_tokens_details") "cached_tokens"
  inputCacheWrite := detailsI64 (usage.get "input_tokens_details") "cache_write_tokens"

/-- Two names of one bucket at once, which the store takes for a duplicate field. -/
def conflicts (counts : UsageCounts) : Bool :=
  (counts.cacheReadTokens.isSome && counts.cacheReadInputTokens.isSome) ||
    (counts.cacheWriteTokens.isSome && counts.cacheCreationInputTokens.isSome ||
      counts.cacheWriteTokens.isSome && counts.cacheWriteInputTokens.isSome ||
      counts.cacheCreationInputTokens.isSome && counts.cacheWriteInputTokens.isSome) ||
    (counts.deepseekCacheHit.isSome && counts.promptCacheHitTokens.isSome)

def cachedElsewhere (counts : UsageCounts) : Option I64 :=
  counts.inputCached.or (counts.promptCached.or counts.promptCacheHitTokens)

def writtenElsewhere (counts : UsageCounts) : Option I64 := counts.inputCacheWrite.or counts.promptCacheWrite

/-- An object that the store refuses has no tokens for the conversion path either. -/
structure Empty (counts : UsageCounts) : Prop where
  input : (counts.promptTokens.or counts.inputTokens).getD 0 = 0
  output : (counts.completionTokens.or counts.outputTokens).getD 0 = 0
  cacheRead : (counts.cacheReadInputTokens.or counts.cachedElsewhere).getD 0 = 0
  cacheWrite : (counts.cacheCreationInputTokens.or counts.writtenElsewhere).getD 0 = 0

/-- The names that only one normaliser knows say what the other finds, and the order does not matter. -/
structure Alike (counts : UsageCounts) : Prop where
  ownRead : counts.cacheReadInputTokens = none → ∀ n, counts.cacheReadTokens = some n →
    n = counts.cachedElsewhere.getD 0
  details : counts.cacheReadInputTokens = none → counts.cacheReadTokens = none →
    ∀ m n, counts.promptCached = some m → counts.inputCached = some n → m = n
  ownHit : counts.cacheReadInputTokens = none → counts.cacheReadTokens = none → counts.promptCached = none →
    counts.inputCached = none → ∀ n, counts.deepseekCacheHit = some n → n = 0
  write : counts.cacheCreationInputTokens = none →
    (counts.cacheWriteTokens.or counts.cacheWriteInputTokens).getD 0 = counts.writtenElsewhere.getD 0

end UsageCounts

def billedTokens : Option Usage → I64 × I64 × I64 × I64
  | none => (0, 0, 0, 0)
  | some usage => (usage.input, usage.output, usage.cacheReadTokens.getD 0, usage.cacheWriteTokens.getD 0)

section Plain

variable {field : Option Json} {usage : Json} {name : String} {names : List String}

theorem IsCount.asI64 (isCount : IsCount field) {value : Json} (found : field = some value) :
    ∃ n : I64, value = .num (.int n.val) ∧ value.asI64 = some n := by
  obtain ⟨n, small, rfl⟩ := isCount value found
  refine ⟨⟨n, by omega, by omega⟩, rfl, ?_⟩
  rw [Json.asI64, JsonNumber.asI64, dif_pos (by omega)]

theorem I64.clamp_val (n : I64) : I64.clamp n.val = n := by
  have lower := n.lower
  have upper := n.upper
  ext
  simp only [I64.clamp]
  omega

theorem IsCount.lenientI64 [FloatCast] (isCount : IsCount field) :
    field.bind lenientI64 = field.bind Json.asI64 := by
  cases found : field with
  | none => rfl
  | some value =>
    obtain ⟨n, rfl, read⟩ := isCount.asI64 found
    rw [bind_some, bind_some, read, LlmGateway.lenientI64, I64.clamp_val]

theorem filterMap_get (plain : ∀ name ∈ names, IsCount (usage.get name)) :
    names.filterMap usage.get = (names.filterMap (i64Of usage)).map fun n => .num (.int n.val) := by
  induction names with
  | nil => rfl
  | cons name names ih =>
    have later := ih fun other mem => plain other (List.mem_cons_of_mem _ mem)
    cases found : usage.get name with
    | none => rw [List.filterMap_cons_none found, List.filterMap_cons_none (by rw [i64Of, found]; rfl), later]
    | some value =>
      obtain ⟨n, rfl, read⟩ := (plain name List.mem_cons_self).asI64 found
      rw [List.filterMap_cons_some found, List.filterMap_cons_some (by rw [i64Of, found]; exact read), later,
        List.map_cons]

theorem wireField_plain (plain : ∀ name ∈ names, IsCount (usage.get name)) : wireField usage names =
    match names.filterMap (i64Of usage) with
    | [] => some none
    | [n] => some (some n)
    | _ => none := by
  rw [wireField, filterMap_get plain]
  rcases names.filterMap (i64Of usage) with _ | ⟨n, _ | ⟨m, rest⟩⟩
  · rfl
  · have read : (Json.num (.int n.val)).asI64 = some n := by
      rw [Json.asI64, JsonNumber.asI64, dif_pos ⟨n.lower, n.upper⟩]
    rw [List.map_cons, List.map_nil]
    dsimp only
    rw [wireCount, read, map_some]
    simp
  · rfl

theorem wireField_one (plain : IsCount (usage.get name)) : wireField usage [name] = some (i64Of usage name) := by
  rw [wireField_plain (by simpa using plain)]
  cases found : i64Of usage name with
  | none => rw [List.filterMap_cons_none found]; rfl
  | some n => rw [List.filterMap_cons_some found]; rfl

theorem wireField_two {first second : String} (plain : ∀ name ∈ [first, second], IsCount (usage.get name)) :
    wireField usage [first, second] = if (i64Of usage first).isSome && (i64Of usage second).isSome then none
      else some ((i64Of usage first).or (i64Of usage second)) := by
  rw [wireField_plain plain]
  cases one : i64Of usage first <;> cases two : i64Of usage second <;> simp [one, two]

theorem wireField_three {first second third : String}
    (plain : ∀ name ∈ [first, second, third], IsCount (usage.get name)) :
    wireField usage [first, second, third] =
      if (i64Of usage first).isSome && (i64Of usage second).isSome ||
          (i64Of usage first).isSome && (i64Of usage third).isSome ||
          (i64Of usage second).isSome && (i64Of usage third).isSome then none
      else some ((i64Of usage first).or ((i64Of usage second).or (i64Of usage third))) := by
  rw [wireField_plain plain]
  cases one : i64Of usage first <;> cases two : i64Of usage second <;> cases three : i64Of usage third <;>
    simp [one, two, three]

theorem refusals_join {α β γ δ : Type*} (first second third : Bool) (a : α) (b : β) (c : γ)
    (build : α → β → γ → δ) :
    ((if first then none else some a).bind fun a => (if second then none else some b).bind fun b =>
        (if third then none else some c).bind fun c => some (build a b c)) =
      if first || second || third then none else some (build a b c) := by
  cases first <;> cases second <;> cases third <;> rfl

theorem wireDetails_plain (plain : IsDetails field) :
    wireDetails field = some (detailsI64 field "cached_tokens") := by
  cases found : field with
  | none => rfl
  | some value =>
    obtain ⟨⟨fields, rfl⟩, cached, -⟩ := plain value found
    rw [wireDetails, wireField_one cached]
    rfl

variable (plain : PlainUsage usage)
include plain

theorem fromValue_plain : Usage.fromValue usage =
    let counts := UsageCounts.ofJson usage
    if counts.conflicts then none
    else some
      { promptTokens := counts.promptTokens
        completionTokens := counts.completionTokens
        inputTokens := counts.inputTokens
        outputTokens := counts.outputTokens
        cacheReadTokens := (counts.cacheReadTokens.or counts.cacheReadInputTokens).or (counts.promptCached.or
          (counts.inputCached.or (counts.deepseekCacheHit.or counts.promptCacheHitTokens)))
        cacheWriteTokens := counts.cacheWriteTokens.or
          (counts.cacheCreationInputTokens.or counts.cacheWriteInputTokens) } := by
  have among {names : List String} (known : names ⊆ countNames) : ∀ name ∈ names, IsCount (usage.get name) :=
    fun name mem => plain.counts name (known mem)
  have single {name : String} (known : name ∈ countNames) := wireField_one (plain.counts name known)
  obtain ⟨fields, rfl⟩ := plain.isObject
  rw [Usage.fromValue, single (by simp [countNames]), single (by simp [countNames]), single (by simp [countNames]),
    single (by simp [countNames]), wireField_two (among (by simp [countNames])),
    wireField_three (among (by simp [countNames])), wireField_two (among (by simp [countNames])),
    wireDetails_plain (plain.details "prompt_tokens_details" (by simp)),
    wireDetails_plain (plain.details "input_tokens_details" (by simp))]
  simp only [UsageCounts.conflicts, UsageCounts.ofJson, bind_eq_bind, bind_some, pure_def]
  -- the three buckets with several names
  rw [refusals_join]
  rfl

theorem fromValueLenient_plain [FloatCast] : (fromValueLenient usage).billed =
    let counts := UsageCounts.ofJson usage
    { promptTokens := some ((counts.promptTokens.or counts.inputTokens).getD 0)
      completionTokens := some ((counts.completionTokens.or counts.outputTokens).getD 0)
      inputTokens := none
      outputTokens := none
      cacheReadTokens := some ((counts.cacheReadInputTokens.or counts.cachedElsewhere).getD 0)
      cacheWriteTokens := some ((counts.cacheCreationInputTokens.or counts.writtenElsewhere).getD 0) } := by
  have single {name : String} (known : name ∈ countNames) := (plain.counts name known).lenientI64
  have object {name : String} (known : name ∈ ["prompt_tokens_details", "input_tokens_details"]) :
      (usage.get name).filter isObject = usage.get name := by
    cases found : usage.get name with
    | none => rfl
    | some value =>
      obtain ⟨⟨fields, rfl⟩, -⟩ := plain.details name known value found
      rfl
  simp only [ChatUsage.billed, fromValueLenient, input, output, cachedTokens,
    cacheWriteTokens, UsageCounts.cachedElsewhere, UsageCounts.writtenElsewhere, UsageCounts.ofJson, i64Of,
    Option.or_assoc]
  rw [single (by simp [countNames]), single (by simp [countNames]), single (by simp [countNames]),
    single (by simp [countNames]), single (by simp [countNames]), single (by simp [countNames]),
    single (by simp [countNames]), object (by simp), object (by simp)]

end Plain

namespace UsageCounts

variable {counts : UsageCounts}

theorem read_alike_iff (single : (counts.cacheReadTokens.isSome && counts.cacheReadInputTokens.isSome) = false)
    (hit : (counts.deepseekCacheHit.isSome && counts.promptCacheHitTokens.isSome) = false) :
    ((counts.cacheReadTokens.or counts.cacheReadInputTokens).or (counts.promptCached.or (counts.inputCached.or
        (counts.deepseekCacheHit.or counts.promptCacheHitTokens)))).getD 0 =
        (counts.cacheReadInputTokens.or counts.cachedElsewhere).getD 0 ↔
      (counts.cacheReadInputTokens = none → ∀ n, counts.cacheReadTokens = some n →
        n = counts.cachedElsewhere.getD 0) ∧
      (counts.cacheReadInputTokens = none → counts.cacheReadTokens = none →
        ∀ m n, counts.promptCached = some m → counts.inputCached = some n → m = n) ∧
      (counts.cacheReadInputTokens = none → counts.cacheReadTokens = none → counts.promptCached = none →
        counts.inputCached = none → ∀ n, counts.deepseekCacheHit = some n → n = 0) := by
  obtain ⟨_, _, _, _, read, readInput, _, _, _, deepseek, hits, prompt, _, input, _⟩ := counts
  simp only [cachedElsewhere] at single hit ⊢
  cases readInput with
  | some n =>
    cases read with
    | some m => cases single
    | none => simp
  | none =>
    cases read with
    | some m => simp
    | none =>
      cases prompt <;> cases input <;> cases deepseek <;> cases hits <;> simp_all

theorem write_alike_iff
    (single : (counts.cacheWriteTokens.isSome && counts.cacheCreationInputTokens.isSome ||
      counts.cacheWriteTokens.isSome && counts.cacheWriteInputTokens.isSome ||
      counts.cacheCreationInputTokens.isSome && counts.cacheWriteInputTokens.isSome) = false) :
    (counts.cacheWriteTokens.or (counts.cacheCreationInputTokens.or counts.cacheWriteInputTokens)).getD 0 =
        (counts.cacheCreationInputTokens.or counts.writtenElsewhere).getD 0 ↔
      (counts.cacheCreationInputTokens = none →
        (counts.cacheWriteTokens.or counts.cacheWriteInputTokens).getD 0 = counts.writtenElsewhere.getD 0) := by
  obtain ⟨_, _, _, _, _, _, write, creation, writeInput, _, _, _, _, _, _⟩ := counts
  cases creation with
  | some n =>
    cases write with
    | some m => cases single
    | none => simp
  | none => simp

end UsageCounts

/-- The two normalisers bill the same tokens exactly if the names that they read differently agree. -/
theorem normalisers_agree_iff [FloatCast] {usage : Json} (plain : PlainUsage usage) :
    billedTokens (Usage.fromValue usage) = billedTokens (some (fromValueLenient usage).billed) ↔
      if (UsageCounts.ofJson usage).conflicts then (UsageCounts.ofJson usage).Empty
      else (UsageCounts.ofJson usage).Alike := by
  rw [fromValue_plain plain, fromValueLenient_plain plain]
  generalize UsageCounts.ofJson usage = counts
  dsimp only
  cases twice : counts.conflicts with
  | true =>
    simp only [if_true, billedTokens, Usage.input, Usage.output, some_or, getD_some, Prod.mk.injEq]
    exact ⟨fun ⟨input, output, read, write⟩ => ⟨input.symm, output.symm, read.symm, write.symm⟩,
      fun empty => ⟨empty.input.symm, empty.output.symm, empty.cacheRead.symm, empty.cacheWrite.symm⟩⟩
  | false =>
    simp only [UsageCounts.conflicts, Bool.or_eq_false_iff] at twice
    simp only [Bool.false_eq_true, if_false, billedTokens, Usage.input, Usage.output, some_or, getD_some,
      Prod.mk.injEq, true_and]
    rw [UsageCounts.read_alike_iff twice.1.1 twice.2, UsageCounts.write_alike_iff (by simpa using twice.1.2)]
    exact ⟨fun ⟨⟨own, details, hit⟩, write⟩ => ⟨own, details, hit, write⟩,
      fun alike => ⟨⟨alike.ownRead, alike.details, alike.ownHit⟩, alike.write⟩⟩

def chatUsageObject : Json :=
  .obj [("completion_tokens", .num (.int 5)), ("prompt_tokens", .num (.int 20)),
    ("prompt_tokens_details", .obj [("cached_tokens", .num (.int 8))])]

theorem chatUsageObject_agrees :
    let _ : FloatCast := .zero
    billedTokens (Usage.fromValue chatUsageObject) =
      billedTokens (some (fromValueLenient chatUsageObject).billed) := by
  intro _
  refine (normalisers_agree_iff (by decide +kernel)).mpr ?_
  have read : (UsageCounts.ofJson chatUsageObject).cacheReadTokens = none := by decide +kernel
  have input : (UsageCounts.ofJson chatUsageObject).inputCached = none := by decide +kernel
  have hit : (UsageCounts.ofJson chatUsageObject).deepseekCacheHit = none := by decide +kernel
  exact ⟨fun _ _ found => by simp [read] at found, fun _ _ _ _ _ found => by simp [input] at found,
    fun _ _ _ _ _ found => by simp [hit] at found, fun _ => by decide +kernel⟩

def detailedWriteObject : Json :=
  .obj [("prompt_tokens", .num (.int 20)), ("prompt_tokens_details", .obj [("cache_write_tokens", .num (.int 8))])]

theorem detailed_write_billed_on_one_path :
    let _ : FloatCast := .zero
    PlainUsage detailedWriteObject ∧ billedTokens (Usage.fromValue detailedWriteObject) ≠
      billedTokens (some (fromValueLenient detailedWriteObject).billed) := by
  intro _
  exact ⟨by decide +kernel, by decide +kernel⟩

/-- The prompt is split into the three buckets exactly if the cache buckets are no larger than the prompt. -/
theorem anthropicUsage_splits_iff {usage : ChatUsage} (prompted : 0 ≤ usage.input.val)
    (spoken : 0 ≤ usage.output.val) (hit : 0 ≤ usage.cachedTokens.val) (written : 0 ≤ usage.cacheWriteTokens.val) :
    let buckets := anthropicUsage usage
    (0 ≤ buckets.inputTokens.val ∧ 0 ≤ buckets.outputTokens.val ∧ 0 ≤ buckets.cacheReadInputTokens.val ∧
      0 ≤ buckets.cacheCreationInputTokens.val ∧ buckets.inputTokens.val + buckets.cacheReadInputTokens.val +
        buckets.cacheCreationInputTokens.val = usage.billed.input.val) ↔
    usage.cachedTokens.val + usage.cacheWriteTokens.val ≤ usage.input.val := by
  have upper := usage.input.upper
  have billed : usage.billed.input = usage.input := rfl
  simp only [anthropicUsage, I64.saturatingSub, I64.clamp, billed]
  omega

theorem chatUsageObject_splits :
    let _ : FloatCast := .zero
    let usage := fromValueLenient chatUsageObject
    (anthropicUsage usage).inputTokens.val + (anthropicUsage usage).cacheReadInputTokens.val +
      (anthropicUsage usage).cacheCreationInputTokens.val = usage.billed.input.val := by
  intro _ usage
  exact ((anthropicUsage_splits_iff (by decide +kernel) (by decide +kernel) (by decide +kernel)
    (by decide +kernel)).mpr (by decide +kernel)).2.2.2.2

def overcachedUsageObject : Json :=
  .obj [("prompt_tokens", .num (.int 1)), ("prompt_tokens_details", .obj [("cached_tokens", .num (.int 3))])]

theorem overcached_input_negative :
    let _ : FloatCast := .zero
    PlainUsage overcachedUsageObject ∧
      (anthropicUsage (.fromValueLenient overcachedUsageObject)).inputTokens.val = -2 := by
  intro _
  exact ⟨by decide +kernel, by decide +kernel⟩

end LlmGateway
