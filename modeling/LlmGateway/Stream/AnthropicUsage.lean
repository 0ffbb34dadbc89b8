import LlmGateway.Stream.Serve
import LlmGateway.Stream.UsageFrames

namespace LlmGateway

open List Option I64 Usage UsageCapture

/-- The counts of a usage object of Anthropic's, as they are written. -/
structure Tokens where
  input : Option Nat
  output : Option Nat
  cacheRead : Option Nat
  cacheCreation : Option Nat

namespace Tokens

def fits (c : Tokens) : Bool :=
  [c.input, c.output, c.cacheRead, c.cacheCreation].all (·.all (· ≤ 9223372036854775807))

def cached (c : Tokens) : Nat := c.cacheRead.getD 0 + c.cacheCreation.getD 0

def wholeInput (c : Tokens) : Option Nat :=
  if 0 < c.cached then some (c.input.getD 0 + c.cached) else c.input

def last (select : Tokens → Option Nat) (counts : List Tokens) : Option Nat :=
  counts.foldl (fun seen c => (select c).or seen) none

end Tokens

/-- Where a frame has its usage object: `message_start` inside the message. -/
def usageObject (v : Json) : Option Json := ((v.get "message").bind (·.get "usage")).or (v.get "usage")

def countOf (usage : Json) (name : String) : Option Nat :=
  match usage.get name with
  | some (.num (.int value)) => some value.toNat
  | _ => none

def countsOf (usage : Json) : Tokens where
  input := countOf usage "input_tokens"
  output := countOf usage "output_tokens"
  cacheRead := countOf usage "cache_read_input_tokens"
  cacheCreation := countOf usage "cache_creation_input_tokens"

def anthropicCounts : List String :=
  ["input_tokens", "output_tokens", "cache_read_input_tokens", "cache_creation_input_tokens"]

def foreignCounts : List String :=
  ["prompt_tokens", "completion_tokens", "cache_read_tokens", "cache_write_tokens", "cache_write_input_tokens",
    "deepseek_cache_hit", "prompt_cache_hit_tokens", "prompt_tokens_details", "input_tokens_details"]

/-- A usage object with any of Anthropic's counts and nothing else that is read. -/
structure CountsOnly (usage : Json) : Prop where
  object : ∃ fields, usage = .obj fields
  counts : ∀ name ∈ anthropicCounts, ∀ value ∈ usage.get name, ∃ n : Nat, value = .num (.int n)
  foreign : ∀ name ∈ foreignCounts, usage.get name = none

/-- A frame of type `message_*`. -/
structure AnthropicFrame (v : Json) : Prop where
  type : (v.getStr "type").any isMessageType = true
  usage : ∀ usage ∈ usageObject v, CountsOnly usage

def rawCounts (frames : List Json) : List Tokens := frames.filterMap fun v => (usageObject v).map countsOf

def throughTerminal : List Json → List Json
  | [] => []
  | v :: rest => if isTerminalFrame v then [v] else v :: throughTerminal rest

def countedCounts (frames : List Json) : List Tokens := (rawCounts (throughTerminal frames)).filter Tokens.fits

/-- The counts merged field by field, and the cache buckets then added to the input. -/
structure BilledAsMerged (billed : Option Usage) (counts : List Tokens) : Prop where
  input : billed.elim 0 input = .ofNat ((Tokens.last Tokens.input counts).getD 0 +
    (Tokens.last Tokens.cacheRead counts).getD 0 + (Tokens.last Tokens.cacheCreation counts).getD 0)
  output : billed.elim 0 output = .ofNat ((Tokens.last Tokens.output counts).getD 0)
  cacheRead : billed.bind cacheReadTokens = (Tokens.last Tokens.cacheRead counts).map ofNat
  cacheCreation : billed.bind cacheWriteTokens = (Tokens.last Tokens.cacheCreation counts).map ofNat

/-- The frames that are not counted do not have the last word, and the last whole input is what the last counts add
up to. -/
structure LastCountsStand (frames : List Json) : Prop where
  input : ofNat ((Tokens.last Tokens.wholeInput (countedCounts frames)).getD 0) =
    .ofNat ((Tokens.last Tokens.input (rawCounts frames)).getD 0 +
      (Tokens.last Tokens.cacheRead (rawCounts frames)).getD 0 +
      (Tokens.last Tokens.cacheCreation (rawCounts frames)).getD 0)
  output : ofNat ((Tokens.last Tokens.output (countedCounts frames)).getD 0) =
    .ofNat ((Tokens.last Tokens.output (rawCounts frames)).getD 0)
  cacheRead : (Tokens.last Tokens.cacheRead (countedCounts frames)).map ofNat =
    (Tokens.last Tokens.cacheRead (rawCounts frames)).map ofNat
  cacheCreation : (Tokens.last Tokens.cacheCreation (countedCounts frames)).map ofNat =
    (Tokens.last Tokens.cacheCreation (rawCounts frames)).map ofNat

namespace Tokens

def usage (c : Tokens) : Usage where
  promptTokens := none
  completionTokens := none
  inputTokens := c.input.map ofNat
  outputTokens := c.output.map ofNat
  cacheReadTokens := c.cacheRead.map ofNat
  cacheWriteTokens := c.cacheCreation.map ofNat

def captured (counts : List Tokens) : Usage where
  promptTokens := none
  completionTokens := none
  inputTokens := (last wholeInput counts).map ofNat
  outputTokens := (last output counts).map ofNat
  cacheReadTokens := (last cacheRead counts).map ofNat
  cacheWriteTokens := (last cacheCreation counts).map ofNat

def capture (counts : List Tokens) : Option Usage := if counts = [] then none else some (captured counts)

theorem last_append (select : Tokens → Option Nat) (first second : List Tokens) :
    last select (first ++ second) = (last select second).or (last select first) := by
  have started : ∀ seen, second.foldl (fun seen c => (select c).or seen) seen = (last select second).or seen := by
    induction second using List.reverseRecOn with
    | nil => intro seen; rfl
    | append_singleton second c ih =>
      intro seen
      simp only [last, foldl_append, foldl_cons, foldl_nil] at ih ⊢
      rw [ih, ih none, or_none, Option.or_assoc]
  rw [last, foldl_append, started]
  rfl

theorem mergeUsage_capture (first second : List Tokens) :
    mergeUsage (capture first) (captured second) = captured (first ++ second) := by
  unfold capture
  split
  next empty =>
    rw [empty]
    rfl
  · simp [mergeUsage, captured, last_append, map_or]

theorem getD_ofNat (count : Option Nat) : (count.map ofNat).getD 0 = .ofNat (count.getD 0) := by
  cases count <;> rfl

theorem foldAnthropicInput_usage (c : Tokens) : c.usage.foldAnthropicInput = captured [c] := by
  have buckets : ((c.usage.cacheReadTokens.getD 0).saturatingAdd (c.usage.cacheWriteTokens.getD 0)) =
      .ofNat c.cached := by
    simp [usage, getD_ofNat, ofNat_saturatingAdd, cached]
  have some : 0 < (ofNat c.cached).val ↔ 0 < c.cached := by
    rw [ofNat_val]
    omega
  have base : ((c.usage.promptTokens.or c.usage.inputTokens).getD 0).saturatingAdd (.ofNat c.cached) =
      .ofNat (c.input.getD 0 + c.cached) := by
    simp [usage, none_or, getD_ofNat, ofNat_saturatingAdd]
  simp only [foldAnthropicInput, buckets, base, some]
  split
  next cached =>
    simp [captured, last, wholeInput, usage, cached]
  next uncached =>
    simp [captured, last, wholeInput, usage, uncached]

end Tokens

section Reading
variable {usage : Json} {name : String} {names : List String}

theorem CountsOnly.get (only : CountsOnly usage) (own : name ∈ anthropicCounts) :
    usage.get name = (countOf usage name).map fun n => .num (.int n) := by
  cases held : usage.get name with
  | none => simp [countOf, held]
  | some value =>
    obtain ⟨n, rfl⟩ := only.counts name own value held
    simp [countOf, held]

theorem CountsOnly.filterMap_foreign (only : CountsOnly usage) (foreign : ∀ name ∈ names, name ∈ foreignCounts) :
    names.filterMap usage.get = [] :=
  filterMap_eq_nil_iff.mpr fun name mem => only.foreign name (foreign name mem)

theorem CountsOnly.wireField_foreign (only : CountsOnly usage) (names : List String)
    (foreign : ∀ name ∈ names, name ∈ foreignCounts) : wireField usage names = some none := by
  rw [wireField, only.filterMap_foreign foreign]

theorem CountsOnly.wireField_own (only : CountsOnly usage) (before : List String) (name : String)
    (after : List String) (own : name ∈ anthropicCounts)
    (foreign : ∀ other ∈ before ++ after, other ∈ foreignCounts) :
    wireField usage (before ++ name :: after) =
      if (countOf usage name).all (· ≤ 9223372036854775807) then some ((countOf usage name).map ofNat)
      else none := by
  have alone : (before ++ name :: after).filterMap usage.get = (usage.get name).toList := by
    have none := only.filterMap_foreign fun other mem => foreign other (mem_append_left _ mem)
    have later := only.filterMap_foreign fun other mem => foreign other (mem_append_right _ mem)
    rw [filterMap_append, none, filterMap_cons, later]
    cases usage.get name <;> rfl
  rw [wireField, alone, only.get own]
  cases countOf usage name with
  | none => rfl
  | some n =>
    have read : wireCount (some (.num (.int n))) =
        if n ≤ 9223372036854775807 then some (some (ofNat n)) else none := by
      simp only [wireCount, Json.asI64, JsonNumber.asI64]
      split <;> rename_i fits
      · have same : (⟨n, fits.1, fits.2⟩ : I64) = .ofNat n := by
          ext
          simp only [ofNat_val]
          omega
        rw [if_pos (by omega), same]
        rfl
      · rw [if_neg (by omega)]
        rfl
    simpa using read

theorem CountsOnly.fromValue (only : CountsOnly usage) :
    fromValue usage = if (countsOf usage).fits then some (countsOf usage).usage else none := by
  have input := only.wireField_own [] "input_tokens" [] (by decide) (by decide)
  have output := only.wireField_own [] "output_tokens" [] (by decide) (by decide)
  have read := only.wireField_own ["cache_read_tokens"] "cache_read_input_tokens" [] (by decide) (by decide)
  have creation := only.wireField_own ["cache_write_tokens"] "cache_creation_input_tokens"
    ["cache_write_input_tokens"] (by decide) (by decide)
  have prompt := only.wireField_foreign ["prompt_tokens"] (by decide)
  have completion := only.wireField_foreign ["completion_tokens"] (by decide)
  have hit := only.wireField_foreign ["deepseek_cache_hit", "prompt_cache_hit_tokens"] (by decide)
  have promptDetails := only.foreign "prompt_tokens_details" (by decide)
  have inputDetails := only.foreign "input_tokens_details" (by decide)
  obtain ⟨fields, rfl⟩ := only.object
  simp only [nil_append, singleton_append] at input output read creation
  simp only [fromValue, input, output, read, creation, prompt, completion, hit, promptDetails, inputDetails,
    Tokens.fits, countsOf, all_cons, all_nil, Bool.and_true]
  cases (countOf (.obj fields) "input_tokens").all (· ≤ 9223372036854775807) <;>
    cases (countOf (.obj fields) "output_tokens").all (· ≤ 9223372036854775807) <;>
    cases (countOf (.obj fields) "cache_read_input_tokens").all (· ≤ 9223372036854775807) <;>
    cases (countOf (.obj fields) "cache_creation_input_tokens").all (· ≤ 9223372036854775807) <;>
    simp [wireDetails, Tokens.usage]

end Reading

theorem AnthropicFrame.extractUsageFrame {v : Json} (frame : AnthropicFrame v) :
    extractUsageFrame v = ((usageObject v).bind fromValue).map (·, true) := by
  simp [LlmGateway.extractUsageFrame, frame.type, usageObject]

theorem rawCounts_cons (v : Json) (frames : List Json) :
    rawCounts (v :: frames) = ((usageObject v).map countsOf).toList ++ rawCounts frames := by
  rw [rawCounts, filterMap_cons]
  cases usageObject v <;> rfl

theorem mergeUsage_captured (counts : List Tokens) (c : Tokens) :
    some (mergeUsage (Tokens.capture counts) c.usage.foldAnthropicInput) = Tokens.capture (counts ++ [c]) := by
  rw [Tokens.foldAnthropicInput_usage, Tokens.mergeUsage_capture, Tokens.capture, if_neg (by simp)]

theorem AnthropicFrame.feedValue {v : Json} (frame : AnthropicFrame v) (counts : List Tokens) :
    feedValue (Tokens.capture counts, false) v =
      (Tokens.capture (counts ++ (rawCounts [v]).filter Tokens.fits), isTerminalFrame v) := by
  have one : rawCounts [v] = ((usageObject v).map countsOf).toList := by
    rw [rawCounts_cons]
    exact append_nil _
  rw [LlmGateway.feedValue, frame.extractUsageFrame, one, Bool.false_or]
  cases held : usageObject v with
  | none => simp
  | some usage =>
    have read := (frame.usage usage held).fromValue
    cases fits : (countsOf usage).fits with
    | false => simp [read, fits]
    | true => simp [read, fits, mergeUsage_captured]

theorem countedCounts_cons (v : Json) (frames : List Json) : countedCounts (v :: frames) =
    (rawCounts [v]).filter Tokens.fits ++ if isTerminalFrame v then [] else countedCounts frames := by
  rw [countedCounts, throughTerminal]
  split
  · rw [append_nil]
  · have single : rawCounts [v] = ((usageObject v).map countsOf).toList := by
      rw [rawCounts_cons]
      exact append_nil _
    rw [rawCounts_cons, filter_append, single, countedCounts]

theorem countedCounts_append (first second : List Json) : countedCounts (first ++ second) =
    countedCounts first ++ if first.any isTerminalFrame then [] else countedCounts second := by
  induction first with
  | nil => rfl
  | cons v rest ih =>
    rw [cons_append, countedCounts_cons, countedCounts_cons, any_cons, ih, append_assoc]
    split <;> rename_i terminal <;> simp [terminal]

theorem feedFrames_capture {frames : List Json} (all : ∀ v ∈ frames, AnthropicFrame v) (counts : List Tokens) :
    (feedFrames (Tokens.capture counts) frames).2 =
        (Tokens.capture (counts ++ countedCounts frames), frames.any isTerminalFrame) ∧
      (frames.any isTerminalFrame = false → (feedFrames (Tokens.capture counts) frames).1 = []) := by
  induction frames generalizing counts with
  | nil => simp [feedFrames, countedCounts, throughTerminal, rawCounts]
  | cons v rest ih =>
    obtain ⟨frame, all⟩ := forall_mem_cons.mp all
    rw [feedFrames, frame.feedValue, countedCounts_cons]
    cases terminal : isTerminalFrame v with
    | true => simp [terminal]
    | false =>
      obtain ⟨found, left⟩ := ih all (counts ++ (rawCounts [v]).filter Tokens.fits)
      rw [any_cons, terminal, Bool.false_or]
      exact ⟨by simpa using found, left⟩

theorem feed_capture {chunk : List Json} (all : ∀ v ∈ chunk, AnthropicFrame v) (counts : List Tokens) :
    (feed frameScanner ⟨[], Tokens.capture counts⟩ chunk).1.captured =
        Tokens.capture (counts ++ countedCounts chunk) ∧
      (feed frameScanner ⟨[], Tokens.capture counts⟩ chunk).2 = chunk.any isTerminalFrame ∧
      (chunk.any isTerminalFrame = false →
        (feed frameScanner ⟨[], Tokens.capture counts⟩ chunk).1.buf = []) := by
  obtain ⟨found, left⟩ := feedFrames_capture all []
  have fed : frameScanner.feedSse [] chunk =
      ((feedFrames (Tokens.capture []) chunk).1, Tokens.capture (countedCounts chunk), chunk.any isTerminalFrame) :=
    Prod.ext rfl found
  simp only [feed, fed]
  by_cases none : countedCounts chunk = []
  · simp only [none, Tokens.capture, append_nil, ↓reduceIte]
    exact ⟨trivial, trivial, left⟩
  · have some : Tokens.capture (countedCounts chunk) = some (Tokens.captured (countedCounts chunk)) := if_neg none
    simp only [some, Tokens.mergeUsage_capture]
    refine ⟨?_, trivial, left⟩
    rw [Tokens.capture, if_neg (by simp [none])]

abbrev passThrough : Wrapper (UsageCapture (List Json)) (Except String (List Json)) (Except String (List Json)) :=
  wrapStream frameScanner true

/-- What a stream of Anthropic's is billed for, whatever the chunks it comes in. -/
theorem serve_capture {chunks : List (List Json)} (all : ∀ v ∈ chunks.flatten, AnthropicFrame v)
    (counts : List Tokens) : (passThrough.serve ⟨[], Tokens.capture counts⟩ false (chunks.map .ok)).2 =
      [Tokens.capture (counts ++ countedCounts chunks.flatten)] := by
  induction chunks generalizing counts with
  | nil =>
    obtain ⟨captured, -⟩ := feed_capture (forall_mem_nil _) counts
    exact congrArg (fun usage => [usage]) captured
  | cons chunk chunks ih =>
    rw [flatten_cons] at all ⊢
    obtain ⟨captured, done, emptied⟩ := feed_capture (fun v mem => all v (mem_append_left _ mem)) counts
    have all := fun v mem => all v (mem_append_right _ mem)
    rw [map_cons, countedCounts_append]
    cases terminal : chunk.any isTerminalFrame with
    | true =>
      rw [Wrapper.serve_bills (done.trans terminal), Wrapper.serve_recorded, if_pos rfl, append_nil]
      exact congrArg (fun usage => [usage]) captured
    | false =>
      rw [Wrapper.serve_yields (.inr (done.trans terminal))]
      have next : (passThrough.onItem ⟨[], Tokens.capture counts⟩ (.ok chunk)).1 =
          ⟨[], Tokens.capture (counts ++ countedCounts chunk)⟩ :=
        congrArg₂ UsageCapture.mk (emptied terminal) captured
      simp only [next, Bool.false_eq_true, ↓reduceIte, ← append_assoc]
      exact ih all _

theorem capture_elim {α : Type*} (project : Usage → α) (counts : List Tokens) :
    (Tokens.capture counts).elim (project (Tokens.captured [])) project = project (Tokens.captured counts) := by
  rw [Tokens.capture]
  split
  next none =>
    rw [none]
    rfl
  · rfl

theorem capture_bind {α : Type*} (project : Usage → Option α) (none : project (Tokens.captured []) = none)
    (counts : List Tokens) : (Tokens.capture counts).bind project = project (Tokens.captured counts) := by
  rw [← capture_elim project, none]
  cases Tokens.capture counts <;> rfl

/-- The merged counts are billed with the cache buckets added once exactly when the last counts stand. -/
theorem anthropic_usage_billed_iff (chunks : List (List Json)) (all : ∀ v ∈ chunks.flatten, AnthropicFrame v) :
    (∃ billed, (passThrough.serve (.new []) false (chunks.map .ok)).2 = [billed] ∧
      BilledAsMerged billed (rawCounts chunks.flatten)) ↔ LastCountsStand chunks.flatten := by
  have served : (passThrough.serve (.new []) false (chunks.map .ok)).2 =
      [Tokens.capture (countedCounts chunks.flatten)] := serve_capture all []
  have input : (Tokens.capture (countedCounts chunks.flatten)).elim 0 input =
      .ofNat ((Tokens.last Tokens.wholeInput (countedCounts chunks.flatten)).getD 0) :=
    (capture_elim input _).trans (Tokens.getD_ofNat _)
  have output : (Tokens.capture (countedCounts chunks.flatten)).elim 0 output =
      .ofNat ((Tokens.last Tokens.output (countedCounts chunks.flatten)).getD 0) :=
    (capture_elim output _).trans (Tokens.getD_ofNat _)
  have read := capture_bind cacheReadTokens rfl (countedCounts chunks.flatten)
  have write := capture_bind cacheWriteTokens rfl (countedCounts chunks.flatten)
  simp only [served, List.cons.injEq, and_true, exists_eq_left']
  constructor
  · intro merged
    exact ⟨input.symm.trans merged.input, output.symm.trans merged.output, read.symm.trans merged.cacheRead,
      write.symm.trans merged.cacheCreation⟩
  · intro stand
    exact ⟨input.trans stand.input, output.trans stand.output, read.trans stand.cacheRead,
      write.trans stand.cacheCreation⟩

def messageFrame (type : String) (counts : List (String × Int)) : Json :=
  .obj [("type", .str type.toList), ("usage", .obj (counts.map fun count => (count.1, .num (.int count.2))))]

theorem messageFrame_get (counts : List (String × Int)) (name : String) :
    (Json.obj (counts.map fun count => (count.1, .num (.int count.2)))).get name =
      (counts.lookup name).map fun value => .num (.int value) := by
  induction counts with
  | nil => rfl
  | cons count counts ih =>
    simp only [Json.get, map_cons, List.lookup] at ih ⊢
    cases name == count.1 with
    | true => rfl
    | false => exact ih

theorem messageFrame_anthropic {type : String} {counts : List (String × Int)}
    (message : isMessageType type.toList = true) (own : ∀ count ∈ counts, count.1 ∈ anthropicCounts ∧ 0 ≤ count.2) :
    AnthropicFrame (messageFrame type counts) where
  type := message
  usage := by
    have object : usageObject (messageFrame type counts) =
        some (.obj (counts.map fun count => (count.1, .num (.int count.2)))) := rfl
    intro usage held
    rw [object, mem_some_iff] at held
    subst held
    refine ⟨⟨_, rfl⟩, fun name _ value held => ?_, fun name foreign => ?_⟩
    · rw [messageFrame_get] at held
      obtain ⟨count, found, rfl⟩ := map_eq_some_iff.mp held
      obtain ⟨before, after, rfl, -⟩ := lookup_eq_some_iff.mp found
      have nonneg : 0 ≤ count := (own (name, count) (by simp)).2
      exact ⟨count.toNat, by rw [Int.toNat_of_nonneg nonneg]⟩
    · rw [messageFrame_get, lookup_eq_none_iff.mpr, map_none]
      intro count mem
      have apart : ∀ name ∈ foreignCounts, name ∉ anthropicCounts := by decide
      rw [bne_iff_ne]
      rintro rfl
      exact apart _ foreign (own count mem).1

def inputOnce : List (List Json) :=
  [[messageFrame "message_start" [("input_tokens", 10), ("cache_read_input_tokens", 5), ("output_tokens", 1)]],
    [messageFrame "message_delta" [("output_tokens", 7)]], [messageFrame "message_stop" []]]

theorem inputOnce_billed : (∀ v ∈ inputOnce.flatten, AnthropicFrame v) ∧
    ∃ billed, (passThrough.serve (.new []) false (inputOnce.map .ok)).2 = [billed] ∧
      BilledAsMerged billed (rawCounts inputOnce.flatten) :=
  have all : ∀ v ∈ inputOnce.flatten, AnthropicFrame v := by
    simp only [inputOnce, flatten_cons, flatten_nil, singleton_append, forall_mem_cons]
    exact ⟨messageFrame_anthropic (by decide) (by decide), messageFrame_anthropic (by decide) (by decide),
      messageFrame_anthropic (by decide) (by decide), nofun⟩
  ⟨all, (anthropic_usage_billed_iff inputOnce all).mpr
    ⟨by decide +kernel, by decide +kernel, by decide +kernel, by decide +kernel⟩⟩

/-- A `message_start` that has read from the cache, and a `message_delta` that repeats the input count. -/
def repeatedInput : List (List Json) :=
  [[messageFrame "message_start" [("input_tokens", 10), ("cache_read_input_tokens", 5)]],
    [messageFrame "message_delta" [("input_tokens", 10), ("output_tokens", 7)], messageFrame "message_stop" []]]

/-- The second input has no cache bucket to be added to it, and replaces the first one. -/
theorem repeated_input_loses_cache : (∀ v ∈ repeatedInput.flatten, AnthropicFrame v) ∧
    ∃ billed, (passThrough.serve (.new []) false (repeatedInput.map .ok)).2 = [billed] ∧
      (billed.elim 0 input).val = 10 ∧ ¬BilledAsMerged billed (rawCounts repeatedInput.flatten) := by
  have all : ∀ v ∈ repeatedInput.flatten, AnthropicFrame v := by
    simp only [repeatedInput, flatten_cons, flatten_nil, cons_append, nil_append,
      forall_mem_cons]
    exact ⟨messageFrame_anthropic (by decide) (by decide), messageFrame_anthropic (by decide) (by decide),
      messageFrame_anthropic (by decide) (by decide), nofun⟩
  refine ⟨all, Tokens.capture (countedCounts repeatedInput.flatten), serve_capture all [], by decide +kernel, ?_⟩
  intro merged
  exact absurd merged.input (by decide +kernel)

end LlmGateway
