import LlmGateway.Lib.Text
import LlmGateway.Stream.UsageFrames
import Mathlib.Algebra.Order.Ring.Abs
import Mathlib.Tactic.Ring

namespace LlmGateway

open List Option

/-- A column `NUMERIC(10, 6)`, in millionths of the currency. -/
structure Price where
  val : Int
  lower : -10 ^ 10 < val
  upper : val < 10 ^ 10

/-- The prices of a million tokens. -/
structure ModelPrice where
  inputPricePerM : Option Price
  outputPricePerM : Option Price
  cacheReadPricePerM : Option Price
  cacheWritePricePerM : Option Price

/-- `i128::saturating_mul` -/
def saturatingMul (a b : Int) : Int := max (-2 ^ 127) (min (a * b) (2 ^ 127 - 1))

def bucketCost (tokens : Int) (price : Price) : Int := (saturatingMul tokens price.val).tdiv 1000000

/-- The buckets that the input is charged in. -/
structure ChargedBuckets where
  fresh : Int
  cacheRead : Int
  cacheWrite : Int

def chargedBuckets (input : I64) (read write : Option I64) : ChargedBuckets :=
  let cacheRead := min (read.getD 0).val input.val
  let cacheWrite := min (write.getD 0).val (I64.clamp (input.val - cacheRead)).val
  ⟨(input.val - cacheRead - cacheWrite).bmod (2 ^ 64), cacheRead, cacheWrite⟩

def inputCost (price : ModelPrice) (buckets : ChargedBuckets) : Int :=
  (price.inputPricePerM.map (bucketCost buckets.fresh)).getD 0 +
    (if 0 < buckets.cacheRead then
      ((price.cacheReadPricePerM.or price.inputPricePerM).map (bucketCost buckets.cacheRead)).getD 0 else 0) +
    if 0 < buckets.cacheWrite then
      ((price.cacheWritePricePerM.or price.inputPricePerM).map (bucketCost buckets.cacheWrite)).getD 0 else 0

def computeCost (prices : Str → Option ModelPrice) (model : Str) (input output read write : Option I64) : Int :=
  match prices model with
  | none => 0
  | some price =>
    (input.map fun input => inputCost price (chargedBuckets input read write)).getD 0 +
      ((output.bind fun output => price.outputPricePerM.map (bucketCost output.val)).getD 0)

section Split

variable {input : I64} {read write : Option I64} {price : ModelPrice}

theorem chargedBuckets_eq (counted : 0 ≤ input.val) (hit : 0 ≤ (read.getD 0).val)
    (written : 0 ≤ (write.getD 0).val) : chargedBuckets input read write =
      let cacheRead := min (read.getD 0).val input.val
      let cacheWrite := min (write.getD 0).val (input.val - cacheRead)
      ⟨input.val - cacheRead - cacheWrite, cacheRead, cacheWrite⟩ := by
  have upper := input.upper
  have inside : (I64.clamp (input.val - min (read.getD 0).val input.val)).val =
      input.val - min (read.getD 0).val input.val := by
    simp only [I64.clamp]
    omega
  have whole (n : Int) (low : 0 ≤ n) (high : n ≤ input.val) : n.bmod (2 ^ 64) = n := by
    rw [Int.bmod_eq_of_le (by omega) (by omega)]
  simp only [chargedBuckets, inside]
  rw [whole _ (by omega) (by omega)]

/-- The product of a count and a price is never saturated. -/
theorem Price.mul_lt (price : Price) {tokens : Int} (high : tokens < 2 ^ 63) : tokens * |price.val| < 2 ^ 127 := by
  have small : |price.val| < 10 ^ 10 := abs_lt.mpr ⟨price.lower, price.upper⟩
  calc tokens * |price.val| ≤ 2 ^ 63 * 10 ^ 10 := mul_le_mul high.le small.le (abs_nonneg _) (by decide)
    _ < 2 ^ 127 := by decide

theorem bucketCost_eq {tokens : Int} {p : Price} (counted : 0 ≤ tokens) (high : tokens < 2 ^ 63) :
    bucketCost tokens p =
      if 0 ≤ p.val then tokens * |p.val| / 1000000 else -(tokens * |p.val| / 1000000) := by
  have lower : 0 ≤ tokens * |p.val| := mul_nonneg counted (abs_nonneg _)
  have fits := p.mul_lt high
  rw [bucketCost, saturatingMul]
  split_ifs with positive
  · rw [abs_of_nonneg positive] at fits lower ⊢
    rw [min_eq_left (by omega), max_eq_right (by omega), Int.tdiv_eq_ediv_of_nonneg lower]
  · rw [abs_of_neg (by omega), mul_neg] at fits lower ⊢
    rw [min_eq_left (by omega), max_eq_right (by omega), ← Int.tdiv_eq_ediv_of_nonneg lower, Int.neg_tdiv, neg_neg]

theorem sum_quotients_iff (a b c : Int) : a / 1000000 + b / 1000000 + c / 1000000 = (a + b + c) / 1000000 ↔
    a % 1000000 + b % 1000000 + c % 1000000 < 1000000 := by
  omega

theorem bucketCost_zero (price : Price) : bucketCost 0 price = 0 := by
  rw [bucketCost, saturatingMul, zero_mul]
  rfl

theorem inputCost_unpriced {p : Price} (priced : price.inputPricePerM = some p)
    (unread : price.cacheReadPricePerM = none) (unwritten : price.cacheWritePricePerM = none)
    {buckets : ChargedBuckets} (hit : 0 ≤ buckets.cacheRead) (written : 0 ≤ buckets.cacheWrite) :
    inputCost price buckets =
      bucketCost buckets.fresh p + bucketCost buckets.cacheRead p + bucketCost buckets.cacheWrite p := by
  have charged (tokens : Int) (counted : 0 ≤ tokens) :
      (if 0 < tokens then bucketCost tokens p else 0) = bucketCost tokens p := by
    split_ifs with some
    · rfl
    · rw [show tokens = 0 by omega, bucketCost_zero]
  rw [inputCost, priced, unread, unwritten]
  simp only [none_or, map_some, getD_some, charged _ hit, charged _ written]

/-- The buckets are a split of the input. It changes nothing about the cost just when the parts cut off make no
further unit. -/
theorem cost_of_split_iff {prices : Str → Option ModelPrice} {model : Str} (found : prices model = some price)
    (counted : 0 ≤ input.val) (hit : 0 ≤ (read.getD 0).val) (written : 0 ≤ (write.getD 0).val)
    (output : Option I64) :
    let buckets := chargedBuckets input read write
    (0 ≤ buckets.fresh ∧ 0 ≤ buckets.cacheRead ∧ 0 ≤ buckets.cacheWrite ∧
      buckets.fresh + buckets.cacheRead + buckets.cacheWrite = input.val) ∧
    ∀ p, price.inputPricePerM = some p → price.cacheReadPricePerM = none → price.cacheWritePricePerM = none →
      (computeCost prices model (some input) output read write =
          computeCost prices model (some input) output (some 0) (some 0) ↔
        let cacheRead := min (read.getD 0).val input.val
        let cacheWrite := min (write.getD 0).val (input.val - cacheRead)
        (input.val - cacheRead - cacheWrite) * |p.val| % 1000000 + cacheRead * |p.val| % 1000000 +
          cacheWrite * |p.val| % 1000000 < 1000000) := by
  rw [chargedBuckets_eq counted hit written]
  refine ⟨by dsimp only; omega, fun p priced unread unwritten => ?_⟩
  have none : chargedBuckets input (some 0) (some 0) = ⟨input.val, 0, 0⟩ := by
    rw [chargedBuckets_eq counted le_rfl le_rfl]
    simp [counted]
  rw [computeCost, computeCost, found]
  simp only [map_some, getD_some, none, chargedBuckets_eq counted hit written]
  rw [add_left_inj, inputCost_unpriced priced unread unwritten (by dsimp only; omega) (by dsimp only; omega),
    inputCost_unpriced priced unread unwritten le_rfl le_rfl]
  dsimp only
  generalize taken : min (read.getD 0).val input.val = cacheRead
  generalize kept : min (write.getD 0).val (input.val - cacheRead) = cacheWrite
  have whole : input.val * |p.val| =
      (input.val - cacheRead - cacheWrite) * |p.val| + cacheRead * |p.val| + cacheWrite * |p.val| := by ring
  have apart := sum_quotients_iff ((input.val - cacheRead - cacheWrite) * |p.val|) (cacheRead * |p.val|)
    (cacheWrite * |p.val|)
  have upper := input.upper
  have cost (tokens : Int) (low : 0 ≤ tokens) (high : tokens ≤ input.val) :=
    bucketCost_eq (p := p) low (show tokens < 2 ^ 63 by omega)
  rw [bucketCost_zero, cost _ counted le_rfl, cost _ (by omega) (by omega), cost _ (by omega) (by omega),
    cost _ (by omega) (by omega), whole, ← apart]
  split_ifs <;> omega

end Split

/-- A million tokens cost one unit, and nothing when half of them are from the cache. -/
theorem halved_input_free :
    let price : ModelPrice := ⟨some ⟨1, by decide, by decide⟩, none, none, none⟩
    let million : I64 := ⟨1000000, by decide, by decide⟩
    let half : I64 := ⟨500000, by decide, by decide⟩
    computeCost (fun _ => some price) [] (some million) none (some 0) (some 0) = 1 ∧
      computeCost (fun _ => some price) [] (some million) none (some half) (some 0) = 0 := by
  decide +kernel

def threeUnits : Price := ⟨3000000, by decide, by decide⟩

theorem whole_units_cost_alike :
    let prices : Str → Option ModelPrice := fun _ => some ⟨some threeUnits, none, none, none⟩
    let input : I64 := ⟨20, by decide, by decide⟩
    let read : I64 := ⟨8, by decide, by decide⟩
    computeCost prices [] (some input) none (some read) none =
      computeCost prices [] (some input) none (some 0) (some 0) := by
  intro prices input read
  have found : prices [] = some ⟨some threeUnits, none, none, none⟩ := rfl
  exact ((cost_of_split_iff found (by decide) (by decide) (by decide) none).2 threeUnits rfl rfl rfl).mpr
    (by decide)

section Record

def fallbackCost (cost : Str → Int) (model : Str) : Int → List Str → Int
  | held, [] => held
  | held, fallback :: rest =>
    if fallback = model then fallbackCost cost model held rest
    else if 0 < cost fallback then cost fallback
    else fallbackCost cost model (cost fallback) rest

def usageCost (prices : Str → Option ModelPrice) (usage : Option Usage) (model : Str) : Int :=
  computeCost prices model (usage.map (·.input)) (usage.map (·.output)) (usage.bind (·.cacheReadTokens))
    (usage.bind (·.cacheWriteTokens))

/-- The cost that `record` writes. -/
def recordedCost (prices : Str → Option ModelPrice) (model : Str) (pricingModels : List Str)
    (usage : Option Usage) :
    Int :=
  let cost := usageCost prices usage model
  if cost = 0 ∧ usage.isSome then fallbackCost (usageCost prices usage) model cost pricingModels else cost

def entryCost (prices : Str → Option ModelPrice) (model : Str) (pricingModels : List Str) (usage : Option Usage) :
    Int :=
  ((model :: pricingModels).find? fun model => (prices model).isSome).elim 0 (usageCost prices usage)

def otherModels (model : Str) (pricingModels : List Str) : List Str := pricingModels.filter (· ≠ model)

variable {cost : Str → Int} {model : Str}

theorem fallbackCost_eq (held : Int) (models : List Str) : fallbackCost cost model held models =
    ((otherModels model models).find? (0 < cost ·)).elim
      ((otherModels model models).getLast?.elim held cost) cost := by
  induction models generalizing held with
  | nil => rfl
  | cons fallback rest ih =>
    rw [fallbackCost]
    split_ifs with own charged
    · rw [ih, otherModels, otherModels, filter_cons_of_neg (by simpa using own)]
    · simp [otherModels, own, charged]
    · rw [ih, otherModels, otherModels, filter_cons_of_pos (by simpa using own),
        find?_cons_of_neg (by simpa using charged), getLast?_cons]
      cases (rest.filter (· ≠ model)).getLast? <;> rfl

variable {prices : Str → Option ModelPrice} {pricingModels : List Str} {usage : Option Usage}

theorem usageCost_unpriced (missing : prices model = none) : usageCost prices usage model = 0 := by
  rw [usageCost, computeCost, missing]

theorem usageCost_none : usageCost prices none model = 0 := by
  rw [usageCost, computeCost]
  cases prices model <;> rfl

theorem exists_charging (own : usageCost prices usage model = 0)
    (charged : 0 < entryCost prices model pricingModels usage) :
    ∃ first, (otherModels model pricingModels).find? (0 < usageCost prices usage ·) = some first ∧
      usageCost prices usage first = entryCost prices model pricingModels usage := by
  rw [entryCost] at charged ⊢
  cases found : (model :: pricingModels).find? fun model => (prices model).isSome with
  | none => simp [found] at charged
  | some first =>
    rw [found, elim_some] at charged
    refine ⟨first, ?_, rfl⟩
    obtain ⟨-, before, after, parts, unpriced⟩ := find?_eq_some_iff_append.mp found
    have other : first ≠ model := by
      rintro rfl
      omega
    obtain ⟨rfl, same⟩ | ⟨others, rfl, rfl⟩ := cons_eq_append_iff.mp parts
    · exact absurd (cons.inj same).1 other
    · have silent : (others.filter (· ≠ model)).find? (0 < usageCost prices usage ·) = none := by
        refine find?_eq_none.mpr fun earlier mem => ?_
        have missing := unpriced earlier (mem_cons_of_mem _ (mem_filter.mp mem).1)
        simp [usageCost_unpriced (by simpa using missing)]
      rw [otherModels, filter_append, find?_append, silent, none_or,
        filter_cons_of_pos (by simpa using other), find?_cons_of_pos (by simpa using charged)]

/-- The entry that should decide does so exactly if there is no usage, its cost or the own one is charged, or no
other model charges anything and the last one costs the same. -/
theorem recordedCost_eq_entryCost_iff :
    recordedCost prices model pricingModels usage = entryCost prices model pricingModels usage ↔
    usage = none ∨ usageCost prices usage model ≠ 0 ∨ 0 < entryCost prices model pricingModels usage ∨
      (∀ other ∈ otherModels model pricingModels, usageCost prices usage other ≤ 0) ∧
        (otherModels model pricingModels).getLast?.elim 0 (usageCost prices usage) =
          entryCost prices model pricingModels usage := by
  cases usage with
  | none =>
    simp only [recordedCost, usageCost_none, entryCost, true_or, iff_true]
    cases (model :: pricingModels).find? fun model => (prices model).isSome <;> simp [usageCost_none]
  | some usage =>
    by_cases own : usageCost prices (some usage) model = 0
    · rw [recordedCost, if_pos ⟨own, rfl⟩, own, fallbackCost_eq]
      simp only [reduceCtorEq, ne_eq, not_true_eq_false, false_or]
      by_cases charged : 0 < entryCost prices model pricingModels (some usage)
      · obtain ⟨first, found, same⟩ := exists_charging own charged
        simp [found, same, charged]
      · cases found : (otherModels model pricingModels).find? (0 < usageCost prices (some usage) ·) with
        | some first =>
          have positive : 0 < usageCost prices (some usage) first := by simpa using find?_some found
          refine iff_of_false (fun same => charged (same ▸ positive)) ?_
          rintro (more | ⟨silent, -⟩)
          · exact charged more
          · exact absurd (silent first (mem_of_find?_eq_some found)) (by omega)
        | none =>
          have silent := find?_eq_none.mp found
          simp only [elim_none, charged, false_or]
          exact (and_iff_right fun other member => by simpa using silent other member).symm
    · have priced : (prices model).isSome := isSome_iff_ne_none.mpr (own ∘ usageCost_unpriced)
      have decided : entryCost prices model pricingModels (some usage) = usageCost prices (some usage) model := by
        simp [entryCost, priced]
      rw [recordedCost, if_neg (own ·.1), decided]
      simp [own]

/-- The model's own entry is free, but the fallback is charged. -/
theorem free_entry_overruled :
    let nothing : Price := ⟨0, by decide, by decide⟩
    let free : ModelPrice := ⟨some nothing, some nothing, none, none⟩
    let paid : ModelPrice := ⟨some threeUnits, some threeUnits, none, none⟩
    let prices : Str → Option ModelPrice := fun model => if model = ['f'] then some free else some paid
    let usage : Usage := ⟨some ⟨20, by decide, by decide⟩, some 0, none, none, none, none⟩
    recordedCost prices ['f'] [['f'], ['p']] (some usage) = 60 ∧
      entryCost prices ['f'] [['f'], ['p']] (some usage) = 0 := by
  decide +kernel

end Record

end LlmGateway
