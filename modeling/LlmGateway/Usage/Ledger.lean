import LlmGateway.Lib.Machine
import LlmGateway.Usage.Cache

namespace LlmGateway

open List UsageCache

def PlanCall.For (userId planId : Int) (call : PlanCall) : Prop :=
  (call.userId, call.planId) = (userId, planId)

/-- The call bills this user and plan in the period `current`. -/
def PlanCall.Current (userId planId : Int) (current : String) (call : PlanCall) : Prop :=
  call.For userId planId ∧ call.periodKey = current

def PlanCall.Late (userId planId : Int) (current : String) (call : PlanCall) : Prop :=
  call.For userId planId ∧ call.periodKey ≠ current

instance (userId planId : Int) : DecidablePred (PlanCall.For userId planId) :=
  fun call => inferInstanceAs (Decidable ((call.userId, call.planId) = (userId, planId)))

instance (userId planId : Int) (current : String) : DecidablePred (PlanCall.Current userId planId current) :=
  fun call => inferInstanceAs (Decidable (call.For userId planId ∧ call.periodKey = current))

instance (userId planId : Int) (current : String) : DecidablePred (PlanCall.Late userId planId current) :=
  fun call => inferInstanceAs (Decidable (call.For userId planId ∧ call.periodKey ≠ current))

def billed (userId planId : Int) (current : String) (calls : List PlanCall) : I64 :=
  I64.saturatingSum ((calls.filter (PlanCall.Current userId planId current)).map PlanCall.tokens)

def UsageCache.applyAll (c : UsageCache) (calls : List PlanCall) : UsageCache :=
  calls.foldl apply c

section
variable {userId planId : Int} {current : String} {calls : List PlanCall}

def currentTokens (userId planId : Int) (current : String) (calls : List PlanCall) : Int :=
  ((calls.filter (PlanCall.Current userId planId current)).map fun call => call.tokens.val).sum

def wipedAndKept (userId planId : Int) (current : String) (calls : List PlanCall) : Int × Int :=
  calls.foldl (fun (wiped, kept) call =>
    if call.Late userId planId current then (wiped + kept, 0)
    else if call.Current userId planId current then (wiped, kept + call.tokens.val)
    else (wiped, kept)) (0, 0)

theorem PlanCall.Late.not_current {call : PlanCall} (late : call.Late userId planId current) :
    ¬call.Current userId planId current := fun mine => late.2 mine.2

theorem PlanCall.current_of_for {call : PlanCall} (mine : call.For userId planId)
    (notLate : ¬call.Late userId planId current) : call.Current userId planId current := by
  refine ⟨mine, ?_⟩
  by_contra different
  exact notLate ⟨mine, different⟩

theorem wipedAndKept_snoc (calls : List PlanCall) (call : PlanCall) :
    wipedAndKept userId planId current (calls ++ [call]) =
      if call.Late userId planId current then
        ((wipedAndKept userId planId current calls).1 + (wipedAndKept userId planId current calls).2, 0)
      else if call.Current userId planId current then
        ((wipedAndKept userId planId current calls).1,
          (wipedAndKept userId planId current calls).2 + call.tokens.val)
      else wipedAndKept userId planId current calls := by
  simp [wipedAndKept, foldl_append]

theorem currentTokens_append (first second : List PlanCall) :
    currentTokens userId planId current (first ++ second) =
      currentTokens userId planId current first + currentTokens userId planId current second := by
  simp [currentTokens]

theorem currentTokens_singleton (call : PlanCall) :
    currentTokens userId planId current [call] =
      if call.Current userId planId current then call.tokens.val else 0 := by
  by_cases mine : call.Current userId planId current <;> simp [currentTokens, mine]

theorem wiped_add_kept (calls : List PlanCall) :
    (wipedAndKept userId planId current calls).1 + (wipedAndKept userId planId current calls).2 =
      currentTokens userId planId current calls := by
  induction calls using List.reverseRecOn with
  | nil => rfl
  | append_singleton calls call ih =>
    rw [wipedAndKept_snoc, currentTokens_append, currentTokens_singleton, ← ih]
    by_cases late : call.Late userId planId current
    · simp [if_pos late, if_neg late.not_current]
    · by_cases mine : call.Current userId planId current
      · simp only [if_neg late, if_pos mine]
        omega
      · simp only [if_neg late, if_neg mine]
        omega

theorem wipedAndKept_nonneg (userId planId : Int) (current : String)
    (nonneg : ∀ call ∈ calls, 0 ≤ call.tokens.val) :
    0 ≤ (wipedAndKept userId planId current calls).1 ∧
      0 ≤ (wipedAndKept userId planId current calls).2 := by
  induction calls using List.reverseRecOn with
  | nil => exact ⟨le_rfl, le_rfl⟩
  | append_singleton calls call ih =>
    obtain ⟨wiped, kept⟩ := ih fun earlier mem => nonneg earlier (mem_append_left _ mem)
    have tokens := nonneg call (by simp)
    rw [wipedAndKept_snoc]
    split
    · exact ⟨by simp only; omega, le_rfl⟩
    · split
      · exact ⟨wiped, by simp only; omega⟩
      · exact ⟨wiped, kept⟩

theorem getPlan_applyAll_val (nonneg : ∀ call ∈ calls, 0 ≤ call.tokens.val) :
    ((new.applyAll calls).getPlan userId planId current).val =
      min (wipedAndKept userId planId current calls).2 9223372036854775807 := by
  induction calls using List.reverseRecOn with
  | nil => rfl
  | append_singleton calls call ih =>
    have before := ih fun earlier mem => nonneg earlier (mem_append_left _ mem)
    have tokens := nonneg call (by simp)
    have earlier := (wipedAndKept_nonneg userId planId current
      fun earlier mem => nonneg earlier (mem_append_left [call] mem)).2
    rw [wipedAndKept_snoc]
    simp only [applyAll, foldl_append, foldl_cons, foldl_nil,
      apply] at before ⊢
    by_cases mine : call.For userId planId
    · obtain ⟨sameUser, samePlan⟩ := Prod.mk.inj mine
      by_cases late : call.Late userId planId current
      · rw [sameUser, samePlan, getPlan_incrPlan_late _ _ _ _ late.2, if_pos late]
        rfl
      · have isCurrent := PlanCall.current_of_for mine late
        rw [if_neg late, if_pos isCurrent, sameUser, samePlan, isCurrent.2,
          getPlan_incrPlan_same _ _ _ _ _ (.inl tokens), I64.saturatingAdd_val, before]
        omega
    · have notLate : ¬call.Late userId planId current := fun late => mine late.1
      have notCurrent : ¬call.Current userId planId current := fun isCurrent => mine isCurrent.1
      rw [if_neg notLate, if_neg notCurrent,
        getPlan_incrPlan_other _ _ _ _ fun same => mine same.symm]
      exact before

theorem billed_val (nonneg : ∀ call ∈ calls, 0 ≤ call.tokens.val) :
    (billed userId planId current calls).val =
      min (currentTokens userId planId current calls) 9223372036854775807 := by
  unfold billed currentTokens
  rw [I64.saturatingSum_val]
  · rw [map_map]
    rfl
  · intro v mem
    obtain ⟨call, inside, rfl⟩ := mem_map.mp mem
    exact nonneg call (mem_of_mem_filter inside)

def NoneBeforeLate (userId planId : Int) (current : String) (calls : List PlanCall) : Prop :=
  ∀ before late after, calls = before ++ late :: after → late.Late userId planId current →
    ∀ call ∈ before, call.Current userId planId current → call.tokens = 0

def SaturatedSinceLate (userId planId : Int) (current : String) (calls : List PlanCall) : Prop :=
  ∃ before after, calls = before ++ after ∧ (∀ call ∈ after, ¬call.Late userId planId current) ∧
    billed userId planId current after = I64.maxValue

theorem currentTokens_eq_zero_iff (nonneg : ∀ call ∈ calls, 0 ≤ call.tokens.val) :
    currentTokens userId planId current calls = 0 ↔
      ∀ call ∈ calls, call.Current userId planId current → call.tokens = 0 := by
  induction calls with
  | nil => simp [currentTokens]
  | cons call calls ih =>
    have later := ih fun other mem => nonneg other (mem_cons_of_mem _ mem)
    have tokens := nonneg call (mem_cons_self ..)
    have split : currentTokens userId planId current (call :: calls) =
        currentTokens userId planId current [call] + currentTokens userId planId current calls :=
      currentTokens_append [call] calls
    have rest : 0 ≤ currentTokens userId planId current calls := by
      rw [← wiped_add_kept]
      have parts := wipedAndKept_nonneg userId planId current
        fun other mem => nonneg other (mem_cons_of_mem call mem)
      omega
    rw [split, currentTokens_singleton]
    by_cases mine : call.Current userId planId current
    · rw [if_pos mine]
      constructor
      · intro zero other mem isCurrent
        rcases mem_cons.mp mem with rfl | inRest
        · ext
          simp only [I64.zero_val]
          omega
        · exact later.mp (by omega) other inRest isCurrent
      · intro zeros
        have head := zeros call (mem_cons_self ..) mine
        have tail := later.mpr fun other mem => zeros other (mem_cons_of_mem _ mem)
        rw [head, tail]
        rfl
    · rw [if_neg mine, Int.zero_add, later]
      constructor
      · intro zeros other mem isCurrent
        rcases mem_cons.mp mem with rfl | inRest
        · exact absurd isCurrent mine
        · exact zeros other inRest isCurrent
      · exact fun zeros other mem => zeros other (mem_cons_of_mem _ mem)

theorem noneBeforeLate_snoc (calls : List PlanCall) (call : PlanCall) :
    NoneBeforeLate userId planId current (calls ++ [call]) ↔
      NoneBeforeLate userId planId current calls ∧ (call.Late userId planId current →
        ∀ earlier ∈ calls, earlier.Current userId planId current → earlier.tokens = 0) :=
  Machine.forall_split_concat

theorem wiped_eq_zero_iff (nonneg : ∀ call ∈ calls, 0 ≤ call.tokens.val) :
    (wipedAndKept userId planId current calls).1 = 0 ↔ NoneBeforeLate userId planId current calls := by
  induction calls using List.reverseRecOn with
  | nil => simp [wipedAndKept, NoneBeforeLate]
  | append_singleton calls call ih =>
    have earlier : ∀ call ∈ calls, 0 ≤ call.tokens.val :=
      fun other mem => nonneg other (mem_append_left _ mem)
    rw [noneBeforeLate_snoc, ← ih earlier, wipedAndKept_snoc]
    have parts := wipedAndKept_nonneg userId planId current earlier
    by_cases late : call.Late userId planId current
    · rw [if_pos late, ← currentTokens_eq_zero_iff earlier, wiped_add_kept]
      rw [← wiped_add_kept]
      constructor
      · exact fun zero => ⟨by omega, fun _ => zero⟩
      · exact fun both => both.2 late
    · rw [if_neg late]
      have same : (if call.Current userId planId current then
          ((wipedAndKept userId planId current calls).1,
            (wipedAndKept userId planId current calls).2 + call.tokens.val)
          else wipedAndKept userId planId current calls).1 =
          (wipedAndKept userId planId current calls).1 := by split <;> rfl
      rw [same]
      exact ⟨fun zero => ⟨zero, fun isLate => absurd isLate late⟩, And.left⟩

theorem kept_suffix (userId planId : Int) (current : String) (calls : List PlanCall) :
    ∃ before after, calls = before ++ after ∧ (∀ call ∈ after, ¬call.Late userId planId current) ∧
      currentTokens userId planId current after = (wipedAndKept userId planId current calls).2 := by
  induction calls using List.reverseRecOn with
  | nil => exact ⟨[], [], rfl, by simp, rfl⟩
  | append_singleton calls call ih =>
    by_cases late : call.Late userId planId current
    · exact ⟨calls ++ [call], [], by simp, by simp, by rw [wipedAndKept_snoc, if_pos late]; rfl⟩
    · obtain ⟨before, after, same, free, total⟩ := ih
      refine ⟨before, after ++ [call], by rw [same, append_assoc], ?_, ?_⟩
      · intro other mem
        rcases mem_append.mp mem with inAfter | last
        · exact free other inAfter
        · exact mem_singleton.mp last ▸ late
      · rw [currentTokens_append, currentTokens_singleton, total, wipedAndKept_snoc, if_neg late]
        split
        · rfl
        · omega

theorem suffix_le_kept (nonneg : ∀ call ∈ calls, 0 ≤ call.tokens.val) {before after : List PlanCall}
    (same : calls = before ++ after) (free : ∀ call ∈ after, ¬call.Late userId planId current) :
    currentTokens userId planId current after ≤ (wipedAndKept userId planId current calls).2 := by
  induction calls using List.reverseRecOn generalizing after with
  | nil =>
    obtain ⟨rfl, rfl⟩ := append_eq_nil_iff.mp same.symm
    exact le_rfl
  | append_singleton calls call ih =>
    have earlier : ∀ call ∈ calls, 0 ≤ call.tokens.val :=
      fun other mem => nonneg other (mem_append_left _ mem)
    rcases eq_nil_or_concat after with rfl | ⟨after', final, rfl⟩
    · exact (wipedAndKept_nonneg userId planId current nonneg).2
    · rw [concat_eq_append, ← append_assoc] at same
      obtain ⟨rfl, last⟩ := append_inj' same rfl
      cases singleton_inj.mp last
      rw [concat_eq_append] at free ⊢
      have bound := ih earlier rfl fun other mem => free other (mem_append_left _ mem)
      have notLate := free call (by simp)
      rw [currentTokens_append, currentTokens_singleton, wipedAndKept_snoc, if_neg notLate]
      split
      · simp only
        omega
      · omega

theorem saturatedSinceLate_iff (nonneg : ∀ call ∈ calls, 0 ≤ call.tokens.val) :
    9223372036854775807 ≤ (wipedAndKept userId planId current calls).2 ↔
      SaturatedSinceLate userId planId current calls := by
  have full : ∀ after : List PlanCall, (∀ call ∈ after, 0 ≤ call.tokens.val) →
      (billed userId planId current after = I64.maxValue ↔
        9223372036854775807 ≤ currentTokens userId planId current after) := by
    intro after positive
    rw [I64.ext_iff, billed_val positive, I64.maxValue_val]
    omega
  constructor
  · intro enough
    obtain ⟨before, after, same, free, total⟩ :=
      kept_suffix userId planId current calls
    have positive : ∀ call ∈ after, 0 ≤ call.tokens.val :=
      fun call mem => nonneg call (same ▸ mem_append_right _ mem)
    exact ⟨before, after, same, free, (full after positive).mpr (total ▸ enough)⟩
  · rintro ⟨before, after, same, free, saturated⟩
    have positive : ∀ call ∈ after, 0 ≤ call.tokens.val :=
      fun call mem => nonneg call (same ▸ mem_append_right _ mem)
    exact ((full after positive).mp saturated).trans (suffix_le_kept nonneg same free)

/-- The cache agrees with the ledger exactly when no bill with tokens precedes a late one, or those since the last
late one saturate. -/
theorem getPlan_eq_billed_iff (userId planId : Int) (current : String) (calls : List PlanCall)
    (nonneg : ∀ call ∈ calls, 0 ≤ call.tokens.val) :
    (new.applyAll calls).getPlan userId planId current = billed userId planId current calls ↔
      NoneBeforeLate userId planId current calls ∨ SaturatedSinceLate userId planId current calls := by
  rw [← wiped_eq_zero_iff nonneg, ← saturatedSinceLate_iff nonneg, I64.ext_iff,
    getPlan_applyAll_val nonneg, billed_val nonneg, ← wiped_add_kept]
  have parts := wipedAndKept_nonneg userId planId current nonneg
  omega

end

def lateBillRun : List PlanCall :=
  [⟨1, 1, "m:2026-05", I64.clamp 10⟩, ⟨1, 1, "m:2026-04", I64.clamp 5⟩, ⟨1, 1, "m:2026-05", I64.clamp 3⟩]

/-- The late bill wipes the ten tokens that May had already used. -/
theorem late_bill_wipes_current :
    (∀ call ∈ lateBillRun, 0 ≤ call.tokens.val) ∧
      (new.applyAll lateBillRun).getPlan 1 1 "m:2026-05" ≠ billed 1 1 "m:2026-05" lateBillRun := by
  decide

/-- Without the first bill of May the same late bill does no harm. -/
theorem late_bill_first_is_harmless :
    (new.applyAll lateBillRun.tail).getPlan 1 1 "m:2026-05" =
      billed 1 1 "m:2026-05" lateBillRun.tail := by
  refine (getPlan_eq_billed_iff 1 1 "m:2026-05" lateBillRun.tail (by decide)).mpr (.inl ?_)
  rw [← wiped_eq_zero_iff (by decide)]
  decide

end LlmGateway
