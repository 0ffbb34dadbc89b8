import LlmGateway.Usage.Ledger

namespace LlmGateway

open Machine List Function Option UsageCache

/-- The counters of the period and the cache over them, with every request and reload in between. -/
structure QuotaState where
  counter : Int × Int → Option I64
  cache : UsageCache
  /-- committed in the database, `incr_plan` still to come -/
  billing : List PlanCall
  /-- read from the database, not yet merged -/
  reloading : List (List PlanUsageSnapshot)

inductive QuotaAction
  | commit (userId planId : Int) (tokens : I64)
  | incr (i : Nat)
  | snapshot (pairs : List (Int × Int))
  | merge (i : Nat)

/-- The counter upsert of `record_usage`. An addition out of the bigint range
fails and takes the whole transaction with it. -/
def recordUsage (counter : Int × Int → Option I64) (pair : Int × Int) (tokens : I64) :
    Option (Int × Int → Option I64) :=
  match counter pair with
  | none => some (Function.update counter pair (some tokens))
  | some old => (old.checkedAdd tokens).map fun sum => Function.update counter pair (some sum)

def loadUsageSnapshots (key : Int × Int → String) (counter : Int × Int → Option I64)
    (pairs : List (Int × Int)) : List PlanUsageSnapshot :=
  pairs.filterMap fun pair => (counter pair).map fun used => ⟨pair.1, pair.2, key pair, used⟩

/-- One atomic step. All requests carry the current key of their pair. -/
def quotaStep (key : Int × Int → String) (s : QuotaState) : QuotaAction → Option QuotaState
  | .commit userId planId tokens =>
    (recordUsage s.counter (userId, planId) tokens).map fun counter =>
      { s with counter, billing := s.billing ++ [⟨userId, planId, key (userId, planId), tokens⟩] }
  | .incr i => s.billing[i]?.map fun call =>
      { s with cache := s.cache.apply call, billing := s.billing.eraseIdx i }
  | .snapshot pairs => some
      { s with reloading := s.reloading ++ [loadUsageSnapshots key s.counter pairs] }
  | .merge i => s.reloading[i]?.map fun rows =>
      { s with cache := s.cache.reloadFromDb rows, reloading := s.reloading.eraseIdx i }

def Settled (entry : Option (String × I64)) (row : PlanUsageSnapshot) : Prop :=
  match entry with
  | some (k, v) => if k = row.periodKey then row.used ≤ v else row.used = 0
  | none => row.used = 0

/-- The bill can be added to the entry without clamping, as those that are not negative can, see `fits_of_nonneg`.
-/
def Fits (entry : Option (String × I64)) (call : PlanCall) : Prop :=
  match entry with
  | some (k, v) =>
    if k = call.periodKey then
      -9223372036854775808 ≤ v.val + call.tokens.val ∧ v.val + call.tokens.val ≤ 9223372036854775807
    else 0 ≤ call.tokens.val
  | none => True

instance (entry : Option (String × I64)) (row : PlanUsageSnapshot) : Decidable (Settled entry row) :=
  match entry with
  | some (k, v) => inferInstanceAs (Decidable (if k = row.periodKey then row.used ≤ v else row.used = 0))
  | none => inferInstanceAs (Decidable (row.used = 0))

instance (entry : Option (String × I64)) (call : PlanCall) : Decidable (Fits entry call) :=
  match entry with
  | some (k, v) => inferInstanceAs (Decidable (if k = call.periodKey then
      -9223372036854775808 ≤ v.val + call.tokens.val ∧ v.val + call.tokens.val ≤ 9223372036854775807
    else 0 ≤ call.tokens.val))
  | none => inferInstanceAs (Decidable True)

def NoOvertaking (s : QuotaState) : QuotaAction → Prop
  | .merge i => ∀ rows ∈ s.reloading[i]?, ∀ row ∈ rows, Settled (s.cache.planUsage (row.userId, row.planId)) row
  | .incr i => ∀ call ∈ s.billing[i]?, Fits (s.cache.planUsage (call.userId, call.planId)) call
  | _ => True

/-- What the cache shows of a pair, and what its requests still have to add,
is what the database has counted. -/
structure Balanced (key : Int × Int → String) (s : QuotaState) : Prop where
  sum : ∀ u p, (s.cache.getPlan u p (key (u, p))).val + currentTokens u p (key (u, p)) s.billing =
    ((s.counter (u, p)).getD 0).val
  billKeys : ∀ call ∈ s.billing, call.periodKey = key (call.userId, call.planId)
  rowKeys : ∀ rows ∈ s.reloading, ∀ row ∈ rows, row.periodKey = key (row.userId, row.planId)

section
variable {key : Int × Int → String} {s s' : QuotaState} {i : Nat} {call : PlanCall} {c : UsageCache}

theorem recordUsage_val {counter after : Int × Int → Option I64} {pair : Int × Int} {tokens : I64}
    (recorded : recordUsage counter pair tokens = some after) :
    ((after pair).getD 0).val = ((counter pair).getD 0).val + tokens.val ∧
      ∀ other, other ≠ pair → after other = counter other := by
  unfold recordUsage at recorded
  split at recorded
  next absent =>
    cases Option.some.inj recorded
    exact ⟨by simp [absent], fun other different => update_of_ne different ..⟩
  next old present =>
    obtain ⟨sum, added, rfl⟩ := map_eq_some_iff.mp recorded
    exact ⟨by simp [present, I64.checkedAdd_val added], fun other different => update_of_ne different ..⟩

theorem currentTokens_eraseIdx {u p : Int} {current : String} {calls : List PlanCall}
    (found : calls[i]? = some call) :
    currentTokens u p current calls =
      currentTokens u p current (calls.eraseIdx i) + currentTokens u p current [call] := by
  induction calls generalizing i with
  | nil => simp at found
  | cons head calls ih =>
    have cons : ∀ rest, currentTokens u p current (head :: rest) =
        currentTokens u p current [head] + currentTokens u p current rest :=
      fun rest => currentTokens_append [head] rest
    cases i with
    | zero =>
      simp only [List.getElem?_cons_zero, Option.some.injEq] at found
      rw [cons calls, found, eraseIdx_cons_zero, Int.add_comm]
    | succ i =>
      rw [cons calls, eraseIdx_cons_succ, cons (calls.eraseIdx i), ih found, Int.add_assoc]

theorem getPlan_mergeSnapshot_settled {row : PlanUsageSnapshot}
    (settled : Settled (c.planUsage (row.userId, row.planId)) row) :
    (c.mergeSnapshot row).getPlan row.userId row.planId row.periodKey =
      c.getPlan row.userId row.planId row.periodKey := by
  cases entry : c.planUsage (row.userId, row.planId) with
  | none =>
    rw [entry] at settled
    have zero : row.used = 0 := settled
    simp only [mergeSnapshot, entry]
    rw [getPlan_insert_self, if_pos rfl, zero]
    simp [getPlan, entry]
  | some kv =>
    obtain ⟨k, v⟩ := kv
    rw [entry] at settled
    simp only [Settled] at settled
    simp only [mergeSnapshot, entry]
    by_cases same : k = row.periodKey
    · rw [if_pos same] at settled
      rw [if_pos ⟨same, settled⟩]
    · rw [if_neg same] at settled
      rw [if_neg (fun both => same both.1), getPlan_insert_self, if_pos rfl, settled]
      simp [getPlan, entry, same]

theorem settled_mergeSnapshot {row other : PlanUsageSnapshot}
    (rowKey : row.periodKey = key (row.userId, row.planId))
    (otherKey : other.periodKey = key (other.userId, other.planId))
    (settled : Settled (c.planUsage (row.userId, row.planId)) row)
    (waiting : Settled (c.planUsage (other.userId, other.planId)) other) :
    Settled ((c.mergeSnapshot row).planUsage (other.userId, other.planId)) other := by
  by_cases pair : (other.userId, other.planId) = (row.userId, row.planId)
  · rw [pair] at waiting otherKey ⊢
    have sameKey : other.periodKey = row.periodKey := otherKey.trans rowKey.symm
    unfold mergeSnapshot
    split
    next k v present =>
      rw [present] at settled waiting
      simp only [Settled] at settled waiting
      split
      · rw [present]
        exact waiting
      next ahead =>
        have different : k ≠ row.periodKey := by
          intro same
          rw [if_pos same] at settled
          exact ahead ⟨same, settled⟩
        rw [if_neg different] at settled
        rw [if_neg (sameKey ▸ different)] at waiting
        simp [Settled, UsageCache.insert, sameKey, settled, waiting, I64.le_iff]
    next absent =>
      rw [absent] at settled waiting
      simp only [Settled] at settled waiting
      simp [Settled, UsageCache.insert, sameKey, settled, waiting, I64.le_iff]
  · have unchanged : (c.mergeSnapshot row).planUsage (other.userId, other.planId) =
        c.planUsage (other.userId, other.planId) := by
      unfold mergeSnapshot
      split
      · split
        · rfl
        · exact update_of_ne pair ..
      · exact update_of_ne pair ..
    rw [unchanged]
    exact waiting

theorem getPlan_reloadFromDb_settled {rows : List PlanUsageSnapshot}
    (keys : ∀ row ∈ rows, row.periodKey = key (row.userId, row.planId))
    (settled : ∀ row ∈ rows, Settled (c.planUsage (row.userId, row.planId)) row) (u p : Int) :
    (c.reloadFromDb rows).getPlan u p (key (u, p)) = c.getPlan u p (key (u, p)) := by
  induction rows generalizing c with
  | nil => rfl
  | cons row rows ih =>
    have rowKey := keys row (mem_cons_self ..)
    have rowSettled := settled row (mem_cons_self ..)
    have later := ih (c := c.mergeSnapshot row) (fun other mem => keys other (mem_cons_of_mem _ mem))
      fun other mem => settled_mergeSnapshot rowKey (keys other (mem_cons_of_mem _ mem)) rowSettled
        (settled other (mem_cons_of_mem _ mem))
    change ((c.mergeSnapshot row).reloadFromDb rows).getPlan u p _ = _
    rw [later]
    by_cases pair : (u, p) = (row.userId, row.planId)
    · obtain ⟨rfl, rfl⟩ := Prod.mk.inj pair
      rw [← rowKey]
      exact getPlan_mergeSnapshot_settled rowSettled
    · exact c.getPlan_mergeSnapshot_other row _ pair

theorem getPlan_apply_fits (fits : Fits (c.planUsage (call.userId, call.planId)) call) :
    ((c.apply call).getPlan call.userId call.planId call.periodKey).val =
      (c.getPlan call.userId call.planId call.periodKey).val + call.tokens.val := by
  have clean : 0 ≤ call.tokens.val ∨
      ∀ k v, c.planUsage (call.userId, call.planId) = some (k, v) → k = call.periodKey := by
    by_cases nonneg : 0 ≤ call.tokens.val
    · exact .inl nonneg
    · right
      intro k v present
      rw [present] at fits
      by_contra different
      simp only [Fits, if_neg different] at fits
      exact nonneg fits
  unfold apply
  rw [getPlan_incrPlan_same _ _ _ _ _ clean]
  cases entry : c.planUsage (call.userId, call.planId) with
  | none =>
    have zero : c.getPlan call.userId call.planId call.periodKey = 0 := by simp [getPlan, entry]
    rw [zero, I64.zero_saturatingAdd, I64.zero_val, Int.zero_add]
  | some kv =>
    obtain ⟨k, v⟩ := kv
    rw [entry] at fits
    by_cases same : k = call.periodKey
    · have value : c.getPlan call.userId call.planId call.periodKey = v := by
        simp [getPlan, entry, same]
      simp only [Fits, if_pos same] at fits
      rw [value, I64.saturatingAdd_val_of_fits fits.1 fits.2]
    · have zero : c.getPlan call.userId call.planId call.periodKey = 0 := by
        simp [getPlan, entry, same]
      rw [zero, I64.zero_saturatingAdd, I64.zero_val, Int.zero_add]

theorem getPlan_apply_other {u p : Int} (periodKey : String) (other : (u, p) ≠ (call.userId, call.planId)) :
    (c.apply call).getPlan u p periodKey = c.getPlan u p periodKey :=
  c.getPlan_incrPlan_other _ _ _ other

theorem Balanced.commit {userId planId : Int} {tokens : I64} (balanced : Balanced key s)
    (stepped : quotaStep key s (.commit userId planId tokens) = some s') : Balanced key s' := by
  obtain ⟨counter, recorded, rfl⟩ := map_eq_some_iff.mp stepped
  obtain ⟨counted, others⟩ := recordUsage_val recorded
  refine ⟨?_, ?_, balanced.rowKeys⟩
  · intro u p
    have before := balanced.sum u p
    simp only [currentTokens_append, currentTokens_singleton]
    by_cases pair : (u, p) = (userId, planId)
    · obtain ⟨rfl, rfl⟩ := Prod.mk.inj pair
      have mine : PlanCall.Current u p (key (u, p)) ⟨u, p, key (u, p), tokens⟩ := ⟨rfl, rfl⟩
      rw [if_pos mine, counted]
      omega
    · have notMine : ¬PlanCall.Current u p (key (u, p)) ⟨userId, planId, key (userId, planId), tokens⟩ :=
        fun mine => pair mine.1.symm
      rw [if_neg notMine, others _ pair]
      omega
  · intro call mem
    rcases mem_append.mp mem with old | new
    · exact balanced.billKeys call old
    · rw [mem_singleton.mp new]

theorem Balanced.incr (balanced : Balanced key s) (allowed : NoOvertaking s (.incr i))
    (stepped : quotaStep key s (.incr i) = some s') : Balanced key s' := by
  obtain ⟨call, found, rfl⟩ := map_eq_some_iff.mp stepped
  have mem := mem_of_getElem? found
  have fits := allowed call found
  have callKey := balanced.billKeys call mem
  refine ⟨?_, fun other inside => balanced.billKeys other (mem_of_mem_eraseIdx inside), balanced.rowKeys⟩
  intro u p
  have before := balanced.sum u p
  rw [currentTokens_eraseIdx found, currentTokens_singleton] at before
  by_cases pair : (u, p) = (call.userId, call.planId)
  · obtain ⟨rfl, rfl⟩ := Prod.mk.inj pair
    have mine : call.Current call.userId call.planId (key (call.userId, call.planId)) := ⟨rfl, callKey⟩
    have added := getPlan_apply_fits fits
    rw [if_pos mine] at before
    rw [callKey] at added
    simp only [added]
    omega
  · have notMine : ¬call.Current u p (key (u, p)) := fun mine => pair mine.1.symm
    rw [if_neg notMine] at before
    simp only [getPlan_apply_other _ pair]
    omega

theorem Balanced.snapshot {pairs : List (Int × Int)} (balanced : Balanced key s)
    (stepped : quotaStep key s (.snapshot pairs) = some s') : Balanced key s' := by
  cases Option.some.inj stepped
  refine ⟨balanced.sum, balanced.billKeys, ?_⟩
  intro rows mem
  rcases mem_append.mp mem with old | new
  · exact balanced.rowKeys rows old
  · rw [mem_singleton.mp new]
    intro row inside
    obtain ⟨pair, _, read⟩ := mem_filterMap.mp inside
    obtain ⟨used, _, rfl⟩ := map_eq_some_iff.mp read
    rfl

theorem Balanced.merge (balanced : Balanced key s) (allowed : NoOvertaking s (.merge i))
    (stepped : quotaStep key s (.merge i) = some s') : Balanced key s' := by
  obtain ⟨rows, found, rfl⟩ := map_eq_some_iff.mp stepped
  have keys := balanced.rowKeys rows (mem_of_getElem? found)
  refine ⟨?_, balanced.billKeys, fun other inside => balanced.rowKeys other (mem_of_mem_eraseIdx inside)⟩
  intro u p
  simp only [getPlan_reloadFromDb_settled keys (allowed rows found)]
  exact balanced.sum u p

theorem balanced_step {a : QuotaAction} (balanced : Balanced key s) (allowed : NoOvertaking s a)
    (stepped : quotaStep key s a = some s') : Balanced key s' := by
  cases a with
  | commit userId planId tokens => exact balanced.commit stepped
  | incr i => exact balanced.incr allowed stepped
  | snapshot pairs => exact balanced.snapshot stepped
  | merge i => exact balanced.merge allowed stepped

/-- The database and the cache agree and nothing is under way. -/
structure InStep (key : Int × Int → String) (s : QuotaState) : Prop where
  agrees : ∀ u p, s.cache.getPlan u p (key (u, p)) = (s.counter (u, p)).getD 0
  billing : s.billing = []
  reloading : s.reloading = []

theorem InStep.balanced (inStep : InStep key s) : Balanced key s where
  sum u p := by rw [inStep.agrees, inStep.billing]; exact Int.add_zero _
  billKeys := by simp [inStep.billing]
  rowKeys := by simp [inStep.reloading]

theorem Balanced.agrees (balanced : Balanced key s) (finished : s.billing = []) (u p : Int) :
    s.cache.getPlan u p (key (u, p)) = (s.counter (u, p)).getD 0 := by
  have sum := balanced.sum u p
  rw [finished] at sum
  ext
  rw [← sum]
  exact (Int.add_zero _).symm

theorem InStep.balanced_of_reach {start : QuotaState} {trace : List QuotaAction} (inStep : InStep key start)
    (reach : Reach (quotaStep key) NoOvertaking start trace s) : Balanced key s :=
  reach.invariant (Balanced key) inStep.balanced fun _ _ _ before allowed stepped =>
    balanced_step before allowed stepped

/-- If no reload overtakes a request, cache and counters agree as soon as every request has run its `incr_plan`. -/
theorem quota_in_step_without_overtaking {start : QuotaState} {trace : List QuotaAction}
    (inStep : InStep key start) (reach : Reach (quotaStep key) NoOvertaking start trace s)
    (finished : s.billing = []) (u p : Int) :
    s.cache.getPlan u p (key (u, p)) = (s.counter (u, p)).getD 0 :=
  (inStep.balanced_of_reach reach).agrees finished u p

end

section
variable {key : Int × Int → String} {s : QuotaState}

theorem fits_of_nonneg (balanced : Balanced key s) (nonneg : ∀ call ∈ s.billing, 0 ≤ call.tokens.val)
    {i : Nat} {call : PlanCall} (found : s.billing[i]? = some call) :
    Fits (s.cache.planUsage (call.userId, call.planId)) call := by
  have mem := mem_of_getElem? found
  have tokens := nonneg call mem
  have callKey := balanced.billKeys call mem
  cases entry : s.cache.planUsage (call.userId, call.planId) with
  | none => trivial
  | some kv =>
    obtain ⟨k, v⟩ := kv
    by_cases same : k = call.periodKey
    · have sum := balanced.sum call.userId call.planId
      have value : s.cache.getPlan call.userId call.planId (key (call.userId, call.planId)) = v := by
        simp [getPlan, entry, same, callKey]
      have rest := wipedAndKept_nonneg call.userId call.planId (key (call.userId, call.planId))
        (fun other inside => nonneg other (mem_of_mem_eraseIdx inside) :
          ∀ other ∈ s.billing.eraseIdx i, 0 ≤ other.tokens.val)
      have mine : call.Current call.userId call.planId (key (call.userId, call.planId)) := ⟨rfl, callKey⟩
      rw [value, currentTokens_eraseIdx found, currentTokens_singleton, if_pos mine,
        ← wiped_add_kept] at sum
      have upper := ((s.counter (call.userId, call.planId)).getD 0).upper
      have lower := v.lower
      simp only [Fits, if_pos same]
      omega
    · simp only [Fits, if_neg same]
      exact tokens

def SettledMerges (s : QuotaState) : QuotaAction → Prop
  | .commit _ _ tokens => 0 ≤ tokens.val
  | .merge i => NoOvertaking s (.merge i)
  | _ => True

theorem noOvertaking_of_settledMerges {start : QuotaState} {trace : List QuotaAction}
    (inStep : InStep key start) (reach : Reach (quotaStep key) SettledMerges start trace s) :
    Reach (quotaStep key) NoOvertaking start trace s ∧ Balanced key s ∧
      ∀ call ∈ s.billing, 0 ≤ call.tokens.val := by
  induction reach with
  | start => exact ⟨.start, inStep.balanced, by simp [inStep.billing]⟩
  | @next trace s a s' previous allowed stepped ih =>
    obtain ⟨reach, balanced, nonneg⟩ := ih
    have guarded : NoOvertaking s a := by
      cases a with
      | commit => trivial
      | incr i => exact fun call found => fits_of_nonneg balanced nonneg found
      | snapshot => trivial
      | merge i => exact allowed
    refine ⟨.next reach guarded stepped, balanced_step balanced guarded stepped, ?_⟩
    cases a with
    | commit userId planId tokens =>
      obtain ⟨counter, _, rfl⟩ := map_eq_some_iff.mp stepped
      intro call mem
      rcases mem_append.mp mem with old | new
      · exact nonneg call old
      · rw [mem_singleton.mp new]
        exact allowed
    | incr i =>
      obtain ⟨_, _, rfl⟩ := map_eq_some_iff.mp stepped
      exact fun call mem => nonneg call (mem_of_mem_eraseIdx mem)
    | snapshot pairs =>
      cases Option.some.inj stepped
      exact nonneg
    | merge i =>
      obtain ⟨_, _, rfl⟩ := map_eq_some_iff.mp stepped
      exact nonneg

/-- Where no bill is negative, only the merges have to wait for the requests. -/
theorem InStep.agrees_of_settledMerges {start : QuotaState} {trace : List QuotaAction}
    (inStep : InStep key start) (reach : Reach (quotaStep key) SettledMerges start trace s)
    (finished : s.billing = []) (u p : Int) :
    s.cache.getPlan u p (key (u, p)) = (s.counter (u, p)).getD 0 := by
  obtain ⟨guarded, _⟩ := noOvertaking_of_settledMerges inStep reach
  exact (inStep.balanced_of_reach guarded).agrees finished u p

end

def overtakingRun : List QuotaAction :=
  [.commit 1 1 (I64.clamp 10), .snapshot [(1, 1)], .merge 0, .incr 0]

def emptyQuota : QuotaState := ⟨fun _ => none, new, [], []⟩

theorem emptyQuota_inStep (key : Int × Int → String) : InStep key emptyQuota := ⟨fun _ _ => rfl, rfl, rfl⟩

/-- The ten tokens are counted twice, and everything has finished. -/
theorem overtaking_reload_doubles :
    InStep (fun _ => "t") emptyQuota ∧
      ∃ s, Reach (quotaStep fun _ => "t") Any emptyQuota overtakingRun s ∧
        s.billing = [] ∧ s.reloading = [] ∧
        (s.cache.getPlan 1 1 "t").val = 20 ∧ s.counter (1, 1) = some (I64.clamp 10) := by
  refine ⟨emptyQuota_inStep _, _, reach_of_run rfl, rfl, rfl, ?_, ?_⟩
  · decide
  · decide

/-- The same request and reload, with the merge after the request's own step. -/
theorem quota_in_step_when_settled :
    ∃ s, Reach (quotaStep fun _ => "t") NoOvertaking emptyQuota
        [.commit 1 1 (I64.clamp 10), .snapshot [(1, 1)], .incr 0, .merge 0] s ∧
      s.cache.getPlan 1 1 "t" = (s.counter (1, 1)).getD 0 := by
  have reach : Reach (quotaStep fun _ => "t") NoOvertaking emptyQuota
      [.commit 1 1 (I64.clamp 10), .snapshot [(1, 1)], .incr 0, .merge 0] _ :=
    .head trivial rfl (.head trivial rfl (.head (by simp [NoOvertaking]; decide) rfl
      (.head (by simp [NoOvertaking]; decide) rfl .start)))
  exact ⟨_, reach, quota_in_step_without_overtaking (emptyQuota_inStep _) reach rfl 1 1⟩

end LlmGateway
