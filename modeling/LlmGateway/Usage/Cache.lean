import LlmGateway.Lib.I64

namespace LlmGateway

/-- A row of `load_usage_snapshots`: what one user has used of one plan in the
current period. -/
structure PlanUsageSnapshot where
  userId : Int
  planId : Int
  periodKey : String
  used : I64
deriving DecidableEq

/-- One `incr_plan` call: the bill a recorded request leaves behind. -/
structure PlanCall where
  userId : Int
  planId : Int
  periodKey : String
  tokens : I64
deriving DecidableEq

/-- The in-memory quota cache. One period key and one count per user and plan. -/
structure UsageCache where
  planUsage : Int × Int → Option (String × I64)

namespace UsageCache

variable {u p : Int} (c : UsageCache) (userId planId : Int)

def new : UsageCache := ⟨fun _ => none⟩

def getPlan (c : UsageCache) (userId planId : Int) (periodKey : String) : I64 :=
  match c.planUsage (userId, planId) with
  | some (k, v) => if k = periodKey then v else 0
  | none => 0

def insert (c : UsageCache) (userId planId : Int) (entry : String × I64) : UsageCache :=
  ⟨Function.update c.planUsage (userId, planId) (some entry)⟩

def incrPlan (c : UsageCache) (userId planId : Int) (periodKey : String) (tokens : I64) : UsageCache :=
  let e := (c.planUsage (userId, planId)).getD (periodKey, 0)
  if e.1 = periodKey then
    c.insert userId planId (e.1, e.2.saturatingAdd tokens)
  else
    c.insert userId planId (periodKey, tokens.max 0)

/-- The loop body of `reload_from_db`: an entry of the same period that is
already at least as large stays. -/
def mergeSnapshot (c : UsageCache) (s : PlanUsageSnapshot) : UsageCache :=
  match c.planUsage (s.userId, s.planId) with
  | some (k, v) =>
    if k = s.periodKey ∧ s.used ≤ v then c else c.insert s.userId s.planId (s.periodKey, s.used)
  | none => c.insert s.userId s.planId (s.periodKey, s.used)

/-- The locked part of `reload_from_db`. The rows were read before the lock
was taken. -/
def reloadFromDb (c : UsageCache) (snapshots : List PlanUsageSnapshot) : UsageCache :=
  snapshots.foldl mergeSnapshot c

def apply (c : UsageCache) (call : PlanCall) : UsageCache :=
  c.incrPlan call.userId call.planId call.periodKey call.tokens

theorem getPlan_insert_self (k periodKey : String) (v : I64) :
    (c.insert userId planId (k, v)).getPlan userId planId periodKey = if k = periodKey then v else 0 := by
  simp [getPlan, insert]

theorem getPlan_insert_other {userId planId : Int} (entry : String × I64) (periodKey : String)
    (other : (u, p) ≠ (userId, planId)) :
    (c.insert userId planId entry).getPlan u p periodKey = c.getPlan u p periodKey := by
  simp [getPlan, insert, Function.update_of_ne other]

theorem getPlan_incrPlan_other {userId planId : Int} (key periodKey : String) (tokens : I64)
    (other : (u, p) ≠ (userId, planId)) :
    (c.incrPlan userId planId key tokens).getPlan u p periodKey = c.getPlan u p periodKey := by
  simp only [incrPlan]
  split <;> exact c.getPlan_insert_other _ _ other

theorem getPlan_incrPlan_late {key periodKey : String} (tokens : I64) (late : key ≠ periodKey) :
    (c.incrPlan userId planId key tokens).getPlan userId planId periodKey = 0 := by
  simp only [incrPlan]
  split
  next same =>
    rw [getPlan_insert_self, same, if_neg late]
  · rw [getPlan_insert_self, if_neg late]

theorem getPlan_incrPlan_same (key : String) (tokens : I64)
    (clean : 0 ≤ tokens.val ∨ ∀ k v, c.planUsage (userId, planId) = some (k, v) → k = key) :
    (c.incrPlan userId planId key tokens).getPlan userId planId key =
      (c.getPlan userId planId key).saturatingAdd tokens := by
  cases entry : c.planUsage (userId, planId) with
  | none => simp [incrPlan, getPlan, insert, entry, I64.zero_saturatingAdd]
  | some kv =>
    obtain ⟨k, v⟩ := kv
    by_cases same : k = key
    · simp [incrPlan, getPlan, insert, entry, same]
    · have nonneg : 0 ≤ tokens.val := clean.resolve_right fun matching => same (matching k v entry)
      simp [incrPlan, getPlan, insert, entry, same, I64.max_zero_of_nonneg nonneg, I64.zero_saturatingAdd]

theorem getPlan_mergeSnapshot_other (s : PlanUsageSnapshot) (periodKey : String)
    (other : (u, p) ≠ (s.userId, s.planId)) :
    (c.mergeSnapshot s).getPlan u p periodKey = c.getPlan u p periodKey := by
  unfold mergeSnapshot
  split
  · split
    · rfl
    · exact c.getPlan_insert_other _ _ other
  · exact c.getPlan_insert_other _ _ other

end UsageCache

end LlmGateway
