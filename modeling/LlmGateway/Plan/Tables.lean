import LlmGateway.Plan.Period

namespace LlmGateway

/-- A row of `coding_plans`. -/
structure CodingPlan where
  id : Int
  name : Str
  priority : Int
  tokenLimit : Int
  periodType : PeriodType
  periodHours : Int
  periodAnchorMode : PeriodAnchorMode
  overageAction : OverageAction
  downgradeModel : Option Str
  alertChannels : Json
  webhookUrl : Str
  enabled : Bool
  activeStart : Option Nat
  activeEnd : Option Nat
  modelScope : Option Json
  /-- The check of the column. -/
  hours : 1 ≤ periodHours ∧ periodHours ≤ 168

/-- Windows of five hours on the grid of UTC. -/
def fiveHourCodingPlan : CodingPlan where
  id := 7
  name := "pro".toList
  priority := 0
  tokenLimit := 1000000
  periodType := .hourly
  periodHours := 5
  periodAnchorMode := .fixed
  overageAction := .block
  downgradeModel := none
  alertChannels := .arr [.str "in_site".toList]
  webhookUrl := []
  enabled := true
  activeStart := none
  activeEnd := none
  modelScope := none
  hours := by decide

/-- A row of `plan_usage_counters`. The periods of all plans start at a whole second. -/
structure UsageCounter where
  userId : Int
  planId : Int
  periodStart : Int
  tokens : I64
  whole : periodStart % 1000000000 = 0
  deriving DecidableEq

structure UserGroup where
  id : Int
  name : Str

structure GroupMember where
  groupId : Int
  userId : Int
  addedAt : Int

structure PlanGroup where
  planId : Int
  groupId : Int

structure PlanUser where
  planId : Int
  userId : Int
  addedAt : Int

/-- The tables of the plans, with their primary keys. -/
structure PlanTables where
  codingPlans : List CodingPlan
  userGroups : List UserGroup
  userGroupMembers : List GroupMember
  planGroups : List PlanGroup
  planUsers : List PlanUser
  planUsageCounters : List UsageCounter
  plan_key : (codingPlans.map CodingPlan.id).Nodup
  group_key : (userGroups.map UserGroup.id).Nodup
  member_key : (userGroupMembers.map fun m => (m.groupId, m.userId)).Nodup
  planGroup_key : (planGroups.map fun g => (g.planId, g.groupId)).Nodup
  planUser_key : (planUsers.map fun u => (u.planId, u.userId)).Nodup
  counter_key : (planUsageCounters.map fun c => (c.userId, c.planId, c.periodStart)).Nodup

namespace PlanTables

variable (db : PlanTables)

theorem plan_unique {p q : CodingPlan} (left : p ∈ db.codingPlans) (right : q ∈ db.codingPlans)
    (same : p.id = q.id) :
    p = q :=
  List.inj_on_of_nodup_map db.plan_key left right same

def countersOf (userId planId : Int) : List UsageCounter :=
  db.planUsageCounters.filter fun c => c.userId = userId ∧ c.planId = planId

theorem mem_countersOf {userId planId : Int} {c : UsageCounter} :
    c ∈ db.countersOf userId planId ↔ c ∈ db.planUsageCounters ∧ c.userId = userId ∧ c.planId = planId := by
  simp [countersOf]

theorem counter_unique {userId planId : Int} {c d : UsageCounter} (left : c ∈ db.countersOf userId planId)
    (right : d ∈ db.countersOf userId planId) (same : c.periodStart = d.periodStart) : c = d := by
  obtain ⟨memC, userC, planC⟩ := db.mem_countersOf.mp left
  obtain ⟨memD, userD, planD⟩ := db.mem_countersOf.mp right
  refine List.inj_on_of_nodup_map db.counter_key memC memD ?_
  rw [userC, planC, userD, planD, same]

end PlanTables

end LlmGateway
