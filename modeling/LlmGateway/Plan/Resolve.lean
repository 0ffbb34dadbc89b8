import LlmGateway.Lib.Table
import LlmGateway.Plan.Tables
import Mathlib.Data.Prod.Lex

namespace LlmGateway

open List PlanRuntime

def isWithinActiveWindow (start stop : Option Nat) (localNow : Nat) : Bool :=
  match start, stop with
  | some s, some e =>
    if s < e then s ≤ localNow ∧ localNow < e
    else if e < s then s ≤ localNow ∨ localNow < e
    else true
  | _, _ => true

def PlanRuntime.activeAt (p : PlanRuntime) (localNow : Nat) : Bool :=
  isWithinActiveWindow p.activeStart p.activeEnd localNow

def resolveKey (model : Option Str) (p : PlanRuntime) : Nat ×ₗ Int ×ₗ Int :=
  match model with
  | none => toLex (0, toLex (p.priority, p.planId))
  | some _ => toLex (scopeSpecificity p.modelScope, toLex (p.priority, p.planId))

def isCandidate (localNow : Nat) (model : Option Str) (p : PlanRuntime) : Bool :=
  p.activeAt localNow &&
    match p.modelScope, model with
    | some scope, some m => scope.matchesModel m
    | _, _ => true

def resolvePlan (plans : Int → Option (List PlanRuntime)) (userId : Int) (localNow : Nat)
    (model : Option Str) : Option PlanRuntime := do
  let held ← plans userId
  Table.maxByKey (resolveKey model) (held.filter (isCandidate localNow model))

/-- A row of the query: the columns of the plan are kept together. -/
structure RuntimeRow where
  userId : Int
  plan : CodingPlan
  groupName : Str
  memberSince : Int

/-- `RUNTIME_SOURCE_SQL`: the plans a user has through a group, and those the
user has directly. -/
def runtimeSource (db : PlanTables) : List RuntimeRow :=
  let plansOf (planId : Int) := db.codingPlans.filter fun p => p.id = planId ∧ p.enabled
  (db.userGroupMembers.flatMap fun m =>
    (db.userGroups.filter (·.id = m.groupId)).flatMap fun g =>
      (db.planGroups.filter (·.groupId = g.id)).flatMap fun pg =>
        (plansOf pg.planId).map fun p => ⟨m.userId, p, g.name, m.addedAt⟩) ++
  db.planUsers.flatMap fun pu =>
    (plansOf pu.planId).map fun p => ⟨pu.userId, p, [], pu.addedAt⟩

def alertChannelsOf (value : Json) : List Str :=
  (value.asArr.bind fun items => items.mapM Json.asStr).getD ["in_site".toList]

/-- The runtime of a row. A plan with a damaged scope is left out. -/
def RuntimeRow.runtime (r : RuntimeRow) : Option PlanRuntime :=
  match parseModelScope r.plan.modelScope with
  | .error _ => none
  | .ok modelScope => some {
      planId := r.plan.id
      planName := r.plan.name
      groupName := r.groupName
      tokenLimit := r.plan.tokenLimit
      periodType := r.plan.periodType
      periodHours := r.plan.periodHours
      periodAnchorMode := r.plan.periodAnchorMode
      memberSince := r.memberSince
      overageAction := r.plan.overageAction
      downgradeModel := r.plan.downgradeModel
      alertChannels := alertChannelsOf r.plan.alertChannels
      webhookUrl := r.plan.webhookUrl
      priority := r.plan.priority
      activeStart := r.plan.activeStart
      activeEnd := r.plan.activeEnd
      modelScope }

def pushRow (map : Int → Option (List PlanRuntime)) (r : RuntimeRow) : Int → Option (List PlanRuntime) :=
  match r.runtime with
  | none => map
  | some p => Function.update map r.userId (some ((map r.userId).getD [] ++ [p]))

def rowsIntoRuntimes (rows : List RuntimeRow) : Int → Option (List PlanRuntime) :=
  rows.foldl pushRow fun _ => none

def candidatesOf (rows : List RuntimeRow) (userId : Int) (localNow : Nat) (model : Option Str) : List PlanRuntime :=
  ((rows.filter (·.userId = userId)).filterMap RuntimeRow.runtime).filter (isCandidate localNow model)

section

variable {db : PlanTables} {rows : List RuntimeRow} {userId : Int} {localNow : Nat} {model : Option Str}
  {p q : PlanRuntime} {r : RuntimeRow} {other : List RuntimeRow}

theorem rowsIntoRuntimes_snoc (rows : List RuntimeRow) (r : RuntimeRow) :
    rowsIntoRuntimes (rows ++ [r]) = pushRow (rowsIntoRuntimes rows) r := by
  rw [rowsIntoRuntimes, foldl_append]
  rfl

theorem rowsIntoRuntimes_getD (rows : List RuntimeRow) (userId : Int) :
    (rowsIntoRuntimes rows userId).getD [] = (rows.filter (·.userId = userId)).filterMap RuntimeRow.runtime := by
  induction rows using List.reverseRecOn with
  | nil => rfl
  | append_singleton rows r ih =>
    rw [rowsIntoRuntimes_snoc, pushRow, filter_append, filterMap_append, ← ih]
    by_cases here : r.userId = userId
    · subst here
      cases read : r.runtime <;> simp [read]
    · cases read : r.runtime <;> simp [here, Function.update_of_ne (Ne.symm here)]

theorem resolvePlan_eq (rows : List RuntimeRow) (userId : Int) (localNow : Nat) (model : Option Str) :
    resolvePlan (rowsIntoRuntimes rows) userId localNow model =
      Table.maxByKey (resolveKey model) (candidatesOf rows userId localNow model) := by
  rw [candidatesOf, ← rowsIntoRuntimes_getD, resolvePlan]
  cases rowsIntoRuntimes rows userId <;> rfl

theorem candidatesOf_perm (perm : rows.Perm other) (userId : Int) (localNow : Nat) (model : Option Str) :
    (candidatesOf rows userId localNow model).Perm (candidatesOf other userId localNow model) :=
  ((perm.filter _).filterMap _).filter _

theorem exists_last (mem : p ∈ candidatesOf rows userId localNow model) :
    ∃ other, other.Perm rows ∧ ∃ before, candidatesOf other userId localNow model = before ++ [p] := by
  obtain ⟨read, candidate⟩ := mem_filter.mp mem
  obtain ⟨r, place, runtime⟩ := mem_filterMap.mp read
  obtain ⟨held, user⟩ := mem_filter.mp place
  obtain ⟨front, back, rfl⟩ := append_of_mem held
  refine ⟨front ++ back ++ [r], ?_, candidatesOf (front ++ back) userId localNow model, ?_⟩
  · rw [append_assoc]
    exact (@perm_append_comm _ back [r]).append_left front
  · rw [candidatesOf, filter_append, filterMap_append, filter_append]
    simp [user, runtime, candidate, candidatesOf]

def IsMaximum (rows : List RuntimeRow) (userId : Int) (localNow : Nat) (model : Option Str)
    (p : PlanRuntime) : Prop :=
  p ∈ candidatesOf rows userId localNow model ∧
    ∀ q ∈ candidatesOf rows userId localNow model, resolveKey model q ≤ resolveKey model p

theorem IsMaximum.perm (perm : other.Perm rows) (maximum : IsMaximum other userId localNow model p) :
    IsMaximum rows userId localNow model p := by
  have same := candidatesOf_perm perm userId localNow model
  exact ⟨same.mem_iff.mp maximum.1, fun q mem => maximum.2 q (same.mem_iff.mpr mem)⟩

theorem IsMaximum.resolved (maximum : IsMaximum rows userId localNow model p) :
    ∃ other, other.Perm rows ∧ resolvePlan (rowsIntoRuntimes other) userId localNow model = some p := by
  obtain ⟨other, perm, before, split⟩ := exists_last maximum.1
  have same := candidatesOf_perm perm userId localNow model
  refine ⟨other, perm, ?_⟩
  rw [resolvePlan_eq, split]
  refine Table.maxByKey_last fun q mem => maximum.2 q (same.mem_iff.mp ?_)
  rw [split]
  exact mem_append_left _ mem

theorem IsMaximum.planId_eq (left : IsMaximum rows userId localNow model p)
    (right : IsMaximum rows userId localNow model q) : p.planId = q.planId := by
  have key := le_antisymm (right.2 p left.1) (left.2 q right.1)
  cases model with
  | none | some m => exact (Prod.mk.inj (Prod.mk.inj key).2).2

theorem mem_runtimeSource (mem : r ∈ runtimeSource db) : r.plan ∈ db.codingPlans := by
  simp only [runtimeSource, mem_append, mem_flatMap, mem_map, mem_filter] at mem
  rcases mem with ⟨_, _, _, _, _, _, p, plan, rfl⟩ | ⟨_, _, p, plan, rfl⟩
  · exact plan.1
  · exact plan.1

theorem exists_row (mem : p ∈ candidatesOf rows userId localNow model) : ∃ r ∈ rows, r.runtime = some p := by
  obtain ⟨read, -⟩ := mem_filter.mp mem
  obtain ⟨r, place, runtime⟩ := mem_filterMap.mp read
  exact ⟨r, (mem_filter.mp place).1, runtime⟩

theorem runtime_planId (runtime : r.runtime = some p) : p.planId = r.plan.id := by
  unfold RuntimeRow.runtime at runtime
  split at runtime
  · cases runtime
  · cases runtime
    rfl

theorem runtime_congr {s : RuntimeRow} (plans : r.plan = s.plan) (left : r.runtime = some p)
    (right : s.runtime = some q) : p = { q with groupName := p.groupName, memberSince := p.memberSince } := by
  unfold RuntimeRow.runtime at left right
  rw [plans] at left
  cases scope : parseModelScope s.plan.modelScope with
  | error reason =>
    rw [scope] at left
    cases left
  | ok parsed =>
    rw [scope] at left right
    cases left
    cases right
    rfl

theorem candidates_eq (left : p ∈ candidatesOf (runtimeSource db) userId localNow model)
    (right : q ∈ candidatesOf (runtimeSource db) userId localNow model) (same : p.planId = q.planId) :
    p = { q with groupName := p.groupName, memberSince := p.memberSince } := by
  obtain ⟨r, rowP, runtimeP⟩ := exists_row left
  obtain ⟨s, rowQ, runtimeQ⟩ := exists_row right
  have ids : r.plan.id = s.plan.id := by rw [← runtime_planId runtimeP, same, runtime_planId runtimeQ]
  have plans := db.plan_unique (mem_runtimeSource rowP) (mem_runtimeSource rowQ) ids
  exact runtime_congr plans runtimeP runtimeQ

theorem periodStart_congr (kind : p.periodType = q.periodType) (hours : p.periodHours = q.periodHours)
    (anchor : p.periodType = .hourly → p.anchorTs = q.anchorTs) (now : Int) :
    p.periodStart now = q.periodStart now := by
  unfold periodStart step
  rw [← kind, ← hours]
  cases type : p.periodType with
  | hourly => simp only [anchor type]
  | daily => rfl
  | monthly => rfl
  | total => rfl

theorem anchorTs_eq (left : p.periodType = .hourly) (right : q.periodType = .hourly)
    (starts : ∀ now, p.periodStart now = q.periodStart now) : p.anchorTs = q.anchorTs := by
  have first := starts (Utc.ofTimestamp (min p.anchorTs q.anchorTs))
  simp only [periodStart, left, right, timestamp_ofTimestamp] at first
  have atP : max (min p.anchorTs q.anchorTs - p.anchorTs) 0 = 0 := by omega
  have atQ : max (min p.anchorTs q.anchorTs - q.anchorTs) 0 = 0 := by omega
  rw [atP, atQ, Int.zero_ediv, Int.zero_ediv, Int.zero_mul, Int.zero_mul] at first
  unfold Utc.ofTimestamp at first
  omega

def SameResolution : Option PlanRuntime → Option PlanRuntime → Prop
  | none, none => True
  | some p, some q => p = { q with groupName := p.groupName, memberSince := p.memberSince } ∧
      ∀ now, p.periodStart now = q.periodStart now
  | _, _ => False

def Resolved (rows : List RuntimeRow) (userId : Int) (localNow : Nat) (model : Option Str) :
    Option PlanRuntime → Prop
  | none => candidatesOf rows userId localNow model = []
  | some p => IsMaximum rows userId localNow model p

theorem resolved_resolvePlan (perm : other.Perm rows) (userId : Int) (localNow : Nat) (model : Option Str) :
    Resolved rows userId localNow model (resolvePlan (rowsIntoRuntimes other) userId localNow model) := by
  rw [resolvePlan_eq]
  cases found : Table.maxByKey (resolveKey model) (candidatesOf other userId localNow model) with
  | none =>
    have same := candidatesOf_perm perm userId localNow model
    rw [Table.maxByKey_eq_none_iff.mp found] at same
    exact same.symm.eq_nil
  | some p => exact IsMaximum.perm perm (Table.maxByKey_eq_some found)

def OneAnchor (db : PlanTables) (userId : Int) (localNow : Nat) (model : Option Str) : Prop :=
  ∀ p q, IsMaximum (runtimeSource db) userId localNow model p →
    IsMaximum (runtimeSource db) userId localNow model q →
    p.periodType = .hourly → p.periodAnchorMode = .join →
      Utc.timestamp p.memberSince = Utc.timestamp q.memberSince

theorem OneAnchor.sameResolution (anchor : OneAnchor db userId localNow model) {a b : Option PlanRuntime}
    (left : Resolved (runtimeSource db) userId localNow model a)
    (right : Resolved (runtimeSource db) userId localNow model b) : SameResolution a b := by
  cases a with
  | none =>
    cases b with
    | none => trivial
    | some q => exact absurd right.1 (left ▸ not_mem_nil)
  | some p =>
    cases b with
    | none => exact absurd left.1 (right ▸ not_mem_nil)
    | some q =>
      have plan := candidates_eq left.1 right.1 (left.planId_eq right)
      refine ⟨plan, periodStart_congr (congrArg (·.periodType) plan) (congrArg (·.periodHours) plan) fun hourly =>
        ?_⟩
      have mode : p.periodAnchorMode = q.periodAnchorMode := congrArg (·.periodAnchorMode) plan
      unfold anchorTs
      rw [← mode]
      cases join : p.periodAnchorMode with
      | join => exact anchor p q left right hourly join
      | fixed => rfl

end

/-- The order of the rows does not matter exactly when the best plan has one anchor. -/
theorem resolvePlan_order_iff (db : PlanTables) (userId : Int) (localNow : Nat) (model : Option Str) :
    (∀ rows other : List RuntimeRow, rows.Perm (runtimeSource db) → other.Perm (runtimeSource db) →
      SameResolution (resolvePlan (rowsIntoRuntimes rows) userId localNow model)
        (resolvePlan (rowsIntoRuntimes other) userId localNow model) ∧
      Resolved (runtimeSource db) userId localNow model
        (resolvePlan (rowsIntoRuntimes rows) userId localNow model)) ↔
    OneAnchor db userId localNow model := by
  constructor
  · intro same p q left right hourly join
    obtain ⟨rows, permP, chosenP⟩ := left.resolved
    obtain ⟨other, permQ, chosenQ⟩ := right.resolved
    have both := (same rows other permP permQ).1
    rw [chosenP, chosenQ] at both
    obtain ⟨plan, starts⟩ := both
    have hourlyQ : q.periodType = .hourly := (congrArg (·.periodType) plan).symm.trans hourly
    have joinQ : q.periodAnchorMode = .join := (congrArg (·.periodAnchorMode) plan).symm.trans join
    have anchors := anchorTs_eq hourly hourlyQ starts
    rwa [anchorTs, anchorTs, join, joinQ] at anchors
  · intro anchor rows other left right
    have resolved := resolved_resolvePlan left userId localNow model
    exact ⟨anchor.sameResolution resolved (resolved_resolvePlan right userId localNow model), resolved⟩

/-- One user is a member of a plan directly and, since a thousand seconds later,
through a group. -/
def joinedTwice : PlanTables where
  codingPlans := [{ fiveHourCodingPlan with periodAnchorMode := .join }]
  userGroups := [⟨3, "team".toList⟩]
  userGroupMembers := [⟨3, 1, 1000000000000⟩]
  planGroups := [⟨7, 3⟩]
  planUsers := [⟨7, 1, 0⟩]
  planUsageCounters := []
  plan_key := by decide
  group_key := by decide
  member_key := by decide
  planGroup_key := by decide
  planUser_key := by decide
  counter_key := by decide

theorem order_decides_period :
    ¬∀ rows other : List RuntimeRow, rows.Perm (runtimeSource joinedTwice) →
      other.Perm (runtimeSource joinedTwice) →
      SameResolution (resolvePlan (rowsIntoRuntimes rows) 1 0 (some "gpt-4o".toList))
        (resolvePlan (rowsIntoRuntimes other) 1 0 (some "gpt-4o".toList)) ∧
      Resolved (runtimeSource joinedTwice) 1 0 (some "gpt-4o".toList)
        (resolvePlan (rowsIntoRuntimes rows) 1 0 (some "gpt-4o".toList)) := by
  intro same
  have both := (same _ _ (.refl _) (reverse_perm _)).1
  have direct : resolvePlan (rowsIntoRuntimes (runtimeSource joinedTwice)) 1 0 (some "gpt-4o".toList) =
      some (fiveHourPlan 0) := by
    decide +kernel
  have grouped : resolvePlan (rowsIntoRuntimes (runtimeSource joinedTwice).reverse) 1 0 (some "gpt-4o".toList) =
      some { fiveHourPlan 1000000000000 with groupName := "team".toList } := by
    decide +kernel
  exact absurd (both.2 0) (by decide)

end LlmGateway
