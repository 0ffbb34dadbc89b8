import LlmGateway.Lib.Table
import LlmGateway.Plan.Tables
import LlmGateway.Usage.Cache
import Mathlib.Data.Prod.Lex

namespace LlmGateway

open Calendar Decimal List PlanRuntime Utc CodingPlan

/-- What `to_char` writes for `YYYY`: a year before the year 1 counts backwards, without a sign. -/
def sqlYear (year : Int) : Str := padded 4 (if year ≤ 0 then 1 - year else year).natAbs

/-- `extract(epoch from t)::bigint`, which rounds to the nearest second. -/
def sqlEpoch (t : Int) : Int :=
  if 0 ≤ t then (t + 500000000) / 1000000000 else -((-t + 500000000) / 1000000000)

namespace CodingPlan

variable (p : CodingPlan)

/-- The `CASE` of the query: the key of the period a counter is for. -/
def sqlPeriodKey (start : Int) : String :=
  let date := date start
  match p.periodType with
  | .daily => .ofList ("d:".toList ++ sqlYear date.year ++ '-' :: (padded 2 date.month ++ '-' :: padded 2 date.day))
  | .monthly => .ofList ("m:".toList ++ sqlYear date.year ++ '-' :: padded 2 date.month)
  | .hourly => .ofList ("h:".toList ++ Decimal.signed (sqlEpoch start))
  | .total => "t"

/-- The `WHERE` of the query. `date_trunc` gives the first instant of the day or the month. -/
def currentPeriod (now start : Int) : Bool :=
  match p.periodType with
  | .total => true
  | .daily => start = midnight (days now)
  | .monthly => start = midnight (ofYmd (date now).year (date now).month 1)
  | .hourly => now - p.periodHours * 3600000000000 < start ∧ start ≤ now

end CodingPlan

/-- The rows of the query before `ORDER BY`: counters with their enabled plan. -/
def snapshotRows (db : PlanTables) (now : Int) : List (UsageCounter × CodingPlan) :=
  (db.planUsageCounters.flatMap fun pc =>
    (db.codingPlans.filter fun p => p.id = pc.planId ∧ p.enabled).map fun p => (pc, p)).filter
    fun row => row.2.currentPeriod now row.1.periodStart

def snapshotRank (row : UsageCounter × CodingPlan) : Int ×ₗ Int ×ₗ Int :=
  toLex (row.1.userId, toLex (row.1.planId, -row.1.periodStart))

def PlanTables.loadUsageSnapshots (db : PlanTables) (now : Int) : List PlanUsageSnapshot :=
  (Table.distinctOn (fun row : UsageCounter × CodingPlan => (row.1.userId, row.1.planId))
    (Table.orderBy snapshotRank (snapshotRows db now))).map
    fun row => ⟨row.1.userId, row.1.planId, row.2.sqlPeriodKey row.1.periodStart, row.1.tokens⟩

/-- The runtime carries the period settings of the plan. -/
structure PlanRuntime.SettingsOf (rt : PlanRuntime) (plan : CodingPlan) : Prop where
  periodType : rt.periodType = plan.periodType
  periodHours : rt.periodHours = plan.periodHours

def snapshotOf (db : PlanTables) (now userId planId : Int) : List PlanUsageSnapshot :=
  (PlanTables.loadUsageSnapshots db now).filter fun s => (s.userId, s.planId) = (userId, planId)

def currentSnapshot (db : PlanTables) (rt : PlanRuntime) (now userId planId : Int) : List PlanUsageSnapshot :=
  ((db.countersOf userId planId).find? (·.periodStart = rt.periodStart now)).toList.map
    fun c => ⟨userId, planId, rt.periodKey now, c.tokens⟩

section

variable {db : PlanTables} {plan : CodingPlan} {rt : PlanRuntime} {now userId : Int}

theorem mem_snapshotRows {row : UsageCounter × CodingPlan} :
    row ∈ snapshotRows db now ↔ row.1 ∈ db.planUsageCounters ∧ row.2 ∈ db.codingPlans ∧ row.2.id = row.1.planId ∧
      row.2.enabled ∧ row.2.currentPeriod now row.1.periodStart := by
  obtain ⟨pc, p⟩ := row
  simp only [snapshotRows, mem_filter, mem_flatMap, mem_map, decide_eq_true_eq, Prod.mk.injEq]
  constructor
  · rintro ⟨⟨c, counter, q, ⟨stored, joined⟩, rfl, rfl⟩, current⟩
    exact ⟨counter, stored, joined.1, joined.2, current⟩
  · rintro ⟨counter, stored, joined, enabled, current⟩
    exact ⟨⟨pc, counter, p, ⟨stored, joined, enabled⟩, rfl, rfl⟩, current⟩

def Looked (db : PlanTables) (plan : CodingPlan) (now userId : Int) (c : UsageCounter) : Prop :=
  c ∈ db.countersOf userId plan.id ∧ plan.currentPeriod now c.periodStart

theorem mem_snapshotRows_pair (stored : plan ∈ db.codingPlans) (enabled : plan.enabled)
    {row : UsageCounter × CodingPlan} :
    row ∈ snapshotRows db now ∧ (row.1.userId, row.1.planId) = (userId, plan.id) ↔
      row.2 = plan ∧ Looked db plan now userId row.1 := by
  simp only [mem_snapshotRows, Looked, PlanTables.mem_countersOf, Prod.mk.injEq]
  constructor
  · rintro ⟨⟨counter, other, joined, -, current⟩, user, owner⟩
    obtain rfl := db.plan_unique other stored (joined.trans owner)
    exact ⟨rfl, ⟨counter, user, owner⟩, current⟩
  · rintro ⟨rfl, ⟨counter, user, owner⟩, current⟩
    exact ⟨⟨counter, stored, owner.symm, enabled, current⟩, user, owner⟩

theorem snapshotOf_eq (stored : plan ∈ db.codingPlans) (enabled : plan.enabled) (now userId : Int) :
    ∃ latest : Option UsageCounter,
      snapshotOf db now userId plan.id =
        latest.toList.map (fun c => ⟨userId, plan.id, plan.sqlPeriodKey c.periodStart, c.tokens⟩) ∧
      (∀ c, latest = some c → Looked db plan now userId c ∧
        ∀ d, Looked db plan now userId d → d.periodStart ≤ c.periodStart) ∧
      (latest = none → ∀ d, ¬Looked db plan now userId d) := by
  let key (row : UsageCounter × CodingPlan) := (row.1.userId, row.1.planId)
  have rows : snapshotOf db now userId plan.id =
      ((Table.orderBy snapshotRank (snapshotRows db now)).find? (key · = (userId, plan.id))).toList.map
        fun row => ⟨row.1.userId, row.1.planId, row.2.sqlPeriodKey row.1.periodStart, row.1.tokens⟩ := by
    rw [snapshotOf, PlanTables.loadUsageSnapshots, filter_map, ← Table.filter_distinctOn]
    rfl
  rw [rows]
  cases found : (Table.orderBy snapshotRank (snapshotRows db now)).find? (key · = (userId, plan.id)) with
  | none =>
    refine ⟨none, rfl, fun _ impossible => (by cases impossible), fun _ d looked => ?_⟩
    have pair : (d, plan) ∈ snapshotRows db now ∧ (d.userId, d.planId) = (userId, plan.id) :=
      (mem_snapshotRows_pair stored enabled).mpr ⟨rfl, looked⟩
    have absent := Table.find?_orderBy_eq_none.mp found _ pair.1
    exact of_decide_eq_false absent pair.2
  | some row =>
    obtain ⟨mem, pair, least⟩ := Table.find?_orderBy_eq_some found
    obtain ⟨here, looked⟩ := (mem_snapshotRows_pair stored enabled).mp ⟨mem, of_decide_eq_true pair⟩
    obtain ⟨user, owner⟩ := Prod.mk.inj (of_decide_eq_true pair)
    refine ⟨some row.1, ?_, ?_, fun impossible => by cases impossible⟩
    · simp [here, user, owner]
    · rintro _ ⟨⟩
      refine ⟨looked, fun d also => ?_⟩
      have other : (d, plan) ∈ snapshotRows db now ∧ (d.userId, d.planId) = (userId, plan.id) :=
        (mem_snapshotRows_pair stored enabled).mpr ⟨rfl, also⟩
      have before := least _ other.1 (decide_eq_true other.2)
      obtain ⟨userD, ownerD⟩ := Prod.mk.inj other.2
      simpa [snapshotRank, Prod.Lex.toLex_le_toLex, user, owner, userD, ownerD] using before

theorem currentSnapshot_eq (db : PlanTables) (rt : PlanRuntime) (now userId planId : Int) :
    (∀ c ∈ db.countersOf userId planId, c.periodStart ≠ rt.periodStart now) ∧
        currentSnapshot db rt now userId planId = [] ∨
      ∃ c ∈ db.countersOf userId planId, c.periodStart = rt.periodStart now ∧
        currentSnapshot db rt now userId planId = [⟨userId, planId, rt.periodKey now, c.tokens⟩] := by
  unfold currentSnapshot
  cases found : (db.countersOf userId planId).find? (·.periodStart = rt.periodStart now) with
  | none =>
    refine .inl ⟨fun c mem => ?_, rfl⟩
    simpa using List.find?_eq_none.mp found c mem
  | some c =>
    refine .inr ⟨c, mem_of_find?_eq_some found, ?_, rfl⟩
    simpa using List.find?_some found

theorem snapshotOf_eq_iff (stored : plan ∈ db.codingPlans) (enabled : plan.enabled) :
    snapshotOf db now userId plan.id = currentSnapshot db rt now userId plan.id ↔
      (∀ d, Looked db plan now userId d → ∃ e ∈ db.countersOf userId plan.id, e.periodStart = rt.periodStart now) ∧
      ∀ e ∈ db.countersOf userId plan.id, e.periodStart = rt.periodStart now →
        ∃ c, Looked db plan now userId c ∧ (∀ d, Looked db plan now userId d → d.periodStart ≤ c.periodStart) ∧
          plan.sqlPeriodKey c.periodStart = rt.periodKey now ∧ c.tokens = e.tokens := by
  obtain ⟨latest, returned, best, nothing⟩ := snapshotOf_eq stored enabled now userId
  rw [returned]
  rcases currentSnapshot_eq db rt now userId plan.id with ⟨absent, wanted⟩ | ⟨e, mem, start, wanted⟩
  · rw [wanted]
    constructor
    · intro same
      have empty : latest = none := by simpa using same
      exact ⟨fun d looked => absurd looked (nothing empty d), fun c mem start => absurd start (absent c mem)⟩
    · rintro ⟨justified, -⟩
      cases latest with
      | none => rfl
      | some c =>
        obtain ⟨e, mem, start⟩ := justified c (best c rfl).1
        exact absurd start (absent e mem)
  · rw [wanted]
    constructor
    · intro same
      cases latest with
      | none => cases same
      | some c =>
        obtain ⟨looked, last⟩ := best c rfl
        simp only [Option.toList_some, map_cons, map_nil, List.cons.injEq, PlanUsageSnapshot.mk.injEq,
          true_and, and_true] at same
        refine ⟨fun _ _ => ⟨e, mem, start⟩, fun other also there => ⟨c, looked, last, same.1, ?_⟩⟩
        rw [same.2, db.counter_unique mem also (start.trans there.symm)]
    · rintro ⟨-, represented⟩
      obtain ⟨c, looked, last, key, tokens⟩ := represented e mem start
      cases latest with
      | none => exact absurd looked (nothing rfl c)
      | some b =>
        obtain ⟨lookedB, lastB⟩ := best b rfl
        obtain rfl := db.counter_unique lookedB.1 looked.1 (le_antisymm (last b lookedB) (lastB c looked))
        simp [key, tokens]

theorem days_midnight (day : Int) : days (midnight day) = day := by
  unfold days midnight
  omega

theorem sqlYear_eq_printYear_iff {year : Int} : sqlYear year = printYear year ↔ 1 ≤ year ∧ year ≤ 9999 := by
  unfold sqlYear printYear
  constructor
  · intro same
    by_cases plain : 0 ≤ year ∧ year ≤ 9999
    · rw [if_pos plain] at same
      have := padded_inj same
      split_ifs at this with early <;> omega
    · rw [if_neg plain] at same
      cases (head_padded same).symm.trans (isDigit_sign year)
  · rintro ⟨low, high⟩
    rw [if_neg (by omega), if_pos (by omega)]

theorem sqlYear_eq_signed_iff {year : Int} : sqlYear year = Decimal.signed year ↔ 1000 ≤ year := by
  unfold sqlYear Decimal.signed
  by_cases negative : year < 0
  · rw [if_pos negative]
    refine iff_of_false (fun same => ?_) (by omega)
    cases head_padded same
  · rw [if_neg negative, padded_eq_toDigits_iff (by decide : 0 < 3)]
    split_ifs <;> omega

theorem sqlEpoch_whole {t : Int} (whole : t % 1000000000 = 0) : sqlEpoch t = timestamp t := by
  unfold sqlEpoch timestamp
  split_ifs <;> omega

theorem periodStart_whole (rt : PlanRuntime) (now : Int) : rt.periodStart now % 1000000000 = 0 := by
  unfold periodStart
  split
  · unfold midnight
    omega
  · unfold midnight
    omega
  · exact Int.mul_emod_left _ _
  · rfl

theorem sqlPeriodKey_eq_iff (settings : rt.SettingsOf plan) (now : Int) :
    plan.sqlPeriodKey (rt.periodStart now) = rt.periodKey now ↔
      (plan.periodType = .daily → 1 ≤ (date now).year ∧ (date now).year ≤ 9999) ∧
      (plan.periodType = .monthly → 1000 ≤ (date now).year) := by
  have kind := settings.periodType
  cases type : plan.periodType with
  | hourly =>
    simp [sqlPeriodKey, periodKey, kind, type, sqlEpoch_whole (periodStart_whole rt now)]
  | daily =>
    simp only [sqlPeriodKey, periodKey, periodStart, kind, type, date, days_midnight,
      String.ofList_inj, append_assoc, append_cancel_left_eq, printDate]
    rw [append_cancel_right_eq, sqlYear_eq_printYear_iff]
    simp
  | monthly =>
    have first : monthIndex (monthStart (monthIndex (days now))) = monthIndex (days now) := months.index_start _
    obtain ⟨year, month⟩ := Date.eq_of_monthIndex first
    simp only [sqlPeriodKey, periodKey, periodStart, kind, type, date, days_midnight,
      String.ofList_inj, append_assoc, append_cancel_left_eq, Date.ofYmd_first, year, month]
    rw [append_cancel_right_eq, sqlYear_eq_signed_iff]
    simp
  | total => simp [sqlPeriodKey, periodKey, type, kind]

/-- The latest counter the query can look at is the counter of the current period. -/
def CurrentIsLatest (db : PlanTables) (plan : CodingPlan) (rt : PlanRuntime) (now userId : Int) : Prop :=
  let rows := db.countersOf userId plan.id
  let start := rt.periodStart now
  match plan.periodType with
  | .daily => (∃ c ∈ rows, c.periodStart = start) → 1 ≤ (date now).year ∧ (date now).year ≤ 9999
  | .monthly => (∃ c ∈ rows, c.periodStart = start) → 1000 ≤ (date now).year
  | .hourly =>
    (∀ c ∈ rows, c.periodStart = start → start ≤ now) ∧
      ∀ c ∈ rows, now - plan.periodHours * 3600000000000 < c.periodStart → c.periodStart ≤ now →
        c.periodStart ≤ start ∧ ∃ e ∈ rows, e.periodStart = start
  | .total =>
    ∀ c ∈ rows, (∀ d ∈ rows, d.periodStart ≤ c.periodStart) → ∃ e ∈ rows, e.periodStart = 0 ∧ e.tokens = c.tokens

theorem snapshot_exact_iff (stored : plan ∈ db.codingPlans) (enabled : plan.enabled)
    (exactly : ∀ start, plan.currentPeriod now start ↔ start = rt.periodStart now) :
    snapshotOf db now userId plan.id = currentSnapshot db rt now userId plan.id ↔
      ((∃ c ∈ db.countersOf userId plan.id, c.periodStart = rt.periodStart now) →
        plan.sqlPeriodKey (rt.periodStart now) = rt.periodKey now) := by
  have looked {c : UsageCounter} : Looked db plan now userId c ↔
      c ∈ db.countersOf userId plan.id ∧ c.periodStart = rt.periodStart now := and_congr_right fun _ => exactly _
  rw [snapshotOf_eq_iff stored enabled]
  constructor
  · rintro ⟨-, represented⟩ ⟨e, mem, start⟩
    obtain ⟨c, here, -, key, -⟩ := represented e mem start
    rwa [(looked.mp here).2] at key
  · intro key
    refine ⟨fun d here => ⟨d, looked.mp here⟩, fun e mem start => ⟨e, looked.mpr ⟨mem, start⟩, ?_, ?_, rfl⟩⟩
    · intro d here
      rw [(looked.mp here).2, start]
    · rw [start]
      exact key ⟨e, mem, start⟩

theorem snapshot_total_iff (stored : plan ∈ db.codingPlans) (enabled : plan.enabled)
    (settings : rt.SettingsOf plan) (total : plan.periodType = .total) :
    snapshotOf db now userId plan.id = currentSnapshot db rt now userId plan.id ↔
      CurrentIsLatest db plan rt now userId := by
  have kind : rt.periodType = .total := settings.periodType.trans total
  have looked {c : UsageCounter} : Looked db plan now userId c ↔ c ∈ db.countersOf userId plan.id := by
    simp [Looked, currentPeriod, total]
  have epoch : rt.periodStart now = 0 := by simp [periodStart, kind]
  have key (start : Int) : plan.sqlPeriodKey start = rt.periodKey now := by
    simp [sqlPeriodKey, periodKey, kind, total]
  rw [snapshotOf_eq_iff stored enabled]
  simp only [looked, epoch, key, true_and, CurrentIsLatest, total]
  constructor
  · rintro ⟨justified, represented⟩ c mem last
    obtain ⟨e, memberE, start⟩ := justified c mem
    obtain ⟨b, memberB, lastB, tokens⟩ := represented e memberE start
    obtain rfl := db.counter_unique memberB mem (le_antisymm (last b memberB) (lastB c mem))
    exact ⟨e, memberE, start, tokens.symm⟩
  · intro condition
    obtain ⟨latest, -, best, nothing⟩ := snapshotOf_eq stored enabled now userId
    simp only [looked] at best nothing
    cases latest with
    | none => exact ⟨fun d mem => absurd mem (nothing rfl d), fun e mem => absurd mem (nothing rfl e)⟩
    | some c =>
      obtain ⟨mem, last⟩ := best c rfl
      obtain ⟨e, memberE, start, tokens⟩ := condition c mem last
      refine ⟨fun _ _ => ⟨e, memberE, start⟩, fun other also there => ⟨c, mem, last, ?_⟩⟩
      rw [← tokens, db.counter_unique memberE also (start.trans there.symm)]

theorem anchor_le_periodStart (hourly : rt.periodType = .hourly) (now : Int) :
    ofTimestamp rt.anchorTs ≤ rt.periodStart now := by
  have elapsed : 0 ≤ max (timestamp now - rt.anchorTs) 0 / rt.step * rt.step :=
    mul_nonneg (Int.ediv_nonneg (le_max_right _ _) rt.step_pos.le) rt.step_pos.le
  simp only [periodStart, hourly, ofTimestamp]
  omega

theorem now_lt_of_periodStart_le (hourly : rt.periodType = .hourly) (started : rt.periodStart now ≤ now) :
    now < rt.periodStart now + ofTimestamp rt.step := by
  have reached : rt.NotBefore now := fun _ => (anchor_le_periodStart hourly now).trans started
  have ends := (follows_windows hourly).ends now reached
  simp only [periodEnd, hourly, Option.some.injEq] at ends
  rw [step, ends]
  exact Grid.lt_start_next _ now

theorem snapshot_hourly_iff (stored : plan ∈ db.codingPlans) (enabled : plan.enabled)
    (settings : rt.SettingsOf plan) (hourly : plan.periodType = .hourly) :
    snapshotOf db now userId plan.id = currentSnapshot db rt now userId plan.id ↔
      CurrentIsLatest db plan rt now userId := by
  have kind : rt.periodType = .hourly := settings.periodType.trans hourly
  have looked {c : UsageCounter} : Looked db plan now userId c ↔ c ∈ db.countersOf userId plan.id ∧
      now - plan.periodHours * 3600000000000 < c.periodStart ∧ c.periodStart ≤ now := by
    simp [Looked, currentPeriod, hourly]
  have key {c : UsageCounter} : plan.sqlPeriodKey c.periodStart = rt.periodKey now ↔
      c.periodStart = rt.periodStart now := by
    have current := periodStart_whole rt now
    have counted := c.whole
    simp only [sqlPeriodKey, periodKey, kind, hourly, String.ofList_inj,
      append_cancel_left_eq, sqlEpoch_whole counted]
    refine ⟨fun same => ?_, fun same => by rw [same]⟩
    have := signed_inj same
    unfold timestamp at this
    omega
  have window : rt.periodStart now ≤ now → now - plan.periodHours * 3600000000000 < rt.periodStart now := by
    intro started
    have := now_lt_of_periodStart_le kind started
    have := plan.hours
    simp only [step, settings.periodHours, ofTimestamp] at *
    omega
  rw [snapshotOf_eq_iff stored enabled]
  simp only [looked, key, CurrentIsLatest, hourly]
  constructor
  · rintro ⟨justified, represented⟩
    refine ⟨fun c mem start => ?_, fun c mem after before => ?_⟩
    · obtain ⟨b, looked, -, startB, -⟩ := represented c mem start
      rw [← startB]
      exact looked.2.2
    · obtain ⟨e, memberE, start⟩ := justified c ⟨mem, after, before⟩
      obtain ⟨b, -, last, startB, -⟩ := represented e memberE start
      exact ⟨startB ▸ last c ⟨mem, after, before⟩, e, memberE, start⟩
  · rintro ⟨started, latest⟩
    refine ⟨fun d seen => (latest d seen.1 seen.2.1 seen.2.2).2, fun e mem start => ?_⟩
    have now_ := started e mem start
    refine ⟨e, ⟨mem, start ▸ window now_, start ▸ now_⟩, fun d seen => ?_, start, rfl⟩
    rw [start]
    exact (latest d seen.1 seen.2.1 seen.2.2).1

end

/-- The query gives the current counter exactly when none in its reach is later and both sides write the same key.
-/
theorem snapshot_current_iff (db : PlanTables) {plan : CodingPlan} (stored : plan ∈ db.codingPlans)
    (enabled : plan.enabled) {rt : PlanRuntime} (settings : rt.SettingsOf plan) (now userId : Int) :
    snapshotOf db now userId plan.id = currentSnapshot db rt now userId plan.id ↔
      CurrentIsLatest db plan rt now userId := by
  have kind := settings.periodType
  have keys := sqlPeriodKey_eq_iff settings now
  cases type : plan.periodType with
  | hourly => exact snapshot_hourly_iff stored enabled settings type
  | total => exact snapshot_total_iff stored enabled settings type
  | daily | monthly =>
    have exactly (start : Int) : plan.currentPeriod now start ↔ start = rt.periodStart now := by
      simp [currentPeriod, periodStart, kind, type]
    rw [snapshot_exact_iff stored enabled exactly, keys]
    simp [CurrentIsLatest, type]

def fiveHourTables (counters : List UsageCounter)
    (distinct : (counters.map fun c => (c.userId, c.planId, c.periodStart)).Nodup) : PlanTables where
  codingPlans := [fiveHourCodingPlan]
  userGroups := []
  userGroupMembers := []
  planGroups := []
  planUsers := [⟨7, 1, 0⟩]
  planUsageCounters := counters
  plan_key := by decide
  group_key := by decide
  member_key := by decide
  planGroup_key := by decide
  planUser_key := List.nodup_singleton _
  counter_key := distinct

def tenOClock : UsageCounter := ⟨1, 7, 36000000000000, .ofNat 100, rfl⟩

def elevenOClock : UsageCounter := ⟨1, 7, 39600000000000, .ofNat 5, rfl⟩

def fiveHourRuntime : PlanRuntime := { fiveHourPlan 0 with periodAnchorMode := .fixed }

/-- At noon the window from ten o'clock on has 100 tokens, the query finds 5. -/
theorem shorter_window_shadows :
    snapshotOf (fiveHourTables [tenOClock, elevenOClock] (by decide)) 43200000000000 1 7 ≠
      currentSnapshot (fiveHourTables [tenOClock, elevenOClock] (by decide)) fiveHourRuntime 43200000000000
        1 7 := by
  decide +kernel

theorem tenOClock_found :
    snapshotOf (fiveHourTables [tenOClock] (by decide)) 43200000000000 1 7 =
      currentSnapshot (fiveHourTables [tenOClock] (by decide)) fiveHourRuntime 43200000000000 1 7 := by
  refine (snapshot_current_iff (fiveHourTables [tenOClock] (by decide)) mem_cons_self rfl ⟨rfl, rfl⟩ _ 1).mpr ?_
  refine ⟨?_, ?_⟩
  · decide +kernel
  · decide +kernel

end LlmGateway
