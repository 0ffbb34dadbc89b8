import LlmGateway.Lib.Calendar
import LlmGateway.Lib.Decimal
import LlmGateway.Plan.Scope

namespace LlmGateway

open Calendar Decimal Date Grid

inductive PeriodType
  | hourly | daily | monthly | total
  deriving DecidableEq

inductive PeriodAnchorMode
  | fixed | join
  deriving DecidableEq

inductive OverageAction
  | block | downgrade | log
  deriving DecidableEq

/-! Ints are nanoseconds since the start of 1970 in UTC. -/

namespace Utc

def ofTimestamp (seconds : Int) : Int := seconds * 1000000000

/-- `timestamp()`: the whole seconds. -/
def timestamp (t : Int) : Int := t / 1000000000

def days (t : Int) : Int := t / 86400000000000

/-- `and_hms_opt(0, 0, 0)` on a day. -/
def midnight (day : Int) : Int := day * 86400000000000

/-- `date_naive()`. -/
def date (t : Int) : Date := ofDays (days t)

end Utc

/-- A plan a user is a member of, as the requests see it. -/
structure PlanRuntime where
  planId : Int
  planName : Str
  groupName : Str
  tokenLimit : Int
  periodType : PeriodType
  periodHours : Int
  periodAnchorMode : PeriodAnchorMode
  memberSince : Int
  overageAction : OverageAction
  downgradeModel : Option Str
  alertChannels : List Str
  webhookUrl : Str
  priority : Int
  /-- The time of the day, in nanoseconds. -/
  activeStart : Option Nat
  activeEnd : Option Nat
  modelScope : Option ModelScope
  deriving DecidableEq

def printYear (year : Int) : Str :=
  if 0 ≤ year ∧ year ≤ 9999 then padded 4 year.natAbs
  else (if year < 0 then '-' else '+') :: padded 4 year.natAbs

def printDate (date : Date) : Str :=
  printYear date.year ++ '-' :: (padded 2 date.month ++ '-' :: padded 2 date.day)

namespace PlanRuntime

variable (p : PlanRuntime)

def anchorTs : Int :=
  match p.periodAnchorMode with
  | .join => Utc.timestamp p.memberSince
  | .fixed => 0

/-- The length of a window in seconds. 3600 times an `i32` does not saturate. -/
def step : Int := max p.periodHours 1 * 3600

def periodStart (now : Int) : Int :=
  match p.periodType with
  | .daily => Utc.midnight (Utc.days now)
  | .monthly => Utc.midnight (ofYmd (Utc.date now).year (Utc.date now).month 1)
  | .hourly =>
    let elapsed := max (Utc.timestamp now - p.anchorTs) 0
    Utc.ofTimestamp (p.anchorTs + elapsed / p.step * p.step)
  | .total => 0

def periodEnd (now : Int) : Option Int :=
  match p.periodType with
  | .daily => some (p.periodStart now + 86400000000000)
  | .monthly =>
    let today := Utc.date now
    let (ny, nm) := if today.month = 12 then (today.year + 1, 1) else (today.year, today.month + 1)
    some (Utc.midnight (ofYmd ny nm 1))
  | .hourly => some (p.periodStart now + Utc.ofTimestamp (max p.periodHours 1 * 3600))
  | .total => none

def periodKey (now : Int) : String :=
  match p.periodType with
  | .hourly => .ofList ("h:".toList ++ signed (Utc.timestamp (p.periodStart now)))
  | .daily => .ofList ("d:".toList ++ printDate (Utc.date now))
  | .monthly => .ofList ("m:".toList ++ signed (Utc.date now).year ++ '-' :: padded 2 (Utc.date now).month)
  | .total => "t"

def NotBefore (t : Int) : Prop := p.periodType = .hourly → Utc.ofTimestamp p.anchorTs ≤ t

/-- The periods of a plan are the intervals of a grid, and a key names one of
them. -/
structure Follows (g : Grid) : Prop where
  starts : ∀ t, p.NotBefore t → p.periodStart t = g.start (g.index t)
  ends : ∀ t, p.NotBefore t → p.periodEnd t = some (g.start (g.index t + 1))
  later : ∀ t u, p.NotBefore t → g.start (g.index t) ≤ u → p.NotBefore u
  keys : ∀ t u, p.NotBefore t → p.NotBefore u → (p.periodKey t = p.periodKey u ↔ g.index t = g.index u)

end PlanRuntime

def dayGrid : Grid := .uniform 0 86400000000000 (by decide)

def secondGrid : Grid := .uniform 0 1000000000 (by decide)

theorem dayGrid_start (day : Int) : dayGrid.start day = Utc.midnight day := Int.zero_add _

theorem dayGrid_index (t : Int) : dayGrid.index t = Utc.days t :=
  congrArg (· / 86400000000000) (Int.sub_zero t)

theorem secondGrid_start (second : Int) : secondGrid.start second = Utc.ofTimestamp second := Int.zero_add _

theorem secondGrid_index (t : Int) : secondGrid.index t = Utc.timestamp t :=
  congrArg (· / 1000000000) (Int.sub_zero t)

theorem isDigit_sign (y : Int) : (if y < 0 then '-' else '+').isDigit = false := by
  split <;> rfl

theorem printYear_inj {y z : Int} (same : printYear y = printYear z) : y = z := by
  have unsigned {m : Nat} {x : Int} {rest : Str} : padded 4 m ≠ (if x < 0 then '-' else '+') :: rest := by
    intro starts
    cases (head_padded starts).symm.trans (isDigit_sign x)
  unfold printYear at same
  by_cases left : 0 ≤ y ∧ y ≤ 9999 <;> by_cases right : 0 ≤ z ∧ z ≤ 9999
  · rw [if_pos left, if_pos right] at same
    have := padded_inj same
    omega
  · rw [if_pos left, if_neg right] at same
    exact absurd same unsigned
  · rw [if_neg left, if_pos right] at same
    exact absurd same.symm unsigned
  · rw [if_neg left, if_neg right] at same
    obtain ⟨sign, digits⟩ := List.cons.inj same
    have := padded_inj digits
    split_ifs at sign with yes no no
    · omega
    · cases sign
    · cases sign
    · omega

theorem length_padded_month (days : Int) : (padded 2 (ofDays days).month).length = 2 := by
  have := month_le days
  exact length_padded (by decide) (by omega)

theorem length_padded_day (days : Int) : (padded 2 (ofDays days).day).length = 2 := by
  have := day_le days
  exact length_padded (by decide) (by omega)

theorem printDate_inj {d e : Int} (same : printDate (ofDays d) = printDate (ofDays e)) : d = e := by
  have lengths := length_padded_month d
  have lengths' := length_padded_month e
  obtain ⟨year, rest⟩ := List.append_inj' same (by simp [length_padded_month, length_padded_day])
  obtain ⟨month, day⟩ := List.append_inj (List.cons.inj rest).2 (by rw [lengths, lengths'])
  rw [← ofYmd_ofDays d, printYear_inj year, padded_inj month, padded_inj (List.cons.inj day).2,
    ofYmd_ofDays]

namespace PlanRuntime

variable {p : PlanRuntime}

theorem follows_days (daily : p.periodType = .daily) : p.Follows dayGrid where
  starts t _ := by rw [periodStart, daily, dayGrid_start, dayGrid_index]
  ends t _ := by
    have next (day : Int) : Utc.midnight day + 86400000000000 = Utc.midnight (day + 1) := by
      unfold Utc.midnight
      omega
    simp [periodEnd, periodStart, daily, dayGrid_start, dayGrid_index, next]
  later _ _ _ _ hourly := by
    rw [daily] at hourly
    cases hourly
  keys t u _ _ := by
    simp only [periodKey, daily, String.ofList_inj, List.append_cancel_left_eq, dayGrid_index]
    exact ⟨printDate_inj, fun same => congrArg (printDate ∘ ofDays) same⟩

theorem printMonth_eq_iff {d e : Int} :
    signed (ofDays d).year ++ '-' :: padded 2 (ofDays d).month =
      signed (ofDays e).year ++ '-' :: padded 2 (ofDays e).month ↔ monthIndex d = monthIndex e := by
  have left := monthIndex_eq d
  have right := monthIndex_eq e
  constructor
  · intro same
    obtain ⟨year, month⟩ := List.append_inj' same (by simp [length_padded_month])
    rw [left, right, signed_inj year, padded_inj (List.cons.inj month).2]
  · intro same
    obtain ⟨year, month⟩ := eq_of_monthIndex same
    rw [year, month]

theorem follows_months (monthly : p.periodType = .monthly) : p.Follows (dayGrid.coarsen months) where
  starts t _ := by
    simp only [periodStart, monthly, coarsen, dayGrid_start, dayGrid_index, Utc.date, ofYmd_first]
    rfl
  ends t _ := by
    have next := ofYmd_next (Utc.days t)
    simp only [periodEnd, monthly, coarsen, dayGrid_start, dayGrid_index, Utc.date]
    refine congrArg (some ∘ Utc.midnight) (Eq.trans ?_ next)
    split <;> simp_all
  later _ _ _ _ hourly := by
    rw [monthly] at hourly
    cases hourly
  keys t u _ _ := by
    simp only [periodKey, monthly, String.ofList_inj, List.append_assoc, List.append_cancel_left_eq, coarsen,
      dayGrid_index]
    exact printMonth_eq_iff

theorem step_pos (p : PlanRuntime) : 0 < p.step := by
  unfold step
  omega

theorem elapsed_nonneg {t : Int} (hourly : p.periodType = .hourly) (reached : p.NotBefore t) :
    0 ≤ Utc.timestamp t - p.anchorTs := by
  have := reached hourly
  unfold Utc.ofTimestamp at this
  unfold Utc.timestamp
  omega

theorem periodStart_hourly {t : Int} (hourly : p.periodType = .hourly) (reached : p.NotBefore t) :
    p.periodStart t = Utc.ofTimestamp (p.anchorTs + (Utc.timestamp t - p.anchorTs) / p.step * p.step) := by
  simp [periodStart, hourly, max_eq_left (elapsed_nonneg hourly reached)]

theorem timestamp_ofTimestamp (seconds : Int) : Utc.timestamp (Utc.ofTimestamp seconds) = seconds := by
  unfold Utc.ofTimestamp Utc.timestamp
  omega

theorem ofTimestamp_add (s t : Int) : Utc.ofTimestamp s + Utc.ofTimestamp t = Utc.ofTimestamp (s + t) := by
  unfold Utc.ofTimestamp
  omega

theorem follows_windows (hourly : p.periodType = .hourly) :
    p.Follows (secondGrid.coarsen (.uniform p.anchorTs p.step p.step_pos)) where
  starts t reached := by
    simp [periodStart_hourly hourly reached, coarsen, uniform, secondGrid_start, secondGrid_index]
  ends t reached := by
    have next (n : Int) : p.anchorTs + n * p.step + max p.periodHours 1 * 3600 = p.anchorTs + (n + 1) * p.step := by
      rw [← step, Int.add_mul, Int.one_mul, Int.add_assoc]
    simp [periodEnd, hourly, periodStart_hourly hourly reached, coarsen, uniform, secondGrid_start,
      secondGrid_index, ofTimestamp_add, next]
  later t u reached after := by
    intro _
    have windows : 0 ≤ (Utc.timestamp t - p.anchorTs) / p.step * p.step :=
      mul_nonneg (Int.ediv_nonneg (elapsed_nonneg hourly reached) p.step_pos.le) p.step_pos.le
    simp only [coarsen, uniform, secondGrid_start, secondGrid_index] at after
    refine le_trans ?_ after
    unfold Utc.ofTimestamp
    omega
  keys t u left right := by
    have starts := (uniform p.anchorTs p.step p.step_pos).start_strictMono.injective
    simp only [periodKey, hourly, String.ofList_inj, List.append_cancel_left_eq, periodStart_hourly hourly left,
      periodStart_hourly hourly right, timestamp_ofTimestamp, coarsen, secondGrid_index]
    constructor
    · intro same
      exact starts (signed_inj same)
    · intro same
      exact congrArg (signed ∘ (uniform p.anchorTs p.step p.step_pos).start) same

theorem exists_follows (p : PlanRuntime) (bounded : p.periodType ≠ .total) : ∃ g, p.Follows g := by
  cases kind : p.periodType with
  | hourly => exact ⟨_, follows_windows kind⟩
  | daily => exact ⟨_, follows_days kind⟩
  | monthly => exact ⟨_, follows_months kind⟩
  | total => exact absurd kind bounded

end PlanRuntime

/-- The periods of a plan divide the time from its anchor on. -/
theorem periods_partition (p : PlanRuntime) (bounded : p.periodType ≠ .total) (t u : Int) (atT : p.NotBefore t)
    (atU : p.NotBefore u) :
    ∃ next, p.periodEnd t = some next ∧ p.periodStart t ≤ t ∧ t < next ∧ p.periodStart next = next ∧
      (∀ v, p.periodStart t ≤ v → v < next → p.periodStart v = p.periodStart t) ∧
      (t ≤ u → p.periodStart t ≤ p.periodStart u) ∧
      (p.periodKey t = p.periodKey u ↔ p.periodStart t = p.periodStart u) := by
  obtain ⟨g, follows⟩ := p.exists_follows bounded
  have startT := follows.starts t atT
  have startU := follows.starts u atU
  refine ⟨g.start (g.index t + 1), follows.ends t atT, ?_, g.lt_start_next t, ?_, ?_, ?_, ?_⟩
  · rw [startT]
    exact g.start_index_le t
  · have after := follows.later t _ atT (g.start_lt (g.index t)).le
    rw [follows.starts _ after, g.index_start]
  · intro v lower upper
    rw [startT] at lower ⊢
    rw [follows.starts v (follows.later t v atT lower), g.index_eq lower upper]
  · intro before
    rw [startT, startU]
    exact g.start_strictMono.monotone (g.index_mono before)
  · rw [startT, startU, g.start_strictMono.injective.eq_iff]
    exact follows.keys t u atT atU

/-- A plan with windows of five hours, counted from the moment the member joined. -/
def fiveHourPlan (memberSince : Int) : PlanRuntime where
  planId := 7
  planName := "pro".toList
  groupName := []
  tokenLimit := 1000000
  periodType := .hourly
  periodHours := 5
  periodAnchorMode := .join
  memberSince
  overageAction := .block
  downgradeModel := none
  alertChannels := ["in_site".toList]
  webhookUrl := []
  priority := 0
  activeStart := none
  activeEnd := none
  modelScope := none

theorem fiveHourPlan_partition : (fiveHourPlan 1500000000).NotBefore 20000000000000 ∧
    ∃ next, (fiveHourPlan 1500000000).periodEnd 20000000000000 = some next ∧ 20000000000000 < next ∧
      (fiveHourPlan 1500000000).periodStart next = next := by
  obtain ⟨next, ends, -, later, again, -⟩ := periods_partition (fiveHourPlan 1500000000) (by decide) 20000000000000
    30000000000000 (fun _ => by decide) (fun _ => by decide)
  exact ⟨fun _ => by decide, next, ends, later, again⟩

end LlmGateway
