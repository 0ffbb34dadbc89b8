import LlmGateway.Lib.I64
import LlmGateway.Lib.MaximalRun
import LlmGateway.Lib.Text
import Mathlib.Algebra.Order.Field.Rat
import Mathlib.Data.List.Sort

namespace LlmGateway

open List

/-- The calls to a provider in an hour. Hours are cut by `date_trunc` and counted from the epoch. -/
structure HourRow where
  providerId : Int
  hour : Int
  calls : I64
  errors : I64
deriving DecidableEq

inductive Severity
  | minor
  | major
deriving DecidableEq

structure IncidentOut where
  providerId : Int
  providerName : Str
  start : Int
  /-- `end`, the hour after the last one -/
  stop : Int
  ongoing : Bool
  severity : Severity
  errorRate : Rat
  calls : I64
  errors : I64
  title : Str
deriving DecidableEq

def incidentMinCalls : Int := 5

def incidentRate : Rat := 1 / 2

def maxIncidents : Nat := 20

def HourRow.rate (row : HourRow) : Rat := row.errors.val / row.calls.val

def HourRow.bad (row : HourRow) : Bool := incidentMinCalls ≤ row.calls.val && incidentRate ≤ row.rate

/-- The hours, the sums and the highest rate of a run. -/
structure IncidentRun where
  start : Int
  last : Int
  calls : I64
  errors : I64
  peak : Rat

namespace IncidentRun

def ofRow (row : HourRow) : IncidentRun := ⟨row.hour, row.hour, row.calls, row.errors, row.rate⟩

def extend (run : IncidentRun) (row : HourRow) : IncidentRun :=
  ⟨run.start, row.hour, run.calls.wrappingAdd row.calls, run.errors.wrappingAdd row.errors, max run.peak row.rate⟩

def reaches (run : IncidentRun) (row : HourRow) : Bool := run.last = row.hour || run.last = row.hour - 1

def incident (now : Rat) (providerId : Int) (name : Str) (run : IncidentRun) : IncidentOut where
  providerId := providerId
  providerName := name
  start := run.start
  stop := run.last + 1
  ongoing := now - 1 ≤ run.last
  severity := if 4 / 5 ≤ run.peak then .major else .minor
  errorRate := if 0 < run.calls.val then run.errors.val / run.calls.val else 0
  calls := run.calls
  errors := run.errors
  title := name ++ " 上游服务异常".toList

end IncidentRun

/-- What the loop over the hours of a provider has flushed, and the run that is open. -/
structure IncidentScan where
  flushed : List IncidentRun
  run : Option IncidentRun

namespace IncidentScan

def new : IncidentScan := ⟨[], none⟩

def runs (scan : IncidentScan) : List IncidentRun := scan.flushed ++ scan.run.toList

def flush (scan : IncidentScan) : IncidentScan := ⟨scan.runs, none⟩

def take (scan : IncidentScan) (row : HourRow) : IncidentScan :=
  if row.bad then
    match scan.run with
    | some run =>
      if run.reaches row then { scan with run := some (run.extend row) }
      else { scan.flush with run := some (.ofRow row) }
    | none => { scan.flush with run := some (.ofRow row) }
  else scan.flush

end IncidentScan

/-- The order in which a hash map hands out the providers of the rows. -/
structure ProviderOrder (rows : List HourRow) where
  ids : List Int
  nodup : ids.Nodup
  mem_iff : ∀ id, id ∈ ids ↔ ∃ row ∈ rows, row.providerId = id

def providerHours (rows : List HourRow) (id : Int) : List HourRow :=
  (rows.filter (·.providerId = id)).insertionSort (·.hour ≤ ·.hour)

def providerIncidents (now : Rat) (names : Int → Option Str) (rows : List HourRow) (id : Int) : List IncidentOut :=
  let name := (names id).getD ('#' :: (toString id).toList)
  ((providerHours rows id).foldl IncidentScan.take .new).flush.flushed.map (·.incident now id name)

/-- The incidents, the latest first. -/
def sortedIncidents (now : Rat) (names : Int → Option Str) {rows : List HourRow} (order : ProviderOrder rows) :
    List IncidentOut :=
  (order.ids.flatMap (providerIncidents now names rows)).insertionSort (fun a b => b.start ≤ a.start)

def buildIncidents (now : Rat) (names : Int → Option Str) {rows : List HourRow} (order : ProviderOrder rows) :
    List IncidentOut :=
  (sortedIncidents now names order).take maxIncidents

def BadHour (rows : List HourRow) (id hour : Int) : Prop :=
  ∃ row ∈ rows, row.providerId = id ∧ row.hour = hour ∧ 5 ≤ row.calls.val ∧ row.calls.val ≤ 2 * row.errors.val

instance (rows : List HourRow) (id hour : Int) : Decidable (BadHour rows id hour) :=
  inferInstanceAs (Decidable (∃ row ∈ rows,
    row.providerId = id ∧ row.hour = hour ∧ 5 ≤ row.calls.val ∧ row.calls.val ≤ 2 * row.errors.val))

def hoursOf (rows : List HourRow) (id first last : Int) : List HourRow :=
  rows.filter fun row => row.providerId = id ∧ first ≤ row.hour ∧ row.hour ≤ last

/-- The incident of the hours up to `last`, with the sums of `i64`. -/
structure IncidentOut.Covers (incident : IncidentOut) (rows : List HourRow) (last : Int) : Prop where
  stop : incident.stop = last + 1
  calls : incident.calls = .wrap
    ((hoursOf rows incident.providerId incident.start last).map (·.calls.val)).sum
  errors : incident.errors = .wrap
    ((hoursOf rows incident.providerId incident.start last).map (·.errors.val)).sum
  severity : incident.severity = .major ↔
    ∃ row ∈ hoursOf rows incident.providerId incident.start last, 4 * row.calls.val ≤ 5 * row.errors.val

theorem HourRow.le_rate_iff (row : HourRow) (counted : 0 < row.calls.val) (num den : Int)
    (positive : 0 < den) :
    (num / den : Rat) ≤ row.rate ↔ num * row.calls.val ≤ den * row.errors.val := by
  have calls : (0 : Rat) < row.calls.val := by exact_mod_cast counted
  have divisor : (0 : Rat) < den := by exact_mod_cast positive
  rw [rate, div_le_div_iff₀ divisor calls, mul_comm (row.errors.val : Rat)]
  exact_mod_cast Iff.rfl

theorem HourRow.bad_iff {row : HourRow} :
    row.bad ↔ 5 ≤ row.calls.val ∧ row.calls.val ≤ 2 * row.errors.val := by
  rw [bad, Bool.and_eq_true, decide_eq_true_eq, decide_eq_true_eq]
  refine and_congr_right fun enough => ?_
  have half := row.le_rate_iff (lt_of_lt_of_le (by decide) enough) 1 2 (by decide)
  rw [one_mul] at half
  rw [← half, incidentRate, Int.cast_one, Int.cast_ofNat]

section Scan

variable {rows : List HourRow} {row : HourRow} {run : IncidentRun} {scan : IncidentScan}

def BadIn (rows : List HourRow) (hour : Int) : Prop := ∃ row ∈ rows, row.hour = hour ∧ row.bad

def rowsIn (rows : List HourRow) (first last : Int) : List HourRow :=
  rows.filter fun row => first ≤ row.hour ∧ row.hour ≤ last

/-- The run is a maximal one with the sums and the rates of its hours. -/
structure IncidentRun.Spans (run : IncidentRun) (rows : List HourRow) : Prop where
  maximal : MaximalRun (BadIn rows) run.start run.last
  calls : run.calls = .wrap ((rowsIn rows run.start run.last).map (·.calls.val)).sum
  errors : run.errors = .wrap ((rowsIn rows run.start run.last).map (·.errors.val)).sum
  peak : ∀ rate, rate ≤ run.peak ↔ ∃ row ∈ rowsIn rows run.start run.last, rate ≤ row.rate

/-- The state after the rows: all their runs in order, the open one with the last of the rows. -/
structure IncidentScan.Follows (scan : IncidentScan) (rows : List HourRow) : Prop where
  spans : ∀ run ∈ scan.runs, run.Spans rows
  complete : ∀ first last, MaximalRun (BadIn rows) first last →
    ∃ run ∈ scan.runs, run.start = first ∧ run.last = last
  sorted : scan.runs.Pairwise (·.start < ·.start)
  closed : ∀ run ∈ scan.flushed, ∃ row ∈ rows, run.last < row.hour
  opened : ∀ hour, BadIn rows hour → (∀ row ∈ rows, row.hour ≤ hour) → ∃ run, scan.run = some run ∧ run.last = hour

theorem badIn_snoc (hour : Int) :
    BadIn (rows ++ [row]) hour ↔ BadIn rows hour ∨ hour = row.hour ∧ row.bad := by
  simp only [BadIn, mem_append, mem_singleton, or_and_right, exists_or, exists_eq_left]
  exact or_congr_right (and_congr_left fun _ => eq_comm)

theorem badIn_snoc_of_bad (bad : row.bad) (hour : Int) :
    BadIn (rows ++ [row]) hour ↔ BadIn rows hour ∨ hour = row.hour := by
  rw [badIn_snoc, and_iff_left bad]

theorem rowsIn_snoc (first last : Int) : rowsIn (rows ++ [row]) first last =
    rowsIn rows first last ++ if first ≤ row.hour ∧ row.hour ≤ last then [row] else [] := by
  simp only [rowsIn, filter_append, filter_singleton, Bool.cond_decide]

theorem IncidentRun.Spans.keep (spans : run.Spans rows) (below : run.last < row.hour)
    (maximal : MaximalRun (BadIn (rows ++ [row])) run.start run.last) : run.Spans (rows ++ [row]) := by
  have same : rowsIn (rows ++ [row]) run.start run.last = rowsIn rows run.start run.last := by
    rw [rowsIn_snoc, if_neg (by omega), append_nil]
  exact ⟨maximal, same ▸ spans.calls, same ▸ spans.errors, same ▸ spans.peak⟩

variable (later : ∀ other ∈ rows, other.hour < row.hour)
include later

theorem IncidentRun.Spans.last_lt (spans : run.Spans rows) : run.last < row.hour := by
  obtain ⟨other, member, same, _⟩ := spans.maximal.last_mem
  exact same ▸ later other member

theorem IncidentRun.Spans.extend (spans : run.Spans rows) (next : run.last = row.hour - 1)
    (maximal : MaximalRun (BadIn (rows ++ [row])) run.start row.hour) : (run.extend row).Spans (rows ++ [row]) := by
  have ordered := spans.maximal.ordered
  have whole : rowsIn (rows ++ [row]) run.start row.hour = rowsIn rows run.start run.last ++ [row] := by
    rw [rowsIn_snoc, if_pos (by omega), rowsIn, rowsIn]
    congr 1
    refine filter_congr fun other member => ?_
    have := later other member
    simp only [decide_eq_decide]
    omega
  refine ⟨maximal, ?_, ?_, fun rate => ?_⟩
  · rw [IncidentRun.extend, whole, map_append, sum_append, map_singleton, sum_singleton, ← I64.wrap_wrappingAdd,
      ← spans.calls]
  · rw [IncidentRun.extend, whole, map_append, sum_append, map_singleton, sum_singleton, ← I64.wrap_wrappingAdd,
      ← spans.errors]
  · rw [IncidentRun.extend, whole]
    simp only [le_max_iff, spans.peak, mem_append, mem_singleton, or_and_right, exists_or, exists_eq_left]

theorem spans_ofRow (maximal : MaximalRun (BadIn (rows ++ [row])) row.hour row.hour) :
    (IncidentRun.ofRow row).Spans (rows ++ [row]) := by
  have alone : rowsIn (rows ++ [row]) row.hour row.hour = [row] := by
    rw [rowsIn_snoc, if_pos ⟨le_rfl, le_rfl⟩, append_left_eq_self, rowsIn, filter_eq_nil_iff]
    intro other member
    have := later other member
    simp only [decide_eq_true_eq]
    omega
  refine ⟨maximal, ?_, ?_, fun rate => ?_⟩
  · simp only [IncidentRun.ofRow, alone, map_singleton, sum_singleton, I64.wrap_val]
  · simp only [IncidentRun.ofRow, alone, map_singleton, sum_singleton, I64.wrap_val]
  · simp only [IncidentRun.ofRow, alone, mem_singleton, exists_eq_left]

theorem maximal_iff (bad : row.bad) {first last : Int} : MaximalRun (BadIn (rows ++ [row])) first last ↔
    last < row.hour - 1 ∧ MaximalRun (BadIn rows) first last ∨
      last = row.hour ∧ (MaximalRun (BadIn rows) first (row.hour - 1) ∨
        first = row.hour ∧ ¬BadIn rows (row.hour - 1)) := by
  rw [MaximalRun.congr (badIn_snoc_of_bad bad)]
  refine MaximalRun.insert_iff ?_
  rintro hour ⟨other, member, rfl, _⟩
  exact later other member

/-- A bad hour that no row is after is that of the last row. -/
theorem eq_of_highest {hour : Int} (badHour : BadIn (rows ++ [row]) hour)
    (highest : ∀ other ∈ rows ++ [row], other.hour ≤ hour) : hour = row.hour := by
  have high := highest row mem_concat_self
  obtain ⟨other, member, rfl, _⟩ := badHour
  rcases mem_append.mp member with old | new
  · exact absurd (later other old) (by omega)
  · rw [mem_singleton.mp new]

namespace IncidentScan.Follows

theorem flushed_early (follows : scan.Follows rows) (member : run ∈ scan.flushed) : run.last < row.hour - 1 := by
  obtain ⟨other, inside, before⟩ := follows.closed run member
  have := later other inside
  omega

theorem pass (follows : scan.Follows rows) (good : ¬row.bad) : scan.flush.Follows (rows ++ [row]) := by
  have same (hour : Int) : BadIn (rows ++ [row]) hour ↔ BadIn rows hour := by
    rw [badIn_snoc, or_iff_left fun both => good both.2]
  have runs : scan.flush.runs = scan.runs := append_nil _
  refine ⟨fun run member => ?_, fun first last maximal => ?_, runs ▸ follows.sorted, fun run member => ?_,
    fun hour badHour highest => ?_⟩
  · rw [runs] at member
    have spans := follows.spans run member
    exact spans.keep (spans.last_lt later) ((MaximalRun.congr same).mpr spans.maximal)
  · rw [runs]
    exact follows.complete first last ((MaximalRun.congr same).mp maximal)
  · exact ⟨row, mem_concat_self, (follows.spans run member).last_lt later⟩
  · have last := eq_of_highest later badHour highest
    obtain ⟨other, member, rfl, _⟩ := (same hour).mp badHour
    exact absurd (later other member) (by omega)

theorem start (follows : scan.Follows rows) (bad : row.bad)
    (apart : ∀ run, scan.run = some run → run.last ≠ row.hour - 1) :
    IncidentScan.Follows ⟨scan.runs, some (.ofRow row)⟩ (rows ++ [row]) := by
  have free : ¬BadIn rows (row.hour - 1) := by
    intro badHour
    obtain ⟨run, opened, last⟩ := follows.opened _ badHour fun other member => by
      have := later other member
      omega
    exact apart run opened last
  have early : ∀ run ∈ scan.runs, run.last < row.hour - 1 := by
    intro run member
    rcases mem_append.mp member with flushed | opened
    · exact follows.flushed_early later flushed
    · have := (follows.spans run member).last_lt later
      have := apart run (Option.mem_toList.mp opened)
      omega
  have alone : MaximalRun (BadIn (rows ++ [row])) row.hour row.hour :=
    (maximal_iff later bad).mpr (.inr ⟨rfl, .inr ⟨rfl, free⟩⟩)
  refine ⟨fun run member => ?_, fun first last maximal => ?_, ?_, fun run member =>
    ?_, fun hour badHour highest => ?_⟩
  · rcases mem_append.mp member with old | new
    · have spans := follows.spans run old
      exact spans.keep (spans.last_lt later) ((maximal_iff later bad).mpr (.inl ⟨early run old, spans.maximal⟩))
    · cases mem_singleton.mp new
      exact spans_ofRow later alone
  · rcases (maximal_iff later bad).mp maximal with ⟨-, old⟩ | ⟨rfl, before | ⟨rfl, -⟩⟩
    · obtain ⟨run, member, same⟩ := follows.complete first last old
      exact ⟨run, mem_append_left _ member, same⟩
    · exact absurd before.last_mem free
    · exact ⟨.ofRow row, mem_concat_self, rfl, rfl⟩
  · refine pairwise_append.mpr ⟨follows.sorted, pairwise_singleton _ _, fun run member new inside => ?_⟩
    cases mem_singleton.mp inside
    have := (follows.spans run member).maximal.ordered
    exact lt_of_le_of_lt this ((follows.spans run member).last_lt later)
  · exact ⟨row, mem_concat_self, (follows.spans run member).last_lt later⟩
  · exact ⟨.ofRow row, rfl, (eq_of_highest later badHour highest).symm⟩

theorem extend (follows : scan.Follows rows) (bad : row.bad) (opened : scan.run = some run)
    (next : run.last = row.hour - 1) :
    IncidentScan.Follows ⟨scan.flushed, some (run.extend row)⟩ (rows ++ [row]) := by
  have runs : scan.runs = scan.flushed ++ [run] := by rw [IncidentScan.runs, opened, Option.toList_some]
  have open_mem : run ∈ scan.runs := runs ▸ mem_concat_self
  have spans := follows.spans run open_mem
  have longer : MaximalRun (BadIn (rows ++ [row])) run.start row.hour :=
    (maximal_iff later bad).mpr (.inr ⟨rfl, .inl (next ▸ spans.maximal)⟩)
  refine ⟨fun other member => ?_, fun first last maximal => ?_, ?_, fun other member => ?_,
    fun hour badHour highest => ?_⟩
  · rcases mem_append.mp member with old | new
    · have earlier := follows.spans other (mem_append_left _ old)
      have early := follows.flushed_early later old
      exact earlier.keep (by omega) ((maximal_iff later bad).mpr (.inl ⟨early, earlier.maximal⟩))
    · cases mem_singleton.mp new
      exact spans.extend later next longer
  · rcases (maximal_iff later bad).mp maximal with ⟨early, old⟩ | ⟨rfl, before | ⟨rfl, free⟩⟩
    · obtain ⟨other, member, same⟩ := follows.complete first last old
      rw [runs] at member
      rcases mem_append.mp member with flushed | opened
      · exact ⟨other, mem_append_left _ flushed, same⟩
      · cases mem_singleton.mp opened
        omega
    · refine ⟨run.extend row, mem_concat_self, ?_, rfl⟩
      exact (next ▸ spans.maximal).first_unique before
    · exact absurd (next ▸ spans.maximal.last_mem) free
  · have sorted := follows.sorted
    rw [runs] at sorted
    obtain ⟨front, _, less⟩ := pairwise_append.mp sorted
    refine pairwise_append.mpr ⟨front, pairwise_singleton _ _, fun other member new inside => ?_⟩
    cases mem_singleton.mp inside
    exact less other member run (mem_singleton_self _)
  · obtain ⟨inner, inside, before⟩ := follows.closed other member
    exact ⟨inner, mem_append_left _ inside, before⟩
  · exact ⟨run.extend row, rfl, (eq_of_highest later badHour highest).symm⟩

theorem take (follows : scan.Follows rows) : (scan.take row).Follows (rows ++ [row]) := by
  rw [IncidentScan.take]
  split_ifs with bad
  · cases opened : scan.run with
    | none => exact follows.start later bad fun run found => by cases opened.symm.trans found
    | some run =>
      have member : run ∈ scan.runs := mem_append_right _ (by simp [opened])
      have before := (follows.spans run member).last_lt later
      dsimp only
      split_ifs with reached
      · refine follows.extend later bad opened ?_
        simp only [IncidentRun.reaches, Bool.or_eq_true, decide_eq_true_eq] at reached
        omega
      · refine follows.start later bad fun other found => ?_
        cases opened.symm.trans found
        simp only [IncidentRun.reaches, Bool.or_eq_true, decide_eq_true_eq] at reached
        omega
  · exact follows.pass later bad

end IncidentScan.Follows

end Scan

theorem IncidentScan.follows_new : IncidentScan.new.Follows [] := by
  have silent (hour : Int) : ¬BadIn [] hour := by
    rintro ⟨_, member, _⟩
    cases member
  exact ⟨fun _ member => absurd member not_mem_nil, fun _ _ maximal => absurd maximal.last_mem (silent _), .nil,
    fun _ member => absurd member not_mem_nil, fun hour bad => absurd bad (silent hour)⟩

theorem IncidentScan.follows_foldl {rows : List HourRow} (increasing : rows.Pairwise (·.hour < ·.hour)) :
    (rows.foldl IncidentScan.take .new).Follows rows := by
  induction rows using List.reverseRecOn with
  | nil => exact follows_new
  | append_singleton rows row ih =>
    obtain ⟨front, _, less⟩ := pairwise_append.mp increasing
    rw [foldl_concat]
    exact (ih front).take fun other member => less other member row (mem_singleton_self _)

/-- No provider has two rows for an hour. -/
def OnePerHour (rows : List HourRow) : Prop :=
  rows.Pairwise fun a b => a.providerId = b.providerId → a.hour ≠ b.hour

instance (rows : List HourRow) : Decidable (OnePerHour rows) :=
  inferInstanceAs (Decidable (rows.Pairwise fun a b => a.providerId = b.providerId → a.hour ≠ b.hour))

section Provider

variable {rows : List HourRow} {id : Int}

theorem providerHours_perm : (providerHours rows id).Perm (rows.filter (·.providerId = id)) :=
  perm_insertionSort _ _

theorem mem_providerHours {row : HourRow} : row ∈ providerHours rows id ↔ row ∈ rows ∧ row.providerId = id := by
  rw [providerHours_perm.mem_iff, mem_filter, decide_eq_true_eq]

theorem badIn_providerHours (hour : Int) : BadIn (providerHours rows id) hour ↔ BadHour rows id hour := by
  simp only [BadIn, BadHour, mem_providerHours, HourRow.bad_iff, and_assoc]

theorem rowsIn_perm (rows : List HourRow) (id first last : Int) :
    (rowsIn (providerHours rows id) first last).Perm (hoursOf rows id first last) := by
  refine (providerHours_perm.filter _).trans (Perm.of_eq ?_)
  rw [filter_filter, hoursOf]
  refine filter_congr fun row _ => ?_
  rw [← Bool.decide_and, decide_eq_decide]
  tauto

theorem providerHours_increasing (unique : OnePerHour rows) :
    (providerHours rows id).Pairwise (·.hour < ·.hour) := by
  have apart : (rows.filter (·.providerId = id)).Pairwise fun a b => a.hour ≠ b.hour := by
    refine (unique.filter _).imp_of_mem fun first second differ => ?_
    have := of_mem_filter first
    have := of_mem_filter second
    simp only [decide_eq_true_eq] at *
    exact differ (by omega)
  have sorted : (providerHours rows id).Pairwise fun a b => a.hour ≤ b.hour := by
    have : Std.Total fun a b : HourRow => a.hour ≤ b.hour := ⟨fun a b => le_total a.hour b.hour⟩
    have : IsTrans HourRow fun a b => a.hour ≤ b.hour := ⟨fun a b c => le_trans⟩
    exact pairwise_insertionSort _ _
  exact sorted.imp₂ (fun a b le ne => lt_of_le_of_ne le ne)
    (providerHours_perm.symm.pairwise apart Ne.symm)

theorem follows_providerHours (unique : OnePerHour rows) (id : Int) :
    ((providerHours rows id).foldl IncidentScan.take .new).Follows (providerHours rows id) :=
  IncidentScan.follows_foldl (providerHours_increasing unique)

theorem bad_of_mem_rowsIn (unique : OnePerHour rows) {run : IncidentRun} (spans : run.Spans (providerHours rows id))
    {row : HourRow} (member : row ∈ rowsIn (providerHours rows id) run.start run.last) : row.bad := by
  obtain ⟨inside, within⟩ := mem_filter.mp member
  obtain ⟨low, high⟩ := of_decide_eq_true within
  obtain ⟨other, found, same, bad⟩ := spans.maximal.inside row.hour low high
  have distinct : ((providerHours rows id).map (·.hour)).Nodup :=
    pairwise_map.mpr ((providerHours_increasing unique).imp ne_of_lt)
  rwa [← inj_on_of_nodup_map distinct found inside same]

theorem IncidentRun.Spans.covers (unique : OnePerHour rows) {run : IncidentRun}
    (spans : run.Spans (providerHours rows id)) (now : Rat) (name : Str) :
    (run.incident now id name).Covers rows run.last := by
  have perm := rowsIn_perm rows id run.start run.last
  refine ⟨rfl, ?_, ?_, ?_⟩
  · exact spans.calls.trans (congrArg I64.wrap (perm.map _).sum_eq)
  · exact spans.errors.trans (congrArg I64.wrap (perm.map _).sum_eq)
  · have major : (run.incident now id name).severity = .major ↔ 4 / 5 ≤ run.peak := by
      simp only [IncidentRun.incident]
      split_ifs with high
      · exact iff_of_true rfl high
      · exact iff_of_false nofun high
    rw [major, spans.peak]
    refine exists_congr fun row => ?_
    rw [perm.mem_iff]
    refine and_congr_right fun member => ?_
    have enough := (HourRow.bad_iff.mp (bad_of_mem_rowsIn unique spans (perm.mem_iff.mpr member))).1
    have rate := row.le_rate_iff (lt_of_lt_of_le (by decide) enough) 4 5 (by decide)
    simpa only [Int.cast_ofNat] using rate

variable (now : Rat) (names : Int → Option Str)

theorem mem_providerIncidents (unique : OnePerHour rows) {incident : IncidentOut}
    (member : incident ∈ providerIncidents now names rows id) : incident.providerId = id ∧
      ∃ last, MaximalRun (BadHour rows id) incident.start last ∧ incident.Covers rows last := by
  obtain ⟨run, inside, rfl⟩ := mem_map.mp member
  have follows := follows_providerHours unique id
  have spans := follows.spans run inside
  exact ⟨rfl, run.last, (MaximalRun.congr badIn_providerHours).mp spans.maximal, spans.covers unique now _⟩

theorem exists_providerIncident (unique : OnePerHour rows) {first last : Int}
    (maximal : MaximalRun (BadHour rows id) first last) :
    ∃ incident ∈ providerIncidents now names rows id, incident.start = first := by
  have follows := follows_providerHours unique id
  obtain ⟨run, inside, start, _⟩ :=
    follows.complete first last ((MaximalRun.congr badIn_providerHours).mpr maximal)
  exact ⟨_, mem_map_of_mem inside, start⟩

theorem providerIncidents_distinct (unique : OnePerHour rows) :
    (providerIncidents now names rows id).Pairwise fun a b => a.start ≠ b.start := by
  have follows := follows_providerHours unique id
  exact pairwise_map.mpr (follows.sorted.imp ne_of_lt)

end Provider

/-- Before the list is cut, there is one incident for each maximal run of bad hours of a provider, with the sums and
the severity of its hours. -/
theorem incidents_are_maximal_runs {rows : List HourRow} (unique : OnePerHour rows) (order : ProviderOrder rows)
    (now : Rat) (names : Int → Option Str) :
    (sortedIncidents now names order).Pairwise (fun a b => a.providerId = b.providerId → a.start ≠ b.start) ∧
    (∀ incident ∈ sortedIncidents now names order, ∃ last,
      MaximalRun (BadHour rows incident.providerId) incident.start last ∧ incident.Covers rows last) ∧
    ∀ id first last, MaximalRun (BadHour rows id) first last →
      ∃ incident ∈ sortedIncidents now names order, incident.providerId = id ∧ incident.start = first := by
  have perm := perm_insertionSort (fun a b : IncidentOut => b.start ≤ a.start)
    (order.ids.flatMap (providerIncidents now names rows))
  refine ⟨?_, fun incident member => ?_, fun id first last maximal => ?_⟩
  · refine perm.symm.pairwise (pairwise_flatMap.mpr ⟨fun id _ => ?_, ?_⟩) fun differ same => (differ same.symm).symm
    · refine (providerIncidents_distinct now names unique).imp ?_
      exact fun differ _ => differ
    · refine order.nodup.imp fun apart one first two second same => ?_
      rw [(mem_providerIncidents now names unique first).1,
        (mem_providerIncidents now names unique second).1] at same
      exact absurd same apart
  · obtain ⟨id, _, inside⟩ := mem_flatMap.mp (perm.mem_iff.mp member)
    obtain ⟨rfl, covers⟩ := mem_providerIncidents now names unique inside
    exact covers
  · obtain ⟨row, member, provider, _⟩ := maximal.last_mem
    obtain ⟨incident, inside, start⟩ := exists_providerIncident now names unique maximal
    have listed := (order.mem_iff id).mpr ⟨row, member, provider⟩
    exact ⟨incident, perm.mem_iff.mpr (mem_flatMap.mpr ⟨id, listed, inside⟩),
      (mem_providerIncidents now names unique inside).1, start⟩

def hourRow (providerId hour : Int) (calls errors : Nat) : HourRow :=
  ⟨providerId, hour, .ofNat calls, .ofNat errors⟩

/-- Two providers, a gap, and a good hour between two bad ones. -/
def mixedHours : List HourRow :=
  [hourRow 1 12 10 8, hourRow 2 11 9 9, hourRow 1 11 6 3, hourRow 1 13 20 1, hourRow 1 14 5 3, hourRow 1 17 4 4]

def mixedOrder : ProviderOrder mixedHours where
  ids := [2, 1]
  nodup := by decide
  mem_iff id := by
    simp only [mixedHours, hourRow, mem_cons, not_mem_nil, or_false, exists_eq_or_imp, exists_eq_left]
    omega

theorem mixed_hours_reported : OnePerHour mixedHours ∧ MaximalRun (BadHour mixedHours 1) 11 12 ∧
    ∃ incident ∈ sortedIncidents 18 (fun _ => none) mixedOrder, incident.providerId = 1 ∧ incident.start = 11 := by
  have unique : OnePerHour mixedHours := by decide
  have maximal : MaximalRun (BadHour mixedHours 1) 11 12 := by
    refine ⟨by decide, fun hour low high => ?_, by decide, by decide⟩
    obtain rfl | rfl : hour = 11 ∨ hour = 12 := by omega
    · decide
    · decide
  exact ⟨unique, maximal, (incidents_are_maximal_runs unique mixedOrder 18 _).2.2 1 11 12 maximal⟩

example : (sortedIncidents 18 (fun _ => none) mixedOrder).map
      (fun incident => (incident.providerId, incident.start, incident.stop, incident.calls.val,
        incident.severity)) =
    [(1, 14, 15, 5, .minor), (2, 11, 12, 9, .major), (1, 11, 13, 16, .major)] := by
  decide +kernel

end LlmGateway
