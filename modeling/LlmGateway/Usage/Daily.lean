import LlmGateway.Lib.Machine
import Mathlib.Algebra.BigOperators.Group.List.Basic
import Mathlib.Data.List.Dedup

namespace LlmGateway

open Machine List

/-- A `usage_logs` row. `statDate` is the UTC day of `created_at`, costs are in millionths. -/
structure UsageLog where
  id : Nat
  userId : Option Int
  model : String
  statDate : Int
  inputTokens : Option Int
  outputTokens : Option Int
  cost : Int
deriving DecidableEq

/-- The primary key of `usage_daily`. -/
abbrev DailyKey := Int × String × Int

@[ext] structure DailyTotals where
  callCount : Int
  inputTokens : Int
  outputTokens : Int
  cost : Int
deriving DecidableEq

namespace DailyTotals

instance : Zero DailyTotals := ⟨⟨0, 0, 0, 0⟩⟩

instance : Add DailyTotals := ⟨fun a b =>
  ⟨a.callCount + b.callCount, a.inputTokens + b.inputTokens, a.outputTokens + b.outputTokens, a.cost + b.cost⟩⟩

theorem add_def (a b : DailyTotals) : a + b =
    ⟨a.callCount + b.callCount, a.inputTokens + b.inputTokens, a.outputTokens + b.outputTokens, a.cost + b.cost⟩ :=
  rfl

theorem zero_def : (0 : DailyTotals) = ⟨0, 0, 0, 0⟩ := rfl

instance : AddCommMonoid DailyTotals where
  add_assoc a b c := by simp only [add_def, Int.add_assoc]
  zero_add a := by simp only [add_def, zero_def, Int.zero_add]
  add_zero a := by simp only [add_def, zero_def, Int.add_zero]
  add_comm a b := by simp only [add_def, Int.add_comm]
  nsmul := nsmulRec

end DailyTotals

namespace UsageLog

def dailyKey (row : UsageLog) : Option DailyKey := row.userId.map fun user => (user, row.model, row.statDate)

def contribution (row : UsageLog) : DailyTotals :=
  ⟨1, row.inputTokens.getD 0, row.outputTokens.getD 0, row.cost⟩

end UsageLog

def dailyTotal (rows : List UsageLog) : DailyTotals := (rows.map UsageLog.contribution).sum

def rowsOf (key : DailyKey) (rows : List UsageLog) : List UsageLog := rows.filter fun row => row.dailyKey = some key

/-- `GROUP BY user_id, model, day`. -/
def groupRows (rows : List UsageLog) : List (DailyKey × DailyTotals) :=
  (rows.filterMap UsageLog.dailyKey).dedup.map fun key => (key, dailyTotal (rowsOf key rows))

/-- `INSERT ... ON CONFLICT DO UPDATE` of one group. -/
def upsertDaily (daily : DailyKey → Option DailyTotals) (group : DailyKey × DailyTotals) :
    DailyKey → Option DailyTotals :=
  Function.update daily group.1 (some (match daily group.1 with
    | none => group.2
    | some old => old + group.2))

/-- The watermark read under the lock, and after the statement the new one and the rows summed. -/
structure Aggregator where
  watermark : Nat
  staged : Option (Nat × List UsageLog)

structure DailyState where
  nextId : Nat
  /-- inserted by a `record_usage` that has not committed -/
  inFlight : List UsageLog
  logs : List UsageLog
  watermark : Nat
  daily : DailyKey → Option DailyTotals
  aggregator : Option Aggregator
  /-- the rows summed by all committed aggregations, in order -/
  counted : List UsageLog

inductive DailyAction
  | insert (row : UsageLog)
  | commitRow (i : Nat)
  | abortRow (i : Nat)
  | lock
  | aggregate
  | commit
  | abort

/-- The statement of `aggregate_daily` over one snapshot: `COALESCE(MAX(id), $1)`
and the rows above the watermark that have a user. -/
def aggregateRows (logs : List UsageLog) (watermark : Nat) : Nat × List UsageLog :=
  let maxId := ((logs.map UsageLog.id).max?).getD watermark
  (maxId, logs.filter fun row => watermark < row.id ∧ row.id ≤ maxId ∧ row.userId.isSome)

/-- One atomic step. A row has its id from its insert and is visible from its commit. `FOR UPDATE` lets one
aggregator in. -/
def dailyStep (s : DailyState) : DailyAction → Option DailyState
  | .insert row => some
      { s with nextId := s.nextId + 1, inFlight := s.inFlight ++ [{ row with id := s.nextId }] }
  | .commitRow i => s.inFlight[i]?.map fun row =>
      { s with inFlight := s.inFlight.eraseIdx i, logs := s.logs ++ [row] }
  | .abortRow i => s.inFlight[i]?.map fun _ => { s with inFlight := s.inFlight.eraseIdx i }
  | .lock => match s.aggregator with
    | none => some { s with aggregator := some ⟨s.watermark, none⟩ }
    | some _ => none
  | .aggregate => match s.aggregator with
    | some ⟨watermark, none⟩ => some
        { s with aggregator := some ⟨watermark, some (aggregateRows s.logs watermark)⟩ }
    | _ => none
  | .commit => match s.aggregator with
    | some ⟨_, some (maxId, rows)⟩ => some
        { s with
          aggregator := none
          watermark := maxId
          daily := (groupRows rows).foldl upsertDaily s.daily
          counted := s.counted ++ rows }
    | _ => none
  | .abort => s.aggregator.map fun _ => { s with aggregator := none }

/-- A run of `aggregate_daily` from begin to commit. -/
def aggregateDaily : List DailyAction := [.lock, .aggregate, .commit]

def dailyStart : DailyState := ⟨1, [], [], 0, fun _ => none, none, []⟩

section
variable {key : DailyKey} {rows : List UsageLog} (daily : DailyKey → Option DailyTotals)

theorem dailyTotal_append (first second : List UsageLog) :
    dailyTotal (first ++ second) = dailyTotal first + dailyTotal second := by
  simp [dailyTotal]

theorem rowsOf_append (first second : List UsageLog) :
    rowsOf key (first ++ second) = rowsOf key first ++ rowsOf key second := by
  simp [rowsOf]

theorem dailyTotal_perm {first second : List UsageLog} (same : first.Perm second) :
    dailyTotal first = dailyTotal second :=
  (same.map UsageLog.contribution).sum_eq

theorem upsertDaily_getD (group : DailyKey × DailyTotals) :
    (upsertDaily daily group key).getD 0 =
      (daily key).getD 0 + if group.1 = key then group.2 else 0 := by
  by_cases same : group.1 = key
  · subst same
    cases present : daily group.1 with
    | none => simp [upsertDaily, present]
    | some old => simp [upsertDaily, present]
  · have other : key ≠ group.1 := fun eq => same eq.symm
    simp [upsertDaily, Function.update_of_ne other, same]

theorem upsertGroups_getD (total : DailyKey → DailyTotals) {keys : List DailyKey} (distinct : keys.Nodup) :
    (((keys.map fun k => (k, total k)).foldl upsertDaily daily) key).getD 0 =
      (daily key).getD 0 + if key ∈ keys then total key else 0 := by
  induction keys generalizing daily with
  | nil => simp
  | cons head keys ih =>
    obtain ⟨absent, rest⟩ := nodup_cons.mp distinct
    simp only [map_cons, foldl_cons]
    rw [ih _ rest, upsertDaily_getD]
    by_cases same : head = key
    · subst same
      simp [absent]
    · have other : key ≠ head := fun eq => same eq.symm
      simp [same, other]

theorem groupRows_getD (rows : List UsageLog) :
    (((groupRows rows).foldl upsertDaily daily) key).getD 0 =
      (daily key).getD 0 + dailyTotal (rowsOf key rows) := by
  unfold groupRows
  rw [upsertGroups_getD daily (fun k => dailyTotal (rowsOf k rows)) (nodup_dedup _)]
  split
  · rfl
  next absent =>
    have none : rowsOf key rows = [] := by
      apply filter_eq_nil_iff.mpr
      intro row mem isKey
      exact absent (mem_dedup.mpr (mem_filterMap.mpr ⟨row, mem, by simpa using isKey⟩))
    rw [none]
    rfl

end

/-- The rows an aggregation up to `mark` has to count. -/
def upTo (mark : Nat) (logs : List UsageLog) : List UsageLog :=
  logs.filter fun row => row.id ≤ mark ∧ row.userId.isSome

def NoneOvertaken (s : DailyState) : DailyAction → Prop
  | .aggregate => ∀ row ∈ s.inFlight, row.userId.isSome → ∀ done ∈ s.logs, done.id < row.id
  | _ => True

instance (s : DailyState) (a : DailyAction) : Decidable (NoneOvertaken s a) :=
  match a with
  | .aggregate => inferInstanceAs
      (Decidable (∀ row ∈ s.inFlight, row.userId.isSome → ∀ done ∈ s.logs, done.id < row.id))
  | .insert _ | .commitRow _ | .abortRow _ | .lock | .commit | .abort => inferInstanceAs (Decidable True)

/-- What holds in every interleaving: ids come from one sequence, and
`usage_daily` is the sum of the rows counted so far. -/
structure DailyLedger (s : DailyState) : Prop where
  distinct : ((s.logs ++ s.inFlight).map UsageLog.id).Nodup
  fresh : ∀ row ∈ s.logs ++ s.inFlight, row.id < s.nextId
  totals : ∀ key, (s.daily key).getD 0 = dailyTotal (rowsOf key s.counted)

/-- `mark` is a watermark that every row in flight is above. -/
structure Clear (s : DailyState) (mark : Nat) : Prop where
  above : ∀ row ∈ s.inFlight, row.userId.isSome → mark < row.id
  taken : mark < s.nextId
  seen : mark = 0 ∨ ∃ row ∈ s.logs, row.id = mark

/-- The rows counted are those up to the watermark, and a running aggregation has staged the next ones. -/
structure Covered (s : DailyState) : Prop where
  counted : s.counted.Perm (upTo s.watermark s.logs)
  clear : Clear s s.watermark
  running : ∀ tx, s.aggregator = some tx → tx.watermark = s.watermark ∧
    ∀ maxId rows, tx.staged = some (maxId, rows) → s.watermark ≤ maxId ∧ Clear s maxId ∧
      rows = s.logs.filter fun row => s.watermark < row.id ∧ row.id ≤ maxId ∧ row.userId.isSome

section
variable {s s' : DailyState} {a : DailyAction} {row : UsageLog} {i mark : Nat}

theorem dailyLedger_start : DailyLedger dailyStart := ⟨by simp [dailyStart], by simp [dailyStart], fun _ => rfl⟩

theorem covered_start : Covered dailyStart :=
  ⟨.refl _, ⟨by simp [dailyStart], by simp [dailyStart], .inl rfl⟩, by simp [dailyStart]⟩

theorem eraseIdx_perm {rows : List UsageLog} (found : rows[i]? = some row) :
    (row :: rows.eraseIdx i).Perm rows := by
  obtain ⟨bound, rfl⟩ := List.getElem?_eq_some_iff.mp found
  exact getElem_cons_eraseIdx_perm bound

theorem DailyLedger.step (ledger : DailyLedger s) (stepped : dailyStep s a = some s') : DailyLedger s' := by
  cases a with
  | insert row =>
    cases Option.some.inj stepped
    refine ⟨?_, ?_, ledger.totals⟩
    · rw [← append_assoc, map_append, nodup_append]
      refine ⟨ledger.distinct, by simp, ?_⟩
      intro old mem new last same
      obtain ⟨earlier, inside, rfl⟩ := mem_map.mp mem
      have bound := ledger.fresh earlier inside
      simp only [map_cons, map_nil, mem_singleton] at last
      omega
    · intro other mem
      rw [← append_assoc] at mem
      rcases mem_append.mp mem with old | new
      · exact Nat.lt_succ_of_lt (ledger.fresh other old)
      · rw [mem_singleton.mp new]
        exact Nat.lt_succ_self _
  | commitRow i =>
    obtain ⟨row, found, rfl⟩ := Option.map_eq_some_iff.mp stepped
    have moved : (s.logs ++ [row] ++ s.inFlight.eraseIdx i).Perm (s.logs ++ s.inFlight) := by
      rw [append_assoc]
      exact (eraseIdx_perm found).append_left s.logs
    exact ⟨(moved.map UsageLog.id).nodup_iff.mpr ledger.distinct,
      fun other mem => ledger.fresh other (moved.mem_iff.mp mem), ledger.totals⟩
  | abortRow i =>
    obtain ⟨row, found, rfl⟩ := Option.map_eq_some_iff.mp stepped
    have fewer : (s.logs ++ s.inFlight.eraseIdx i).Sublist (s.logs ++ s.inFlight) :=
      (List.Sublist.refl _).append (eraseIdx_sublist ..)
    exact ⟨ledger.distinct.sublist (fewer.map UsageLog.id),
      fun other mem => ledger.fresh other (fewer.subset mem), ledger.totals⟩
  | lock | aggregate =>
    simp only [dailyStep] at stepped
    split at stepped
    · cases Option.some.inj stepped
      exact ⟨ledger.distinct, ledger.fresh, ledger.totals⟩
    · simp at stepped
  | commit =>
    simp only [dailyStep] at stepped
    split at stepped
    next maxId rows _ =>
      cases Option.some.inj stepped
      refine ⟨ledger.distinct, ledger.fresh, fun key => ?_⟩
      rw [groupRows_getD, ledger.totals, rowsOf_append, dailyTotal_append]
    · simp at stepped
  | abort =>
    obtain ⟨_, _, rfl⟩ := Option.map_eq_some_iff.mp stepped
    exact ⟨ledger.distinct, ledger.fresh, ledger.totals⟩

theorem Clear.insert (clear : Clear s mark) (row : UsageLog) :
    Clear { s with nextId := s.nextId + 1, inFlight := s.inFlight ++ [{ row with id := s.nextId }] } mark := by
  refine ⟨?_, Nat.lt_succ_of_lt clear.taken, clear.seen⟩
  intro other mem hasUser
  rcases mem_append.mp mem with old | new
  · exact clear.above other old hasUser
  · rw [mem_singleton.mp new]
    exact clear.taken

theorem Clear.commitRow (clear : Clear s mark) :
    Clear { s with inFlight := s.inFlight.eraseIdx i, logs := s.logs ++ [row] } mark := by
  refine ⟨fun other mem => clear.above other (mem_of_mem_eraseIdx mem), clear.taken, ?_⟩
  exact clear.seen.imp_right fun ⟨seen, mem, same⟩ => ⟨seen, mem_append_left _ mem, same⟩

theorem Clear.abortRow (clear : Clear s mark) :
    Clear { s with inFlight := s.inFlight.eraseIdx i } mark :=
  ⟨fun other mem => clear.above other (mem_of_mem_eraseIdx mem), clear.taken, clear.seen⟩

theorem upTo_snoc (above : row.userId.isSome → mark < row.id) (logs : List UsageLog) :
    upTo mark (logs ++ [row]) = upTo mark logs := by
  have skipped : ¬(row.id ≤ mark ∧ row.userId.isSome) := by
    rintro ⟨within, hasUser⟩
    exact absurd (above hasUser) (Nat.not_lt.mpr within)
  simp only [upTo, filter_append]
  simp [skipped]

theorem aggregateRows_fst_spec (logs : List UsageLog) (watermark : Nat) :
    (∀ row ∈ logs, row.id ≤ (aggregateRows logs watermark).1) ∧
      ((logs = [] ∧ (aggregateRows logs watermark).1 = watermark) ∨
        ∃ row ∈ logs, row.id = (aggregateRows logs watermark).1) := by
  simp only [aggregateRows]
  cases largest : (logs.map UsageLog.id).max? with
  | none =>
    have empty : logs = [] := by simpa using List.max?_eq_none_iff.mp largest
    exact ⟨by simp [empty], .inl ⟨empty, rfl⟩⟩
  | some m =>
    obtain ⟨mem, bound⟩ := List.max?_eq_some_iff.mp largest
    obtain ⟨row, inside, same⟩ := mem_map.mp mem
    exact ⟨fun other inLogs => bound _ (mem_map_of_mem inLogs), .inr ⟨row, inside, same⟩⟩

theorem upTo_split {low high : Nat} (ordered : low ≤ high) (logs : List UsageLog) :
    (upTo low logs ++ logs.filter fun row => low < row.id ∧ row.id ≤ high ∧ row.userId.isSome).Perm
      (upTo high logs) := by
  have halves := filter_append_perm (fun row : UsageLog => decide (row.id ≤ low)) (upTo high logs)
  have first : (upTo high logs).filter (fun row => decide (row.id ≤ low)) = upTo low logs := by
    simp only [upTo, filter_filter]
    apply filter_congr
    intro row _
    simp only [Bool.decide_and, ← Bool.and_assoc]
    congr 1
    rw [← Bool.decide_and, decide_eq_decide]
    omega
  have second : (upTo high logs).filter (fun row => !decide (row.id ≤ low)) =
      logs.filter fun row => low < row.id ∧ row.id ≤ high ∧ row.userId.isSome := by
    simp only [upTo, filter_filter]
    apply filter_congr
    intro row _
    have flipped : (!decide (row.id ≤ low)) = decide (low < row.id) := by
      rw [← decide_not, decide_eq_decide, Nat.not_le]
    simp [flipped]
  rwa [first, second] at halves

theorem Covered.aggregate {watermark : Nat} (covered : Covered s) (ledger : DailyLedger s)
    (allowed : NoneOvertaken s .aggregate) (locked : s.aggregator = some ⟨watermark, none⟩) :
    Covered { s with aggregator := some ⟨watermark, some (aggregateRows s.logs watermark)⟩ } := by
  have sameMark : watermark = s.watermark := (covered.running _ locked).1
  subst sameMark
  obtain ⟨bound, origin⟩ := aggregateRows_fst_spec s.logs s.watermark
  refine ⟨covered.counted, ⟨covered.clear.above, covered.clear.taken, covered.clear.seen⟩, ?_⟩
  rintro tx same
  cases Option.some.inj same
  refine ⟨rfl, ?_⟩
  rintro maxId rows staged
  have values := Option.some.inj staged
  have maxIdEq : (aggregateRows s.logs s.watermark).1 = maxId := congrArg Prod.fst values
  have rowsEq : (aggregateRows s.logs s.watermark).2 = rows := congrArg Prod.snd values
  rw [maxIdEq] at bound origin
  refine ⟨?_, ⟨?_, ?_, ?_⟩, ?_⟩
  · rcases covered.clear.seen with zero | ⟨row, mem, same⟩
    · change s.watermark ≤ maxId
      omega
    · exact same ▸ bound row mem
  · intro row mem hasUser
    rcases origin with ⟨_, unchanged⟩ | ⟨last, inLogs, same⟩
    · exact unchanged ▸ covered.clear.above row mem hasUser
    · exact same ▸ allowed row mem hasUser last inLogs
  · rcases origin with ⟨_, unchanged⟩ | ⟨last, inLogs, same⟩
    · exact unchanged ▸ covered.clear.taken
    · exact same ▸ ledger.fresh last (mem_append_left _ inLogs)
  · rcases origin with ⟨_, unchanged⟩ | found
    · exact unchanged ▸ covered.clear.seen
    · exact .inr found
  · rw [← rowsEq, ← maxIdEq]
    rfl

theorem Covered.commit {watermark maxId : Nat} {rows : List UsageLog} (covered : Covered s)
    (staged : s.aggregator = some ⟨watermark, some (maxId, rows)⟩) :
    Covered { s with
      aggregator := none
      watermark := maxId
      daily := (groupRows rows).foldl upsertDaily s.daily
      counted := s.counted ++ rows } := by
  obtain ⟨_, next⟩ := covered.running _ staged
  obtain ⟨ordered, clear, same⟩ := next maxId rows rfl
  refine ⟨?_, ⟨clear.above, clear.taken, clear.seen⟩, by simp⟩
  rw [same]
  exact (covered.counted.append_right _).trans (upTo_split ordered s.logs)

theorem Covered.step (covered : Covered s) (ledger : DailyLedger s) (allowed : NoneOvertaken s a)
    (stepped : dailyStep s a = some s') : Covered s' := by
  cases a with
  | insert row =>
    cases Option.some.inj stepped
    refine ⟨covered.counted, covered.clear.insert row, ?_⟩
    intro tx running
    obtain ⟨mark, next⟩ := covered.running tx running
    refine ⟨mark, fun maxId rows staged => ?_⟩
    obtain ⟨ordered, clear, same⟩ := next maxId rows staged
    exact ⟨ordered, clear.insert row, same⟩
  | commitRow i =>
    obtain ⟨row, found, rfl⟩ := Option.map_eq_some_iff.mp stepped
    have mem := mem_of_getElem? found
    refine ⟨?_, covered.clear.commitRow, ?_⟩
    · simp only [upTo_snoc (covered.clear.above row mem)]
      exact covered.counted
    · intro tx running
      obtain ⟨mark, next⟩ := covered.running tx running
      refine ⟨mark, fun maxId rows staged => ?_⟩
      obtain ⟨ordered, clear, same⟩ := next maxId rows staged
      refine ⟨ordered, clear.commitRow, ?_⟩
      have skipped : ¬(s.watermark < row.id ∧ row.id ≤ maxId ∧ row.userId.isSome) := by
        rintro ⟨_, within, hasUser⟩
        exact absurd (clear.above row mem hasUser) (Nat.not_lt.mpr within)
      simp [skipped, same]
  | abortRow i =>
    obtain ⟨row, found, rfl⟩ := Option.map_eq_some_iff.mp stepped
    refine ⟨covered.counted, covered.clear.abortRow, ?_⟩
    intro tx running
    obtain ⟨mark, next⟩ := covered.running tx running
    refine ⟨mark, fun maxId rows staged => ?_⟩
    obtain ⟨ordered, clear, same⟩ := next maxId rows staged
    exact ⟨ordered, clear.abortRow, same⟩
  | lock =>
    simp only [dailyStep] at stepped
    split at stepped
    · cases Option.some.inj stepped
      refine ⟨covered.counted, ⟨covered.clear.above, covered.clear.taken, covered.clear.seen⟩, ?_⟩
      intro tx running
      cases Option.some.inj running
      exact ⟨rfl, by simp⟩
    · simp at stepped
  | aggregate =>
    simp only [dailyStep] at stepped
    split at stepped
    next watermark locked =>
      cases Option.some.inj stepped
      exact covered.aggregate ledger allowed locked
    · simp at stepped
  | commit =>
    simp only [dailyStep] at stepped
    split at stepped
    next watermark maxId rows staged =>
      cases Option.some.inj stepped
      exact covered.commit staged
    · simp at stepped
  | abort =>
    obtain ⟨_, _, rfl⟩ := Option.map_eq_some_iff.mp stepped
    exact ⟨covered.counted, ⟨covered.clear.above, covered.clear.taken, covered.clear.seen⟩, by simp⟩

theorem covered_reach {trace : List DailyAction} (reach : Reach dailyStep NoneOvertaken dailyStart trace s) :
    DailyLedger s ∧ Covered s :=
  reach.invariant (fun s => DailyLedger s ∧ Covered s) ⟨dailyLedger_start, covered_start⟩
    fun _ _ _ before allowed stepped => ⟨before.1.step stepped, before.2.step before.1 allowed stepped⟩

theorem aggregateDaily_final (idle : s.aggregator = none) :
    ∃ s', run dailyStep s aggregateDaily = some s' ∧ s'.logs = s.logs ∧ s'.inFlight = s.inFlight ∧
      s'.aggregator = none ∧ ∀ row ∈ s'.logs, row.id ≤ s'.watermark := by
  have bound := (aggregateRows_fst_spec s.logs s.watermark).1
  refine ⟨{ s with
    watermark := (aggregateRows s.logs s.watermark).1
    daily := (groupRows (aggregateRows s.logs s.watermark).2).foldl upsertDaily s.daily
    counted := s.counted ++ (aggregateRows s.logs s.watermark).2 }, ?_, rfl, rfl, idle, bound⟩
  simp [run, aggregateDaily, dailyStep, idle]

/-- If no row in flight is overtaken, one more run after all transactions leaves every row with a user counted once.
-/
theorem aggregated_once_without_overtaking {trace : List DailyAction}
    (reach : Reach dailyStep NoneOvertaken dailyStart trace s) (quiet : s.inFlight = [])
    (idle : s.aggregator = none) :
    ∃ s', run dailyStep s aggregateDaily = some s' ∧ s'.logs = s.logs ∧
      (∀ row ∈ s'.logs, row.userId.isSome → s'.counted.count row = 1) ∧
      ∀ key, (s'.daily key).getD 0 = dailyTotal (rowsOf key s'.logs) := by
  obtain ⟨s', ran, sameLogs, _, _, bound⟩ := aggregateDaily_final idle
  have last : Reach dailyStep NoneOvertaken s aggregateDaily s' := by
    obtain ⟨locked, first, rest⟩ := Option.bind_eq_some_iff.mp ran
    obtain ⟨summed, second, rest⟩ := Option.bind_eq_some_iff.mp rest
    obtain ⟨done, third, final⟩ := Option.bind_eq_some_iff.mp rest
    cases Option.some.inj final
    have stillQuiet : locked.inFlight = [] := by
      simp only [dailyStep, idle] at first
      rw [← Option.some.inj first]
      exact quiet
    exact .head trivial first (.head (by simp [NoneOvertaken, stillQuiet]) second (.head trivial third .start))
  obtain ⟨ledger, covered⟩ := covered_reach (reach.trans last)
  have all : upTo s'.watermark s'.logs = s'.logs.filter fun row => row.userId.isSome := by
    apply filter_congr
    intro row member
    simp [bound row member]
  have counted := all ▸ covered.counted
  refine ⟨s', ran, sameLogs, ?_, ?_⟩
  · intro row member hasUser
    have distinct : s'.logs.Nodup :=
      List.Nodup.of_map UsageLog.id ((map_append .. ▸ ledger.distinct).of_append_left)
    rw [counted.count_eq, count_filter (by simpa using hasUser)]
    exact count_eq_one_of_mem distinct member
  · intro key
    have onlyUsers : rowsOf key (s'.logs.filter fun row => row.userId.isSome) = rowsOf key s'.logs := by
      simp only [rowsOf, filter_filter]
      apply filter_congr
      intro row _
      cases user : row.userId <;> simp [UsageLog.dailyKey, user]
    rw [ledger.totals, ← onlyUsers]
    exact dailyTotal_perm (counted.filter _)

end

def sampleLog (user : Int) : UsageLog := ⟨0, some user, "gpt", 20000, some 7, some 2, 90⟩

def overtakenRun : List DailyAction :=
  [.insert (sampleLog 1), .insert (sampleLog 2), .commitRow 1] ++ aggregateDaily ++ [.commitRow 0] ++ aggregateDaily

/-- The row that commits last is below the watermark and is never counted. -/
theorem overtaken_row_never_counted :
    ∃ s, Reach dailyStep Any dailyStart overtakenRun s ∧ s.inFlight = [] ∧ s.aggregator = none ∧
      ∃ row ∈ s.logs, row.userId.isSome ∧ s.counted.count row = 0 ∧
        (s.daily (1, "gpt", 20000)).getD 0 = 0 := by
  refine ⟨_, reach_of_run rfl, rfl, rfl, { sampleLog 1 with id := 1 }, ?_⟩
  decide

/-- With the commits in the order of the inserts the same requests are counted. -/
theorem ordered_rows_counted :
    ∃ s s', Reach dailyStep NoneOvertaken dailyStart
        [.insert (sampleLog 1), .insert (sampleLog 2), .commitRow 0, .lock, .aggregate, .commit, .commitRow 0] s ∧
      run dailyStep s aggregateDaily = some s' ∧
      ∀ row ∈ s'.logs, row.userId.isSome → s'.counted.count row = 1 := by
  have reach : Reach dailyStep NoneOvertaken dailyStart
      [.insert (sampleLog 1), .insert (sampleLog 2), .commitRow 0, .lock, .aggregate, .commit, .commitRow 0] _ :=
    reach_of_guardedRun (fun s a => decide (NoneOvertaken s a)) (fun _ _ passed => of_decide_eq_true passed) rfl
  obtain ⟨s', ran, _, once, _⟩ := aggregated_once_without_overtaking reach rfl rfl
  exact ⟨_, s', reach, ran, once⟩

end LlmGateway
