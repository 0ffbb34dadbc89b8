import Mathlib.Data.List.Induction
import Mathlib.Data.List.Sort

namespace Table

open List

variable {α κ ω : Type} [DecidableEq κ] [LinearOrder ω] {rank : α → ω} {rows : List α} {row : α} {p : α → Bool}

/-- `ORDER BY`. -/
def orderBy (rank : α → ω) (rows : List α) : List α := rows.insertionSort fun a b => rank a ≤ rank b

/-- `SELECT DISTINCT ON (key)`: the first row of each key. -/
def distinctOn (key : α → κ) : List α → List α
  | [] => []
  | row :: rows => row :: (distinctOn key rows).filter fun other => key other ≠ key row

theorem filter_distinctOn (key : α → κ) (k : κ) (rows : List α) :
    (distinctOn key rows).filter (key · = k) = (rows.find? (key · = k)).toList := by
  induction rows with
  | nil => rfl
  | cons row rows ih =>
    by_cases here : key row = k
    · simp [distinctOn, here, filter_filter]
    · have rest : (fun other => decide (key other = k) && decide (key other ≠ key row)) =
          fun other => decide (key other = k) := by
        funext other
        by_cases there : key other = k <;> simp [there, Ne.symm here]
      rw [distinctOn, filter_cons_of_neg (by simpa using here), filter_filter, rest, ih,
        List.find?_cons_of_neg (by simpa using here)]

theorem find?_orderBy_eq_none : (orderBy rank rows).find? p = none ↔ ∀ other ∈ rows, p other = false := by
  simp [orderBy, List.find?_eq_none]

/-- The first row that is wanted is a least one of them. -/
theorem find?_orderBy_eq_some (found : (orderBy rank rows).find? p = some row) :
    row ∈ rows ∧ p row ∧ ∀ other ∈ rows, p other → rank row ≤ rank other := by
  have sorted := pairwise_insertionSort (fun a b => rank a ≤ rank b) rows
  obtain ⟨wanted, before, after, whole, others⟩ := List.find?_eq_some_iff_append.mp found
  refine ⟨?_, wanted, ?_⟩
  · exact (mem_insertionSort _).mp (mem_of_find?_eq_some found)
  · intro other mem also
    have place : other ∈ before ++ row :: after := whole ▸ (mem_insertionSort _).mpr mem
    rw [← orderBy, whole] at sorted
    rcases mem_append.mp place with early | late
    · simpa [also] using others other early
    · rcases mem_cons.mp late with rfl | later
      · exact le_rfl
      · exact (pairwise_cons.mp (pairwise_append.mp sorted).2.1).1 other later

/-- The last of the rows with the greatest rank. -/
def maxByKey (rank : α → ω) (rows : List α) : Option α :=
  rows.foldl (fun best row => best.elim (some row) fun b => if rank row < rank b then some b else some row) none

theorem maxByKey_snoc (rank : α → ω) (rows : List α) (row : α) :
    maxByKey rank (rows ++ [row]) =
      (maxByKey rank rows).elim (some row) fun b => if rank row < rank b then some b else some row := by
  rw [maxByKey, foldl_append]
  rfl

theorem maxByKey_eq_none_iff : maxByKey rank rows = none ↔ rows = [] := by
  induction rows using List.reverseRecOn with
  | nil => exact iff_of_true rfl rfl
  | append_singleton rows row _ =>
    rw [maxByKey_snoc]
    cases maxByKey rank rows with
    | none => simp
    | some b =>
      rw [Option.elim_some]
      split_ifs <;> simp

theorem maxByKey_eq_some (found : maxByKey rank rows = some row) :
    row ∈ rows ∧ ∀ other ∈ rows, rank other ≤ rank row := by
  induction rows using List.reverseRecOn generalizing row with
  | nil => cases found
  | append_singleton rows last ih =>
    rw [maxByKey_snoc] at found
    cases best : maxByKey rank rows with
    | none =>
      rw [best] at found
      cases found
      simp [maxByKey_eq_none_iff.mp best]
    | some b =>
      rw [best, Option.elim_some] at found
      obtain ⟨mem, bound⟩ := ih best
      split_ifs at found with below
      · cases found
        refine ⟨mem_append_left _ mem, fun other place => ?_⟩
        rcases mem_append.mp place with early | late
        · exact bound other early
        · rw [mem_singleton.mp late]
          exact below.le
      · cases found
        refine ⟨by simp, fun other place => ?_⟩
        rcases mem_append.mp place with early | late
        · exact (bound other early).trans (not_lt.mp below)
        · rw [mem_singleton.mp late]

/-- A row with the greatest rank is chosen when it stands last. -/
theorem maxByKey_last (greatest : ∀ other ∈ rows, rank other ≤ rank row) :
    maxByKey rank (rows ++ [row]) = some row := by
  rw [maxByKey_snoc]
  cases best : maxByKey rank rows with
  | none => rfl
  | some b => exact if_neg (not_lt.mpr (greatest b (maxByKey_eq_some best).1))

end Table
