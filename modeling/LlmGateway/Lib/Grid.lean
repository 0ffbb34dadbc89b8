import Mathlib.Data.Int.ConditionallyCompleteOrder
import Mathlib.Tactic.Linarith

/-- Consecutive intervals: the one with number `n` is `[start n, start (n + 1))`. -/
structure Grid where
  start : Int → Int
  index : Int → Int
  start_lt : ∀ n, start n < start (n + 1)
  start_index_le : ∀ t, start (index t) ≤ t
  lt_start_next : ∀ t, t < start (index t + 1)

namespace Grid

variable (g : Grid) {t u n m : Int}

/-- Intervals of one length. -/
def uniform (origin step : Int) (positive : 0 < step) : Grid where
  start n := origin + n * step
  index t := (t - origin) / step
  start_lt n := by
    rw [Int.add_mul, Int.one_mul]
    omega
  start_index_le t := by
    have := Int.ediv_mul_le (t - origin) (Int.ne_of_gt positive)
    omega
  lt_start_next t := by
    have := Int.lt_ediv_add_one_mul_self (t - origin) positive
    omega

/-- The intervals of a grid, put together as the grid over their numbers says. -/
def coarsen (outer : Grid) : Grid where
  start n := g.start (outer.start n)
  index t := outer.index (g.index t)
  start_lt n := (strictMono_int_of_lt_succ g.start_lt) (outer.start_lt n)
  start_index_le t := by
    have below := (strictMono_int_of_lt_succ g.start_lt).monotone (outer.start_index_le (g.index t))
    exact below.trans (g.start_index_le t)
  lt_start_next t := by
    have next : g.index t + 1 ≤ outer.start (outer.index (g.index t) + 1) := outer.lt_start_next (g.index t)
    have above := (strictMono_int_of_lt_succ g.start_lt).monotone next
    exact (g.lt_start_next t).trans_le above

theorem start_strictMono : StrictMono g.start := strictMono_int_of_lt_succ g.start_lt

/-- The number of an interval is determined by any of its points. -/
theorem index_eq (lower : g.start n ≤ t) (upper : t < g.start (n + 1)) : g.index t = n := by
  have first : n < g.index t + 1 := g.start_strictMono.lt_iff_lt.mp (lower.trans_lt (g.lt_start_next t))
  have last : g.index t < n + 1 := g.start_strictMono.lt_iff_lt.mp ((g.start_index_le t).trans_lt upper)
  omega

theorem index_start (n : Int) : g.index (g.start n) = n := g.index_eq le_rfl (g.start_lt n)

theorem index_mono (le : t ≤ u) : g.index t ≤ g.index u := by
  have : g.index t < g.index u + 1 :=
    g.start_strictMono.lt_iff_lt.mp (((g.start_index_le t).trans le).trans_lt (g.lt_start_next u))
  omega

end Grid
