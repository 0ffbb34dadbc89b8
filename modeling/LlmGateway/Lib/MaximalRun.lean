import Mathlib.Algebra.Order.Group.Int

/-- The numbers from `first` to `last` have the property and those next to them do not. -/
structure MaximalRun (P : Int → Prop) (first last : Int) : Prop where
  ordered : first ≤ last
  inside : ∀ n, first ≤ n → n ≤ last → P n
  before : ¬P (first - 1)
  after : ¬P (last + 1)

namespace MaximalRun

variable {P Q : Int → Prop} {first last other top : Int}

theorem congr (same : ∀ n, P n ↔ Q n) : MaximalRun P first last ↔ MaximalRun Q first last := by
  rw [show P = Q from funext fun n => propext (same n)]

theorem last_mem (run : MaximalRun P first last) : P last := run.inside last run.ordered le_rfl

/-- Two runs with the same end are one. -/
theorem first_unique (run : MaximalRun P first last) (run' : MaximalRun P other last) : first = other := by
  have one : ¬first ≤ other - 1 := fun le => run'.before (run.inside _ le (by have := run'.ordered; omega))
  have two : ¬other ≤ first - 1 := fun le => run.before (run'.inside _ le (by have := run.ordered; omega))
  omega

section Top

variable (below : ∀ n, P n → n < top)
include below

/-- A number above all others makes the run in front of it longer, or a run of its own. -/
theorem insert_iff : MaximalRun (fun n => P n ∨ n = top) first last ↔
    last < top - 1 ∧ MaximalRun P first last ∨
      last = top ∧ (MaximalRun P first (top - 1) ∨ first = top ∧ ¬P (top - 1)) := by
  constructor
  · intro run
    have end_le : last ≤ top := by
      rcases run.last_mem with old | new
      · exact (below _ old).le
      · exact new.le
    have ordered := run.ordered
    rcases Int.lt_or_eq_of_le end_le with earlier | rfl
    · have apart : last ≠ top - 1 := fun same => run.after (.inr (by omega))
      refine .inl ⟨by omega, ordered, fun n low high => ?_, fun old => run.before (.inl old),
        fun old => run.after (.inl old)⟩
      exact (run.inside n low high).resolve_right (by omega)
    · refine .inr ⟨rfl, ?_⟩
      by_cases single : first = last
      · exact .inr ⟨single, fun old => run.before (.inl (by rwa [single]))⟩
      · refine .inl ⟨by omega, fun n low high => ?_, fun old => run.before (.inl old), fun old => ?_⟩
        · exact (run.inside n low (by omega)).resolve_right (by omega)
        · exact absurd (below _ old) (by omega)
  · rintro (⟨early, run⟩ | ⟨rfl, run | ⟨rfl, free⟩⟩)
    · have ordered := run.ordered
      refine ⟨ordered, fun n low high => .inl (run.inside n low high), ?_, ?_⟩
      · rintro (old | new)
        · exact run.before old
        · omega
      · rintro (old | new)
        · exact run.after old
        · omega
    · have ordered := run.ordered
      refine ⟨by omega, fun n low high => ?_, ?_, ?_⟩
      · by_cases top : n = last
        · exact .inr top
        · exact .inl (run.inside n low (by omega))
      · rintro (old | new)
        · exact run.before old
        · omega
      · rintro (old | new)
        · exact absurd (below _ old) (by omega)
        · omega
    · refine ⟨le_rfl, fun n low high => .inr (le_antisymm high low), ?_, ?_⟩
      · rintro (old | new)
        · exact free old
        · omega
      · rintro (old | new)
        · exact absurd (below _ old) (by omega)
        · omega

end Top

end MaximalRun
