import Mathlib.Logic.Function.Basic
import Mathlib.Logic.Relation

namespace Locks

variable {ρ τ : Type*}

/-- Exclusive locks on rows `ρ` by transactions `τ`, held until the transaction ends. -/
def take [DecidableEq ρ] (locks : ρ → Option τ) (row : ρ) (t : τ) : ρ → Option τ :=
  Function.update locks row (some t)

def release [DecidableEq τ] (locks : ρ → Option τ) (t : τ) : ρ → Option τ :=
  fun row => if locks row = some t then none else locks row

/-- The table holds exactly the locks that the transactions own. -/
def Agree (locks : ρ → Option τ) (owns : τ → ρ → Prop) : Prop := ∀ row t, locks row = some t ↔ owns t row

def WaitsFor (locks : ρ → Option τ) (waits : τ → ρ → Prop) (t u : τ) : Prop :=
  ∃ row, waits t row ∧ locks row = some u

variable {locks : ρ → Option τ} {owns owns' : τ → ρ → Prop} {row : ρ} {t u : τ}

theorem Agree.owner_eq (agree : Agree locks owns) (first : owns t row) (second : owns u row) : t = u :=
  Option.some.inj (((agree row t).mpr first).symm.trans ((agree row u).mpr second))

theorem Agree.not_owns (agree : Agree locks owns) (free : locks row = none) : ¬owns t row := by
  intro owned
  have taken := (agree row t).mpr owned
  simp [free] at taken

section Moves
variable (agree : Agree locks owns) (others : ∀ u, u ≠ t → ∀ row, owns' u row ↔ owns u row)
include agree others

theorem Agree.keep (mine : ∀ row, owns' t row ↔ owns t row) : Agree locks owns' := by
  intro row u
  rw [agree row u]
  by_cases same : u = t
  · subst u
    exact (mine row).symm
  · exact (others u same row).symm

theorem Agree.take [DecidableEq ρ] (free : locks row = none)
    (mine : ∀ other, owns' t other ↔ other = row ∨ owns t other) : Agree (Locks.take locks row t) owns' := by
  intro other u
  by_cases same : u = t
  · subst u
    rw [mine other]
    by_cases here : other = row
    · simp [Locks.take, here]
    · simp [Locks.take, here, agree other t]
  · rw [others u same other]
    by_cases here : other = row
    · subst other
      simp [Locks.take, Ne.symm same, agree.not_owns free]
    · simp [Locks.take, here, agree other u]

theorem Agree.release [DecidableEq τ] (mine : ∀ row, ¬owns' t row) : Agree (Locks.release locks t) owns' := by
  intro row u
  by_cases same : u = t
  · subst u
    simp only [Locks.release, mine row, iff_false]
    split <;> simp_all
  · rw [others u same row, ← agree row u]
    simp only [Locks.release]
    split
    next held =>
      simp [held, Ne.symm same]
    · rfl

end Moves

theorem release_eq_none [DecidableEq τ] (free : locks row = none) : release locks t row = none := by
  simp [release, free]

/-- No cycle of waiting transactions if every wait goes down a rank. -/
theorem no_cycle {waits : τ → ρ → Prop} (rank : τ → Nat)
    (down : ∀ t row u, waits t row → locks row = some u → rank u < rank t) :
    ¬Relation.TransGen (WaitsFor locks waits) t t := by
  intro cycle
  have lower : Relation.TransGen (fun m n : Nat => n < m) (rank t) (rank t) :=
    cycle.lift rank fun t u ⟨row, waiting, held⟩ => down t row u waiting held
  rw [Relation.transGen_eq_self] at lower
  exact Nat.lt_irrefl _ lower

end Locks
