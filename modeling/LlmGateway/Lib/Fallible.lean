import Mathlib.Data.List.Forall2

namespace Fallible

variable {α β σ ε : Type} {entries : List α} {result : Except ε α}

theorem map_eq_ok {f : α → β} {value : β} :
    result.map f = .ok value ↔ ∃ inside, result = .ok inside ∧ f inside = value := by
  cases result with
  | error reason => simp [Except.map]
  | ok inside => simp [Except.map]

theorem bind_eq_ok {next : α → Except ε β} {value : β} :
    (result >>= next) = .ok value ↔ ∃ inside, result = .ok inside ∧ next inside = .ok value := by
  cases result with
  | error reason => simp [bind, Except.bind]
  | ok inside => simp [bind, Except.bind]

/-- A list that is converted as a whole is converted element by element. -/
theorem mapM_ok {f : α → Except ε β} {results : List β} (done : entries.mapM f = .ok results) :
    List.Forall₂ (fun entry result => f entry = .ok result) entries results := by
  induction entries generalizing results with
  | nil =>
    cases done
    exact .nil
  | cons entry entries ih =>
    rw [List.mapM_cons] at done
    obtain ⟨result, first, done⟩ := bind_eq_ok.mp done
    obtain ⟨others, rest, done⟩ := bind_eq_ok.mp done
    cases done
    exact .cons first (ih rest)

theorem exists_of_mem_mapM {f : α → Except ε β} {results : List β} (done : entries.mapM f = .ok results)
    {result : β} (mem : result ∈ results) : ∃ entry ∈ entries, f entry = .ok result := by
  have each := mapM_ok done
  clear done
  induction each with
  | nil => cases mem
  | @cons entry first entries results here _ ih =>
    rcases List.mem_cons.mp mem with rfl | inside
    · exact ⟨entry, List.mem_cons_self, here⟩
    · obtain ⟨other, old, same⟩ := ih inside
      exact ⟨other, List.mem_cons_of_mem _ old, same⟩

theorem foldlM_concat {step : σ → α → Except ε σ} {s last : σ} {entry : α}
    (ran : entries.foldlM step s = .ok last) :
    (entries ++ [entry]).foldlM step s = step last entry := by
  rw [List.foldlM_append, ran]
  exact (bind_pure (step last entry)).symm ▸ rfl

/-- Reading can come first when the steps cannot fail after it. -/
theorem foldlM_eq_mapM {step : σ → α → Except ε σ} {read : α → Except ε β} {act : σ → β → σ}
    (steps : ∀ s entry, step s entry = (read entry).map (act s)) (s : σ) :
    entries.foldlM step s = (entries.mapM read).map fun results => results.foldl act s := by
  induction entries generalizing s with
  | nil => rfl
  | cons entry entries ih =>
    rw [List.foldlM_cons, List.mapM_cons, steps]
    cases read entry with
    | error reason => rfl
    | ok result =>
      have rest := ih (act s result)
      cases others : entries.mapM read with
      | error reason | ok results =>
        rw [others] at rest
        exact rest

theorem exists_of_isOk (accepted : result.isOk) : ∃ value, result = .ok value := by
  cases result with
  | ok value => exact ⟨value, rfl⟩
  | error _ => cases accepted

theorem exists_of_any {p : α → Bool} (accepted : result.toOption.any p) :
    ∃ value, result = .ok value ∧ p value := by
  cases result with
  | ok value => exact ⟨value, rfl, accepted⟩
  | error _ => cases accepted

end Fallible
