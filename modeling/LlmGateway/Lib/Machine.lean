import Mathlib.Data.List.Basic

namespace Machine

open List

variable {σ α : Type*}

/-- A partial step folded along a list of actions. A refused action ends the
run without a state. -/
def run (step : σ → α → Option σ) (s : σ) : List α → Option σ
  | [] => some s
  | a :: rest => (step s a).bind fun next => run step next rest

/-- The same run with a guard that is tested in the state before each action. -/
def guardedRun (step : σ → α → Option σ) (ok : σ → α → Bool) (s : σ) : List α → Option σ
  | [] => some s
  | a :: rest => if ok s a then (step s a).bind fun next => guardedRun step ok next rest else none

/-- The states reached from `start`, with the actions that led there, each of which met `ok`. -/
inductive Reach (step : σ → α → Option σ) (ok : σ → α → Prop) (start : σ) : List α → σ → Prop
  | start : Reach step ok start [] start
  | next {trace s a s'} : Reach step ok start trace s → ok s a → step s a = some s' →
      Reach step ok start (trace ++ [a]) s'

/-- No restriction on the actions. -/
def Any : σ → α → Prop := fun _ _ => True

variable {step : σ → α → Option σ} {ok : σ → α → Prop} {start s s' : σ} {trace rest : List α} {a : α}

theorem run_append (first second : List α) :
    run step s (first ++ second) = (run step s first).bind fun middle => run step middle second := by
  induction first generalizing s with
  | nil => rfl
  | cons a first ih =>
    simp only [cons_append, run]
    cases step s a with
    | none => rfl
    | some next => exact ih

theorem run_singleton : run step s [a] = step s a := by
  simp only [run]
  cases step s a <;> rfl

theorem run_snoc : run step s (trace ++ [a]) = (run step s trace).bind fun middle => step middle a := by
  rw [run_append]
  congr 1
  funext middle
  exact run_singleton

theorem Reach.run_eq (reach : Reach step ok start trace s) : run step start trace = some s := by
  induction reach with
  | start => rfl
  | next _ _ stepped ih => rw [run_snoc, ih]; exact stepped

/-- The invariant rule: what holds at the start and is kept by every allowed
action holds in every state of every run. -/
theorem Reach.invariant (reach : Reach step ok start trace s) (inv : σ → Prop) (base : inv start)
    (kept : ∀ s a s', inv s → ok s a → step s a = some s' → inv s') : inv s := by
  induction reach with
  | start => exact base
  | next _ allowed stepped ih => exact kept _ _ _ ih allowed stepped

theorem Reach.trans (first : Reach step ok start trace s) (second : Reach step ok s rest s') :
    Reach step ok start (trace ++ rest) s' := by
  induction second with
  | start => simpa using first
  | next _ allowed stepped ih =>
    rw [← append_assoc]
    exact .next ih allowed stepped

theorem Reach.head (allowed : ok start a) (stepped : step start a = some s)
    (later : Reach step ok s rest s') : Reach step ok start (a :: rest) s' :=
  (Reach.next .start allowed stepped).trans later

/-- A computed run is a run. Concrete traces are replayed through this. -/
theorem reach_of_run (computed : run step start trace = some s) : Reach step Any start trace s := by
  induction trace generalizing start with
  | nil =>
    cases Option.some.inj computed
    exact .start
  | cons a trace ih =>
    obtain ⟨next, stepped, later⟩ := Option.bind_eq_some_iff.mp computed
    exact .head trivial stepped (ih later)

theorem reach_of_guardedRun (test : σ → α → Bool) (sound : ∀ s a, test s a → ok s a)
    (computed : guardedRun step test start trace = some s) : Reach step ok start trace s := by
  induction trace generalizing start with
  | nil =>
    cases Option.some.inj computed
    exact .start
  | cons a trace ih =>
    simp only [guardedRun] at computed
    split at computed
    next passed =>
      obtain ⟨next, stepped, later⟩ := Option.bind_eq_some_iff.mp computed
      exact .head (sound _ _ passed) stepped (ih later)
    · simp at computed

section Split

variable {items before after : List α} {item other : α}

theorem concat_split : items ++ [item] = before ++ other :: after ↔ before = items ∧ other = item ∧ after = [] ∨
    ∃ later, after = later ++ [item] ∧ items = before ++ other :: later := by
  constructor
  · intro split
    rcases eq_nil_or_concat after with rfl | ⟨later, last, rfl⟩
    · obtain ⟨rfl, same⟩ := append_inj' split rfl
      exact .inl ⟨rfl, (singleton_inj.mp same).symm, rfl⟩
    · rw [concat_eq_append, ← cons_append, ← append_assoc] at split
      obtain ⟨rfl, same⟩ := append_inj' split rfl
      exact .inr ⟨later, by rw [concat_eq_append, singleton_inj.mp same], rfl⟩
  · rintro (⟨rfl, rfl, rfl⟩ | ⟨later, rfl, rfl⟩)
    · rfl
    · simp

/-- What holds at every place of a list holds at the places before the last and at the last. -/
theorem forall_split_concat {p : List α → α → Prop} :
    (∀ before other after, items ++ [item] = before ++ other :: after → p before other) ↔
      (∀ before other after, items = before ++ other :: after → p before other) ∧ p items item := by
  constructor
  · intro all
    exact ⟨fun before other after split => all before other (after ++ [item]) (by simp [split]),
      all items item [] rfl⟩
  · rintro ⟨all, last⟩ before other after split
    rcases concat_split.mp split with ⟨rfl, rfl, -⟩ | ⟨later, -, same⟩
    · exact last
    · exact all before other later same

theorem exists_split_concat {p : List α → α → List α → Prop} :
    (∃ before other after, items ++ [item] = before ++ other :: after ∧ p before other after) ↔
      p items item [] ∨ ∃ before other later, items = before ++ other :: later ∧
        p before other (later ++ [item]) := by
  constructor
  · rintro ⟨before, other, after, split, held⟩
    rcases concat_split.mp split with ⟨rfl, rfl, rfl⟩ | ⟨later, rfl, same⟩
    · exact .inl held
    · exact .inr ⟨before, other, later, same, held⟩
  · rintro (held | ⟨before, other, later, rfl, held⟩)
    · exact ⟨items, item, [], rfl, held⟩
    · exact ⟨before, other, later ++ [item], by simp, held⟩

end Split

/-- Some action of the run was taken in a state that `bad` describes. -/
def Taken (step : σ → α → Option σ) (bad : σ → α → Prop) (start : σ) (trace : List α) : Prop :=
  ∃ before a after s, trace = before ++ a :: after ∧ run step start before = some s ∧ bad s a

theorem not_taken_nil {bad : σ → α → Prop} : ¬Taken step bad start [] := by
  rintro ⟨before, a, after, _, same, _⟩
  simp at same

theorem taken_snoc {bad : σ → α → Prop} (reached : run step start trace = some s) :
    Taken step bad start (trace ++ [a]) ↔ Taken step bad start trace ∨ bad s a := by
  constructor
  · rintro ⟨before, b, after, middle, same, ran, wrong⟩
    rcases concat_split.mp same with ⟨rfl, rfl, -⟩ | ⟨later, -, same⟩
    · cases Option.some.inj (reached.symm.trans ran)
      exact .inr wrong
    · exact .inl ⟨before, b, later, middle, same, ran, wrong⟩
  · rintro (⟨before, b, after, middle, rfl, ran, wrong⟩ | wrong)
    · exact ⟨before, b, after ++ [a], middle, by rw [append_assoc]; rfl, ran, wrong⟩
    · exact ⟨trace, a, [], s, rfl, reached, wrong⟩

end Machine
