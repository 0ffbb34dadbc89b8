import Mathlib.Data.List.Infix

namespace Pattern

open List Option

variable {α : Type*} {pattern seen text rest : List α} {a : α} {i n : Nat}

theorem suffix_take_iff (small : n ≤ text.length) :
    pattern <:+ text.take n ↔ pattern.length ≤ n ∧ pattern <+: text.drop (n - pattern.length) := by
  have long : (text.take n).length = n := length_take_of_le small
  constructor
  · intro there
    have fits : pattern.length ≤ n := long ▸ there.length_le
    have same := suffix_iff_eq_drop.mp there
    rw [long, drop_take, Nat.sub_sub_self fits] at same
    exact ⟨fits, prefix_iff_eq_take.mpr same⟩
  · rintro ⟨fits, there⟩
    have same := prefix_iff_eq_take.mp there
    rw [suffix_iff_eq_drop, long, drop_take, Nat.sub_sub_self fits]
    exact same

variable [DecidableEq α]

/-- The first place at which the pattern stands. -/
def position (pattern : List α) : List α → Option Nat
  | [] => if pattern.isEmpty then some 0 else none
  | a :: rest => if pattern.isPrefixOf (a :: rest) then some 0 else (position pattern rest).map (· + 1)

/-- How far it is to the first end of the pattern, with `seen` standing before the text. -/
def firstEnd (pattern seen : List α) : List α → Option Nat
  | [] => none
  | a :: rest =>
    if pattern.isSuffixOf (seen ++ [a]) then some 1 else (firstEnd pattern (seen ++ [a]) rest).map (· + 1)

theorem position_eq_some_iff : position pattern text = some i ↔
    i ≤ text.length ∧ pattern <+: text.drop i ∧ ∀ j < i, ¬pattern <+: text.drop j := by
  induction text generalizing i with
  | nil => cases pattern <;> cases i <;> simp [position]
  | cons a rest ih =>
    rw [position]
    split <;> rename_i here
    · have here := isPrefixOf_iff_prefix.mp here
      constructor
      · intro first
        rw [← Option.some.inj first]
        exact ⟨Nat.zero_le _, here, nofun⟩
      · rintro ⟨-, -, before⟩
        cases i with
        | zero => rfl
        | succ i => exact absurd here (before 0 (Nat.succ_pos i))
    · have here := mt isPrefixOf_iff_prefix.mpr here
      cases i with
      | zero => simp [here]
      | succ i =>
        simp only [map_eq_some_iff, Nat.add_right_cancel_iff, exists_eq_right, ih, length_cons,
          Nat.add_le_add_iff_right, drop_succ_cons]
        refine and_congr_right fun _ => and_congr_right fun _ =>
          ⟨fun before j small => ?_, fun before j small => ?_⟩
        · cases j with
          | zero => exact here
          | succ j => exact before j (by omega)
        · exact before (j + 1) (by omega)

theorem firstEnd_eq_some_iff : firstEnd pattern seen text = some n ↔
    0 < n ∧ n ≤ text.length ∧ pattern <:+ seen ++ text.take n ∧
      ∀ m, 0 < m → m < n → ¬pattern <:+ seen ++ text.take m := by
  induction text generalizing seen n with
  | nil => simp [firstEnd]; omega
  | cons a rest ih =>
    rw [firstEnd]
    split <;> rename_i here
    · have here := isSuffixOf_iff_suffix.mp here
      constructor
      · intro first
        rw [← Option.some.inj first]
        exact ⟨Nat.one_pos, by simp, here, fun m _ _ => by omega⟩
      · rintro ⟨positive, -, -, before⟩
        by_cases one : n = 1
        · rw [one]
        · exact absurd here (before 1 Nat.one_pos (by omega))
    · have here := mt isSuffixOf_iff_suffix.mpr here
      have later : ∀ m, seen ++ [a] ++ rest.take m = seen ++ (a :: rest).take (m + 1) := by simp
      simp only [map_eq_some_iff, ih, later]
      constructor
      · rintro ⟨n, ⟨positive, small, there, before⟩, rfl⟩
        refine ⟨Nat.succ_pos n, Nat.succ_le_succ small, there, fun m positive small => ?_⟩
        cases m with
        | zero => omega
        | succ m =>
          by_cases first : m = 0
          · simpa [first] using here
          · exact before m (by omega) (by omega)
      · rintro ⟨positive, small, there, before⟩
        cases n with
        | zero => omega
        | succ n =>
          have positive : 0 < n := Nat.pos_of_ne_zero fun zero => here (by simpa [zero] using there)
          exact ⟨n, ⟨positive, Nat.le_of_succ_le_succ small, there,
            fun m _ small => before (m + 1) (Nat.succ_pos m) (by omega)⟩, rfl⟩

/-- The first place and the first end belong to the same occurrence. -/
theorem position_add_length (some : pattern ≠ []) :
    (position pattern text).map (· + pattern.length) = firstEnd pattern [] text := by
  have positive : 0 < pattern.length := length_pos_of_ne_nil some
  ext n
  simp only [map_eq_some_iff, position_eq_some_iff, firstEnd_eq_some_iff, nil_append]
  constructor
  · rintro ⟨i, ⟨small, there, before⟩, rfl⟩
    have fits : i + pattern.length ≤ text.length := by
      have := there.length_le
      rw [length_drop] at this
      omega
    refine ⟨by omega, fits, (suffix_take_iff fits).mpr ⟨by omega, by simpa using there⟩, fun m _ less earlier => ?_⟩
    obtain ⟨long, there⟩ := (suffix_take_iff (by omega)).mp earlier
    exact before (m - pattern.length) (by omega) there
  · rintro ⟨_, fits, there, before⟩
    obtain ⟨long, there⟩ := (suffix_take_iff fits).mp there
    refine ⟨n - pattern.length, ⟨by omega, there, fun j less earlier => ?_⟩, by omega⟩
    have small : j + pattern.length ≤ text.length := by omega
    exact before (j + pattern.length) (by omega) (by omega)
      ((suffix_take_iff small).mpr ⟨by omega, by simpa using earlier⟩)

theorem firstEnd_append : firstEnd pattern seen (text ++ rest) =
    (firstEnd pattern seen text).or ((firstEnd pattern (seen ++ text) rest).map (· + text.length)) := by
  induction text generalizing seen with
  | nil => simp [firstEnd]
  | cons a text ih =>
    rw [cons_append, firstEnd, firstEnd]
    split
    · rfl
    · rw [ih, map_or, Option.map_map, append_assoc, singleton_append]
      congr 2

/-- The first end is where it is whatever follows. -/
theorem firstEnd_append_of_some (found : firstEnd pattern seen text = some n) :
    firstEnd pattern seen (text ++ rest) = some n := by
  rw [firstEnd_append, found, some_or]

theorem firstEnd_append_of_none (absent : firstEnd pattern seen text = none) :
    firstEnd pattern seen (text ++ rest) = (firstEnd pattern (seen ++ text) rest).map (· + text.length) := by
  rw [firstEnd_append, absent, none_or]

/-- Something that cannot start the pattern may be forgotten. -/
theorem firstEnd_cons_seen (other : pattern.head? ≠ some a) :
    firstEnd pattern (a :: seen) text = firstEnd pattern seen text := by
  have forget : ∀ w : List α, pattern.isSuffixOf (a :: w) = pattern.isSuffixOf w := by
    intro w
    rw [Bool.eq_iff_iff, isSuffixOf_iff_suffix, isSuffixOf_iff_suffix, suffix_cons_iff]
    refine ⟨fun either => either.resolve_left ?_, .inr⟩
    rintro rfl
    exact other rfl
  induction text generalizing seen with
  | nil => rfl
  | cons b text ih => rw [firstEnd, firstEnd, cons_append, forget, ih]

end Pattern
