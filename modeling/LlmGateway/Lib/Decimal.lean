import Mathlib.Algebra.Group.Nat.Defs
import Mathlib.Data.List.Basic

namespace Decimal

open List

variable {n width m : Nat}

/-- A number with at least so many digits. -/
def padded (width n : Nat) : List Char := (Nat.toDigits 10 n).leftpad width '0'

def signed (n : Int) : List Char :=
  if n < 0 then '-' :: Nat.toDigits 10 n.natAbs else Nat.toDigits 10 n.natAbs

theorem ofDigitChars_padded (width n : Nat) : Nat.ofDigitChars 10 (padded width n) 0 = n := by
  rw [padded, leftpad, Nat.ofDigitChars_append, Nat.ofDigitChars_replicate_zero, Nat.mul_zero]
  exact Nat.ofDigitChars_ten_toDigits

theorem padded_inj (same : padded width m = padded width n) : m = n := by
  rw [← ofDigitChars_padded width m, same, ofDigitChars_padded]

theorem toDigits_inj (same : Nat.toDigits 10 m = Nat.toDigits 10 n) : m = n :=
  padded_inj (congrArg (leftpad 0 '0') same)

theorem length_padded (positive : 0 < width) (small : n < 10 ^ width) :
    (padded width n).length = width := by
  have short := (Nat.length_toDigits_le_iff (by decide) positive).mpr small
  rw [padded, length_leftpad]
  omega

theorem isDigit_of_mem_padded {c : Char} (mem : c ∈ padded width n) : c.isDigit := by
  rcases mem_append.mp mem with zero | digit
  · rw [eq_of_mem_replicate zero]
    rfl
  · exact Nat.isDigit_of_mem_toDigits (by decide) (by decide) digit

/-- A number does not start with a sign. -/
theorem head_padded {c : Char} {rest : List Char} (starts : padded width n = c :: rest) : c.isDigit :=
  isDigit_of_mem_padded (starts ▸ mem_cons_self)

theorem toDigits_eq_padded (n : Nat) : Nat.toDigits 10 n = padded 0 n := by
  rw [padded, leftpad, Nat.zero_sub]
  rfl

theorem padded_eq_toDigits_iff (positive : 0 < width) :
    padded (width + 1) m = Nat.toDigits 10 n ↔ m = n ∧ 10 ^ width ≤ n := by
  have short := Nat.length_toDigits_le_iff (n := n) (b := 10) (by decide) positive
  constructor
  · intro same
    have value : m = n := by rw [← ofDigitChars_padded (width + 1) m, same, Nat.ofDigitChars_ten_toDigits]
    have long := congrArg length same
    rw [padded, length_leftpad] at long
    exact ⟨value, by omega⟩
  · rintro ⟨rfl, long⟩
    have filled : width + 1 - (Nat.toDigits 10 m).length = 0 := by omega
    rw [padded, leftpad, filled]
    rfl

theorem signed_inj {m n : Int} (same : signed m = signed n) : m = n := by
  unfold signed at same
  split_ifs at same with left right right
  · have := toDigits_inj (cons.inj same).2
    omega
  · rw [toDigits_eq_padded n.natAbs] at same
    cases head_padded same.symm
  · rw [toDigits_eq_padded m.natAbs] at same
    cases head_padded same
  · have := toDigits_inj same
    omega

end Decimal
