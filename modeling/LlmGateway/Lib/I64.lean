import Mathlib.Algebra.Order.BigOperators.Group.List
import Mathlib.Algebra.Ring.Int.Defs
import Mathlib.Data.List.Induction

/-- A signed 64-bit value. The range is part of the value, so a sum has to say
what happens at its ends. -/
@[ext] structure I64 where
  val : Int
  lower : -9223372036854775808 ≤ val
  upper : val ≤ 9223372036854775807
deriving DecidableEq

namespace I64

/-- The value nearest to `n` in the range. -/
def clamp (n : Int) : I64 where
  val := max (-9223372036854775808) (min n 9223372036854775807)
  lower := le_max_left _ _
  upper := by omega

/-- A count that saturates. -/
def ofNat (n : Nat) : I64 := clamp n

def maxValue : I64 := ⟨9223372036854775807, by omega, by omega⟩

instance : Zero I64 := ⟨⟨0, by omega, by omega⟩⟩
instance : LE I64 := ⟨fun a b => a.val ≤ b.val⟩
instance : DecidableRel (α := I64) (· ≤ ·) := fun a b => inferInstanceAs (Decidable (a.val ≤ b.val))

def saturatingAdd (a b : I64) : I64 := clamp (a.val + b.val)

def saturatingSub (a b : I64) : I64 := clamp (a.val - b.val)

/-- The larger of two values, the second one when they are equal. -/
protected def max (a b : I64) : I64 := if a ≤ b then b else a

/-- The exact sum, when it fits. -/
def checkedAdd (a b : I64) : Option I64 :=
  if fits : -9223372036854775808 ≤ a.val + b.val ∧ a.val + b.val ≤ 9223372036854775807 then
    some ⟨a.val + b.val, fits.1, fits.2⟩
  else none

/-- The value that `n` has modulo `2 ^ 64`. -/
def wrap (n : Int) : I64 where
  val := n.bmod 18446744073709551616
  lower := by
    simp only [Int.bmod]
    split <;> omega
  upper := by
    simp only [Int.bmod]
    split <;> omega

def wrappingAdd (a b : I64) : I64 := wrap (a.val + b.val)

def saturatingSum (values : List I64) : I64 := values.foldl saturatingAdd 0

@[simp] theorem zero_val : (0 : I64).val = 0 := rfl
@[simp] theorem maxValue_val : maxValue.val = 9223372036854775807 := rfl

theorem wrap_val_of_fits {n : Int} (lower : -9223372036854775808 ≤ n) (upper : n ≤ 9223372036854775807) :
    (wrap n).val = n :=
  Int.bmod_eq_of_le (by omega) (by omega)

theorem wrap_val (a : I64) : wrap a.val = a := I64.ext (wrap_val_of_fits a.lower a.upper)

theorem wrap_wrappingAdd (n : Int) (a : I64) : (wrap n).wrappingAdd a = wrap (n + a.val) :=
  I64.ext Int.bmod_add_bmod

theorem le_iff {a b : I64} : a ≤ b ↔ a.val ≤ b.val := Iff.rfl

theorem saturatingAdd_val (a b : I64) : (a.saturatingAdd b).val =
    max (-9223372036854775808) (min (a.val + b.val) 9223372036854775807) := rfl

theorem ofNat_val (n : Nat) : (ofNat n).val = min (n : Int) 9223372036854775807 := by
  simp only [ofNat, clamp]
  omega

theorem ofNat_saturatingAdd (m n : Nat) : (ofNat m).saturatingAdd (ofNat n) = ofNat (m + n) := by
  ext
  simp only [saturatingAdd_val, ofNat_val]
  omega

theorem saturatingAdd_val_of_fits {a b : I64} (lower : -9223372036854775808 ≤ a.val + b.val)
    (upper : a.val + b.val ≤ 9223372036854775807) : (a.saturatingAdd b).val = a.val + b.val := by
  rw [saturatingAdd_val]
  omega

theorem zero_saturatingAdd (a : I64) : (0 : I64).saturatingAdd a = a := by
  have lower := a.lower
  have upper := a.upper
  ext
  rw [saturatingAdd_val_of_fits] <;> simp [zero_val] <;> omega

theorem max_zero_of_nonneg {a : I64} (nonneg : 0 ≤ a.val) : a.max 0 = a := by
  unfold I64.max
  split
  next below =>
    rw [le_iff, zero_val] at below
    ext
    simp only [zero_val]
    omega
  · rfl

theorem checkedAdd_val {a b c : I64} (fits : a.checkedAdd b = some c) : c.val = a.val + b.val := by
  unfold checkedAdd at fits
  split at fits
  · rw [← Option.some.inj fits]
  · simp at fits

theorem saturatingSum_snoc (values : List I64) (last : I64) :
    saturatingSum (values ++ [last]) = (saturatingSum values).saturatingAdd last := by
  simp [saturatingSum]

/-- Saturating once at the end is the same as saturating at every addition,
as long as no term is negative. -/
theorem saturatingSum_val {values : List I64} (nonneg : ∀ v ∈ values, 0 ≤ v.val) :
    (saturatingSum values).val = min ((values.map val).sum) 9223372036854775807 := by
  induction values using List.reverseRecOn with
  | nil => rfl
  | append_singleton values last ih =>
    have before := ih fun v mem => nonneg v (List.mem_append_left _ mem)
    have lastNonneg := nonneg last (by simp)
    have total : 0 ≤ (values.map val).sum := by
      apply List.sum_nonneg
      intro v mem
      obtain ⟨w, inside, same⟩ := List.mem_map.mp mem
      exact same ▸ nonneg w (List.mem_append_left _ inside)
    rw [saturatingSum_snoc, saturatingAdd_val, before]
    simp only [List.map_append, List.map_cons, List.map_nil, List.sum_append, List.sum_cons,
      List.sum_nil]
    omega

end I64
