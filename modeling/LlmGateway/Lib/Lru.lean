import Mathlib.Data.Finset.Card
import Mathlib.Data.List.DropRight

namespace Lru

open List

variable {κ : Type*}

theorem exists_last_use {uses : List κ} {key : κ} (used : key ∈ uses) :
    ∃ before after, uses = before ++ key :: after ∧ key ∉ after := by
  obtain ⟨after, before, same, fresh⟩ := eq_append_cons_of_mem (mem_reverse.mpr used)
  refine ⟨before.reverse, after.reverse, ?_, by simpa using fresh⟩
  have whole := congrArg List.reverse same
  simpa using whole

variable [DecidableEq κ]

/-- The keys that were used last, the oldest use first. -/
def kept (capacity : Nat) (uses : List κ) : List κ := uses.dedup.drop (uses.dedup.length - capacity)

variable {capacity : Nat} {uses before after : List κ} {key : κ}

theorem dedup_concat [BEq κ] [LawfulBEq κ] : (uses ++ [key]).dedup = uses.dedup.erase key ++ [key] := by
  induction uses with
  | nil => rfl
  | cons first rest ih =>
    rw [cons_append]
    by_cases again : first ∈ rest
    · rw [dedup_cons_of_mem (mem_append_left _ again), dedup_cons_of_mem again, ih]
    · rw [dedup_cons_of_notMem again]
      by_cases same : first = key
      · subst same
        rw [dedup_cons_of_mem (by simp), ih, erase_cons_head,
          erase_of_not_mem (by rwa [mem_dedup])]
      · rw [dedup_cons_of_notMem (by simp [again, same]), ih, erase_cons_tail (by simpa using same),
          cons_append]

theorem nodup_kept : (kept capacity uses).Nodup := (nodup_dedup uses).sublist (drop_sublist _ _)

theorem length_kept_le : (kept capacity uses).length ≤ capacity := by
  rw [kept, length_drop]
  omega

/-- The keys that were driven out, and those that are kept. -/
theorem dedup_eq (capacity : Nat) (uses : List κ) : ∃ dropped, uses.dedup = dropped ++ kept capacity uses ∧
    dropped.length = uses.dedup.length - capacity ∧ ∀ key ∈ dropped, key ∉ kept capacity uses := by
  refine ⟨uses.dedup.take (uses.dedup.length - capacity), (take_append_drop _ _).symm, ?_, ?_⟩
  · rw [length_take]
    omega
  · intro key old
    have apart := nodup_dedup uses
    rw [← take_append_drop (uses.dedup.length - capacity) uses.dedup, nodup_append] at apart
    exact fun mem => apart.2.2 key old key mem rfl

/-- A key that is kept moves to the end. -/
theorem kept_concat_of_mem [BEq κ] [LawfulBEq κ] (held : key ∈ kept capacity uses) :
    kept capacity (uses ++ [key]) = (kept capacity uses).erase key ++ [key] := by
  obtain ⟨dropped, whole, length, apart⟩ := dedup_eq capacity uses
  have fresh : key ∉ dropped := fun old => apart key old held
  have same : (uses ++ [key]).dedup = dropped ++ ((kept capacity uses).erase key ++ [key]) := by
    rw [dedup_concat, whole, erase_append_right _ fresh, append_assoc]
  have unchanged : (uses ++ [key]).dedup.length = uses.dedup.length := by
    have filled := length_pos_of_mem held
    rw [same, whole]
    simp only [length_append, length_erase_of_mem held, length_singleton]
    omega
  rw [kept, unchanged, ← length, same, drop_left]

/-- Any other key is added, and the oldest makes room. -/
theorem kept_concat_of_not_mem (absent : key ∉ kept capacity uses) :
    kept capacity (uses ++ [key]) =
      (kept capacity uses ++ [key]).drop ((kept capacity uses ++ [key]).length - capacity) := by
  obtain ⟨dropped, whole, length, apart⟩ := dedup_eq capacity uses
  have size := congrArg List.length whole
  rw [length_append] at size
  have same : (uses ++ [key]).dedup = dropped.erase key ++ (kept capacity uses ++ [key]) := by
    rw [dedup_concat, whole, ← append_assoc]
    by_cases old : key ∈ dropped
    · rw [erase_append_left _ old]
    · rw [erase_of_not_mem (by simp [old, absent]), erase_of_not_mem old]
  have position : (uses ++ [key]).dedup.length - capacity =
      (dropped.erase key).length + ((kept capacity uses ++ [key]).length - capacity) := by
    rw [same]
    by_cases old : key ∈ dropped
    · have filled := length_pos_of_mem old
      simp only [length_append, length_erase_of_mem old, length_singleton]
      omega
    · rw [erase_of_not_mem old]
      simp only [length_append, length_singleton]
      omega
  rw [kept, position, same, ← drop_drop, drop_left]

theorem rtakeWhile_last_use (fresh : key ∉ after) : (before ++ key :: after).rtakeWhile (· ≠ key) = after := by
  have others : ∀ other ∈ after.reverse, decide (other ≠ key) := by
    intro other mem
    rw [mem_reverse] at mem
    exact decide_eq_true fun same => fresh (same ▸ mem)
  rw [List.rtakeWhile, reverse_append, reverse_cons, append_assoc, takeWhile_append_of_pos others]
  simp

/-- A key is kept as long as fewer than `capacity` other keys have been used after it. -/
theorem mem_kept_iff : key ∈ kept capacity uses ↔
    key ∈ uses ∧ (uses.rtakeWhile (· ≠ key)).toFinset.card < capacity := by
  by_cases used : key ∈ uses
  · obtain ⟨before, after, rfl, fresh⟩ := exists_last_use used
    have unseen : key ∉ after.dedup := by rwa [mem_dedup]
    have last : (key :: after).dedup = key :: after.dedup := dedup_cons_of_notMem fresh
    obtain ⟨earlier, whole⟩ : key :: after.dedup <:+ (before ++ key :: after).dedup := by
      rw [dedup_append, last]
      exact suffix_union_right _ _
    have size := congrArg List.length whole
    rw [rtakeWhile_last_use fresh, card_toFinset, kept, ← whole]
    simp only [length_append, length_cons, used, true_and]
    by_cases recent : after.dedup.length < capacity
    · refine iff_of_true ?_ recent
      rw [drop_append_of_le_length (by omega)]
      simp
    · refine iff_of_false ?_ recent
      rw [drop_append, drop_eq_nil_of_le (by omega), nil_append]
      have position : earlier.length + (after.dedup.length + 1) - capacity - earlier.length =
          after.dedup.length - capacity + 1 := by omega
      rw [position, drop_succ_cons]
      exact fun mem => unseen (mem_of_mem_drop mem)
  · refine iff_of_false ?_ fun found => used found.1
    exact fun mem => used (mem_dedup.mp (mem_of_mem_drop mem))

end Lru
