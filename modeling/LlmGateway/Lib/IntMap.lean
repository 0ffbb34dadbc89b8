import Std.Data.TreeMap
import Mathlib.Order.Defs.LinearOrder

namespace IntMap

variable {β : Type*} {map : Std.TreeMap Int β} {key other : Int} {value : β}

theorem get_insert : (map.insert key value)[other]? = if other = key then some value else map[other]? := by
  have same : compare key other = .eq ↔ other = key := Std.LawfulEqCmp.compare_eq_iff_eq.trans eq_comm
  simp [Std.TreeMap.getElem?_insert, same]

theorem mem_keys_of_get (found : map[key]? = some value) : key ∈ map.keys := by
  rw [Std.TreeMap.mem_keys, Std.TreeMap.mem_iff_isSome_getElem?, found]
  rfl

theorem mem_values_iff : value ∈ map.values ↔ ∃ key : Int, map[key]? = some value := by
  have same : map.values = map.toList.map Prod.snd := by
    show map.inner.inner.values = (Std.DTreeMap.Internal.Impl.Const.toList map.inner.inner).map Prod.snd
    rw [Std.DTreeMap.Internal.Impl.values_eq_map_snd, Std.DTreeMap.Internal.Impl.Const.toList_eq_toListModel_map]
    simp
  rw [same, List.mem_map]
  constructor
  · rintro ⟨⟨key, value⟩, mem, rfl⟩
    exact ⟨key, Std.TreeMap.mem_toList_iff_getElem?_eq_some.mp mem⟩
  · rintro ⟨key, found⟩
    exact ⟨(key, value), Std.TreeMap.mem_toList_iff_getElem?_eq_some.mpr found, rfl⟩

theorem keys_sorted : map.keys.Pairwise (· < ·) := map.ordered_keys.imp Std.compare_eq_lt.mp

/-- Lists in order are known by their elements. -/
theorem eq_of_sorted {left right : List Int} (one : left.Pairwise (· < ·)) (two : right.Pairwise (· < ·))
    (same : ∀ key, key ∈ left ↔ key ∈ right) : left = right := by
  have apart {keys : List Int} (sorted : keys.Pairwise (· < ·)) : keys.Nodup :=
    sorted.imp fun less => Int.ne_of_lt less
  have perm := (List.perm_ext_iff_of_nodup (apart one) (apart two)).mpr same
  exact perm.eq_of_pairwise (fun a b _ _ less more => absurd more (Int.lt_asymm less)) one two

theorem mem_keys_iff : key ∈ map.keys ↔ map[key]?.isSome := by
  rw [Std.TreeMap.mem_keys, Std.TreeMap.mem_iff_isSome_getElem?]

theorem mem_keys_insert : other ∈ (map.insert key value).keys ↔ other = key ∨ other ∈ map.keys := by
  rw [mem_keys_iff, mem_keys_iff, get_insert]
  split_ifs with here
  · simp [here]
  · simp [here]

theorem keys_insert_of_mem (known : key ∈ map.keys) : (map.insert key value).keys = map.keys := by
  refine eq_of_sorted keys_sorted keys_sorted fun other => ?_
  rw [mem_keys_insert]
  exact ⟨fun listed => listed.elim (fun here => here ▸ known) id, .inr⟩

end IntMap
