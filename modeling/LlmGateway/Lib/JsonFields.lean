import LlmGateway.Lib.JsonRoundTrip

namespace Json

open List

def asBool : Json → Option Bool
  | bool value => some value
  | _ => none

/-- The integer, when it is in the range of 64 bits without a sign. -/
def asU64 : Json → Option Nat
  | num (.int value) => if 0 ≤ value ∧ value < 2 ^ 64 then some value.toNat else none
  | _ => none

/-- The fields of an object. No other value has fields. -/
def fields : Json → Fields
  | obj fields => fields
  | _ => []

theorem get_eq_lookup (json : Json) (key : String) : json.get key = json.fields.lookup key := by
  cases json <;> rfl

section Lookup

variable {key other : String} {value : Json} {fields fields' : Fields}

theorem lookup_insertField_ne (different : other ≠ key) :
    (insertField key value fields).lookup other = fields.lookup other := by
  have skip : (other == key) = false := by simp [different]
  induction fields with
  | nil => simp [insertField, lookup, skip]
  | cons field rest ih =>
    unfold insertField
    split_ifs with before same
    · rw [lookup, skip]
    · subst same
      simp [lookup, skip]
    · simp [lookup, ih]

theorem lookup_removeField_self : (removeField key fields).lookup key = none := by
  refine lookup_eq_none_iff.mpr fun field mem => ?_
  obtain ⟨-, other⟩ := mem_filter.mp mem
  have different : field.1 ≠ key := of_decide_eq_true other
  simp [Ne.symm different]

theorem lookup_eq_some_of_mem (sorted : fields.Pairwise fun left right => left.1 < right.1)
    (mem : (key, value) ∈ fields) : fields.lookup key = some value := by
  induction fields with
  | nil => cases mem
  | cons field rest ih =>
    obtain ⟨first, others⟩ := pairwise_cons.mp sorted
    rcases mem_cons.mp mem with rfl | later
    · simp [lookup]
    · have skip : (key == field.1) = false := by simpa using (first _ later).ne'
      simp only [lookup, skip]
      exact ih others later

theorem mem_of_lookup_eq_some (found : fields.lookup key = some value) : (key, value) ∈ fields := by
  induction fields with
  | nil => cases found
  | cons field rest ih =>
    obtain ⟨name, held⟩ := field
    by_cases here : key = name
    · subst here
      simp only [lookup, beq_self_eq_true, Option.some.injEq] at found
      rw [found]
      exact mem_cons_self
    · have skip : (key == name) = false := by simp [here]
      simp only [lookup, skip] at found
      exact mem_cons_of_mem _ (ih found)

/-- Fields in order are known by what they are looked up as. -/
theorem fields_ext (sorted : fields.Pairwise fun left right => left.1 < right.1)
    (sorted' : fields'.Pairwise fun left right => left.1 < right.1)
    (same : ∀ key, fields.lookup key = fields'.lookup key) : fields = fields' := by
  have sub : ∀ {left right : Fields}, (left.Pairwise fun a b => a.1 < b.1) →
      (∀ key, left.lookup key = right.lookup key) → left ⊆ right := by
    intro left right ordered equal field mem
    exact mem_of_lookup_eq_some ((equal field.1).symm.trans (lookup_eq_some_of_mem ordered mem))
  have apart : ∀ {list : Fields}, (list.Pairwise fun a b => a.1 < b.1) → list.Nodup := by
    intro list ordered
    exact ordered.imp fun less same => by simp [same] at less
  have perm : fields.Perm fields' := (perm_ext_iff_of_nodup (apart sorted) (apart sorted')).mpr fun field =>
    ⟨fun mem => sub sorted same mem, fun mem => sub sorted' (fun key => (same key).symm) mem⟩
  exact perm.eq_of_pairwise (fun a b _ _ less greater => absurd greater less.asymm) sorted sorted'

theorem insertField_eq_self (sorted : fields.Pairwise fun left right => left.1 < right.1)
    (found : fields.lookup key = some value) : insertField key value fields = fields := by
  refine fields_ext (insertField_sorted sorted) sorted fun other => ?_
  by_cases here : other = key
  · rw [here, lookup_insertField, found]
  · exact lookup_insertField_ne here

end Lookup

end Json
