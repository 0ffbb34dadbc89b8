import LlmGateway.Lib.JsonFields

namespace Json

def isObj : Json → Bool
  | obj _ => true
  | _ => false

/-- The value at the end of a path of keys. -/
def dig (json : Json) : List String → Option Json
  | [] => some json
  | key :: rest => (json.get key).bind (·.dig rest)

/-- A value is replaced by the one of the second object at its key, unless both are objects, which are merged. -/
def mergeDeep (dst : Json) : Json → Json
  | obj fields =>
    match dst with
    | obj held => obj (mergeFields held fields)
    | other => other
  | _ => dst
where
  mergeFields (held : Fields) : Fields → Fields
    | [] => held
    | (key, value) :: rest =>
      let merged :=
        match held.lookup key with
        | some old => if old.isObj && value.isObj then old.mergeDeep value else value
        | none => value
      mergeFields (insertField key merged held) rest

/-- The keys of every object are in order. -/
def isSorted : Json → Bool
  | obj fields => decide (fields.Pairwise fun left right => left.1 < right.1) && sortedFields fields
  | arr items => sortedItems items
  | _ => true
where
  sortedItems : List Json → Bool
    | [] => true
    | item :: rest => item.isSorted && sortedItems rest
  sortedFields : Fields → Bool
    | [] => true
    | (_, value) :: rest => value.isSorted && sortedFields rest

/-- A value stands at the path, or one that is no object on the way to it. -/
def overlaps (json : Json) : List String → Bool
  | [] => true
  | key :: rest =>
    match json.get key with
    | none => !json.isObj
    | some value => value.overlaps rest

variable {fields held : Fields} {json dst src : Json} {key : String} {value v : Json} {path : List String}

theorem sortedFields_iff : isSorted.sortedFields fields = true ↔ ∀ field ∈ fields, field.2.isSorted = true := by
  induction fields with
  | nil => simp [isSorted.sortedFields]
  | cons field rest ih =>
    obtain ⟨name, value⟩ := field
    simp [isSorted.sortedFields, ih]

theorem isSorted_obj_iff : (obj fields).isSorted = true ↔ (fields.Pairwise fun left right => left.1 < right.1) ∧
    ∀ field ∈ fields, field.2.isSorted = true := by
  rw [isSorted, Bool.and_eq_true, decide_eq_true_eq, sortedFields_iff]

theorem isSorted_empty : (obj []).isSorted := by decide

theorem isSorted_insertField (sorted : (obj fields).isSorted) (new : value.isSorted) :
    (obj (insertField key value fields)).isSorted = true := by
  obtain ⟨order, values⟩ := isSorted_obj_iff.mp sorted
  refine isSorted_obj_iff.mpr ⟨insertField_sorted order, fun field mem => ?_⟩
  rcases mem_insertField mem with rfl | old
  · exact new
  · exact values field old

mutual

theorem isSorted_mergeDeep (dst : Json) (sorted : dst.isSorted) : (src : Json) → src.isSorted = true →
    (dst.mergeDeep src).isSorted = true
  | obj fields, sources => by
    cases dst with
    | obj held =>
      obtain ⟨-, values⟩ := isSorted_obj_iff.mp sources
      exact isSorted_mergeFields held sorted fields values
    | _ => exact sorted
  | null, _ => sorted
  | bool _, _ => sorted
  | num _, _ => sorted
  | str _, _ => sorted
  | arr _, _ => sorted

theorem isSorted_mergeFields (held : Fields) (sorted : (obj held).isSorted) :
    (fields : Fields) → (∀ field ∈ fields, field.2.isSorted = true) →
    (obj (mergeDeep.mergeFields held fields)).isSorted = true
  | [], _ => sorted
  | (key, value) :: rest, values => by
    have new : value.isSorted = true := values (key, value) List.mem_cons_self
    refine isSorted_mergeFields _ (isSorted_insertField sorted ?_) rest fun field mem =>
      values field (List.mem_cons_of_mem _ mem)
    split
    next old found =>
      split
      · exact isSorted_mergeDeep old ((isSorted_obj_iff.mp sorted).2 _ (mem_of_lookup_eq_some found)) value new
      · exact new
    · exact new

end

/-- What a key has after the merge. -/
theorem lookup_mergeFields (order : fields.Pairwise fun left right => left.1 < right.1) :
    (mergeDeep.mergeFields held fields).lookup key =
      match fields.lookup key with
      | none => held.lookup key
      | some value => some (match held.lookup key with
        | some old => if old.isObj && value.isObj then old.mergeDeep value else value
        | none => value) := by
  induction fields generalizing held with
  | nil => rfl
  | cons field rest ih =>
    obtain ⟨name, value⟩ := field
    obtain ⟨first, others⟩ := List.pairwise_cons.mp order
    rw [mergeDeep.mergeFields, ih others]
    by_cases here : key = name
    · subst here
      have absent : rest.lookup key = none := by
        refine List.lookup_eq_none_iff.mpr fun field mem => ?_
        simpa using (first field mem).ne
      rw [absent, lookup_insertField]
      simp [List.lookup]
    · have skip : (key == name) = false := by simp [here]
      rw [lookup_insertField_ne here]
      simp [List.lookup, skip]

theorem get_of_dig_cons {rest : List String} (found : json.dig (key :: rest) = some v) :
    ∃ value, json.get key = some value ∧ value.dig rest = some v := Option.bind_eq_some_iff.mp found

theorem isObj_of_get (found : json.get key = some value) : ∃ fields, json = obj fields := by
  cases json with
  | obj fields => exact ⟨fields, rfl⟩
  | _ => cases found

theorem isObj_of_dig_cons {rest : List String} (found : json.dig (key :: rest) = some v) : json.isObj = true := by
  obtain ⟨value, here, -⟩ := get_of_dig_cons found
  obtain ⟨fields, rfl⟩ := isObj_of_get here
  rfl

/-- A leaf of the second value is in the merged one. -/
theorem dig_mergeDeep_leaf (sorted : src.isSorted) (object : dst.isObj) (leaf : v.isObj = false)
    (found : src.dig path = some v) (deep : path ≠ []) : (dst.mergeDeep src).dig path = some v := by
  induction path generalizing dst src with
  | nil => exact absurd rfl deep
  | cons key rest ih =>
    obtain ⟨value, here, later⟩ := get_of_dig_cons found
    obtain ⟨fields, rfl⟩ := isObj_of_get here
    obtain ⟨order, values⟩ := isSorted_obj_iff.mp sorted
    cases dst with
    | obj held =>
      have merged : ((obj held).mergeDeep (obj fields)).get key = some (match held.lookup key with
          | some old => if old.isObj && value.isObj then old.mergeDeep value else value
          | none => value) := by
        refine (lookup_mergeFields order).trans ?_
        rw [show fields.lookup key = some value from here]
      rw [dig, merged, Option.bind_some]
      split
      next old _ =>
        split
        next both =>
          rw [Bool.and_eq_true] at both
          cases rest with
          | nil =>
            cases later
            rw [leaf] at both
            cases both.2
          | cons next more =>
            exact ih (values _ (mem_of_lookup_eq_some here)) both.1 later (List.cons_ne_nil _ _)
        · exact later
      · exact later
    | _ => cases object

/-- A value whose path the second one does not overlap stays. -/
theorem dig_mergeDeep_frame (sorted : src.isSorted) (apart : src.overlaps path = false)
    (found : dst.dig path = some v) : (dst.mergeDeep src).dig path = some v := by
  induction path generalizing dst src with
  | nil => cases apart
  | cons key rest ih =>
    obtain ⟨old, here, later⟩ := get_of_dig_cons found
    obtain ⟨held, rfl⟩ := isObj_of_get here
    cases src with
    | obj fields =>
      obtain ⟨order, values⟩ := isSorted_obj_iff.mp sorted
      have merged := @lookup_mergeFields fields held key order
      change Option.bind (List.lookup key _) _ = some v
      rw [merged, show held.lookup key = some old from here]
      change (match fields.lookup key with
        | none => false
        | some value => value.overlaps rest) = false at apart
      cases given : fields.lookup key with
      | none => exact later
      | some value =>
        rw [given] at apart
        dsimp only at apart ⊢
        cases rest with
        | nil => cases apart
        | cons next more =>
          have objects : (old.isObj && value.isObj) = true := by
            rw [isObj_of_dig_cons later, Bool.true_and]
            cases value with
            | obj inner => rfl
            | _ => cases apart
          rw [if_pos objects, Option.bind_some]
          exact ih (values _ (mem_of_lookup_eq_some given)) apart later
    | _ => exact found

end Json
