import LlmGateway.Lib.JsonRoundTrip

namespace LlmGateway

open Json Text Option

/-- The value with the fields of every object in the order of their keys. -/
def canonicalValue : Json → Json
  | .obj fields => ofFields (canonicalFields fields)
  | .arr items => .arr (canonicalItems items)
  | other => other
where
  canonicalItems : List Json → List Json
    | [] => []
    | item :: rest => canonicalValue item :: canonicalItems rest
  canonicalFields : Fields → Fields
    | [] => []
    | (key, value) :: rest => (key, canonicalValue value) :: canonicalFields rest

def canonicalJsonString (value : Json) : Str := (canonicalValue value).print

def canonicalizeJsonStringIfParseable [FloatText] (text : Str) : Str :=
  if (trim text).isEmpty then text
  else
    match parse (trim text) with
    | some (.obj fields) => canonicalJsonString (.obj fields)
    | some (.arr items) => canonicalJsonString (.arr items)
    | _ => text

mutual

theorem canonicalValue_of_fits {depth : Nat} : (v : Json) → v.Fits depth → canonicalValue v = v
  | .null, _ => rfl
  | .bool _, _ => rfl
  | .num _, _ => rfl
  | .str _, _ => rfl
  | .arr items, fits => by
    cases depth with
    | zero => exact fits.elim
    | succ depth => rw [canonicalValue, canonicalItems_of_fits items fits]
  | .obj fields, fits => by
    cases depth with
    | zero => exact fits.elim
    | succ depth =>
      rw [canonicalValue, canonicalFields_of_fits fields fits, ofFields_sorted (fitsFields_sorted fits)]

theorem canonicalItems_of_fits {depth : Nat} : (items : List Json) → Fits.fitsItems items depth →
    canonicalValue.canonicalItems items = items
  | [], _ => rfl
  | item :: rest, fits => by
    rw [canonicalValue.canonicalItems, canonicalValue_of_fits item fits.1, canonicalItems_of_fits rest fits.2]

theorem canonicalFields_of_fits {depth : Nat} : (fields : Fields) → Fits.fitsFields fields depth →
    canonicalValue.canonicalFields fields = fields
  | [], _ => rfl
  | (key, value) :: rest, fits => by
    rw [canonicalValue.canonicalFields, canonicalValue_of_fits value fits.1, canonicalFields_of_fits rest fits.2.2]

end

theorem canonicalJsonString_of_fits {v : Json} {depth : Nat} (fits : v.Fits depth) :
    canonicalJsonString v = v.print :=
  congrArg Json.print (canonicalValue_of_fits v fits)

theorem trim_printObject (fields : Fields) : trim (Json.obj fields).print = (Json.obj fields).print :=
  trim_bracketed rfl rfl

section Arguments

variable [FloatText] {arguments : Str} {fields : Fields}

theorem canonicalize_object (read : parse (trim arguments) = some (.obj fields)) :
    canonicalizeJsonStringIfParseable arguments = (Json.obj fields).print := by
  have some : (trim arguments).isEmpty = false := by
    rw [Bool.eq_false_iff]
    intro empty
    rw [List.isEmpty_iff.mp empty] at read
    cases read
  simp [canonicalizeJsonStringIfParseable, some, read, canonicalJsonString_of_fits (fits_of_parse read)]

theorem canonicalize_printObject (fits : (Json.obj fields).Fits maxDepth) :
    canonicalizeJsonStringIfParseable (Json.obj fields).print =
      ((Json.obj fields).reread.getD (.obj fields)).print := by
  cases again : reread.rereadFields fields with
  | none =>
    have unreadable : (Json.obj fields).reread = none := by rw [reread, again, map_none]
    have unread : parse (Json.obj fields).print = none := (parse_print fits).trans unreadable
    have filled : (Json.obj fields).print.isEmpty = false := rfl
    simp [canonicalizeJsonStringIfParseable, trim_printObject, filled, unread, unreadable, getD_none]
  | some others =>
    have readable : (Json.obj fields).reread = some (.obj others) := by rw [reread, again, map_some]
    have read : parse (trim (Json.obj fields).print) = some (.obj others) := by
      rw [trim_printObject, parse_print fits, readable]
    rw [canonicalize_object read, readable, getD_some]

theorem canonicalize_printObject_iff (fits : (Json.obj fields).Fits maxDepth) :
    canonicalizeJsonStringIfParseable (Json.obj fields).print = (Json.obj fields).print ↔
      (Json.obj fields).reread = none ∨ (Json.obj fields).reread = some (.obj fields) := by
  rw [canonicalize_printObject fits]
  cases again : (Json.obj fields).reread with
  | none => simp
  | some other =>
    have read : parse (Json.obj fields).print = some other := (parse_print fits).trans again
    rw [getD_some, Option.some.injEq]
    refine ⟨fun same => .inr (print_injective (fits_of_parse read) fits same), ?_⟩
    rintro (absent | same)
    · cases absent
    · exact congrArg Json.print same

end Arguments

end LlmGateway
