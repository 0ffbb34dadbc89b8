import LlmGateway.Lib.I64
import Mathlib.Computability.Primrec.List

/-- A number of a JSON value. A float is given by the text it is written as. -/
inductive JsonNumber
  | int (value : Int)
  | float (text : List Char)
  deriving DecidableEq

/-- A JSON value. -/
inductive Json
  | null
  | bool (value : Bool)
  | num (value : JsonNumber)
  | str (text : List Char)
  | arr (items : List Json)
  | obj (fields : List (String × Json))

namespace JsonNumber

def print : JsonNumber → List Char
  | int value => if value < 0 then '-' :: Nat.toDigits 10 value.natAbs else Nat.toDigits 10 value.natAbs
  | float text => text

/-- The integer, when it is in the range of 64 bits. -/
def asI64 : JsonNumber → Option I64
  | int value =>
    if fits : -9223372036854775808 ≤ value ∧ value ≤ 9223372036854775807 then some ⟨value, fits.1, fits.2⟩ else none
  | float _ => none

end JsonNumber

namespace Json

/-- The fields of an object. -/
abbrev Fields := List (String × Json)

/-- The field of an object. No other value has fields. -/
def get (json : Json) (key : String) : Option Json :=
  match json with
  | obj fields => fields.lookup key
  | _ => none

def asStr : Json → Option (List Char)
  | str text => some text
  | _ => none

def asI64 : Json → Option I64
  | num value => value.asI64
  | _ => none

def asArr : Json → Option (List Json)
  | arr items => some items
  | _ => none

/-- The text of a field, when that is a string. -/
def getStr (json : Json) (key : String) : Option (List Char) := (json.get key).bind asStr

def isNull : Json → Bool
  | null => true
  | _ => false

/-- The fields stand in the order of their keys; a field that is there is replaced. -/
def insertField (key : String) (value : Json) : Fields → Fields
  | [] => [(key, value)]
  | (other, held) :: rest =>
    if key < other then (key, value) :: (other, held) :: rest
    else if key = other then (key, value) :: rest
    else (other, held) :: insertField key value rest

def removeField (key : String) (fields : Fields) : Fields := fields.filter (·.1 ≠ key)

/-- An object without the fields that are absent. -/
def record (entries : List (String × Option Json)) : Json :=
  obj (entries.filterMap fun entry => entry.2.map (entry.1, ·))

/-- A character inside a string literal. -/
def escapeChar (c : Char) : List Char :=
  if c = '"' then ['\\', '"']
  else if c = '\\' then ['\\', '\\']
  else if c = '\n' then ['\\', 'n']
  else if c = '\r' then ['\\', 'r']
  else if c = '\t' then ['\\', 't']
  else if c = '\x08' then ['\\', 'b']
  else if c = '\x0c' then ['\\', 'f']
  else if c.toNat < 0x20 then ['\\', 'u', '0', '0', Nat.digitChar (c.toNat / 16), Nat.digitChar (c.toNat % 16)]
  else [c]

def printString (text : List Char) : List Char := '"' :: (text.flatMap escapeChar ++ ['"'])

/-- The compact text of a value. -/
def print : Json → List Char
  | null => "null".toList
  | bool value => if value then "true".toList else "false".toList
  | num value => value.print
  | str text => printString text
  | arr items => '[' :: (printItems items ++ [']'])
  | obj fields => '{' :: (printFields fields ++ ['}'])
where
  printItems : List Json → List Char
    | [] => []
    | [item] => item.print
    | item :: next :: rest => item.print ++ ',' :: printItems (next :: rest)
  printFields : Fields → List Char
    | [] => []
    | [(key, value)] => printString key.toList ++ ':' :: value.print
    | (key, value) :: next :: rest =>
      printString key.toList ++ ':' :: (value.print ++ ',' :: printFields (next :: rest))

theorem lookup_insertField (key : String) (value : Json) (fields : Fields) :
    (insertField key value fields).lookup key = some value := by
  induction fields with
  | nil => simp [insertField]
  | cons field rest ih =>
    unfold insertField
    split_ifs with before same
    · simp
    · simp
    · have skip : (key == field.1) = false := by simp [same]
      simpa [List.lookup, skip] using ih

theorem lookup_removeField {key other : String} (kept : key ≠ other) (fields : Fields) :
    (removeField other fields).lookup key = fields.lookup key := by
  induction fields with
  | nil => rfl
  | cons field rest ih =>
    by_cases gone : field.1 = other
    · have skip : (key == other) = false := by simp [kept]
      simpa [removeField, gone, List.lookup, skip] using ih
    · by_cases here : key = field.1
      · simp [removeField, gone, List.lookup, here]
      · have skip : (key == field.1) = false := by simp [here]
        simpa [removeField, gone, List.lookup, skip] using ih

theorem get_record {entries : List (String × Option Json)} {key : String}
    (distinct : (entries.map Prod.fst).Nodup) :
    (record entries).get key = (entries.lookup key).join := by
  induction entries with
  | nil => rfl
  | cons entry entries ih =>
    obtain ⟨name, value⟩ := entry
    obtain ⟨fresh, others⟩ := List.nodup_cons.mp distinct
    have rest : (record entries).get key = (entries.lookup key).join := ih others
    by_cases same : key = name
    · subst same
      have absent : entries.lookup key = none := by
        refine List.lookup_eq_none_iff.mpr fun entry mem => ?_
        have other : key ≠ entry.1 := by
          rintro rfl
          exact fresh (List.mem_map.mpr ⟨entry, mem, rfl⟩)
        simp [other]
      cases value with
      | none => simpa [record, get, absent] using rest
      | some value => simp [record, get]
    · have skip : (key == name) = false := by simp [same]
      cases value with
      | none | some value => simpa [record, get, List.lookup, skip] using rest

end Json
