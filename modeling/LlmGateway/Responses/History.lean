import LlmGateway.Lib.Json
import LlmGateway.Lib.Text

namespace LlmGateway

open Text Function

def maxEntries : Nat := 512

def maxEntryBytes : Nat := 2 * 1024 * 1024

def plausibleResponseId (id : Str) : Bool :=
  "resp_".toList.isPrefixOf id && 13 ≤ utf8Len id && utf8Len id ≤ 128

/-- The output items of earlier responses, least recently used first. -/
structure ResponseHistoryStore where
  order : List Str
  map : Str → Option Json

namespace ResponseHistoryStore

def new : ResponseHistoryStore := ⟨[], fun _ => none⟩

def touch (store : ResponseHistoryStore) (id : Str) : ResponseHistoryStore :=
  if id ∈ store.order then { store with order := store.order.erase id ++ [id] } else store

def evict (map : Str → Option Json) : List Str → ResponseHistoryStore
  | [] => ⟨[], map⟩
  | oldest :: rest =>
    if maxEntries < (oldest :: rest).length then evict (Function.update map oldest none) rest
    else ⟨oldest :: rest, map⟩

def insert (store : ResponseHistoryStore) (id : Str) (items : Json) : ResponseHistoryStore :=
  let map := Function.update store.map id (some items)
  if (store.map id).isSome then { store with map } else evict map (store.order ++ [id])

def recordable (id : Str) (items : Json) : Bool :=
  plausibleResponseId id && (items.asArr.any fun list => !list.isEmpty) && utf8Len items.print ≤ maxEntryBytes

def record (store : ResponseHistoryStore) (id : Str) (items : Json) : ResponseHistoryStore :=
  if recordable id items then (store.insert id items).touch id else store

def restore (store : ResponseHistoryStore) (id : Str) : Option Json × ResponseHistoryStore :=
  (store.map id, store.touch id)

section Changes

variable {store : ResponseHistoryStore} {id key : Str} {items found : Json}

@[simp] theorem touch_map : (store.touch id).map = store.map := by
  unfold touch
  split_ifs
  · rfl
  · rfl

theorem evict_map {map : Str → Option Json} {order : List Str} (held : (evict map order).map key = some found) :
    map key = some found := by
  induction order generalizing map with
  | nil => exact held
  | cons oldest rest ih =>
    unfold evict at held
    split_ifs at held with full
    · have kept := ih held
      by_cases gone : key = oldest
      · rw [gone, update_self] at kept
        cases kept
      · rwa [update_of_ne gone] at kept
    · exact held

theorem record_map (held : (store.record id items).map key = some found) :
    (key = id ∧ found = items ∧ recordable id items) ∨ store.map key = some found := by
  unfold record at held
  split_ifs at held with accepted
  · rw [touch_map] at held
    have written : Function.update store.map id (some items) key = some found := by
      unfold insert at held
      split_ifs at held
      · exact held
      · exact evict_map held
    by_cases same : key = id
    · subst same
      rw [update_self] at written
      exact .inl ⟨rfl, (Option.some.inj written).symm, accepted⟩
    · rw [update_of_ne same] at written
      exact .inr written
  · exact .inr held

end Changes

end ResponseHistoryStore

def previousResponseId (json : Json) : Option Str :=
  ((json.get "previous_response_id").bind Json.asStr).bind nonBlank

def userMessage (text : Str) : Json :=
  .obj [("content", .arr [.obj [("text", .str text), ("type", .str "input_text".toList)]]),
    ("role", .str "user".toList), ("type", .str "message".toList)]

/-- The items of an `input`, in whichever form it was sent. -/
def inputItems (json : Json) : List Json :=
  match json.get "input" with
  | none => []
  | some (.str text) => [userMessage text]
  | some (.arr items) => items
  | some other => [other]

def unknownResponse (id : Str) : Str :=
  "unknown previous_response_id '".toList ++ id ++
    "': gateway history for this response has expired or was recorded before a restart; ".toList ++
    "resend the full conversation history instead of referencing it ".toList ++
    "(codex clients: disable server-side storage, e.g. 'store' 'false' in model args)".toList

def withHistory (json : Json) (restored : Json) : Json :=
  match json with
  | .obj fields =>
    let input := .arr (restored.asArr.getD [] ++ inputItems json)
    .obj (Json.removeField "previous_response_id" (Json.insertField "input" input fields))
  | other => other

def enrichRequestWithHistory (store : ResponseHistoryStore) (json : Json) :
    Except Str Json × ResponseHistoryStore :=
  match previousResponseId json with
  | none => (.ok json, store)
  | some id =>
    match store.restore id with
    | (none, store) => (.error (unknownResponse id), store)
    | (some restored, store) => (.ok (withHistory json restored), store)

section Enrich

variable {store : ResponseHistoryStore} {json : Json} {id : Str}

theorem enrich_none (first : previousResponseId json = none) :
    enrichRequestWithHistory store json = (.ok json, store) := by
  rw [enrichRequestWithHistory, first]

theorem enrich_some (named : previousResponseId json = some id) :
    enrichRequestWithHistory store json =
      (match store.map id with
        | none => .error (unknownResponse id)
        | some restored => .ok (withHistory json restored), store.touch id) := by
  rw [enrichRequestWithHistory, named]
  dsimp only [ResponseHistoryStore.restore]
  cases store.map id with
  | none => rfl
  | some restored => rfl

theorem enrich_map : (enrichRequestWithHistory store json).2.map = store.map := by
  cases named : previousResponseId json with
  | none => rw [enrich_none named]
  | some id => rw [enrich_some named, ResponseHistoryStore.touch_map]

theorem inputItems_withHistory (named : previousResponseId json = some id) (items : List Json) :
    inputItems (withHistory json (.arr items)) = items ++ inputItems json := by
  cases json with
  | obj fields =>
    have input : (withHistory (.obj fields) (.arr items)).get "input" =
        some (.arr (items ++ inputItems (.obj fields))) := by
      rw [withHistory, Json.get, Json.lookup_removeField (by decide), Json.lookup_insertField]
      rfl
    rw [inputItems, input]
  | _ => cases named

end Enrich

end LlmGateway
