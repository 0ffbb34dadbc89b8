import LlmGateway.Lib.Lru
import LlmGateway.Responses.History

namespace LlmGateway

open List Function

namespace ResponseHistoryStore

inductive HistoryCall
  | record (id : Str) (items : Json)
  | restore (id : Str)

def after (store : ResponseHistoryStore) : HistoryCall → ResponseHistoryStore
  | .record id items => store.record id items
  | .restore id => (store.restore id).2

def used (store : ResponseHistoryStore) : HistoryCall → Option Str
  | .record id items => if recordable id items then some id else none
  | .restore id => if (store.restore id).1.isSome then some id else none

def afterAll (store : ResponseHistoryStore) (calls : List HistoryCall) : ResponseHistoryStore :=
  calls.foldl after store

def usesOf (store : ResponseHistoryStore) : List HistoryCall → List Str
  | [] => []
  | call :: rest => (store.used call).toList ++ (store.after call).usesOf rest

def accepted (id : Str) : HistoryCall → Option Json
  | .record other items => if recordable other items ∧ other = id then some items else none
  | .restore _ => none

def lastRecord (calls : List HistoryCall) (id : Str) : Option Json := (calls.filterMap (accepted id)).getLast?

section Runs

variable {store : ResponseHistoryStore} {calls : List HistoryCall} {call : HistoryCall} {id key : Str}
  {items : Json}

theorem afterAll_concat : store.afterAll (calls ++ [call]) = (store.afterAll calls).after call := by
  rw [afterAll, foldl_concat]
  rfl

theorem usesOf_concat :
    store.usesOf (calls ++ [call]) = store.usesOf calls ++ ((store.afterAll calls).used call).toList := by
  induction calls generalizing store with
  | nil => simp [usesOf, afterAll]
  | cons first rest ih =>
    rw [cons_append, usesOf, ih, usesOf, append_assoc]
    rfl

theorem lastRecord_concat :
    lastRecord (calls ++ [call]) key = ((accepted key call).or (lastRecord calls key)) := by
  cases given : accepted key call <;> simp [given, lastRecord]

end Runs

section Queue

variable {store : ResponseHistoryStore} {map : Str → Option Json} {order : List Str} {id key : Str}
  {items : Json}

theorem evict_order : (evict map order).order = order.drop (order.length - maxEntries) := by
  induction order generalizing map with
  | nil => rfl
  | cons oldest rest ih =>
    rw [evict]
    split_ifs with full
    · have more : (oldest :: rest).length - maxEntries = rest.length - maxEntries + 1 := by
        rw [length_cons] at full ⊢
        omega
      rw [ih, more, drop_succ_cons]
    · rw [Nat.sub_eq_zero_of_le (Nat.le_of_not_lt full), drop_zero]

theorem evict_map_eq {held : Str → Option Json} (distinct : order.Nodup)
    (written : ∀ key, map key = if key ∈ order then held key else none) (key : Str) :
    (evict map order).map key = if key ∈ (evict map order).order then held key else none := by
  induction order generalizing map with
  | nil => exact written key
  | cons oldest rest ih =>
    obtain ⟨fresh, distinct⟩ := nodup_cons.mp distinct
    rw [evict]
    by_cases full : maxEntries < (oldest :: rest).length
    · rw [if_pos full]
      refine ih distinct fun key => ?_
      by_cases same : key = oldest
      · rw [same, update_self, if_neg fresh]
      · rw [update_of_ne same, written]
        simp [same]
    · rw [if_neg full]
      exact written key

/-- The queue holds the identifiers used last, and the map their last accepted records. -/
structure Follows (uses : List Str) (recorded : Str → Option Json) (store : ResponseHistoryStore) :
    Prop where
  order_eq : store.order = Lru.kept maxEntries uses
  map_eq : ∀ id, store.map id = if id ∈ store.order then recorded id else none
  isSome_recorded : ∀ id ∈ store.order, (recorded id).isSome
  mem_uses : ∀ id, (recorded id).isSome → id ∈ uses

variable {uses : List Str} {recorded : Str → Option Json}

theorem Follows.isSome_iff (follows : Follows uses recorded store) :
    (store.map id).isSome ↔ id ∈ store.order := by
  rw [follows.map_eq]
  split_ifs with mem
  · exact iff_of_true (follows.isSome_recorded id mem) mem
  · exact iff_of_false Bool.false_ne_true mem

theorem follows_new : Follows [] (fun _ => none) new := by
  refine ⟨rfl, fun id => rfl, fun id mem => ?_, fun id found => ?_⟩
  · cases mem
  · cases found

theorem Follows.touch (follows : Follows uses recorded store) (mem : id ∈ store.order) :
    Follows (uses ++ [id]) recorded (store.touch id) := by
  have order : (store.touch id).order = store.order.erase id ++ [id] := by
    rw [ResponseHistoryStore.touch, if_pos mem]
  have same (key : Str) : key ∈ (store.touch id).order ↔ key ∈ store.order := by
    rw [order]
    by_cases other : key = id
    · simp [other, mem]
    · simp [other, mem_erase_of_ne other]
  refine ⟨?_, fun key => ?_, fun key held => follows.isSome_recorded key ((same key).mp held),
    fun key found => mem_append_left _ (follows.mem_uses key found)⟩
  · rw [order, follows.order_eq]
    rw [follows.order_eq] at mem
    rw [Lru.kept_concat_of_mem mem]
  · rw [touch_map, follows.map_eq]
    simp [same]

theorem touch_last {order : List Str} (ends : store.order = order ++ [id]) (fresh : id ∉ order) :
    store.touch id = store := by
  rw [ResponseHistoryStore.touch, ends, if_pos (by simp), erase_append_right _ fresh, erase_cons_head,
    append_nil, ← ends]

theorem Follows.replace (follows : Follows uses recorded store) (mem : id ∈ store.order) (items : Json) :
    Follows uses (Function.update recorded id (some items))
      { store with map := Function.update store.map id (some items) } := by
  refine ⟨follows.order_eq, fun key => ?_, fun key held => ?_, fun key found => ?_⟩
  · dsimp only
    by_cases same : key = id
    · rw [same, update_self, update_self, if_pos mem]
    · rw [update_of_ne same, update_of_ne same, follows.map_eq]
  · by_cases same : key = id
    · rw [same, update_self]
      rfl
    · rw [update_of_ne same]
      exact follows.isSome_recorded key held
  · by_cases same : key = id
    · exact same ▸ follows.mem_uses id (follows.isSome_recorded id mem)
    · rw [update_of_ne same] at found
      exact follows.mem_uses key found

theorem Follows.add (follows : Follows uses recorded store) (absent : id ∉ store.order) (items : Json) :
    Follows (uses ++ [id]) (Function.update recorded id (some items))
      (evict (Function.update store.map id (some items)) (store.order ++ [id])) := by
  have distinct : (store.order ++ [id]).Nodup := by
    rw [nodup_append]
    refine ⟨follows.order_eq ▸ Lru.nodup_kept, nodup_singleton id, ?_⟩
    rintro key mem other last rfl
    exact absent (mem_singleton.mp last ▸ mem)
  refine ⟨?_, evict_map_eq distinct fun key => ?_, fun key held => ?_, fun key found => ?_⟩
  · rw [follows.order_eq] at absent
    rw [evict_order, follows.order_eq, Lru.kept_concat_of_not_mem absent]
  · by_cases same : key = id
    · simp [same]
    · rw [update_of_ne same, update_of_ne same, follows.map_eq]
      simp [same]
  · rw [evict_order] at held
    have mem := mem_of_mem_drop held
    rw [mem_append, mem_singleton] at mem
    by_cases same : key = id
    · rw [same, update_self]
      rfl
    · rw [update_of_ne same]
      exact follows.isSome_recorded key (mem.resolve_right same)
  · by_cases same : key = id
    · simp [same]
    · rw [update_of_ne same] at found
      exact mem_append_left _ (follows.mem_uses key found)

theorem Follows.record (follows : Follows uses recorded store) (fits : recordable id items) :
    Follows (uses ++ [id]) (Function.update recorded id (some items)) (store.record id items) := by
  rw [ResponseHistoryStore.record, if_pos fits, insert]
  by_cases known : (store.map id).isSome
  · have mem := follows.isSome_iff.mp known
    rw [if_pos known]
    exact (follows.replace mem items).touch mem
  · have absent : id ∉ store.order := fun mem => known (follows.isSome_iff.mpr mem)
    have room : (store.order ++ [id]).length - maxEntries ≤ store.order.length := by
      rw [length_append, maxEntries, length_singleton]
      omega
    -- the new identifier is the last one already
    have ends : (evict (Function.update store.map id (some items)) (store.order ++ [id])).order =
        store.order.drop ((store.order ++ [id]).length - maxEntries) ++ [id] := by
      rw [evict_order, drop_append_of_le_length room]
    rw [if_neg known, touch_last ends fun mem => absent (mem_of_mem_drop mem)]
    exact follows.add absent items

theorem Follows.after (follows : Follows uses recorded store) (call : HistoryCall) :
    Follows (uses ++ (store.used call).toList) (fun id => (accepted id call).or (recorded id))
      (store.after call) := by
  cases call with
  | record id items =>
    have last (fits : recordable id items) : (fun key => (accepted key (.record id items)).or (recorded key)) =
        Function.update recorded id (some items) := by
      funext key
      by_cases same : key = id
      · simp [same, accepted, fits]
      · rw [update_of_ne same]
        simp [accepted, Ne.symm same]
    by_cases fits : recordable id items
    · rw [last fits, used, if_pos fits]
      exact follows.record fits
    · have unchanged : store.after (.record id items) = store := by
        rw [ResponseHistoryStore.after, ResponseHistoryStore.record, if_neg fits]
      simpa [unchanged, used, accepted, fits] using follows
  | restore id =>
    have found : (store.restore id).1 = store.map id := rfl
    have touched : store.after (.restore id) = store.touch id := rfl
    rw [used, found, touched]
    by_cases known : (store.map id).isSome
    · rw [if_pos known]
      exact follows.touch (follows.isSome_iff.mp known)
    · have absent : id ∉ store.order := fun mem => known (follows.isSome_iff.mpr mem)
      rw [if_neg known, ResponseHistoryStore.touch, if_neg absent]
      simpa [accepted] using follows

theorem follows_afterAll (calls : List HistoryCall) :
    Follows (new.usesOf calls) (lastRecord calls) (new.afterAll calls) := by
  induction calls using List.reverseRecOn with
  | nil => exact follows_new
  | append_singleton calls call ih =>
    have next := ih.after call
    rw [usesOf_concat, afterAll_concat]
    have same : lastRecord (calls ++ [call]) = fun id => (accepted id call).or (lastRecord calls id) :=
      funext fun id => lastRecord_concat
    rw [same]
    exact next

end Queue

/-- Whatever is recorded and restored, the store is the exact least recently used cache of its calls. -/
theorem exact_lru (calls : List HistoryCall) :
    let store := new.afterAll calls
    (store.order.Nodup ∧ (∀ id, id ∈ store.order ↔ (store.map id).isSome) ∧
      store.order.length ≤ maxEntries) ∧
    ∀ id items, (store.restore id).1 = some items ↔
      lastRecord calls id = some items ∧
        ((new.usesOf calls).rtakeWhile (· ≠ id)).toFinset.card < maxEntries := by
  have follows := follows_afterAll calls
  refine ⟨⟨?_, fun id => follows.isSome_iff.symm, ?_⟩, fun id items => ?_⟩
  · rw [follows.order_eq]
    exact Lru.nodup_kept
  · rw [follows.order_eq]
    exact Lru.length_kept_le
  · have found : ((new.afterAll calls).restore id).1 = (new.afterAll calls).map id := rfl
    rw [found, follows.map_eq, follows.order_eq]
    simp only [Lru.mem_kept_iff]
    constructor
    · intro known
      split_ifs at known with held
      exact ⟨known, held.2⟩
    · rintro ⟨known, recent⟩
      rw [if_pos ⟨follows.mem_uses id (Option.isSome_iff_exists.mpr ⟨items, known⟩), recent⟩, known]

end ResponseHistoryStore

end LlmGateway
