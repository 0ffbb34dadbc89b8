import LlmGateway.Lib.Machine
import Mathlib.Data.Char
import Mathlib.Data.List.Induction
import Mathlib.Data.List.Lex
import Mathlib.Data.List.Perm.Basic

namespace LlmGateway

open Machine List

structure RateRule where
  scope : String
  scopeId : Option Int
  model : Option String
  concurrency : Int
  /-- the column has 32 bits -/
  concurrency_le : concurrency ≤ 2147483647

/-- The bucket a rule counts a request in, if it applies to the request. -/
def RateRule.bucketKey (rule : RateRule) (userId keyId : Option Int) (model : String) : Option String := do
  let bucketKey ← match rule.scope with
    | "global" => some "global"
    | "user" => (userId.filter fun uid => rule.scopeId.all (uid == ·)).map fun uid => s!"user:{uid}"
    | "api_key" => (keyId.filter fun kid => some kid == rule.scopeId).map fun kid => s!"key:{kid}"
    | _ => none
  match rule.model with
  | none => some bucketKey
  | some ruleModel => if ruleModel = model then some (bucketKey ++ "|model:" ++ ruleModel) else none

def matchedRules (rules : List RateRule) (userId keyId : Option Int) (model : String) : List (String × Int) :=
  rules.filterMap fun rule => (rule.bucketKey userId keyId model).map fun key => (key, rule.concurrency)

def insertMin (key : String) (limit : Int) : List (String × Int) → List (String × Int)
  | [] => [(key, limit)]
  | (other, smallest) :: rest =>
    if key = other then (other, if limit < smallest then limit else smallest) :: rest
    else if key.toList < other.toList then (key, limit) :: (other, smallest) :: rest
    else (other, smallest) :: insertMin key limit rest

def dedupMinLimit (rules : List (String × Int)) : List (String × Int) :=
  rules.foldl (fun entries rule => insertMin rule.1 rule.2 entries) []

abbrev Counts := String → Option Int

structure ConcurrencyGuard where
  keys : List String

namespace Counts

def activeIn (counts : Counts) (key : String) : Int := (counts key).getD 0

def raise (counts : Counts) (key : String) : Counts := Function.update counts key (some (counts.activeIn key + 1))

def lower (counts : Counts) (key : String) : Counts := Function.update counts key ((counts key).map (· - 1))

def tryAcquire (counts : Counts) (rules : List (String × Int)) : Except (String × Int) ConcurrencyGuard × Counts :=
  match rules.find? fun rule => decide (0 < rule.2) && decide (rule.2 ≤ counts.activeIn rule.1) with
  | some full => (.error full, counts)
  | none =>
    let keys := (rules.filter fun rule => decide (0 < rule.2)).map Prod.fst
    (.ok ⟨keys⟩, keys.foldl raise counts)

/-- `Drop` of a guard: its buckets are counted down, and what is used up is removed. -/
def drop (counts : Counts) (guard : ConcurrencyGuard) : Counts :=
  if guard.keys.isEmpty then counts
  else fun key => ((guard.keys.foldl lower counts) key).filter fun count => decide (0 < count)

def limitsFor (rules : List RateRule) (userId keyId : Option Int) (model : String) : List (String × Int) :=
  dedupMinLimit ((matchedRules rules userId keyId model).filter fun rule => decide (0 < rule.2))

def applyConcurrencyLimits (counts : Counts) (rules : List RateRule) (userId keyId : Option Int)
    (model : String) : Except (String × Int) ConcurrencyGuard × Counts :=
  counts.tryAcquire (limitsFor rules userId keyId model)

end Counts

/-- The limiter with the guards that are still alive. -/
structure ConcurrencyLimiter where
  counts : Counts
  guards : List ConcurrencyGuard

def ConcurrencyLimiter.new : ConcurrencyLimiter where
  counts := fun _ => none
  guards := []

/-- The rules can change between requests, so each acquire brings its own. -/
inductive LimiterAction
  | acquire (rules : List RateRule) (userId keyId : Option Int) (model : String)
  | drop (index : Nat)

def limiterStep (s : ConcurrencyLimiter) : LimiterAction → Option ConcurrencyLimiter
  | .acquire rules userId keyId model =>
    match s.counts.applyConcurrencyLimits rules userId keyId model with
    | (.ok guard, counts) => some { counts, guards := s.guards ++ [guard] }
    | (.error _, counts) => some { s with counts }
  | .drop index => s.guards[index]?.map fun guard =>
    { counts := s.counts.drop guard, guards := s.guards.eraseIdx index }

section Dedup

variable {key other : String} {limit smallest : Int} {entries rules : List (String × Int)}

def KeysSorted (entries : List (String × Int)) : Prop :=
  entries.Pairwise fun left right => left.1.toList < right.1.toList

theorem KeysSorted.nodup (sorted : KeysSorted entries) : (entries.map Prod.fst).Nodup := by
  rw [List.Nodup, pairwise_map]
  refine sorted.imp fun below same => ?_
  rw [same] at below
  exact lt_irrefl _ below

theorem mem_keys_insertMin :
    other ∈ (insertMin key limit entries).map Prod.fst ↔ other = key ∨ other ∈ entries.map Prod.fst := by
  induction entries with
  | nil => simp [insertMin]
  | cons entry rest ih =>
    simp only [insertMin]
    split
    next same =>
      simp [same]
    · split
      · simp
      · simp only [map_cons, mem_cons, ih]
        exact or_left_comm

theorem KeysSorted.insertMin (sorted : KeysSorted entries) : KeysSorted (insertMin key limit entries) := by
  induction entries with
  | nil => exact pairwise_singleton _ _
  | cons entry rest ih =>
    obtain ⟨first, later⟩ := pairwise_cons.mp sorted
    simp only [LlmGateway.insertMin]
    split
    · exact pairwise_cons.mpr ⟨first, later⟩
    next differs =>
      split
      next below =>
        refine pairwise_cons.mpr ⟨?_, sorted⟩
        intro next mem
        rcases mem_cons.mp mem with rfl | behind
        · exact below
        · exact lt_trans below (first next behind)
      next notBelow =>
        refine pairwise_cons.mpr ⟨?_, ih later⟩
        intro next mem
        have known : next.1 = key ∨ next.1 ∈ rest.map Prod.fst :=
          mem_keys_insertMin.mp (mem_map_of_mem mem)
        rcases known with same | behind
        · rw [same]
          exact lt_of_le_of_ne (not_lt.mp notBelow) fun equal => differs (String.toList_inj.mp equal.symm)
        · obtain ⟨old, inside, same⟩ := mem_map.mp behind
          exact same ▸ first old inside

theorem mem_insertMin (sorted : KeysSorted entries) : (other, smallest) ∈ insertMin key limit entries ↔
    if other = key then
      (smallest = limit ∧ ∀ old, (key, old) ∈ entries → limit ≤ old) ∨
        ((key, smallest) ∈ entries ∧ smallest ≤ limit)
    else (other, smallest) ∈ entries := by
  induction entries with
  | nil => by_cases same : other = key <;> simp [insertMin, same]
  | cons entry rest ih =>
    obtain ⟨name, lowest⟩ := entry
    obtain ⟨first, later⟩ := pairwise_cons.mp sorted
    have fresh : ∀ old, (name, old) ∉ rest := fun old mem => lt_irrefl _ (first (name, old) mem)
    simp only [insertMin]
    split
    next same =>
      subst same
      by_cases equal : other = key
      · subst equal
        simp only [mem_cons, Prod.mk.injEq, true_and, fresh, or_false, if_true, forall_eq]
        split <;> omega
      · simp [equal]
    next differs =>
      split
      next below =>
        have absent : ∀ old, (key, old) ∉ rest := by
          intro old mem
          exact lt_asymm below (first _ mem)
        by_cases equal : other = key
        · subst equal
          simp [differs, absent]
        · simp [equal]
      · have step := ih later
        by_cases equal : other = key
        · subst equal
          simp [differs, step]
        · simp [step, equal]

theorem dedupMinLimit_snoc (rule : String × Int) :
    dedupMinLimit (rules ++ [rule]) = insertMin rule.1 rule.2 (dedupMinLimit rules) := by
  simp [dedupMinLimit]

theorem dedupMinLimit_sorted : KeysSorted (dedupMinLimit rules) := by
  induction rules using List.reverseRecOn with
  | nil => exact List.Pairwise.nil
  | append_singleton rules rule ih =>
    rw [dedupMinLimit_snoc]
    exact ih.insertMin

theorem exists_smallest (mem : (key, limit) ∈ rules) : ∃ smallest,
    (key, smallest) ∈ rules ∧ ∀ other, (key, other) ∈ rules → smallest ≤ other := by
  have inside : ∀ value, value ∈ (rules.filter fun rule => rule.1 = key).map Prod.snd ↔ (key, value) ∈ rules := by
    intro value
    simp
  obtain ⟨smallest, least⟩ := isSome_min?_of_mem ((inside limit).mpr mem) |> Option.isSome_iff_exists.mp
  obtain ⟨attained, bound⟩ := List.min?_eq_some_iff.mp least
  exact ⟨smallest, (inside smallest).mp attained, fun other known => bound other ((inside other).mpr known)⟩

theorem mem_dedupMinLimit : (key, smallest) ∈ dedupMinLimit rules ↔
    (key, smallest) ∈ rules ∧ ∀ limit, (key, limit) ∈ rules → smallest ≤ limit := by
  induction rules using List.reverseRecOn generalizing key smallest with
  | nil => simp [dedupMinLimit]
  | append_singleton rules rule ih =>
    obtain ⟨name, limit⟩ := rule
    rw [dedupMinLimit_snoc, mem_insertMin dedupMinLimit_sorted]
    by_cases same : key = name
    · subst same
      simp only [if_true, ih, mem_append, mem_singleton, Prod.mk.injEq, true_and]
      constructor
      · rintro (⟨rfl, below⟩ | ⟨⟨known, least⟩, le⟩)
        · refine ⟨.inr rfl, fun other mem => ?_⟩
          rcases mem with old | rfl
          · obtain ⟨lowest, attained, bound⟩ := exists_smallest old
            exact Int.le_trans (below lowest ⟨attained, bound⟩) (bound other old)
          · exact Int.le_refl _
        · refine ⟨.inl known, fun other mem => ?_⟩
          rcases mem with old | rfl
          · exact least other old
          · exact le
      · rintro ⟨known | rfl, least⟩
        · exact .inr ⟨⟨known, fun other old => least other (.inl old)⟩, least limit (.inr rfl)⟩
        · exact .inl ⟨rfl, fun other old => least other (.inl old.1)⟩
    · simp [same, ih]

end Dedup

namespace Counts

variable {counts after : Counts} {key : String} {keys : List String} {rules : List (String × Int)}
  {guard : ConcurrencyGuard} {result : Except (String × Int) ConcurrencyGuard}

theorem foldl_raise (distinct : keys.Nodup) :
    keys.foldl raise counts key = if key ∈ keys then some (counts.activeIn key + 1) else counts key := by
  induction keys generalizing counts with
  | nil => rfl
  | cons first rest ih =>
    obtain ⟨fresh, distinct⟩ := nodup_cons.mp distinct
    rw [foldl_cons, ih distinct]
    by_cases same : key = first
    · subst same
      simp [fresh, raise]
    · simp [same, raise, activeIn]

theorem foldl_lower (distinct : keys.Nodup) :
    keys.foldl lower counts key = if key ∈ keys then (counts key).map (· - 1) else counts key := by
  induction keys generalizing counts with
  | nil => rfl
  | cons first rest ih =>
    obtain ⟨fresh, distinct⟩ := nodup_cons.mp distinct
    rw [foldl_cons, ih distinct]
    by_cases same : key = first
    · subst same
      simp [fresh, lower]
    · simp [same, lower]

theorem drop_apply (distinct : guard.keys.Nodup) (positive : ∀ key count, counts key = some count → 0 < count) :
    counts.drop guard key =
      if key ∈ guard.keys then ((counts key).map (· - 1)).filter (fun count => decide (0 < count))
        else counts key := by
  have kept : (counts key).filter (fun count => decide (0 < count)) = counts key := by
    cases present : counts key with
    | none => rfl
    | some count => simp [Option.filter, positive key count present]
  unfold drop
  split
  next empty =>
    simp [isEmpty_iff.mp empty]
  · simp only [foldl_lower distinct]
    split
    · rfl
    · exact kept

theorem tryAcquire_cases (counts : Counts) (rules : List (String × Int)) :
    (∃ full ∈ rules, 0 < full.2 ∧ full.2 ≤ counts.activeIn full.1 ∧
      counts.tryAcquire rules = (.error full, counts)) ∨
      (∀ rule ∈ rules, 0 < rule.2 → counts.activeIn rule.1 < rule.2) ∧
        ∃ keys, keys = (rules.filter fun rule => decide (0 < rule.2)).map Prod.fst ∧
          counts.tryAcquire rules = (.ok ⟨keys⟩, keys.foldl raise counts) := by
  unfold tryAcquire
  cases found : rules.find? fun rule => decide (0 < rule.2) && decide (rule.2 ≤ counts.activeIn rule.1) with
  | some full =>
    have passed := List.find?_some found
    simp only [Bool.and_eq_true, decide_eq_true_eq] at passed
    exact .inl ⟨full, mem_of_find?_eq_some found, passed.1, passed.2, rfl⟩
  | none =>
    refine .inr ⟨fun rule mem positive => ?_, _, rfl, rfl⟩
    have failed := List.find?_eq_none.mp found rule mem
    simp only [Bool.and_eq_true, decide_eq_true_eq, not_and] at failed
    exact Int.not_le.mp (failed positive)

end Counts

section Matching

variable {rules : List RateRule} {userId keyId : Option Int} {model key : String} {limit smallest : Int}

theorem mem_matchedRules : (key, limit) ∈ matchedRules rules userId keyId model ↔
    ∃ rule ∈ rules, rule.bucketKey userId keyId model = some key ∧ rule.concurrency = limit := by
  simp [matchedRules]

def sharedLimits (rules : List RateRule) (userId keyId : Option Int) (model key : String) : List Int :=
  (rules.filter fun rule => rule.bucketKey userId keyId model = some key ∧ 0 < rule.concurrency).map
    RateRule.concurrency

theorem mem_sharedLimits : limit ∈ sharedLimits rules userId keyId model key ↔
    0 < limit ∧ (key, limit) ∈ matchedRules rules userId keyId model := by
  simp only [sharedLimits, mem_map, mem_filter, decide_eq_true_eq, mem_matchedRules]
  constructor
  · rintro ⟨rule, ⟨mem, applies, positive⟩, rfl⟩
    exact ⟨positive, rule, mem, applies, rfl⟩
  · rintro ⟨positive, rule, mem, applies, rfl⟩
    exact ⟨rule, ⟨mem, applies, positive⟩, rfl⟩

theorem sharedLimits_le (mem : limit ∈ sharedLimits rules userId keyId model key) : limit ≤ 2147483647 := by
  obtain ⟨rule, -, rfl⟩ := mem_map.mp mem
  exact rule.concurrency_le

theorem mem_limitsFor : (key, smallest) ∈ Counts.limitsFor rules userId keyId model ↔
    (sharedLimits rules userId keyId model key).min? = some smallest := by
  rw [Counts.limitsFor, mem_dedupMinLimit, List.min?_eq_some_iff]
  simp [mem_sharedLimits, and_comm]

theorem limitsFor_positive (mem : (key, limit) ∈ Counts.limitsFor rules userId keyId model) : 0 < limit :=
  (mem_sharedLimits.mp (List.min?_mem (mem_limitsFor.mp mem))).1

theorem limitsFor_keys_nodup : ((Counts.limitsFor rules userId keyId model).map Prod.fst).Nodup :=
  dedupMinLimit_sorted.nodup

theorem exists_min_sharedLimits : (∃ smallest, (sharedLimits rules userId keyId model key).min? = some smallest) ↔
    ∃ rule ∈ rules, rule.bucketKey userId keyId model = some key ∧ 0 < rule.concurrency := by
  constructor
  · rintro ⟨smallest, least⟩
    obtain ⟨positive, inside⟩ := mem_sharedLimits.mp (List.min?_mem least)
    obtain ⟨rule, mem, applies, rfl⟩ := mem_matchedRules.mp inside
    exact ⟨rule, mem, applies, positive⟩
  · rintro ⟨rule, mem, applies, positive⟩
    have inside := mem_sharedLimits.mpr ⟨positive, mem_matchedRules.mpr ⟨rule, mem, applies, rfl⟩⟩
    exact Option.isSome_iff_exists.mp (isSome_min?_of_mem inside)

theorem Counts.apply_cases (counts : Counts) (rules : List RateRule) (userId keyId : Option Int) (model : String) :
    (∃ key smallest, (sharedLimits rules userId keyId model key).min? = some smallest ∧
        smallest ≤ counts.activeIn key ∧
        counts.applyConcurrencyLimits rules userId keyId model = (.error (key, smallest), counts)) ∨
      ∃ keys : List String, keys.Nodup ∧
        (∀ key, key ∈ keys ↔ ∃ smallest, (sharedLimits rules userId keyId model key).min? = some smallest) ∧
        (∀ key smallest, (sharedLimits rules userId keyId model key).min? = some smallest →
          counts.activeIn key < smallest) ∧
        counts.applyConcurrencyLimits rules userId keyId model = (.ok ⟨keys⟩, keys.foldl raise counts) := by
  have kept : (limitsFor rules userId keyId model).filter (fun rule => decide (0 < rule.2)) =
      limitsFor rules userId keyId model := by
    rw [filter_eq_self]
    exact fun rule mem => decide_eq_true (limitsFor_positive mem)
  rcases tryAcquire_cases counts (limitsFor rules userId keyId model) with
    ⟨⟨key, smallest⟩, mem, -, full, result⟩ | ⟨room, keys, same, result⟩
  · exact .inl ⟨key, smallest, mem_limitsFor.mp mem, full, result⟩
  · rw [kept] at same
    refine .inr ⟨keys, same ▸ limitsFor_keys_nodup, fun key => ?_, fun key smallest least => ?_, result⟩
    · simp [same, Prod.exists, exists_and_right, exists_eq_right, mem_limitsFor]
    · have inside := mem_limitsFor.mpr least
      exact room _ inside (limitsFor_positive inside)

variable {counts after : Counts} {guard : ConcurrencyGuard} {full : String × Int}

theorem Counts.apply_ok_iff :
    (∃ guard after, counts.applyConcurrencyLimits rules userId keyId model = (.ok guard, after)) ↔
      ∀ rule ∈ rules, ∀ key, rule.bucketKey userId keyId model = some key → 0 < rule.concurrency →
        ∃ smallest, (sharedLimits rules userId keyId model key).min? = some smallest ∧
          counts.activeIn key < smallest := by
  rcases counts.apply_cases rules userId keyId model with
    ⟨key, smallest, least, full, result⟩ | ⟨keys, -, -, room, result⟩
  · refine ⟨fun ⟨guard, after, done⟩ => ?_, fun below => ?_⟩
    · rw [result] at done
      cases done
    · obtain ⟨rule, mem, applies, positive⟩ := exists_min_sharedLimits.mp ⟨smallest, least⟩
      obtain ⟨other, same, enough⟩ := below rule mem key applies positive
      rw [least] at same
      cases same
      omega
  · refine ⟨fun _ rule mem key applies positive => ?_, fun _ => ⟨_, _, result⟩⟩
    obtain ⟨smallest, least⟩ := exists_min_sharedLimits.mpr ⟨rule, mem, applies, positive⟩
    exact ⟨smallest, least, room key smallest least⟩

theorem Counts.apply_ok_keys (done : counts.applyConcurrencyLimits rules userId keyId model = (.ok guard, after)) :
    key ∈ guard.keys ↔ ∃ rule ∈ rules, rule.bucketKey userId keyId model = some key ∧ 0 < rule.concurrency := by
  rcases counts.apply_cases rules userId keyId model with ⟨_, _, -, -, result⟩ | ⟨keys, -, held, -, result⟩
  · rw [result] at done
    cases done
  · rw [result] at done
    cases done
    exact (held key).trans exists_min_sharedLimits

theorem Counts.apply_error (done : counts.applyConcurrencyLimits rules userId keyId model = (.error full, after)) :
    after = counts := by
  rcases counts.apply_cases rules userId keyId model with ⟨_, _, -, -, result⟩ | ⟨keys, -, -, -, result⟩
  · rw [result] at done
    cases done
    rfl
  · rw [result] at done
    cases done

end Matching

section Runs

variable {s s' : ConcurrencyLimiter} {a : LimiterAction} {trace : List LimiterAction} {key : String}
  {guards : List ConcurrencyGuard} {guard : ConcurrencyGuard}

def liveIn (guards : List ConcurrencyGuard) (key : String) : Nat := guards.countP fun guard => key ∈ guard.keys

@[simp] theorem liveIn_snoc : liveIn (guards ++ [guard]) key = liveIn guards key + if key ∈ guard.keys then 1
    else 0 := by
  simp [liveIn, countP_append, countP_cons]

theorem liveIn_eraseIdx (key : String) {index : Nat} (present : guards[index]? = some guard) :
    liveIn guards key = liveIn (guards.eraseIdx index) key + if key ∈ guard.keys then 1 else 0 := by
  obtain ⟨bound, rfl⟩ := List.getElem?_eq_some_iff.mp present
  have moved := (getElem_cons_eraseIdx_perm bound).countP_eq fun guard : ConcurrencyGuard =>
    decide (key ∈ guard.keys)
  rw [liveIn, ← moved, countP_cons, liveIn]
  simp

/-- The table says how many live guards hold each bucket, and has no entry for a bucket nobody holds. -/
structure ConcurrencyLimiter.Exact (s : ConcurrencyLimiter) : Prop where
  counted : ∀ key, s.counts key = if liveIn s.guards key = 0 then none else some (liveIn s.guards key : Int)
  distinct : ∀ guard ∈ s.guards, guard.keys.Nodup

theorem ConcurrencyLimiter.Exact.activeIn (exact : s.Exact) (key : String) :
    s.counts.activeIn key = liveIn s.guards key := by
  rw [Counts.activeIn, exact.counted key]
  split <;> simp [*]

theorem ConcurrencyLimiter.Exact.positive (exact : s.Exact) (key : String) (count : Int)
    (present : s.counts key = some count) : 0 < count := by
  rw [exact.counted key] at present
  split at present
  · cases present
  · cases present
    omega

theorem limiterStep_cases (stepped : limiterStep s a = some s') :
    s' = s ∨
    (∃ keys : List String, keys.Nodup ∧ (∀ key ∈ keys, s.counts.activeIn key < 2147483647) ∧
      s' = ⟨keys.foldl Counts.raise s.counts, s.guards ++ [⟨keys⟩]⟩) ∨
    ∃ index guard, s.guards[index]? = some guard ∧ s' = ⟨s.counts.drop guard, s.guards.eraseIdx index⟩ := by
  cases a with
  | acquire rules userId keyId model =>
    simp only [limiterStep] at stepped
    rcases s.counts.apply_cases rules userId keyId model with
      ⟨key, smallest, -, -, result⟩ | ⟨keys, distinct, held, room, result⟩
    · rw [result] at stepped
      exact .inl (Option.some.inj stepped).symm
    · rw [result] at stepped
      refine .inr (.inl ⟨keys, distinct, fun key mem => ?_, (Option.some.inj stepped).symm⟩)
      obtain ⟨smallest, least⟩ := (held key).mp mem
      exact Int.lt_of_lt_of_le (room key smallest least) (sharedLimits_le (List.min?_mem least))
  | drop index =>
    obtain ⟨guard, present, same⟩ := Option.map_eq_some_iff.mp stepped
    exact .inr (.inr ⟨index, guard, present, same.symm⟩)

theorem limiterStep_exact (exact : s.Exact) (stepped : limiterStep s a = some s') : s'.Exact := by
  obtain rfl | ⟨keys, distinct, -, rfl⟩ | ⟨index, guard, present, rfl⟩ := limiterStep_cases stepped
  · exact exact
  · constructor
    · intro key
      simp only [Counts.foldl_raise distinct, liveIn_snoc, exact.activeIn key]
      split
      · simp
      · simpa using exact.counted key
    · intro guard mem
      rcases mem_append.mp mem with old | new
      · exact exact.distinct guard old
      · exact mem_singleton.mp new ▸ distinct
  · have distinct := exact.distinct guard (mem_of_getElem? present)
    refine ⟨fun key => ?_, fun other mem => exact.distinct other (mem_of_mem_eraseIdx mem)⟩
    have removed := liveIn_eraseIdx key present
    simp only
    rw [Counts.drop_apply distinct exact.positive, exact.counted key]
    by_cases held : key ∈ guard.keys
    · simp only [held, if_true] at removed ⊢
      rw [removed, if_neg (by omega)]
      by_cases last : liveIn (s.guards.eraseIdx index) key = 0 <;> simp [last, Option.filter]
    · simp only [held, if_false, Nat.add_zero] at removed ⊢
      rw [removed]

theorem reach_exact (reach : Reach limiterStep Any .new trace s) : s.Exact :=
  reach.invariant ConcurrencyLimiter.Exact ⟨fun _ => rfl, fun _ mem => nomatch mem⟩
    fun _ _ _ exact _ stepped => limiterStep_exact exact stepped

/-- The rules that an acquire brings allow at most `limit` in the bucket, if they count in it at all. -/
def LimiterAction.Within (key : String) (limit : Int) : LimiterAction → Prop
  | .acquire rules userId keyId model =>
    ∀ smallest, (sharedLimits rules userId keyId model key).min? = some smallest → smallest ≤ limit
  | .drop _ => True

/-- However acquires and drops interleave, no more guards than its limit are alive in a bucket. -/
theorem live_le_limit {limit : Int} (nonneg : 0 ≤ limit)
    (reach : Reach limiterStep (fun _ action => action.Within key limit) .new trace s) :
    liveIn s.guards key ≤ limit := by
  induction reach with
  | start => exact nonneg
  | @next _ s a _ earlier within stepped ih =>
    cases a with
    | acquire rules userId keyId model =>
      have active := (reach_exact (reach_of_run earlier.run_eq)).activeIn key
      simp only [limiterStep] at stepped
      rcases s.counts.apply_cases rules userId keyId model with ⟨_, _, -, -, result⟩ | ⟨keys, -, held, room, result⟩
      · rw [result] at stepped
        cases stepped
        exact ih
      · rw [result] at stepped
        cases stepped
        rw [liveIn_snoc]
        split
        next mem =>
          obtain ⟨smallest, least⟩ := (held key).mp mem
          have below := room key smallest least
          have bound := within smallest least
          omega
        next => exact ih
    | drop index =>
      obtain ⟨guard, present, rfl⟩ := Option.map_eq_some_iff.mp stepped
      have removed := liveIn_eraseIdx key present
      simp only
      omega

/-- The specification of the limiter, in terms of its live guards. -/
structure ConcurrencyLimiter.MeetsSpec (s : ConcurrencyLimiter) : Prop where
  counted : ∀ key, s.counts.activeIn key = liveIn s.guards key
  admits : ∀ rules userId keyId model,
    (∃ guard counts, s.counts.applyConcurrencyLimits rules userId keyId model = (.ok guard, counts)) ↔
      ∀ rule ∈ rules, ∀ key, rule.bucketKey userId keyId model = some key → 0 < rule.concurrency →
        ∃ smallest, (sharedLimits rules userId keyId model key).min? = some smallest ∧
          s.counts.activeIn key < smallest
  holds : ∀ rules userId keyId model guard counts,
    s.counts.applyConcurrencyLimits rules userId keyId model = (.ok guard, counts) → ∀ key, key ∈ guard.keys ↔
      ∃ rule ∈ rules, rule.bucketKey userId keyId model = some key ∧ 0 < rule.concurrency
  refused : ∀ rules userId keyId model full counts,
    s.counts.applyConcurrencyLimits rules userId keyId model = (.error full, counts) → counts = s.counts
  positive : ∀ key count, s.counts key = some count → 0 < count

/-- Along every history of acquires and drops the limiter meets its specification. -/
theorem limiter_meets_spec (reach : Reach limiterStep Any .new trace s) : s.MeetsSpec where
  counted := (reach_exact reach).activeIn
  admits _ _ _ _ := Counts.apply_ok_iff
  holds _ _ _ _ _ _ done _ := Counts.apply_ok_keys done
  refused _ _ _ _ _ _ done := Counts.apply_error done
  positive := (reach_exact reach).positive

end Runs

/-- At most two requests of each user, and one at a time with the model `m`. -/
def twoPerUser : List RateRule :=
  [⟨"user", none, none, 2, by decide⟩, ⟨"user", some 7, none, 5, by decide⟩,
    ⟨"global", none, some "m", 1, by decide⟩]

def thirdRefused : List LimiterAction :=
  [.acquire twoPerUser (some 7) none "m", .acquire twoPerUser (some 7) none "n",
    .acquire twoPerUser (some 7) none "n", .drop 0]

theorem third_refused_meets_spec : ∃ s, run limiterStep .new thirdRefused = some s ∧
    s.counts "user:7" = some 1 ∧ s.counts "global|model:m" = none ∧ s.MeetsSpec := by
  have replayed : run limiterStep .new thirdRefused = some _ := rfl
  exact ⟨_, replayed, by decide +kernel, by decide +kernel, limiter_meets_spec (reach_of_run replayed)⟩

theorem third_refused_live : ∃ s, run limiterStep .new thirdRefused = some s ∧
    liveIn s.guards "user:7" ≤ (2 : Int) := by
  have within (model : String) : (LimiterAction.acquire twoPerUser (some 7) none model).Within "user:7" 2 :=
    fun _ least => (List.min?_eq_some_iff.mp least).2 2
      (mem_sharedLimits.mpr ⟨by decide, mem_matchedRules.mpr ⟨_, .head _, rfl, rfl⟩⟩)
  have reach : Reach limiterStep (fun _ action => action.Within "user:7" 2) .new thirdRefused _ :=
    .head (within "m") rfl (.head (within "n") rfl (.head (within "n") rfl (.head trivial rfl .start)))
  exact ⟨_, reach.run_eq, live_le_limit (by decide) reach⟩

end LlmGateway
