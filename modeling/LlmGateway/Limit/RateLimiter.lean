import LlmGateway.Lib.TokenBucket

namespace LlmGateway

open TokenBucket Option

/-- Times are seconds and all quantities are exact. -/
structure Bucket where
  tokens : ℚ
  last : ℚ
  rpm : ℚ
  burst : ℚ

/-- The table of the token buckets, each key once. -/
structure RateLimiter where
  buckets : List (List Char × Bucket)
  distinct : (buckets.map Prod.fst).Nodup

def maxBuckets : Nat := 10000

def idleEvictAfter : ℚ := 3600

namespace RateLimiter

def new : RateLimiter := ⟨[], List.nodup_nil⟩

def get (limiter : RateLimiter) (key : List Char) : Option Bucket :=
  (limiter.buckets.find? fun entry => entry.1 == key).map Prod.snd

def retain (limiter : RateLimiter) (keep : List Char × Bucket → Bool) : RateLimiter where
  buckets := limiter.buckets.filter keep
  distinct := limiter.distinct.sublist (List.filter_sublist.map Prod.fst)

def reset (limiter : RateLimiter) (key : List Char) : RateLimiter := limiter.retain fun entry => entry.1 != key

def insert (limiter : RateLimiter) (key : List Char) (bucket : Bucket) : RateLimiter where
  buckets := (key, bucket) :: (limiter.reset key).buckets
  distinct := by
    refine List.nodup_cons.mpr ⟨?_, (limiter.reset key).distinct⟩
    simp [reset, retain]

def active (limiter : RateLimiter) (now : ℚ) : RateLimiter :=
  limiter.retain fun entry => decide (max 0 (now - entry.2.last) < idleEvictAfter)

def overflows (limiter : RateLimiter) (now : ℚ) : Bool :=
  decide (maxBuckets ≤ limiter.buckets.length) && decide (maxBuckets ≤ (limiter.active now).buckets.length)

def makeRoom (limiter : RateLimiter) (now : ℚ) : RateLimiter :=
  if maxBuckets ≤ limiter.buckets.length then
    if maxBuckets ≤ (limiter.active now).buckets.length then .new else limiter.active now
  else limiter

/-- Takes one token, or says how many seconds to wait (`none` for ever). -/
def checkAt (limiter : RateLimiter) (now : ℚ) (key : List Char) (rpm burst : ℚ) :
    Except (Option ℚ) Unit × RateLimiter :=
  let limiter := limiter.makeRoom now
  let bucket := (limiter.get key).getD { tokens := burst, last := now, rpm, burst }
  let bucket := { bucket with rpm, burst }
  let elapsed := max 0 (now - bucket.last)
  let tokens := min (bucket.tokens + elapsed * bucket.rpm / 60) bucket.burst
  if 1 ≤ tokens then (.ok (), limiter.insert key { bucket with last := now, tokens := tokens - 1 })
  else
    (.error (if 0 < rpm then some ((1 - tokens) / (rpm / 60)) else none),
      limiter.insert key { bucket with last := now, tokens })

variable {limiter : RateLimiter} {key other : List Char} {bucket : Bucket} {now rpm burst : ℚ}

theorem get_eq_some_iff : limiter.get key = some bucket ↔ (key, bucket) ∈ limiter.buckets := by
  unfold get
  constructor
  · intro found
    obtain ⟨⟨name, _⟩, first, rfl⟩ := map_eq_some_iff.mp found
    have same := List.find?_some first
    exact eq_of_beq same ▸ List.mem_of_find?_eq_some first
  · intro mem
    obtain ⟨entry, first⟩ : ∃ entry, limiter.buckets.find? (fun entry => entry.1 == key) = some entry :=
      isSome_iff_exists.mp (List.find?_isSome.mpr ⟨_, mem, beq_self_eq_true key⟩)
    have named := List.find?_some first
    have same : entry = (key, bucket) := List.inj_on_of_nodup_map limiter.distinct
      (List.mem_of_find?_eq_some first) mem (eq_of_beq named)
    rw [first, same]
    rfl

theorem get_retain (keep : List Char × Bucket → Bool) :
    (limiter.retain keep).get key = (limiter.get key).filter fun bucket => keep (key, bucket) := by
  ext bucket
  rw [get_eq_some_iff, filter_eq_some_iff, get_eq_some_iff]
  exact List.mem_filter

theorem get_reset_of_ne (differs : other ≠ key) : (limiter.reset key).get other = limiter.get other := by
  rw [reset, get_retain]
  cases limiter.get other <;> simp [Option.filter, differs]

theorem get_insert_self : (limiter.insert key bucket).get key = some bucket := by
  simp [get, insert]

theorem get_insert_of_ne (differs : other ≠ key) : (limiter.insert key bucket).get other = limiter.get other := by
  refine Eq.trans ?_ (get_reset_of_ne differs)
  rw [get, insert, List.find?_cons_of_neg (by simp [differs.symm])]
  rfl

def level (limiter : RateLimiter) (key : List Char) (rpm burst now : ℚ) : ℚ :=
  match limiter.get key with
  | none => burst
  | some bucket => refilled bucket.tokens bucket.last (rpm / 60) burst now

theorem level_congr {after : RateLimiter} (same : after.get key = limiter.get key) :
    after.level key rpm burst now = limiter.level key rpm burst now := by
  rw [level, level, same]

theorem level_le : limiter.level key rpm burst now ≤ burst := by
  unfold level
  split
  · exact le_rfl
  · exact refilled_le

theorem level_grows {earlier later : ℚ} (speed : 0 ≤ rpm) (order : earlier ≤ later) :
    limiter.level key rpm burst later ≤ limiter.level key rpm burst earlier + rpm / 60 * (later - earlier) := by
  have rate : 0 ≤ rpm / 60 := by positivity
  unfold level
  split
  · have gained : 0 ≤ rpm / 60 * (later - earlier) := mul_nonneg rate (sub_nonneg.mpr order)
    linarith
  · exact refilled_grows rate order

def Solvent (limiter : RateLimiter) : Prop := ∀ key bucket, limiter.get key = some bucket → 0 ≤ bucket.tokens

theorem solvent_new : RateLimiter.new.Solvent := fun _ _ found => nomatch found

theorem Solvent.retain (solvent : limiter.Solvent) (keep : List Char × Bucket → Bool) :
    (limiter.retain keep).Solvent := by
  intro key bucket found
  rw [get_retain, filter_eq_some_iff] at found
  exact solvent key bucket found.1

theorem Solvent.makeRoom (solvent : limiter.Solvent) (now : ℚ) : (limiter.makeRoom now).Solvent := by
  unfold RateLimiter.makeRoom
  split
  · split
    · exact solvent_new
    · exact solvent.retain _
  · exact solvent

theorem Solvent.insert (solvent : limiter.Solvent) (held : 0 ≤ bucket.tokens) :
    (limiter.insert key bucket).Solvent := by
  intro other found present
  by_cases same : other = key
  · subst same
    rw [get_insert_self] at present
    cases present
    exact held
  · rw [get_insert_of_ne same] at present
    exact solvent other found present

theorem level_nonneg (solvent : limiter.Solvent) (speed : 0 ≤ rpm) (room : 0 ≤ burst) :
    0 ≤ limiter.level key rpm burst now := by
  unfold level
  split
  · exact room
  next bucket found =>
    exact refilled_nonneg (solvent key bucket found) (by positivity) room

theorem level_makeRoom (solvent : limiter.Solvent) (kept : limiter.overflows now = false) (speed : 0 ≤ rpm)
    (fast : burst ≤ 60 * rpm) : (limiter.makeRoom now).level key rpm burst now =
      limiter.level key rpm burst now := by
  unfold RateLimiter.makeRoom
  split
  next full =>
    rw [overflows, decide_eq_true full, Bool.true_and, decide_eq_false_iff_not] at kept
    rw [if_neg kept, level, level, active, get_retain]
    cases found : limiter.get key with
    | none => rfl
    | some bucket =>
      by_cases recent : max 0 (now - bucket.last) < idleEvictAfter
      · simp [Option.filter, recent]
      · have pause : idleEvictAfter ≤ max 0 (now - bucket.last) := not_lt.mp recent
        simp only [Option.filter, recent, decide_false, Bool.false_eq_true, if_false]
        refine (refilled_full (solvent key bucket found) (by positivity) pause ?_).symm
        rw [idleEvictAfter]
        linarith
  · rfl

theorem checkAt_cases (limiter : RateLimiter) (now : ℚ) (key : List Char) (rpm burst : ℚ) :
    ∃ result bucket, limiter.checkAt now key rpm burst = (result, (limiter.makeRoom now).insert key bucket) ∧
      bucket.last = now ∧
      (result = .ok () ∧ 1 ≤ (limiter.makeRoom now).level key rpm burst now ∧
          bucket.tokens = (limiter.makeRoom now).level key rpm burst now - 1 ∨
        (∃ wait, result = .error wait) ∧ bucket.tokens = (limiter.makeRoom now).level key rpm burst now) := by
  have tokens : ∀ bucket, bucket =
      ((limiter.makeRoom now).get key).getD { tokens := burst, last := now, rpm, burst } →
      min (bucket.tokens + max 0 (now - bucket.last) * rpm / 60) burst =
        (limiter.makeRoom now).level key rpm burst now := by
    rintro bucket rfl
    unfold level
    split
    next none =>
      simp [none]
    next bucket some =>
      rw [some, getD_some, refilled, mul_div_assoc]
  unfold checkAt
  simp only [tokens _ rfl]
  split
  next enough =>
    exact ⟨_, _, rfl, rfl, .inl ⟨rfl, enough, rfl⟩⟩
  · exact ⟨_, _, rfl, rfl, .inr ⟨⟨_, rfl⟩, rfl⟩⟩

section Check

variable {result : Except (Option ℚ) Unit} {after : RateLimiter}
  (checked : limiter.checkAt now key rpm burst = (result, after))

include checked

theorem checkAt_solvent (solvent : limiter.Solvent) (speed : 0 ≤ rpm) (room : 0 ≤ burst) : after.Solvent := by
  obtain ⟨_, bucket, cases, -, spent⟩ := limiter.checkAt_cases now key rpm burst
  obtain ⟨rfl, rfl⟩ := Prod.mk.inj (checked.symm.trans cases)
  have held : 0 ≤ (limiter.makeRoom now).level key rpm burst now := level_nonneg (solvent.makeRoom now) speed room
  refine (solvent.makeRoom now).insert ?_
  rcases spent with ⟨-, enough, tokens⟩ | ⟨-, tokens⟩
  · rw [tokens]
    linarith
  · rw [tokens]
    exact held

theorem checkAt_level_other (solvent : limiter.Solvent) (kept : limiter.overflows now = false) {rpm' burst' : ℚ}
    (speed : 0 ≤ rpm') (fast : burst' ≤ 60 * rpm') (differs : other ≠ key) :
    after.level other rpm' burst' now = limiter.level other rpm' burst' now := by
  obtain ⟨_, bucket, cases, -, -⟩ := limiter.checkAt_cases now key rpm burst
  obtain ⟨rfl, rfl⟩ := Prod.mk.inj (checked.symm.trans cases)
  rw [level_congr (get_insert_of_ne differs), level_makeRoom solvent kept speed fast]

theorem checkAt_level_self (solvent : limiter.Solvent) (kept : limiter.overflows now = false) (speed : 0 ≤ rpm)
    (fast : burst ≤ 60 * rpm) :
    after.level key rpm burst now + (if result.isOk then 1 else 0) = limiter.level key rpm burst now := by
  obtain ⟨_, bucket, cases, last, spent⟩ := limiter.checkAt_cases now key rpm burst
  obtain ⟨rfl, rfl⟩ := Prod.mk.inj (checked.symm.trans cases)
  have room : (limiter.makeRoom now).level key rpm burst now ≤ burst := level_le
  rw [level_makeRoom solvent kept speed fast] at spent room
  rw [level, get_insert_self]
  simp only [last]
  rcases spent with ⟨rfl, -, tokens⟩ | ⟨⟨wait, rfl⟩, tokens⟩
  · rw [refilled_self (by rw [tokens]; linarith), tokens]
    simp [Except.isOk, Except.toBool]
  · rw [refilled_self (by rw [tokens]; exact room), tokens]
    simp [Except.isOk, Except.toBool]

end Check

end RateLimiter

end LlmGateway
