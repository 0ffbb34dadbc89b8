import LlmGateway.Lib.Machine
import LlmGateway.Breaker.Breaker

namespace LlmGateway

open Machine ProviderBreaker

/-- A call of the breaker, on behalf of a request. The breaker itself does not see the request. -/
inductive BreakerCall
  | allow (request : Nat) (provider : Int) (now : Nat)
  | success (request : Nat) (provider : Int) (now : Nat)
  | failure (request : Nat) (provider : Int) (now : Nat)

namespace Breaker

def call (cfg : BreakerConfig) (b : Breaker) : BreakerCall → Breaker
  | .allow _ provider now => (b.allow now provider).1
  | .success _ provider now => b.recordSuccess cfg now provider
  | .failure _ provider now => b.recordFailure cfg now provider

/-- `allow` lets a half-open probe through after an expired window. -/
def grants (p : Int) (b : Breaker) : BreakerCall → Bool
  | .allow _ provider now => provider == p && (b.entry p).grants now
  | _ => false

def closes (cfg : BreakerConfig) (p : Int) (b : Breaker) (c : BreakerCall) : Bool :=
  b.isOpen p && !(b.call cfg c).isOpen p

/-- The probe successes counted towards `success_threshold`. -/
def successes (b : Breaker) (p : Int) : Nat := (b.entry p).halfOpenSuccesses

end Breaker

/-- The breaker and what an observer of one provider knows. -/
structure WatchedBreaker where
  breaker : Breaker
  /-- the requests that were let through as half-open probes -/
  probes : List Nat
  /-- the successes of such requests since the last failure, and so since the last opening -/
  proven : Nat

namespace WatchedBreaker

open Breaker

def new : WatchedBreaker := ⟨.new, [], 0⟩

/-- One call, seen by an observer of the provider `p`. -/
def call (cfg : BreakerConfig) (p : Int) (s : WatchedBreaker) (c : BreakerCall) : WatchedBreaker where
  breaker := s.breaker.call cfg c
  probes := match c with
    | .allow request _ _ => if s.breaker.grants p c then request :: s.probes else s.probes
    | _ => s.probes
  proven := match c with
    | .allow _ _ _ => s.proven
    | .success request provider _ => if provider = p ∧ request ∈ s.probes then s.proven + 1 else s.proven
    | .failure _ provider _ => if provider = p then 0 else s.proven

def step (cfg : BreakerConfig) (p : Int) (s : WatchedBreaker) (c : BreakerCall) : Option WatchedBreaker :=
  some (s.call cfg p c)

/-- While the breaker is open, a success is that of a probe and recorded while the slot is taken, and a failure that
is recorded while the slot is free finds no probe success counted. -/
def Orderly (p : Int) (s : WatchedBreaker) : BreakerCall → Prop
  | .allow _ _ _ => True
  | .success request provider _ => provider = p → s.breaker.isOpen p → s.breaker.probing p ∧ request ∈ s.probes
  | .failure _ provider _ => provider = p → s.breaker.isOpen p → s.breaker.probing p ∨ s.breaker.successes p = 0

instance (p : Int) (s : WatchedBreaker) (c : BreakerCall) : Decidable (Orderly p s c) :=
  match c with
  | .allow _ _ _ => inferInstanceAs (Decidable True)
  | .success request provider _ =>
    inferInstanceAs (Decidable (provider = p → s.breaker.isOpen p → s.breaker.probing p ∧ request ∈ s.probes))
  | .failure _ provider _ =>
    inferInstanceAs (Decidable (provider = p → s.breaker.isOpen p →
      s.breaker.probing p ∨ s.breaker.successes p = 0))

/-- A closed breaker has no count, and that of an open one is not more than the observer's. -/
structure Tracked (p : Int) (s : WatchedBreaker) : Prop where
  closed : s.breaker.isOpen p = false → s.breaker.successes p = 0 ∧ s.breaker.probing p = false
  counted : s.breaker.isOpen p = true → s.breaker.successes p ≤ s.proven

variable {cfg : BreakerConfig} {p : Int} {s : WatchedBreaker} {c : BreakerCall} {request now : Nat}
  {provider : Int}

theorem Tracked.of_entry_eq (tracked : s.Tracked p) {s' : WatchedBreaker}
    (same : s'.breaker.entry p = s.breaker.entry p) (kept : s.proven ≤ s'.proven) : s'.Tracked p where
  closed isClosed := by
    simp only [isOpen, successes, probing, same] at isClosed ⊢
    exact tracked.closed isClosed
  counted stillOpen := by
    simp only [isOpen, successes, same] at stillOpen ⊢
    exact Nat.le_trans (tracked.counted stillOpen) kept

theorem Tracked.allow (tracked : s.Tracked p) : (s.call cfg p (.allow request p now)).Tracked p := by
  have after : (s.call cfg p (.allow request p now)).breaker.entry p = ((s.breaker.entry p).allow now).1 :=
    entry_put_self
  have same : (s.call cfg p (.allow request p now)).breaker.isOpen p = s.breaker.isOpen p := by
    simp [isOpen, after, allow_fst]
  have count : (s.call cfg p (.allow request p now)).breaker.successes p = s.breaker.successes p := by
    simp [successes, after, allow_fst]
  refine ⟨fun isClosed => ?_, fun stillOpen => ?_⟩
  · rw [same] at isClosed
    obtain ⟨zero, free⟩ := tracked.closed isClosed
    have unopened : (s.breaker.entry p).openUntil = none := by simpa [isOpen] using isClosed
    refine ⟨count.trans zero, ?_⟩
    have slot : (s.breaker.entry p).halfOpenProbeInFlight = false := free
    simp [probing, after, allow_fst, slot, ProviderBreaker.grants, unopened]
  · rw [same] at stillOpen
    rw [count]
    exact tracked.counted stillOpen

theorem Tracked.failure (tracked : s.Tracked p) (orderly : Orderly p s (.failure request p now)) :
    (s.call cfg p (.failure request p now)).Tracked p := by
  have after : (s.call cfg p (.failure request p now)).breaker.entry p =
      (s.breaker.entry p).recordFailure cfg now :=
    entry_put_self
  have count : (s.call cfg p (.failure request p now)).breaker.successes p = 0 := by
    rw [successes, after, recordFailure_halfOpenSuccesses]
    split
    · rfl
    next free =>
      -- without a slot the count stays, and it is zero unless the failure is out of order
      cases isOpen : s.breaker.isOpen p with
      | false => exact (tracked.closed isOpen).1
      | true => exact (orderly rfl isOpen).resolve_left free
  refine ⟨fun _ => ⟨count, ?_⟩, fun _ => count ▸ Nat.zero_le _⟩
  simp [probing, after]

theorem proven_success (probe : request ∈ s.probes) :
    (s.call cfg p (.success request p now)).proven = s.proven + 1 :=
  if_pos ⟨rfl, probe⟩

theorem Tracked.success (tracked : s.Tracked p) (orderly : Orderly p s (.success request p now)) :
    (s.call cfg p (.success request p now)).Tracked p := by
  cases found : s.breaker.states p with
  | none =>
    refine tracked.of_entry_eq (congrArg (entry · p) (recordSuccess_of_none found)) ?_
    show s.proven ≤ if p = p ∧ request ∈ s.probes then s.proven + 1 else s.proven
    split <;> omega
  | some pb =>
    have after : (s.call cfg p (.success request p now)).breaker.entry p =
        (s.breaker.entry p).recordSuccess cfg now :=
      recordSuccess_entry_of_some found
    have slot : (s.call cfg p (.success request p now)).breaker.probing p = false := by simp [probing, after]
    cases isOpen : s.breaker.isOpen p with
    | false =>
      obtain ⟨zero, free⟩ := tracked.closed isOpen
      have free' : (s.breaker.entry p).halfOpenProbeInFlight = false := free
      have count : (s.call cfg p (.success request p now)).breaker.successes p = 0 := by
        rw [successes, after, recordSuccess_halfOpenSuccesses, if_neg (by simp [free'])]
        exact zero
      exact ⟨fun _ => ⟨count, slot⟩, fun _ => count ▸ Nat.zero_le _⟩
    | true =>
      obtain ⟨taken, probe⟩ := orderly rfl isOpen
      have taken' : (s.breaker.entry p).halfOpenProbeInFlight = true := taken
      have before : s.breaker.successes p ≤ s.proven := tracked.counted isOpen
      have count : (s.call cfg p (.success request p now)).breaker.successes p =
          if cfg.successThreshold ≤ s.breaker.successes p + 1 then 0 else s.breaker.successes p + 1 := by
        rw [successes, after, recordSuccess_halfOpenSuccesses, if_pos taken']
        rfl
      refine ⟨fun isClosed => ⟨?_, slot⟩, fun _ => ?_⟩
      · rw [Breaker.isOpen, after, recordSuccess_openUntil] at isClosed
        rw [count, if_pos]
        by_contra more
        rw [if_pos ⟨taken', Nat.lt_of_not_le more⟩] at isClosed
        cases isClosed
      · rw [count, proven_success probe]
        split <;> omega

theorem Tracked.step (tracked : s.Tracked p) (orderly : Orderly p s c) : (s.call cfg p c).Tracked p := by
  cases c with
  | allow request provider now =>
    by_cases about : provider = p
    · subst provider
      exact tracked.allow
    · exact tracked.of_entry_eq (entry_put_of_ne (Ne.symm about)) (Nat.le_refl _)
  | success request provider now =>
    by_cases about : provider = p
    · subst provider
      exact tracked.success orderly
    · refine tracked.of_entry_eq (recordSuccess_entry_of_ne (Ne.symm about)) (Nat.le_of_eq ?_)
      exact (if_neg fun held => about held.1).symm
  | failure request provider now =>
    by_cases about : provider = p
    · subst provider
      exact tracked.failure orderly
    · exact tracked.of_entry_eq (entry_put_of_ne (Ne.symm about)) (Nat.le_of_eq (if_neg about).symm)

theorem tracked_of_reach {trace : List BreakerCall} (reach : Reach (step cfg p) (Orderly p) new trace s) :
    s.Tracked p := by
  refine reach.invariant (Tracked p) ⟨fun _ => ⟨rfl, rfl⟩, fun isOpen => by cases isOpen⟩ ?_
  intro s c s' tracked orderly stepped
  cases Option.some.inj stepped
  exact tracked.step orderly

theorem closes_success (closed : s.breaker.closes cfg p c) : ∃ request now, c = .success request p now := by
  obtain ⟨isOpen, isClosed⟩ := Bool.and_eq_true_iff.mp closed
  have changed : (s.breaker.call cfg c).entry p ≠ s.breaker.entry p := fun same => by
    simp [Breaker.isOpen, same] at isOpen isClosed
    simp [isClosed] at isOpen
  cases c with
  | allow request provider now =>
    by_cases about : provider = p
    · subst provider
      have after : (s.breaker.call cfg (.allow request p now)).entry p = ((s.breaker.entry p).allow now).1 :=
        entry_put_self
      rw [Bool.not_eq_true', Breaker.isOpen, after, allow_fst] at isClosed
      rw [Breaker.isOpen, isClosed] at isOpen
      cases isOpen
    · exact absurd (entry_put_of_ne (Ne.symm about)) changed
  | success request provider now =>
    by_cases about : provider = p
    · exact ⟨request, now, by rw [about]⟩
    · exact absurd (recordSuccess_entry_of_ne (Ne.symm about)) changed
  | failure request provider now =>
    by_cases about : provider = p
    · subst provider
      have after : (s.breaker.call cfg (.failure request p now)).entry p =
          (s.breaker.entry p).recordFailure cfg now :=
        entry_put_self
      rw [Bool.not_eq_true', Breaker.isOpen, after, recordFailure_openUntil_isSome (.inl isOpen)] at isClosed
      cases isClosed
    · exact absurd (entry_put_of_ne (Ne.symm about)) changed

/-- An open breaker closes after `success_threshold` successes of probes with no failure since the first of them, as
long as every report that finds it open is in order. -/
theorem closes_only_through_probes {trace : List BreakerCall} (reach : Reach (step cfg p) (Orderly p) new trace s)
    (orderly : Orderly p s c) (closed : s.breaker.closes cfg p c) :
    cfg.successThreshold ≤ (s.call cfg p c).proven := by
  obtain ⟨request, now, rfl⟩ := closes_success closed
  obtain ⟨isOpen, isClosed⟩ := Bool.and_eq_true_iff.mp closed
  obtain ⟨taken, probe⟩ := orderly rfl isOpen
  have counted := (tracked_of_reach reach).counted isOpen
  rw [proven_success probe]
  by_contra more
  cases found : s.breaker.states p with
  | none => simp [Breaker.isOpen, entry, found] at isOpen
  | some pb =>
    have after : (s.breaker.call cfg (.success request p now)).entry p =
        (s.breaker.entry p).recordSuccess cfg now :=
      recordSuccess_entry_of_some found
    have slot : (s.breaker.entry p).halfOpenProbeInFlight = true := taken
    have short : (s.breaker.entry p).halfOpenSuccesses + 1 < cfg.successThreshold := by
      rw [successes] at counted
      omega
    rw [Breaker.isOpen, after, recordSuccess_openUntil, if_pos ⟨slot, short⟩] at isClosed
    cases isClosed

def twoProbes : List BreakerCall :=
  [.failure 0 1 0, .failure 1 1 0, .failure 2 1 0, .failure 3 1 0,
    .allow 4 1 (fromSecs 30), .success 4 1 (fromSecs 31), .allow 5 1 (fromSecs 61)]

theorem two_probes_close : ∃ s, run (step .default 1) new twoProbes = some s ∧
    s.breaker.closes .default 1 (.success 5 1 (fromSecs 62)) ∧
      2 ≤ (s.call .default 1 (.success 5 1 (fromSecs 62))).proven := by
  have reach : Reach (step .default 1) (Orderly 1) new twoProbes _ :=
    reach_of_guardedRun (fun s c => decide (Orderly 1 s c)) (fun _ _ => of_decide_eq_true) rfl
  exact ⟨_, rfl, rfl, closes_only_through_probes reach (by decide) rfl⟩

/-- The run ends with an open breaker that the call closes, though not enough probes have succeeded. -/
def ClosesUnproven (trace : List BreakerCall) (c : BreakerCall) : Prop :=
  ∃ s, run (step .default 1) new trace = some s ∧ s.breaker.closes .default 1 c ∧
    (s.call .default 1 c).proven < BreakerConfig.default.successThreshold

/-- Six requests, of which four fail and open the breaker. -/
def opened : List BreakerCall :=
  [.allow 0 1 0, .allow 1 1 0, .allow 2 1 0, .allow 3 1 0, .allow 4 1 0, .allow 5 1 0,
    .failure 0 1 0, .failure 1 1 0, .failure 2 1 0, .failure 3 1 0]

/-- A late success closes the breaker while no probe is out. It leaves the count of an earlier probe, which then
shortens the next recovery. A late failure does not reset the count, and late successes pass for those of probes. -/
theorem late_reports_close_unproven :
    ClosesUnproven opened (.success 4 1 (fromSecs 1)) ∧
      ClosesUnproven (opened ++ [.allow 6 1 (fromSecs 30), .success 6 1 (fromSecs 31), .success 4 1 (fromSecs 32),
        .failure 7 1 (fromSecs 33), .failure 8 1 (fromSecs 33), .failure 9 1 (fromSecs 33),
        .failure 10 1 (fromSecs 33), .allow 11 1 (fromSecs 63)]) (.success 11 1 (fromSecs 64)) ∧
      ClosesUnproven (opened ++ [.allow 6 1 (fromSecs 30), .success 6 1 (fromSecs 31), .failure 4 1 (fromSecs 32),
        .allow 7 1 (fromSecs 61)]) (.success 7 1 (fromSecs 62)) ∧
      ClosesUnproven (opened ++ [.allow 6 1 (fromSecs 30), .success 4 1 (fromSecs 31), .allow 7 1 (fromSecs 61)])
        (.success 5 1 (fromSecs 62)) :=
  ⟨⟨_, rfl, rfl, by decide⟩, ⟨_, rfl, rfl, by decide⟩, ⟨_, rfl, rfl, by decide⟩, ⟨_, rfl, rfl, by decide⟩⟩

end WatchedBreaker

end LlmGateway
