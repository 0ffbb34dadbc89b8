import Mathlib.Logic.Function.Basic

namespace LlmGateway

def fromSecs (secs : Nat) : Nat := secs * 1000000000

structure BreakerConfig where
  failureThreshold : Nat
  openSecs : Nat
  /-- the float comparison of failures over requests with `failure_rate` -/
  rateReached : (failures requests : Nat) → Bool
  minRequests : Nat
  windowSecs : Nat
  successThreshold : Nat

/-- The defaults, with the rate `0.6`. -/
def BreakerConfig.default : BreakerConfig where
  failureThreshold := 4
  openSecs := 30
  rateReached failures requests := decide (3 * requests ≤ 5 * failures)
  minRequests := 10
  windowSecs := 120
  successThreshold := 2

structure ProviderBreaker where
  consecFailures : Nat := 0
  openUntil : Option Nat := none
  /-- the single half-open slot is taken -/
  halfOpenProbeInFlight : Bool := false
  halfOpenSuccesses : Nat := 0
  windowRequests : Nat := 0
  windowFailures : Nat := 0
  windowStart : Option Nat := none

namespace ProviderBreaker

def allow (now : Nat) (pb : ProviderBreaker) : ProviderBreaker × Bool :=
  match pb.openUntil with
  | none => (pb, true)
  | some openUntil =>
    if openUntil ≤ now then
      if pb.halfOpenProbeInFlight then (pb, false) else ({ pb with halfOpenProbeInFlight := true }, true)
    else (pb, false)

def decayWindow (cfg : BreakerConfig) (now : Nat) (pb : ProviderBreaker) : ProviderBreaker :=
  match pb.windowStart with
  | some start =>
    if fromSecs cfg.windowSecs ≤ now - start then
      { pb with windowRequests := 0, windowFailures := 0, windowStart := some now }
    else pb
  | none => { pb with windowStart := some now }

def recordSuccess (cfg : BreakerConfig) (now : Nat) (pb : ProviderBreaker) : ProviderBreaker :=
  let pb := { pb with consecFailures := 0 }
  let pb :=
    if pb.halfOpenProbeInFlight then
      let successes := pb.halfOpenSuccesses + 1
      if cfg.successThreshold ≤ successes then
        { pb with halfOpenProbeInFlight := false, halfOpenSuccesses := 0, openUntil := none }
      else
        { pb with
          halfOpenProbeInFlight := false
          halfOpenSuccesses := successes
          openUntil := some (now + fromSecs cfg.openSecs) }
    else { pb with openUntil := none }
  let pb := pb.decayWindow cfg now
  { pb with windowRequests := pb.windowRequests + 1 }

def recordFailure (cfg : BreakerConfig) (now : Nat) (pb : ProviderBreaker) : ProviderBreaker :=
  if pb.halfOpenProbeInFlight then
    { pb with
      halfOpenProbeInFlight := false
      halfOpenSuccesses := 0
      openUntil := some (now + fromSecs cfg.openSecs)
      consecFailures := cfg.failureThreshold }
  else
    let pb := pb.decayWindow cfg now
    let pb := { pb with
      consecFailures := pb.consecFailures + 1
      windowRequests := pb.windowRequests + 1
      windowFailures := pb.windowFailures + 1 }
    let rateOpen := cfg.minRequests ≤ pb.windowRequests ∧ cfg.rateReached pb.windowFailures pb.windowRequests
    if cfg.failureThreshold ≤ pb.consecFailures ∨ rateOpen then
      { pb with
        openUntil := some (now + fromSecs cfg.openSecs)
        consecFailures := 0
        windowRequests := 0
        windowFailures := 0
        windowStart := none }
    else pb

variable {cfg : BreakerConfig} {now : Nat} {pb : ProviderBreaker}

/-- `allow` is about to hand out the half-open slot. -/
def grants (now : Nat) (pb : ProviderBreaker) : Bool :=
  pb.openUntil.any (· ≤ now) && !pb.halfOpenProbeInFlight

@[simp] theorem decayWindow_openUntil : (pb.decayWindow cfg now).openUntil = pb.openUntil := by
  unfold decayWindow
  split
  · split <;> rfl
  · rfl

@[simp] theorem decayWindow_halfOpenProbeInFlight :
    (pb.decayWindow cfg now).halfOpenProbeInFlight = pb.halfOpenProbeInFlight := by
  unfold decayWindow
  split
  · split <;> rfl
  · rfl

@[simp] theorem decayWindow_halfOpenSuccesses :
    (pb.decayWindow cfg now).halfOpenSuccesses = pb.halfOpenSuccesses := by
  unfold decayWindow
  split
  · split <;> rfl
  · rfl

theorem allow_fst : (pb.allow now).1 =
    { pb with halfOpenProbeInFlight := pb.halfOpenProbeInFlight || pb.grants now } := by
  obtain ⟨_, openUntil, slot, _⟩ := pb
  cases openUntil with
  | none => simp [allow, grants]
  | some openUntil => by_cases expired : openUntil ≤ now <;> cases slot <;> simp [allow, grants, expired]

theorem allow_snd : (pb.allow now).2 = (pb.openUntil.isNone || pb.grants now) := by
  obtain ⟨_, openUntil, slot, _⟩ := pb
  cases openUntil with
  | none => simp [allow]
  | some openUntil => by_cases expired : openUntil ≤ now <;> cases slot <;> simp [allow, grants, expired]

@[simp] theorem recordSuccess_halfOpenProbeInFlight : (pb.recordSuccess cfg now).halfOpenProbeInFlight = false := by
  simp only [recordSuccess, decayWindow_halfOpenProbeInFlight]
  split
  · split <;> rfl
  · exact Bool.eq_false_iff.mpr ‹_›

@[simp] theorem recordFailure_halfOpenProbeInFlight : (pb.recordFailure cfg now).halfOpenProbeInFlight = false := by
  simp only [recordFailure]
  split
  · rfl
  · split <;> simpa using ‹¬pb.halfOpenProbeInFlight = true›

theorem recordSuccess_halfOpenSuccesses : (pb.recordSuccess cfg now).halfOpenSuccesses =
    if pb.halfOpenProbeInFlight then
      if cfg.successThreshold ≤ pb.halfOpenSuccesses + 1 then 0 else pb.halfOpenSuccesses + 1
    else pb.halfOpenSuccesses := by
  simp only [recordSuccess, decayWindow_halfOpenSuccesses]
  split
  · split <;> rfl
  · rfl

theorem recordSuccess_openUntil : (pb.recordSuccess cfg now).openUntil =
    if pb.halfOpenProbeInFlight ∧ pb.halfOpenSuccesses + 1 < cfg.successThreshold then
      some (now + fromSecs cfg.openSecs)
    else none := by
  simp only [recordSuccess, decayWindow_openUntil]
  split
  · split <;> simp_all
  · simp_all

theorem recordFailure_halfOpenSuccesses : (pb.recordFailure cfg now).halfOpenSuccesses =
    if pb.halfOpenProbeInFlight then 0 else pb.halfOpenSuccesses := by
  simp only [recordFailure]
  split
  · rfl
  · split <;> simp

theorem recordFailure_openUntil_isSome (before : pb.openUntil.isSome ∨ pb.halfOpenProbeInFlight) :
    (pb.recordFailure cfg now).openUntil.isSome := by
  simp only [recordFailure]
  split
  · rfl
  · split
    · rfl
    · simpa [‹¬pb.halfOpenProbeInFlight = true›] using before

end ProviderBreaker

structure Breaker where
  states : Int → Option ProviderBreaker

namespace Breaker

def new : Breaker := ⟨fun _ => none⟩

/-- The state behind `entry(..).or_default()`. -/
def entry (b : Breaker) (provider : Int) : ProviderBreaker := (b.states provider).getD {}

def put (b : Breaker) (provider : Int) (pb : ProviderBreaker) : Breaker :=
  ⟨Function.update b.states provider (some pb)⟩

def allow (now : Nat) (provider : Int) (b : Breaker) : Breaker × Bool :=
  (b.put provider ((b.entry provider).allow now).1, ((b.entry provider).allow now).2)

def recordSuccess (cfg : BreakerConfig) (now : Nat) (provider : Int) (b : Breaker) : Breaker :=
  match b.states provider with
  | none => b
  | some pb => b.put provider (pb.recordSuccess cfg now)

def recordFailure (cfg : BreakerConfig) (now : Nat) (provider : Int) (b : Breaker) : Breaker :=
  b.put provider ((b.entry provider).recordFailure cfg now)

def probing (b : Breaker) (provider : Int) : Bool := (b.entry provider).halfOpenProbeInFlight

def isOpen (b : Breaker) (provider : Int) : Bool := (b.entry provider).openUntil.isSome

variable {cfg : BreakerConfig} {now : Nat} {b : Breaker} {provider other : Int} {pb : ProviderBreaker}

@[simp] theorem entry_put_self : (b.put provider pb).entry provider = pb := by
  simp [entry, put]

theorem entry_put_of_ne (different : other ≠ provider) : (b.put provider pb).entry other = b.entry other := by
  simp [entry, put, different]

theorem allow_entry : (b.allow now provider).1.entry other =
    if other = provider then ((b.entry other).allow now).1 else b.entry other := by
  split
  · subst other
    exact entry_put_self
  · exact entry_put_of_ne ‹_›

theorem recordSuccess_entry_of_some (found : b.states provider = some pb) :
    (b.recordSuccess cfg now provider).entry provider = (b.entry provider).recordSuccess cfg now := by
  simp [recordSuccess, found, entry, put]

theorem recordSuccess_of_none (missing : b.states provider = none) : b.recordSuccess cfg now provider = b := by
  simp [recordSuccess, missing]

theorem recordSuccess_entry_of_ne (different : other ≠ provider) :
    (b.recordSuccess cfg now provider).entry other = b.entry other := by
  unfold recordSuccess
  split
  · rfl
  · exact entry_put_of_ne different

theorem recordFailure_entry : (b.recordFailure cfg now provider).entry other =
    if other = provider then (b.entry other).recordFailure cfg now else b.entry other := by
  split
  · subst other
    exact entry_put_self
  · exact entry_put_of_ne ‹_›

end Breaker

end LlmGateway
