import LlmGateway.Lib.Machine
import LlmGateway.Breaker.Breaker

namespace LlmGateway

open Machine Breaker Function

/-- Where a request is in `proxy_authed`; `todo` are the candidates still to look at. -/
inductive RequestPhase
  | idle
  | filtering (todo kept supported : List Int)
  | looping (todo : List Int) (check : Bool)
  /-- let through to the provider, before the request body and the key are ready -/
  | preparing (provider : Int) (todo : List Int) (check : Bool)
  /-- waiting for the upstream: the send, a body, the priming of a stream -/
  | sending (provider : Int) (todo : List Int) (check : Bool)
  | responding
  | ended

/-- `letThrough` are the providers that `allow` let the request through to, with nothing recorded yet. -/
structure ProxyRequest where
  phase : RequestPhase
  letThrough : List Int

/-- `holder` says which request took a slot. It and `letThrough` are history; no transition depends on them. -/
structure ProxyState where
  breaker : Breaker
  requests : Nat → ProxyRequest
  holder : Int → Option Nat

inductive RequestAct
  | arrive (supported : List Int)
  | filterNext (now : Nat)
  | filterEnd
  | loopNext (now : Nat)
  | loopEnd
  | prepared
  | buildFailed
  | decryptFailed (now : Nat)
  /-- a send error, a retryable status, an error while priming or reading the body -/
  | failed (now : Nat)
  | succeeded (now : Nat)
  | finish
  | cancel

structure ProxyAction where
  request : Nat
  act : RequestAct

def RequestPhase.Running : RequestPhase → Prop
  | .idle | .ended => False
  | _ => True

namespace ProxyState

def start (breaker : Breaker) : ProxyState := ⟨breaker, fun _ => ⟨.idle, []⟩, fun _ => none⟩

def goto (s : ProxyState) (r : Nat) (phase : RequestPhase) : ProxyState :=
  { s with requests := update s.requests r { s.requests r with phase } }

/-- `allow` on behalf of `r`. -/
def ask (s : ProxyState) (r : Nat) (p : Int) (now : Nat) : ProxyState × Bool :=
  let (breaker, allowed) := s.breaker.allow now p
  let letThrough := if allowed then p :: (s.requests r).letThrough else (s.requests r).letThrough
  ({ breaker
     requests := update s.requests r { s.requests r with letThrough }
     holder := if (s.breaker.entry p).grants now then update s.holder p (some r) else s.holder },
    allowed)

/-- `r` has recorded a result of `p`, with `breaker` as what is left. -/
def recorded (s : ProxyState) (r : Nat) (p : Int) (breaker : Breaker) : ProxyState where
  breaker := breaker
  requests := update s.requests r
    { s.requests r with letThrough := (s.requests r).letThrough.filter (· ≠ p) }
  holder := update s.holder p none

end ProxyState

/-- One step of one request. Several kept candidates are asked for again in the loop; `cancel` drops the future. -/
def proxyStep (cfg : BreakerConfig) (maxAttempts : Nat) (s : ProxyState) (a : ProxyAction) : Option ProxyState :=
  let r := a.request
  match (s.requests r).phase, a.act with
  | .idle, .arrive supported =>
    if supported.isEmpty then none else some (s.goto r (.filtering supported [] supported))
  | .filtering (p :: todo) kept supported, .filterNext now =>
    let (s, allowed) := s.ask r p now
    some (s.goto r (.filtering todo (if allowed then kept ++ [p] else kept) supported))
  | .filtering [] kept supported, .filterEnd =>
    let bypassed := kept.isEmpty
    let candidates := if bypassed then supported else kept
    let check := !bypassed && decide (1 < candidates.length)
    some (s.goto r (.looping (candidates.take (min candidates.length (max maxAttempts 1))) check))
  | .looping (p :: todo) check, .loopNext now =>
    if check then
      let (s, allowed) := s.ask r p now
      some (s.goto r (if allowed then .preparing p todo check else .looping todo check))
    else some (s.goto r (.preparing p todo check))
  | .looping [] _, .loopEnd => some (s.goto r .responding)
  | .preparing p todo check, .prepared => some (s.goto r (.sending p todo check))
  | .preparing .., .buildFailed => some (s.goto r .ended)
  | .preparing p todo check, .decryptFailed now =>
    some ((s.recorded r p (s.breaker.recordFailure cfg now p)).goto r (.looping todo check))
  | .sending p todo check, .failed now =>
    some ((s.recorded r p (s.breaker.recordFailure cfg now p)).goto r (.looping todo check))
  | .sending p _ _, .succeeded now =>
    some ((s.recorded r p (s.breaker.recordSuccess cfg now p)).goto r .responding)
  | .responding, .finish => some (s.goto r .ended)
  | .sending .., .cancel => some (s.goto r .ended)
  | .responding, .cancel => some (s.goto r .ended)
  | _, _ => none

def keepsSlot (s : ProxyState) (a : ProxyAction) : Bool :=
  match (s.requests a.request).phase, a.act with
  | .filtering _ kept _, .filterEnd => kept.all fun p => s.holder p != some a.request || kept == [p]
  | .preparing p _ _, .buildFailed => s.holder p != some a.request
  | .sending p _ _, .cancel => s.holder p != some a.request
  | _, _ => true

/-- A request in this phase will record a result of `p`, or leaves it on an exit that records nothing. -/
def RequestPhase.Holds (p : Int) : RequestPhase → Prop
  | .filtering _ kept _ => p ∈ kept
  | .looping todo check => todo = [p] ∧ check = false
  | .preparing q _ _ | .sending q _ _ => q = p
  | .idle | .responding | .ended => False

/-- Every slot that is taken belongs to a request that was let through. -/
structure SlotsOwned (s : ProxyState) : Prop where
  held : ∀ p, s.breaker.probing p → (s.holder p).isSome
  through : ∀ p r, s.holder p = some r → p ∈ (s.requests r).letThrough

structure SlotsHeld (s : ProxyState) : Prop extends SlotsOwned s where
  holds : ∀ p r, s.holder p = some r → (s.requests r).phase.Holds p

namespace ProxyState

variable {s : ProxyState} {r r' : Nat} {p q : Int} {now : Nat} {phase : RequestPhase} {breaker : Breaker}
  {cfg : BreakerConfig} {maxAttempts : Nat}

@[simp] theorem goto_phase_self : ((s.goto r phase).requests r).phase = phase := by simp [goto]

theorem goto_phase_of_ne (different : r' ≠ r) : (s.goto r phase).requests r' = s.requests r' := by
  simp [goto, different]

@[simp] theorem goto_letThrough : ((s.goto r phase).requests r').letThrough = (s.requests r').letThrough := by
  by_cases same : r' = r
  · subst r'
    simp [goto]
  · rw [goto_phase_of_ne same]

@[simp] theorem ask_phase : ((s.ask r p now).1.requests r').phase = (s.requests r').phase := by
  by_cases same : r' = r
  · subst r'
    simp [ask]
  · simp [ask, same]

theorem ask_letThrough (mem : q ∈ (s.requests r').letThrough) :
    q ∈ ((s.ask r p now).1.requests r').letThrough := by
  by_cases same : r' = r
  · subst r'
    simp only [ask, update_self]
    split
    · exact List.mem_cons_of_mem p mem
    · exact mem
  · simpa [ask, same] using mem

theorem ask_letThrough_self (allowed : (s.ask r p now).2) :
    p ∈ ((s.ask r p now).1.requests r).letThrough := by
  have allowed' : (s.breaker.allow now p).2 := allowed
  simp [ask, allowed']

theorem ask_allowed_of_grants (granted : (s.breaker.entry p).grants now) : (s.ask r p now).2 := by
  simp [ask, allow, ProviderBreaker.allow_snd, granted]

theorem ask_holder (holds : (s.ask r p now).1.holder q = some r') :
    q = p ∧ r' = r ∧ (s.ask r p now).2 ∨ s.holder q = some r' := by
  cases granted : (s.breaker.entry p).grants now with
  | false => exact .inr (by simpa [ask, granted] using holds)
  | true =>
    by_cases same : q = p
    · subst q
      simp only [ask, granted, ↓reduceIte, update_self, Option.some.injEq] at holds
      exact .inl ⟨rfl, holds.symm, ask_allowed_of_grants granted⟩
    · exact .inr (by simpa [ask, granted, same] using holds)

@[simp] theorem recorded_phase : ((s.recorded r p breaker).requests r').phase = (s.requests r').phase := by
  by_cases same : r' = r
  · subst r'
    simp [recorded]
  · simp [recorded, same]

theorem recorded_holder (holds : (s.recorded r p breaker).holder q = some r') : q ≠ p ∧ s.holder q = some r' := by
  by_cases same : q = p
  · subst q
    simp [recorded] at holds
  · exact ⟨same, by simpa [recorded, same] using holds⟩

theorem recorded_letThrough (different : q ≠ p) (mem : q ∈ (s.requests r').letThrough) :
    q ∈ ((s.recorded r p breaker).requests r').letThrough := by
  by_cases same : r' = r
  · subst r'
    simpa [recorded, different] using mem
  · simpa [recorded, same] using mem

end ProxyState

section
variable {s s' : ProxyState} {r : Nat} {p : Int} {now : Nat} {phase : RequestPhase} {breaker : Breaker}
  {cfg : BreakerConfig} {maxAttempts : Nat} {a : ProxyAction} {trace : List ProxyAction}

theorem SlotsOwned.ask (owned : SlotsOwned s) : SlotsOwned (s.ask r p now).1 where
  held q probing := by
    have entry : (s.ask r p now).1.breaker.entry q = _ := allow_entry
    simp only [Breaker.probing, entry] at probing
    by_cases same : q = p
    · subst q
      simp only [↓reduceIte, ProviderBreaker.allow_fst, Bool.or_eq_true] at probing
      rcases probing with before | granted
      · have found := owned.held p before
        simp only [ProxyState.ask]
        split
        · simp
        · exact found
      · simp [ProxyState.ask, granted]
    · simp only [same, ↓reduceIte] at probing
      have found := owned.held q probing
      simp only [ProxyState.ask]
      split
      · simpa [same] using found
      · exact found
  through q r' holds := by
    obtain ⟨rfl, rfl, allowed⟩ | before := ProxyState.ask_holder holds
    · exact ProxyState.ask_letThrough_self allowed
    · exact ProxyState.ask_letThrough (owned.through q r' before)

theorem SlotsOwned.recorded (owned : SlotsOwned s) (freed : breaker.probing p = false)
    (others : ∀ q, q ≠ p → breaker.probing q = s.breaker.probing q) : SlotsOwned (s.recorded r p breaker) where
  held q probing := by
    have probing' : breaker.probing q := probing
    have different : q ≠ p := by
      rintro rfl
      simp [freed] at probing'
    rw [others q different] at probing'
    simpa [ProxyState.recorded, different] using owned.held q probing'
  through q r' holds := by
    obtain ⟨different, before⟩ := ProxyState.recorded_holder holds
    exact ProxyState.recorded_letThrough different (owned.through q r' before)

theorem SlotsOwned.recordFailure (owned : SlotsOwned s) :
    SlotsOwned (s.recorded r p (s.breaker.recordFailure cfg now p)) := by
  refine owned.recorded ?_ fun q different => ?_
  · simp [Breaker.probing, recordFailure_entry]
  · simp [Breaker.probing, recordFailure_entry, different]

theorem SlotsOwned.recordSuccess (owned : SlotsOwned s) :
    SlotsOwned (s.recorded r p (s.breaker.recordSuccess cfg now p)) := by
  refine owned.recorded ?_ fun q different => ?_
  · cases found : s.breaker.states p with
    | none => simp [recordSuccess_of_none found, Breaker.probing, entry, found]
    | some pb => simp [Breaker.probing, recordSuccess_entry_of_some found]
  · simp [Breaker.probing, recordSuccess_entry_of_ne different]

theorem SlotsHeld.goto {t : ProxyState} (before : SlotsHeld s) (owned : SlotsOwned t)
    (phases : ∀ r', (t.requests r').phase = (s.requests r').phase)
    (owners : ∀ q r', t.holder q = some r' → r' = r ∨ s.holder q = some r')
    (mine : ∀ q, t.holder q = some r → phase.Holds q) : SlotsHeld (t.goto r phase) where
  held := owned.held
  through q r' holds := by
    rw [ProxyState.goto_letThrough]
    exact owned.through q r' holds
  holds q r' holds := by
    by_cases same : r' = r
    · subst r'
      rw [ProxyState.goto_phase_self]
      exact mine q holds
    · rw [ProxyState.goto_phase_of_ne same, phases]
      exact before.holds q r' ((owners q r' holds).resolve_left same)

theorem SlotsHeld.goto_same (before : SlotsHeld s) (mine : ∀ q, s.holder q = some r → phase.Holds q) :
    SlotsHeld (s.goto r phase) :=
  before.goto before.toSlotsOwned (fun _ => rfl) (fun _ _ => .inr) mine

theorem SlotsHeld.goto_ask (before : SlotsHeld s)
    (new : (s.ask r p now).2 → phase.Holds p) (mine : ∀ q, s.holder q = some r → phase.Holds q) :
    SlotsHeld ((s.ask r p now).1.goto r phase) := by
  refine before.goto before.toSlotsOwned.ask (fun _ => ProxyState.ask_phase) (fun q r' holds => ?_) fun q holds =>
    ?_
  · exact (ProxyState.ask_holder holds).imp_left (·.2.1)
  · obtain ⟨rfl, -, allowed⟩ | earlier := ProxyState.ask_holder holds
    · exact new allowed
    · exact mine q earlier

theorem SlotsHeld.goto_recorded (before : SlotsHeld s) (owned : SlotsOwned (s.recorded r p breaker))
    (at_ : ∀ q, s.holder q = some r → q = p) : SlotsHeld ((s.recorded r p breaker).goto r phase) := by
  refine before.goto owned (fun _ => ProxyState.recorded_phase) (fun q r' holds => ?_) fun q holds => ?_
  · exact .inr (ProxyState.recorded_holder holds).2
  · obtain ⟨different, earlier⟩ := ProxyState.recorded_holder holds
    exact absurd (at_ q earlier) different

theorem SlotsHeld.step (before : SlotsHeld s) (kept : keepsSlot s a)
    (stepped : proxyStep cfg maxAttempts s a = some s') : SlotsHeld s' := by
  obtain ⟨r, act⟩ := a
  have mine : ∀ q, s.holder q = some r → (s.requests r).phase.Holds q := fun q => before.holds q r
  simp only [proxyStep] at stepped
  simp only [keepsSlot] at kept
  split at stepped
  next supported phase =>
    rw [phase] at mine
    split at stepped <;> cases stepped
    exact before.goto_same fun q holds => (mine q holds).elim
  next p todo chosen supported now phase =>
    rw [phase] at mine
    cases stepped
    refine before.goto_ask (fun allowed => by simp [RequestPhase.Holds, allowed]) fun q holds => ?_
    have mem : q ∈ chosen := mine q holds
    split
    · exact List.mem_append_left _ mem
    · exact mem
  next chosen supported phase =>
    rw [phase] at mine kept
    cases stepped
    refine before.goto_same fun q holds => ?_
    have single : chosen = [q] := by simpa [holds] using List.all_eq_true.mp kept q (mine q holds)
    subst single
    have room : 1 ≤ min 1 (max maxAttempts 1) := by omega
    exact ⟨List.take_of_length_le room, rfl⟩
  next p todo check now phase =>
    rw [phase] at mine
    split at stepped <;> cases stepped
    next checked =>
      refine before.goto_ask (fun allowed => by simp [RequestPhase.Holds, allowed]) fun q holds => ?_
      obtain ⟨-, unchecked⟩ := mine q holds
      simp [checked] at unchecked
    next =>
      refine before.goto_same fun q holds => ?_
      exact (List.cons.inj (mine q holds).1).1
  next phase =>
    rw [phase] at mine
    cases stepped
    exact before.goto_same fun q holds => by simpa using (mine q holds).1
  next p todo check phase =>
    rw [phase] at mine
    cases stepped
    exact before.goto_same mine
  next p todo check phase =>
    rw [phase] at mine kept
    cases stepped
    refine before.goto_same fun q holds => ?_
    cases mine q holds
    simp [holds] at kept
  next p todo check now phase =>
    rw [phase] at mine
    cases stepped
    exact before.goto_recorded before.toSlotsOwned.recordFailure fun q holds => (mine q holds).symm
  next p todo check now phase =>
    rw [phase] at mine
    cases stepped
    exact before.goto_recorded before.toSlotsOwned.recordFailure fun q holds => (mine q holds).symm
  next p todo check now phase =>
    rw [phase] at mine
    cases stepped
    exact before.goto_recorded before.toSlotsOwned.recordSuccess fun q holds => (mine q holds).symm
  next phase =>
    rw [phase] at mine
    cases stepped
    exact before.goto_same mine
  next p todo check phase =>
    rw [phase] at mine kept
    cases stepped
    refine before.goto_same fun q holds => ?_
    cases mine q holds
    simp [holds] at kept
  next phase =>
    rw [phase] at mine
    cases stepped
    exact before.goto_same mine
  next => cases stepped

theorem SlotsHeld.start (free : ∀ p, breaker.probing p = false) : SlotsHeld (.start breaker) where
  held p probing := by simp [ProxyState.start, free] at probing
  through p r holds := nomatch holds
  holds p r holds := nomatch holds

theorem RequestPhase.Holds.running (holds : phase.Holds p) : phase.Running := by
  cases phase <;> first | exact trivial | exact holds

/-- Slots do not leak if a request with one has no other candidate and neither fails to build its body nor is
dropped. -/
theorem slots_do_not_leak (free : ∀ p, breaker.probing p = false)
    (reach : Reach (proxyStep cfg maxAttempts) (fun s a => keepsSlot s a) (.start breaker) trace s) :
    (∀ p, s.breaker.probing p →
      ∃ r, (s.requests r).phase.Running ∧ p ∈ (s.requests r).letThrough) ∧
      ((∀ r, ¬(s.requests r).phase.Running) → ∀ p, s.breaker.probing p = false) := by
  have slots : SlotsHeld s := reach.invariant SlotsHeld (.start free) fun _ _ _ before kept => before.step kept
  have owner : ∀ p, s.breaker.probing p →
      ∃ r, (s.requests r).phase.Running ∧ p ∈ (s.requests r).letThrough := by
    intro p probing
    obtain ⟨r, holds⟩ := Option.isSome_iff_exists.mp (slots.held p probing)
    exact ⟨r, (slots.holds p r holds).running, slots.through p r holds⟩
  refine ⟨owner, fun quiet p => Bool.eq_false_iff.mpr fun probing => ?_⟩
  obtain ⟨r, running, -⟩ := owner p probing
  exact quiet r running

end

def singleProbe : List ProxyAction :=
  [⟨0, .arrive [1]⟩, ⟨0, .filterNext 1⟩, ⟨0, .filterEnd⟩, ⟨0, .loopNext 1⟩, ⟨0, .prepared⟩]

def expiredBreaker : Breaker := new.put 1 { openUntil := some 0 }

theorem single_probe_is_owned :
    ∃ s, guardedRun (proxyStep .default 4) keepsSlot (.start expiredBreaker) singleProbe = some s ∧
      s.breaker.probing 1 ∧ ∃ r, (s.requests r).phase.Running ∧ 1 ∈ (s.requests r).letThrough := by
  have free : ∀ p, expiredBreaker.probing p = false := by
    intro p
    by_cases first : p = 1
    · subst p
      rfl
    · exact congrArg ProviderBreaker.halfOpenProbeInFlight (entry_put_of_ne first)
  refine ⟨_, rfl, rfl, ?_⟩
  have replayed : guardedRun (proxyStep .default 4) keepsSlot (.start expiredBreaker) singleProbe = some _ := rfl
  exact (slots_do_not_leak free (reach_of_guardedRun keepsSlot (fun _ _ => id) replayed)).1 1 rfl

def failOnce (r : Nat) (p : Int) : List ProxyAction :=
  [⟨r, .arrive [p]⟩, ⟨r, .filterNext 0⟩, ⟨r, .filterEnd⟩, ⟨r, .loopNext 0⟩, ⟨r, .prepared⟩, ⟨r, .failed 0⟩,
    ⟨r, .loopEnd⟩, ⟨r, .finish⟩]

def skippedProbe : List ProxyAction :=
  failOnce 0 1 ++ failOnce 1 1 ++ failOnce 2 1 ++ failOnce 3 1 ++
    [⟨4, .arrive [1, 2]⟩, ⟨4, .filterNext (fromSecs 30)⟩, ⟨4, .filterNext (fromSecs 30)⟩, ⟨4, .filterEnd⟩,
      ⟨4, .loopNext (fromSecs 30)⟩, ⟨4, .loopNext (fromSecs 30)⟩, ⟨4, .prepared⟩, ⟨4, .succeeded (fromSecs 31)⟩,
      ⟨4, .finish⟩]

/-- The filter takes the slot, the loop is refused it, and it stays taken with no request running. -/
theorem skipped_probe_leaks_slot :
    ∃ s, run (proxyStep .default 4) (.start .new) skippedProbe = some s ∧ s.breaker.probing 1 ∧
      ∀ r, ¬(s.requests r).phase.Running := by
  refine ⟨_, rfl, rfl, fun r => ?_⟩
  rcases r with _ | _ | _ | _ | _ | r <;> exact id

end LlmGateway
