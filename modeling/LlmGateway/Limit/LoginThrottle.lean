import LlmGateway.Lib.Text
import LlmGateway.Limit.RateLimiter

namespace LlmGateway

open Machine RateLimiter

structure LoginAttempt where
  time : ℚ
  username : Str
  clientIp : Str
  /-- the answer of the password verification, should the attempt get there -/
  succeeds : Bool

inductive LoginOutcome
  | rateLimited (wait : Option ℚ)
  | failed
  | succeeded

def LoginOutcome.isFailed : LoginOutcome → Bool
  | .failed => true
  | _ => false

def LoginOutcome.isSucceeded : LoginOutcome → Bool
  | .succeeded => true
  | _ => false

def userKey (username : Str) : Str := "login:user:".toList ++ Text.trim username

def ipKey (clientIp : Str) : Str := "login:ip:".toList ++ clientIp

/-- The console's `login` around the verification of the password. -/
def throttledLogin (limiter : RateLimiter) (attempt : LoginAttempt) : LoginOutcome × RateLimiter :=
  match limiter.checkAt attempt.time (userKey attempt.username) 10 10 with
  | (.error wait, limiter) => (.rateLimited wait, limiter)
  | (.ok _, limiter) =>
    match limiter.checkAt attempt.time (ipKey attempt.clientIp) 30 30 with
    | (.error wait, limiter) => (.rateLimited wait, limiter)
    | (.ok _, limiter) =>
      if attempt.succeeds then (.succeeded, (limiter.reset (userKey attempt.username)).reset
        (ipKey attempt.clientIp))
      else (.failed, limiter)

def emptiesTable (limiter : RateLimiter) (attempt : LoginAttempt) : Bool :=
  limiter.overflows attempt.time ||
    match limiter.checkAt attempt.time (userKey attempt.username) 10 10 with
    | (.ok _, later) => later.overflows attempt.time
    | (.error _, _) => false

/-- The limiter with the attempts so far and the time of the last one. -/
structure ThrottleState where
  limiter : RateLimiter
  clock : ℚ
  history : List (LoginAttempt × LoginOutcome)

def ThrottleState.new : ThrottleState where
  limiter := .new
  clock := 0
  history := []

def throttleStep (s : ThrottleState) (attempt : LoginAttempt) : Option ThrottleState :=
  if attempt.time < s.clock then none
  else
    let (outcome, limiter) := throttledLogin s.limiter attempt
    some { limiter, clock := attempt.time, history := s.history ++ [(attempt, outcome)] }

/-- Whoever guesses: the attempts for one username, or those from one address. -/
inductive Guesser
  | user (username : Str)
  | ip (clientIp : Str)

namespace Guesser

def key : Guesser → Str
  | .user username => userKey username
  | .ip clientIp => ipKey clientIp

def perMinute : Guesser → ℚ
  | .user _ => 10
  | .ip _ => 30

def makes (attempt : LoginAttempt) : Guesser → Bool
  | .user username => Text.trim attempt.username == Text.trim username
  | .ip clientIp => attempt.clientIp == clientIp

def level (guesser : Guesser) (limiter : RateLimiter) (now : ℚ) : ℚ :=
  limiter.level guesser.key guesser.perMinute guesser.perMinute now

variable {guesser : Guesser} {limiter after : RateLimiter} {attempt : LoginAttempt} {now : ℚ}

theorem perMinute_pos : 0 < guesser.perMinute := by
  cases guesser <;> norm_num [perMinute]

theorem userKey_ne_ipKey (username clientIp : Str) : userKey username ≠ ipKey clientIp := by
  intro same
  have user : (userKey username)[6]? = some 'u' := rfl
  have ip : (ipKey clientIp)[6]? = some 'i' := rfl
  rw [same, ip] at user
  cases user

theorem userKey_inj {username other : Str} : userKey username = userKey other ↔
    Text.trim username = Text.trim other :=
  ⟨List.append_cancel_left, congrArg ("login:user:".toList ++ ·)⟩

theorem ipKey_inj {clientIp other : Str} : ipKey clientIp = ipKey other ↔ clientIp = other :=
  ⟨List.append_cancel_left, congrArg ("login:ip:".toList ++ ·)⟩

theorem key_user_iff : guesser.key = userKey attempt.username ↔
    guesser.perMinute = 10 ∧ guesser.makes attempt := by
  cases guesser with
  | user username =>
    rw [key, userKey_inj, makes, beq_iff_eq, eq_comm]
    exact (and_iff_right rfl).symm
  | ip clientIp =>
    have rates : (30 : ℚ) ≠ 10 := by norm_num
    exact ⟨fun same => absurd same.symm (userKey_ne_ipKey _ _), fun same => absurd same.1 rates⟩

theorem key_ip_iff : guesser.key = ipKey attempt.clientIp ↔ guesser.perMinute = 30 ∧ guesser.makes attempt := by
  cases guesser with
  | user username =>
    have rates : (10 : ℚ) ≠ 30 := by norm_num
    exact ⟨fun same => absurd same (userKey_ne_ipKey _ _), fun same => absurd same.1 rates⟩
  | ip clientIp =>
    rw [key, ipKey_inj, makes, beq_iff_eq, eq_comm]
    exact (and_iff_right rfl).symm

theorem makes_iff : guesser.makes attempt ↔
    guesser.key = userKey attempt.username ∨ guesser.key = ipKey attempt.clientIp := by
  rw [key_user_iff, key_ip_iff, ← or_and_right]
  refine (and_iff_right ?_).symm
  cases guesser with
  | user => exact .inl rfl
  | ip => exact .inr rfl

theorem level_checkAt (guesser : Guesser) {key : Str} {rpm : ℚ} {result : Except (Option ℚ) Unit}
    (checked : limiter.checkAt now key rpm rpm = (result, after)) (rates : guesser.key = key →
      guesser.perMinute = rpm)
    (solvent : limiter.Solvent) (kept : limiter.overflows now = false) :
    guesser.level after now + (if guesser.key = key ∧ result.isOk then 1 else 0) = guesser.level limiter now := by
  have speed := guesser.perMinute_pos.le
  have fast : guesser.perMinute ≤ 60 * guesser.perMinute := by linarith
  by_cases same : guesser.key = key
  · have rate := rates same
    subst same
    rw [← rate] at checked
    simpa [level] using checkAt_level_self checked solvent kept speed fast
  · simpa [level, same] using checkAt_level_other checked solvent kept speed fast same

end Guesser

section Attempt

variable {limiter after : RateLimiter} {attempt : LoginAttempt} {outcome : LoginOutcome} {guesser : Guesser}

theorem throttledLogin_cases (login : throttledLogin limiter attempt = (outcome, after)) :
    ∃ byUser middle, limiter.checkAt attempt.time (userKey attempt.username) 10 10 = (byUser, middle) ∧
      (byUser.isOk = false ∧ outcome.isFailed = false ∧ outcome.isSucceeded = false ∧ after = middle ∨
        byUser.isOk ∧ ∃ byIp later, middle.checkAt attempt.time (ipKey attempt.clientIp) 30 30 = (byIp, later) ∧
          (byIp.isOk = false ∧ outcome.isFailed = false ∧ outcome.isSucceeded = false ∧ after = later ∨
            byIp.isOk ∧ (outcome = .failed ∧ after = later ∨
              outcome = .succeeded ∧
                after = (later.reset (userKey attempt.username)).reset (ipKey attempt.clientIp)))) := by
  unfold throttledLogin at login
  split at login
  next wait middle checked =>
    obtain ⟨rfl, rfl⟩ := Prod.mk.inj login
    exact ⟨_, _, checked, .inl ⟨rfl, rfl, rfl, rfl⟩⟩
  next passed middle checked =>
    refine ⟨_, _, checked, .inr ⟨rfl, ?_⟩⟩
    split at login
    next wait later checkedIp =>
      obtain ⟨rfl, rfl⟩ := Prod.mk.inj login
      exact ⟨_, _, checkedIp, .inl ⟨rfl, rfl, rfl, rfl⟩⟩
    next passedIp later checkedIp =>
      refine ⟨_, _, checkedIp, .inr ⟨rfl, ?_⟩⟩
      split at login
      · obtain ⟨rfl, rfl⟩ := Prod.mk.inj login
        exact .inr ⟨rfl, rfl⟩
      · obtain ⟨rfl, rfl⟩ := Prod.mk.inj login
        exact .inl ⟨rfl, rfl⟩

theorem throttledLogin_solvent (solvent : limiter.Solvent)
    (login : throttledLogin limiter attempt = (outcome, after)) :
    after.Solvent := by
  obtain ⟨byUser, middle, checked, ⟨-, -, -, rfl⟩ | ⟨-, byIp, later, checkedIp, last⟩⟩ := throttledLogin_cases login
  · exact checkAt_solvent checked solvent (by norm_num) (by norm_num)
  · have between : middle.Solvent := checkAt_solvent checked solvent (by norm_num) (by norm_num)
    have final : later.Solvent := checkAt_solvent checkedIp between (by norm_num) (by norm_num)
    rcases last with ⟨-, -, -, rfl⟩ | ⟨-, ⟨-, rfl⟩ | ⟨-, rfl⟩⟩
    · exact final
    · exact final
    · exact (final.retain _).retain _

theorem Guesser.spends (solvent : limiter.Solvent) (kept : emptiesTable limiter attempt = false)
    (login : throttledLogin limiter attempt = (outcome, after))
    (outside : (guesser.makes attempt && outcome.isSucceeded) = false) :
    (if guesser.makes attempt && outcome.isFailed then 1 else 0) + guesser.level after attempt.time ≤
      guesser.level limiter attempt.time := by
  obtain ⟨keptFirst, keptSecond⟩ := Bool.or_eq_false_iff.mp kept
  obtain ⟨byUser, middle, checked, rest⟩ := throttledLogin_cases login
  have first := guesser.level_checkAt checked (fun same => (key_user_iff.mp same).1) solvent keptFirst
  have between : middle.Solvent := checkAt_solvent checked solvent (by norm_num) (by norm_num)
  rcases rest with ⟨refused, unfailed, -, rfl⟩ | ⟨passed, byIp, later, checkedIp, last⟩
  · rw [unfailed, Bool.and_false]
    simp only [refused, Bool.false_eq_true, and_false, if_false] at first ⊢
    linarith
  have keptMiddle : middle.overflows attempt.time = false := by
    cases byUser with
    | error wait => cases passed
    | ok _ => simpa [checked] using keptSecond
  have second := guesser.level_checkAt checkedIp (fun same => (key_ip_iff.mp same).1) between keptMiddle
  have firstCost : guesser.level middle attempt.time ≤ guesser.level limiter attempt.time := by
    rw [← first]
    split <;> linarith
  rcases last with ⟨refused, unfailed, -, rfl⟩ | ⟨passedIp, ⟨rfl, rfl⟩ | ⟨rfl, rfl⟩⟩
  · rw [unfailed, Bool.and_false]
    simp only [refused, Bool.false_eq_true, and_false, if_false] at second ⊢
    linarith
  · -- a guess of the guesser has paid in one of the two checks
    cases made : guesser.makes attempt with
    | false =>
      have secondCost : guesser.level after attempt.time ≤ guesser.level middle attempt.time := by
        rw [← second]
        split <;> linarith
      simp only [Bool.false_and, Bool.false_eq_true, if_false]
      linarith
    | true =>
      simp only [LoginOutcome.isFailed, Bool.and_self, if_true]
      rcases makes_iff.mp made with user | ip
      · rw [if_pos ⟨user, passed⟩] at first
        have secondCost : guesser.level after attempt.time ≤ guesser.level middle attempt.time := by
          rw [← second]
          split <;> linarith
        linarith
      · rw [if_pos ⟨ip, passedIp⟩] at second
        linarith
  · -- a success of somebody else resets other buckets
    have stranger : ¬(guesser.key = userKey attempt.username ∨ guesser.key = ipKey attempt.clientIp) := by
      rw [← makes_iff]
      simpa [LoginOutcome.isSucceeded] using outside
    obtain ⟨notUser, notIp⟩ := not_or.mp stranger
    rw [if_neg (fun pair => notIp pair.1)] at second
    have same : guesser.level ((later.reset (userKey attempt.username)).reset (ipKey attempt.clientIp))
        attempt.time =
        guesser.level later attempt.time :=
      level_congr ((get_reset_of_ne notIp).trans (get_reset_of_ne notUser))
    simp only [LoginOutcome.isFailed, Bool.and_false, Bool.false_eq_true, if_false]
    linarith

end Attempt


section Runs

variable {guesser : Guesser} {opening closing : ℚ} {s s' : ThrottleState} {attempt : LoginAttempt}
  {trace : List LoginAttempt}

def Guesser.within (guesser : Guesser) (opening closing : ℚ) (attempt : LoginAttempt) : Bool :=
  guesser.makes attempt && decide (opening ≤ attempt.time) && decide (attempt.time ≤ closing)

def failedGuesses (guesser : Guesser) (opening closing : ℚ) (history : List (LoginAttempt × LoginOutcome)) : Nat :=
  history.countP fun entry => guesser.within opening closing entry.1 && entry.2.isFailed

def gotIn (guesser : Guesser) (opening closing : ℚ) (history : List (LoginAttempt × LoginOutcome)) : Bool :=
  history.any fun entry => guesser.within opening closing entry.1 && entry.2.isSucceeded

theorem failedGuesses_snoc {history : List (LoginAttempt × LoginOutcome)} {outcome : LoginOutcome} :
    failedGuesses guesser opening closing (history ++ [(attempt, outcome)]) =
      failedGuesses guesser opening closing history +
        if guesser.within opening closing attempt && outcome.isFailed then 1 else 0 := by
  simp [failedGuesses, List.countP_append, List.countP_cons]

theorem gotIn_snoc {history : List (LoginAttempt × LoginOutcome)} {outcome : LoginOutcome} :
    gotIn guesser opening closing (history ++ [(attempt, outcome)]) =
      (gotIn guesser opening closing history || guesser.within opening closing attempt && outcome.isSucceeded) := by
  simp [gotIn]

theorem Guesser.within_eq_makes (started : opening ≤ attempt.time) (running : attempt.time ≤ closing) :
    guesser.within opening closing attempt = guesser.makes attempt := by
  simp [within, started, running]

theorem Guesser.within_eq_false (out : attempt.time < opening ∨ closing < attempt.time) :
    guesser.within opening closing attempt = false := by
  rcases out with early | late
  · simp [within, not_le.mpr early]
  · simp [within, not_le.mpr late]

theorem throttleStep_eq_some (stepped : throttleStep s attempt = some s') :
    s.clock ≤ attempt.time ∧ s' =
      { limiter := (throttledLogin s.limiter attempt).2
        clock := attempt.time
        history := s.history ++ [(attempt, (throttledLogin s.limiter attempt).1)] } := by
  unfold throttleStep at stepped
  split at stepped
  · cases stepped
  next later =>
    exact ⟨not_lt.mp later, (Option.some.inj stepped).symm⟩

def keepsBucket (guesser : Guesser) (opening closing : ℚ) (s : ThrottleState) (attempt : LoginAttempt) : Prop :=
  opening ≤ attempt.time → attempt.time ≤ closing →
    emptiesTable s.limiter attempt = false ∧
      (guesser.makes attempt && (throttledLogin s.limiter attempt).1.isSucceeded) = false

theorem guesses_metered (guesser : Guesser) (opening closing : ℚ) :
    TokenBucket.Metered throttleStep (keepsBucket guesser opening closing) (fun s => s.limiter.Solvent)
      ThrottleState.clock (fun s => failedGuesses guesser opening closing s.history)
      (fun s => guesser.level s.limiter) (guesser.perMinute / 60) guesser.perMinute opening closing where
  kept solvent stepped := by
    obtain ⟨-, rfl⟩ := throttleStep_eq_some stepped
    exact throttledLogin_solvent solvent rfl
  nonneg solvent now := level_nonneg solvent guesser.perMinute_pos.le guesser.perMinute_pos.le
  le_cap s now := level_le
  grows s := level_grows guesser.perMinute_pos.le
  forward stepped := by
    obtain ⟨later, rfl⟩ := throttleStep_eq_some stepped
    exact later
  outside stepped out := by
    obtain ⟨-, rfl⟩ := throttleStep_eq_some stepped
    simp [failedGuesses_snoc, Guesser.within_eq_false out]
  paid solvent allowed stepped started running := by
    obtain ⟨-, rfl⟩ := throttleStep_eq_some stepped
    obtain ⟨kept, stranger⟩ := allowed started running
    have spent := Guesser.spends solvent kept (Prod.eta _).symm stranger
    rw [failedGuesses_snoc, Guesser.within_eq_makes started running]
    push_cast
    linarith

theorem reach_keepsBucket
    (reach : Reach throttleStep (fun s attempt => opening ≤ attempt.time → attempt.time ≤ closing →
      emptiesTable s.limiter attempt = false) .new trace s)
    (failing : gotIn guesser opening closing s.history = false) :
    Reach throttleStep (keepsBucket guesser opening closing) .new trace s := by
  induction reach with
  | start => exact .start
  | next earlier allowed stepped ih =>
    obtain ⟨-, rfl⟩ := throttleStep_eq_some stepped
    obtain ⟨before, stranger⟩ := Bool.or_eq_false_iff.mp (gotIn_snoc.symm.trans failing)
    refine .next (ih before) (fun started running => ⟨allowed started running, ?_⟩) stepped
    rwa [Guesser.within_eq_makes started running] at stranger

/-- Failed guesses are bounded while the table is not emptied and, for an address, no login from it succeeds. -/
theorem failed_guesses_bounded (order : opening ≤ closing)
    (reach : Reach throttleStep (fun s attempt => opening ≤ attempt.time → attempt.time ≤ closing →
      emptiesTable s.limiter attempt = false) .new trace s) :
    (∀ username, gotIn (.user username) opening closing s.history = false →
      (failedGuesses (.user username) opening closing s.history : ℚ) ≤ 10 + (closing - opening) / 6) ∧
    ∀ clientIp, gotIn (.ip clientIp) opening closing s.history = false →
      (failedGuesses (.ip clientIp) opening closing s.history : ℚ) ≤ 30 + (closing - opening) / 2 := by
  have bound : ∀ guesser : Guesser, gotIn guesser opening closing s.history = false →
      (failedGuesses guesser opening closing s.history : ℚ) ≤
        guesser.perMinute + guesser.perMinute / 60 * (closing - opening) := fun guesser failing =>
    (guesses_metered guesser opening closing).count_le (div_nonneg guesser.perMinute_pos.le (by norm_num)) order
      solvent_new (by simp [ThrottleState.new, failedGuesses]) (reach_keepsBucket reach failing)
  constructor
  · intro username failing
    have total := bound (.user username) failing
    rw [Guesser.perMinute] at total
    linarith
  · intro clientIp failing
    have total := bound (.ip clientIp) failing
    rw [Guesser.perMinute] at total
    linarith

end Runs

def attemptsAt (time : ℚ) (username : String) (succeeds : Bool) (count : Nat) : List LoginAttempt :=
  List.replicate count ⟨time, username.toList, "192.0.2.1".toList, succeeds⟩

/-- The eleventh guess for one name at one moment is refused. -/
theorem guesses_for_one_name :
    ∃ s, run throttleStep .new (attemptsAt 0 "alice" false 11) = some s ∧
      (s.history.getLast?.map fun entry => entry.2.isFailed) = some false ∧
      failedGuesses (.user "alice".toList) 0 0 s.history = 10 ∧
      (failedGuesses (.user "alice".toList) 0 0 s.history : ℚ) ≤ 10 + (0 - 0) / 6 := by
  have computed : (guardedRun throttleStep (fun s attempt => !emptiesTable s.limiter attempt) .new
      (attemptsAt 0 "alice" false 11)).map
      (fun s => (s.history.getLast?.map fun entry => entry.2.isFailed,
        failedGuesses (.user "alice".toList) 0 0 s.history,
        gotIn (.user "alice".toList) 0 0 s.history)) = some (some false, 10, false) := by
    decide +kernel
  obtain ⟨s, ran, seen⟩ := Option.map_eq_some_iff.mp computed
  obtain ⟨last, rest⟩ := Prod.mk.inj seen
  obtain ⟨count, failing⟩ := Prod.mk.inj rest
  have reach : Reach throttleStep (fun s attempt => (0 : ℚ) ≤ attempt.time → attempt.time ≤ 0 →
      emptiesTable s.limiter attempt = false) .new (attemptsAt 0 "alice" false 11) s :=
    reach_of_guardedRun _ (fun s attempt kept _ _ => by simpa using kept) ran
  exact ⟨s, reach.run_eq, last, count, (failed_guesses_bounded le_rfl reach).1 _ failing⟩

def guessesAroundLogin : List LoginAttempt :=
  attemptsAt 0 "mallory" false 1 ++ attemptsAt 0 "mallory" true 1 ++ attemptsAt 0 "alice" false 10 ++
    attemptsAt 0 "bob" false 10 ++ attemptsAt 0 "carol" false 10

/-- The login resets the bucket of its address, so 31 guesses at one moment are verified. -/
theorem login_resets_address :
    ∃ s, run throttleStep .new guessesAroundLogin = some s ∧
      30 + (0 - 0) / 2 < (failedGuesses (.ip "192.0.2.1".toList) 0 0 s.history : ℚ) := by
  have computed : (run throttleStep .new guessesAroundLogin).map
      (fun s => failedGuesses (.ip "192.0.2.1".toList) 0 0 s.history) = some 31 := by
    decide +kernel
  obtain ⟨s, ran, count⟩ := Option.map_eq_some_iff.mp computed
  refine ⟨s, ran, ?_⟩
  rw [count]
  norm_num

end LlmGateway
