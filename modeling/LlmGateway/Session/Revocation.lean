import LlmGateway.Session.Model

namespace LlmGateway

open Machine Function Option SessionState TxPhase

namespace TxPhase

def checkedIn : TxPhase → Option Nat
  | .spent _ checkedIn | .waitsUser _ checkedIn | .locked _ checkedIn _ => some checkedIn
  | _ => none

def tv : TxPhase → Option Nat
  | .locked _ _ tv => some tv
  | _ => none

theorem owns_user_of_tv {phase : TxPhase} {tv : Nat} (found : phase.tv = some tv) : phase.owns .user := by
  cases phase <;> simp_all [TxPhase.tv, owns]

theorem owns_token_of_checkedIn {phase : TxPhase} {checkedIn : Nat} (found : phase.checkedIn = some checkedIn) :
    ∃ id, phase.owns (.token id) := by
  cases phase <;> simp_all [TxPhase.checkedIn, owns]

/-- What a transaction may rely on in the state it is in. -/
structure Sound (s : SessionState) (phase : TxPhase) : Prop where
  held : ∀ id, phase.owns (.token id) → s.unrevoked id
  covered : ∀ todo done, phase.lists = some (todo, done) → ∀ id, s.unrevoked id → id ∈ todo ∨ id ∈ done
  checked : ∀ checkedIn, phase.checkedIn = some checkedIn → checkedIn = s.logouts
  version : ∀ tv, phase.tv = some tv → tv = s.tokenVersion

end TxPhase

def LoginPhase.tv : LoginPhase → Option Nat
  | .read tv _ | .verified tv _ _ | .touched tv _ => some tv
  | _ => none

/-- Live refresh tokens and access tokens of the current version go back to checks after the last forced logout. -/
structure SessionsFresh (s : SessionState) : Prop where
  agree : s.LocksAgree
  bounded : ∀ id, s.unrevoked id → id < s.nextToken
  fresh : ∀ id row, s.tokens id = some row → row.revoked = false → row.checkedIn = s.logouts
  txs : ∀ t, (s.txs t).Sound s
  reads : ∀ l tv, (s.logins l).tv = some tv → tv ≤ s.tokenVersion
  access : ∀ a ∈ s.accessTokens, a.tv ≤ s.tokenVersion ∧ (a.tv = s.tokenVersion → a.checkedIn = s.logouts)

def SessionState.revocationRuns (s : SessionState) : Bool :=
  match s.locks .user with
  | some t => (s.txs t).lists.isSome
  | none => false

def insertsFresh (s : SessionState) : SessionAction → Bool
  | .insertToken l => match s.logins l with
    | .touched _ checkedIn => checkedIn == s.logouts && !s.revocationRuns
    | _ => true
  | _ => true

section
variable {refreshTtl : Nat} {s s' : SessionState} {a : SessionAction} {t id tv checkedIn l : Nat}
  {phase : TxPhase} {login : LoginPhase} {ids : List Nat} {trace : List SessionAction} {done todo : List Nat}

theorem SessionState.unrevoked_iff : s.unrevoked id ↔ ∃ row, s.tokens id = some row ∧ row.revoked = false := by
  simp [unrevoked, any_eq_true]

theorem SessionState.unrevoked_issue :
    (s.issue refreshTtl tv checkedIn).unrevoked id = (decide (id = s.nextToken) || s.unrevoked id) := by
  by_cases new : id = s.nextToken
  · simp [unrevoked, issue, new]
  · simp [unrevoked, issue, new]

theorem SessionState.unrevoked_revoke : (s.revoke ids).unrevoked id = (s.unrevoked id && decide (id ∉ ids)) := by
  by_cases mem : id ∈ ids
  · cases found : s.tokens id <;> simp [unrevoked, revoke, mem, found]
  · simp [unrevoked, revoke, mem]

theorem SessionsFresh.setLogin (inv : SessionsFresh s) (known : ∀ tv, login.tv = some tv → tv ≤ s.tokenVersion) :
    SessionsFresh (s.setLogin l login) where
  agree := inv.agree
  bounded := inv.bounded
  fresh := inv.fresh
  txs t := ⟨(inv.txs t).held, (inv.txs t).covered, (inv.txs t).checked, (inv.txs t).version⟩
  reads m tv found := by
    by_cases same : m = l
    · subst m
      simp only [SessionState.setLogin, update_self] at found
      exact known tv found
    · simp only [SessionState.setLogin, update_of_ne same] at found
      exact inv.reads m tv found
  access := inv.access

theorem SessionsFresh.goto {locks : Row → Option Nat} (inv : SessionsFresh s)
    (agree : ({ s with locks }.goto t phase).LocksAgree) (sound : phase.Sound s) :
    SessionsFresh ({ s with locks }.goto t phase) where
  agree := agree
  bounded := inv.bounded
  fresh := inv.fresh
  txs u := by
    have kept : (({ s with locks }.goto t phase).txs u).Sound s := by
      by_cases same : u = t
      · subst u
        simpa [SessionState.goto, update_self] using sound
      · simpa [SessionState.goto, update_of_ne same] using inv.txs u
    exact ⟨kept.held, kept.covered, kept.checked, kept.version⟩
  reads := inv.reads
  access := inv.access

theorem TxPhase.Sound.of_none (unowned : ∀ id, ¬phase.owns (.token id)) (lists : phase.lists = none)
    (unchecked : phase.checkedIn = none) (unread : phase.tv = none) : phase.Sound s where
  held id owned := absurd owned (unowned id)
  covered todo done found := by simp [lists] at found
  checked checkedIn found := by simp [unchecked] at found
  version tv found := by simp [unread] at found

theorem SessionState.sound_finish (others : ∀ u, u ≠ t → (s.txs u).Sound s) (u : Nat) :
    ((s.finish t).txs u).Sound (s.finish t) := by
  by_cases same : u = t
  · subst u
    simp only [finish, update_self]
    exact .of_none (by simp [TxPhase.owns]) rfl rfl rfl
  · have kept := others u same
    simp only [finish, update_of_ne same]
    exact ⟨kept.held, kept.covered, kept.checked, kept.version⟩

theorem TxPhase.Sound.spend {row : TokenRow} (found : s.tokens id = some row) (active : row.revoked = false) :
    (spent id s.logouts).Sound s where
  held x owned := by
    cases Row.token.inj owned
    exact unrevoked_iff.mpr ⟨row, found, active⟩
  covered := nofun
  checked checkedIn same := (Option.some.inj same).symm
  version := nofun

theorem TxPhase.Sound.wait (sound : (spent id checkedIn).Sound s) :
    (waitsUser id checkedIn).Sound s :=
  ⟨sound.held, nofun, sound.checked, nofun⟩

theorem TxPhase.Sound.lock (sound : (waitsUser id checkedIn).Sound s) :
    (locked id checkedIn s.tokenVersion).Sound s where
  held x owned := sound.held x (by simpa [TxPhase.owns] using owned)
  covered := nofun
  checked := sound.checked
  version tv same := (Option.some.inj same).symm

theorem TxPhase.Sound.snapshot (bounded : ∀ id, s.unrevoked id → id < s.nextToken) :
    (revoking ((List.range s.nextToken).filter s.unrevoked) []).Sound s where
  held x owned := by simp [TxPhase.owns] at owned
  covered todo done same x live := by
    cases Option.some.inj same
    exact .inl (List.mem_filter.mpr ⟨List.mem_range.mpr (bounded x live), live⟩)
  checked := nofun
  version := nofun

theorem TxPhase.Sound.waitRow (sound : (revoking todo done).Sound s) :
    (waitsRow id todo done).Sound s :=
  ⟨sound.held, sound.covered, nofun, nofun⟩

theorem TxPhase.Sound.of_waitsRow (sound : (s.txs t).Sound s)
    (was : s.txs t = .revoking todo done ∨ s.txs t = .waitsRow id todo done) :
    (revoking todo done).Sound s := by
  rcases was with was | was
  · rwa [was] at sound
  · rw [was] at sound
    exact ⟨sound.held, sound.covered, nofun, nofun⟩

theorem TxPhase.Sound.revokeRow (sound : (revoking todo done).Sound s) (live : s.unrevoked id) :
    (revoking (todo.filter (· ≠ id)) (id :: done)).Sound s where
  held x owned := by
    simp only [TxPhase.owns, reduceCtorEq, Row.token.injEq, false_or, List.mem_cons, exists_eq_right'] at owned
    rcases owned with rfl | old
    · exact live
    · exact sound.held x (by simpa [TxPhase.owns] using old)
  covered todo' done' same x unrevoked := by
    cases Option.some.inj same
    by_cases here : x = id
    · simp [here]
    · simpa [here] using sound.covered todo done rfl x unrevoked
  checked := nofun
  version := nofun

theorem TxPhase.Sound.passRow (sound : (revoking todo done).Sound s) (dead : s.unrevoked id = false) :
    (revoking (todo.filter (· ≠ id)) done).Sound s where
  held := sound.held
  covered todo' done' same x unrevoked := by
    cases Option.some.inj same
    have here : x ≠ id := by
      rintro rfl
      simp [dead] at unrevoked
    simpa [here] using sound.covered todo done rfl x unrevoked
  checked := nofun
  version := nofun

theorem TxPhase.Sound.issue (sound : phase.Sound s) (idle : phase.lists = none) :
    phase.Sound (s.issue refreshTtl tv checkedIn) where
  held x owned := by simp [unrevoked_issue, sound.held x owned]
  covered todo done found := by simp [idle] at found
  checked := sound.checked
  version := sound.version

theorem SessionState.tokens_issue {row : TokenRow}
    (found : (s.issue refreshTtl tv checkedIn).tokens id = some row) :
    row.checkedIn = checkedIn ∨ s.tokens id = some row := by
  by_cases new : id = s.nextToken
  · subst new
    simp only [issue, update_self, Option.some.injEq] at found
    exact .inl (by rw [← found])
  · exact .inr (by simpa [issue, new] using found)

theorem SessionState.bounded_issue (bounded : ∀ id, s.unrevoked id → id < s.nextToken)
    (live : (s.issue refreshTtl tv checkedIn).unrevoked id) :
    id < (s.issue refreshTtl tv checkedIn).nextToken := by
  simp only [unrevoked_issue, Bool.or_eq_true, decide_eq_true_eq] at live
  rcases live with new | old
  · subst new
    exact Nat.lt_succ_self _
  · exact Nat.lt_succ_of_lt (bounded id old)

theorem SessionState.access_issue
    (access : ∀ a ∈ s.accessTokens, a.tv ≤ s.tokenVersion ∧ (a.tv = s.tokenVersion → a.checkedIn = s.logouts))
    (known : tv ≤ s.tokenVersion) (current : checkedIn = s.logouts) :
    ∀ a ∈ (s.issue refreshTtl tv checkedIn).accessTokens,
      a.tv ≤ s.tokenVersion ∧ (a.tv = s.tokenVersion → a.checkedIn = s.logouts) := by
  intro a mem
  rcases List.mem_append.mp mem with old | new
  · exact access a old
  · rw [List.mem_singleton.mp new]
    exact ⟨known, fun _ => current⟩

theorem SessionsFresh.lists_eq_none (inv : SessionsFresh s) (quiet : s.revocationRuns = false) :
    (s.txs t).lists = none := by
  refine eq_none_iff_forall_ne_some.mpr fun lists found => ?_
  have holder := (inv.agree .user t).mpr (owns_user_of_lists found)
  simp [revocationRuns, holder, found] at quiet

theorem SessionsFresh.insertToken (inv : SessionsFresh s) (touched : s.logins l = .touched tv checkedIn)
    (current : checkedIn = s.logouts) (quiet : s.revocationRuns = false) :
    SessionsFresh ((s.issue refreshTtl tv checkedIn).setLogin l .ended) := by
  have known : tv ≤ s.tokenVersion := inv.reads l tv (by rw [touched]; rfl)
  have issued : SessionsFresh (s.issue refreshTtl tv checkedIn) :=
    { agree := inv.agree
      bounded := fun _ => bounded_issue inv.bounded
      fresh := fun x row found live =>
        (tokens_issue found).elim (·.trans current) fun old => inv.fresh x row old live
      txs := fun u => (inv.txs u).issue (inv.lists_eq_none quiet)
      reads := inv.reads
      access := access_issue inv.access known current }
  exact issued.setLogin nofun

/-- A refresh owns the user row until its commit, so no forced logout is at work, and its token is nobody else's. -/
theorem SessionsFresh.commitRefresh (inv : SessionsFresh s) (locked : s.txs t = .locked id checkedIn tv) :
    SessionsFresh (((s.revoke [id]).issue refreshTtl tv checkedIn).finish t) := by
  have sound := inv.txs t
  have ownsUser : (s.txs t).owns .user := by rw [locked]; exact .inl rfl
  have ownsToken : (s.txs t).owns (.token id) := by rw [locked]; exact .inr rfl
  have current : checkedIn = s.logouts := sound.checked checkedIn (by rw [locked]; rfl)
  have version : tv = s.tokenVersion := sound.version tv (by rw [locked]; rfl)
  have access : ∀ a ∈ ((s.revoke [id]).issue refreshTtl tv checkedIn).accessTokens,
      a.tv ≤ s.tokenVersion ∧ (a.tv = s.tokenVersion → a.checkedIn = s.logouts) :=
    access_issue (s := s.revoke [id]) inv.access (Nat.le_of_eq version) current
  refine ⟨inv.agree.finish, ?_, ?_, ?_, inv.reads, access⟩
  · intro x live
    have issued : ((s.revoke [id]).issue refreshTtl tv checkedIn).unrevoked x := live
    refine bounded_issue (fun y old => ?_) issued
    rw [unrevoked_revoke, Bool.and_eq_true] at old
    exact inv.bounded y old.1
  · intro x row found live
    have issued : ((s.revoke [id]).issue refreshTtl tv checkedIn).tokens x = some row := found
    rcases tokens_issue issued with new | old
    · exact new.trans current
    · simp only [revoke] at old
      split at old
      · obtain ⟨before, -, rfl⟩ := map_eq_some_iff.mp old
        cases live
      · exact inv.fresh x row old live
  · refine sound_finish fun u different => ?_
    have other := inv.txs u
    have idle : (s.txs u).lists = none := by
      refine eq_none_iff_forall_ne_some.mpr fun lists found => different ?_
      exact inv.agree.owner_eq (owns_user_of_lists found) ownsUser
    have unspent : (s.txs u).Sound (s.revoke [id]) := by
      refine ⟨fun x owned => ?_, fun todo done found => by simp [idle] at found, other.checked, other.version⟩
      have alive : x ≠ id := by
        rintro rfl
        exact different (inv.agree.owner_eq owned ownsToken)
      simp [unrevoked_revoke, other.held x owned, alive]
    exact unspent.issue idle

theorem SessionsFresh.commitLogout (inv : SessionsFresh s) (revoking : s.txs t = .revoking [] done) :
    SessionsFresh ({ s.revoke done with
      tokenVersion := s.tokenVersion + 1, logouts := s.logouts + 1 }.finish t) := by
  have ownsUser : (s.txs t).owns .user := by rw [revoking]; exact .inl rfl
  have listed : ∀ x, s.unrevoked x → x ∈ done := fun x live => by
    simpa using (inv.txs t).covered [] done (by rw [revoking]; rfl) x live
  have dead : ∀ x, (s.revoke done).unrevoked x = false := fun x => by
    cases live : s.unrevoked x <;> simp [unrevoked_revoke, live, listed x]
  have unowned : ∀ u, u ≠ t → ∀ x, ¬(s.txs u).owns (.token x) := fun u different x owned => by
    have mine : (s.txs t).owns (.token x) := by
      rw [revoking]
      exact .inr ⟨x, listed x ((inv.txs u).held x owned), rfl⟩
    exact different (inv.agree.owner_eq owned mine)
  refine ⟨inv.agree.finish, fun x live => absurd live (Bool.eq_false_iff.mp (dead x)), fun x row found live => ?_,
    sound_finish fun u different => ?_, fun m tv found => Nat.le_succ_of_le (inv.reads m tv found),
    fun a mem => ?_⟩
  · have unrevoked : (s.revoke done).unrevoked x := unrevoked_iff.mpr ⟨row, found, live⟩
    simp [dead x] at unrevoked
  · refine ⟨fun x owned => absurd owned (unowned u different x),
      fun _ _ _ x live => absurd live (Bool.eq_false_iff.mp (dead x)), fun c found => ?_, fun tv found => ?_⟩
    · obtain ⟨x, owned⟩ := TxPhase.owns_token_of_checkedIn found
      exact absurd owned (unowned u different x)
    · exact absurd (inv.agree.owner_eq (TxPhase.owns_user_of_tv found) ownsUser) different
  · have old := (inv.access a mem).1
    exact ⟨Nat.le_succ_of_le old, fun same => absurd same (Nat.ne_of_lt (Nat.lt_succ_of_le old))⟩

theorem SessionsFresh.move (inv : SessionsFresh s) (allowed : insertsFresh s a)
    (move : SessionMove refreshTtl s a s') : SessionsFresh s' := by
  have agree := inv.agree.move move
  cases move with
  | tick =>
    exact ⟨agree, inv.bounded, inv.fresh,
      fun t => ⟨(inv.txs t).held, (inv.txs t).covered, (inv.txs t).checked, (inv.txs t).version⟩, inv.reads,
      inv.access⟩
  | readUser => exact inv.setLogin fun tv same => Nat.le_of_eq (Option.some.inj same).symm
  | @verifyPassword l tv status read => exact inv.setLogin fun tv same => inv.reads l tv (by rw [read]; exact same)
  | ldapAuthenticate => exact inv.setLogin (by simp [LoginPhase.tv])
  | upsertLdapUser => exact inv.setLogin fun tv same => Nat.le_of_eq (Option.some.inj same).symm
  | loginRefused => exact inv.setLogin (by simp [LoginPhase.tv])
  | @touchLastLogin l tv status checkedIn verified =>
    exact inv.setLogin fun tv same => inv.reads l tv (by rw [verified]; exact same)
  | insertToken touched =>
    simp only [insertsFresh, touched, Bool.and_eq_true, beq_iff_eq, Bool.not_eq_true'] at allowed
    exact inv.insertToken touched allowed.1 allowed.2
  | begin => exact inv.goto agree (.of_none (by simp [TxPhase.owns]) rfl rfl rfl)
  | spend _ found active _ => exact inv.goto agree (.spend found active)
  | waitToken => exact inv.goto agree (.of_none (by simp [TxPhase.owns]) rfl rfl rfl)
  | @lockUser t id checkedIn was _ =>
    have sound := inv.txs t
    rcases was with was | was <;> rw [was] at sound
    · exact inv.goto agree sound.wait.lock
    · exact inv.goto agree sound.lock
  | @waitUser t id checkedIn spent =>
    have sound := inv.txs t
    rw [spent] at sound
    exact inv.goto agree sound.wait
  | commitRefresh locked => exact inv.commitRefresh locked
  | bump | waitBump => exact inv.goto agree (.of_none (by simp [TxPhase.owns]) rfl rfl rfl)
  | snapshotTokens => exact inv.goto agree (.snapshot inv.bounded)
  | @revokeRow t id todo done was _ live => exact inv.goto agree (((inv.txs t).of_waitsRow was).revokeRow live)
  | @passRow t id todo done was dead => exact inv.goto agree (((inv.txs t).of_waitsRow was).passRow dead)
  | @waitRow t id todo done _ revoking _ _ =>
    have sound := inv.txs t
    rw [revoking] at sound
    exact inv.goto agree sound.waitRow
  | commitLogout revoking => exact inv.commitLogout revoking
  | rollback => exact inv.goto agree (.of_none (by simp [TxPhase.owns]) rfl rfl rfl)

theorem sessionsFresh_start : SessionsFresh .start where
  agree _ _ := ⟨nofun, nofun⟩
  bounded := nofun
  fresh := nofun
  txs _ := .of_none (by simp [start, TxPhase.owns]) rfl rfl rfl
  reads := nofun
  access := nofun

/-- If no forced logout commits or reads the rows between the check and the insert of a login, no usable token goes
back to a check before the last forced logout. -/
theorem forced_logout_complete_when_logins_fresh
    (reach : Reach (sessionStep refreshTtl) (fun s a => insertsFresh s a) .start trace s) :
    (∀ id row, s.tokens id = some row → row.revoked = false → s.now < row.expiresAt → row.checkedIn = s.logouts) ∧
      ∀ a ∈ s.accessTokens, a.tv = s.tokenVersion → a.checkedIn = s.logouts := by
  have inv : SessionsFresh s := reach.invariant SessionsFresh sessionsFresh_start
    fun _ _ _ inv allowed stepped => inv.move allowed (sessionMove_of_step stepped)
  exact ⟨fun id row found active _ => inv.fresh id row found active, fun a member => (inv.access a member).2⟩

end

def emptyLogout (t : Nat) : List SessionAction := [.bumpVersion t, .snapshotTokens t, .commitLogout t]

def loginAroundLogout : List SessionAction :=
  [.ldapAuthenticate 0] ++ emptyLogout 0 ++ [.upsertLdapUser 0, .touchLastLogin 0, .insertToken 0]

/-- The login leaves a refresh token that can be exchanged and an access token of the current version. -/
theorem login_escapes_forced_logout :
    ∃ s row, run (sessionStep 60) .start loginAroundLogout = some s ∧ s.tokens 0 = some row ∧
      row.revoked = false ∧ s.now < row.expiresAt ∧ row.checkedIn < s.logouts ∧
      ∃ a ∈ s.accessTokens, a.tv = s.tokenVersion ∧ a.checkedIn < s.logouts :=
  ⟨_, _, rfl, rfl, rfl, by decide, by decide, ⟨1, 0⟩, .head _, rfl, by decide⟩

def loginAfterLogout : List SessionAction :=
  [.readUser 0, .verifyPassword 0, .touchLastLogin 0, .insertToken 0,
    .begin 0, .revokeIfActive 0 0, .findByIdForUpdate 0, .commitRefresh 0,
    .bumpVersion 1, .snapshotTokens 1, .revokeNext 1 1, .commitLogout 1,
    .readUser 1, .verifyPassword 1, .touchLastLogin 1, .insertToken 1]

theorem login_after_logout_is_fresh :
    ∃ s, guardedRun (sessionStep 60) insertsFresh .start loginAfterLogout = some s ∧ s.logouts = 1 ∧
      ∃ row, s.tokens 2 = some row ∧ row.revoked = false ∧ row.checkedIn = s.logouts := by
  have replayed : guardedRun (sessionStep 60) insertsFresh .start loginAfterLogout = some _ := rfl
  refine ⟨_, replayed, rfl, _, rfl, rfl, ?_⟩
  exact (forced_logout_complete_when_logins_fresh
    (reach_of_guardedRun insertsFresh (fun _ _ => id) replayed)).1 2 _ rfl rfl (by decide)

end LlmGateway
