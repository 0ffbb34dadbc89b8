import LlmGateway.Lib.Machine
import LlmGateway.Lib.Locks

namespace LlmGateway

open Option

/-- The rows of one user that transactions lock. -/
inductive Row
  | user
  | token (id : Nat)
  deriving DecidableEq

/-- A row of `refresh_tokens`. `checkedIn` counts the forced logouts committed at its credential check. -/
structure TokenRow where
  revoked : Bool
  expiresAt : Nat
  checkedIn : Nat

/-- The claim `tv` of an access token, with the time of its credential check. -/
structure AccessToken where
  tv : Nat
  checkedIn : Nat

/-- A login is a chain of autocommit statements. -/
inductive LoginPhase
  | idle
  /-- `find_by_username` has read the row -/
  | read (tv : Nat) (status : Int)
  /-- the directory has accepted the password -/
  | authenticated (checkedIn : Nat)
  | verified (tv : Nat) (status : Int) (checkedIn : Nat)
  | touched (tv : Nat) (checkedIn : Nat)
  | ended

/-- A transaction of `refresh` or of `force_logout`, with what it has read. -/
inductive TxPhase
  | idle
  | begun (since : Nat)
  | waitsToken (since id : Nat)
  /-- `revoke_if_active` has revoked the row -/
  | spent (id checkedIn : Nat)
  | waitsUser (id checkedIn : Nat)
  /-- `find_by_id_for_update` has returned the row -/
  | locked (id checkedIn tv : Nat)
  | waitsBump
  /-- `token_version + 1` is written -/
  | bumped
  /-- the second update: rows of its snapshot still to visit, and rows revoked -/
  | revoking (todo done : List Nat)
  | waitsRow (id : Nat) (todo done : List Nat)
  | ended

namespace TxPhase

def owns : TxPhase → Row → Prop
  | .spent id _, row | .waitsUser id _, row => row = .token id
  | .locked id _ _, row => row = .user ∨ row = .token id
  | .bumped, row => row = .user
  | .revoking _ done, row | .waitsRow _ _ done, row => row = .user ∨ ∃ id ∈ done, row = .token id
  | .idle, _ | .begun _, _ | .waitsToken .., _ | .waitsBump, _ | .ended, _ => False

def waits : TxPhase → Row → Prop
  | .waitsToken _ id, row | .waitsRow id _ _, row => row = .token id
  | .waitsUser .., row | .waitsBump, row => row = .user
  | _, _ => False

def lists : TxPhase → Option (List Nat × List Nat)
  | .revoking todo done | .waitsRow _ todo done => some (todo, done)
  | _ => none

theorem owns_user_of_lists {phase : TxPhase} {lists : List Nat × List Nat} (found : phase.lists = some lists) :
    phase.owns .user := by
  cases phase <;> simp_all [TxPhase.lists, owns]

end TxPhase

/-- One user. `logouts` counts the forced logouts that have committed and
`accessTokens` lists what was ever issued. -/
structure SessionState where
  tokenVersion : Nat
  status : Int
  now : Nat
  tokens : Nat → Option TokenRow
  nextToken : Nat
  locks : Row → Option Nat
  txs : Nat → TxPhase
  logins : Nat → LoginPhase
  logouts : Nat
  accessTokens : List AccessToken

inductive SessionAction
  | tick (elapsed : Nat)
  | readUser (login : Nat)
  | verifyPassword (login : Nat)
  | ldapAuthenticate (login : Nat)
  | upsertLdapUser (login : Nat)
  | touchLastLogin (login : Nat)
  | insertToken (login : Nat)
  | begin (tx : Nat)
  | revokeIfActive (tx id : Nat)
  | findByIdForUpdate (tx : Nat)
  | commitRefresh (tx : Nat)
  | bumpVersion (tx : Nat)
  | snapshotTokens (tx : Nat)
  | revokeNext (tx id : Nat)
  | commitLogout (tx : Nat)
  | abort (tx : Nat)

namespace SessionState

def start : SessionState :=
  ⟨0, 1, 0, fun _ => none, 0, fun _ => none, fun _ => .idle, fun _ => .idle, 0, []⟩

def setLogin (s : SessionState) (l : Nat) (phase : LoginPhase) : SessionState :=
  { s with logins := Function.update s.logins l phase }

def goto (s : SessionState) (t : Nat) (phase : TxPhase) : SessionState :=
  { s with txs := Function.update s.txs t phase }

def lock (s : SessionState) (row : Row) (t : Nat) : SessionState :=
  { s with locks := Locks.take s.locks row t }

def finish (s : SessionState) (t : Nat) : SessionState :=
  { s with locks := Locks.release s.locks t, txs := Function.update s.txs t .ended }

def unrevoked (s : SessionState) (id : Nat) : Bool := (s.tokens id).any (!·.revoked)

def revoke (s : SessionState) (ids : List Nat) : SessionState :=
  { s with tokens := fun id => if id ∈ ids then (s.tokens id).map ({ · with revoked := true }) else s.tokens id }

def issue (s : SessionState) (refreshTtl tv checkedIn : Nat) : SessionState :=
  { s with
    tokens := Function.update s.tokens s.nextToken (some ⟨false, s.now + refreshTtl, checkedIn⟩)
    nextToken := s.nextToken + 1
    accessTokens := s.accessTokens ++ [⟨tv, checkedIn⟩] }

/-- A refresh holds the user row `FOR UPDATE`, which also stops the foreign key check of an insert. -/
def lockedForUpdate (s : SessionState) : Bool :=
  match s.locks .user with
  | some t => (s.txs t matches .locked ..)
  | none => false

/-- `revoke_if_active`, with `blocked` as what happens behind a row lock. -/
def spend (s : SessionState) (t since id : Nat) (blocked : Option SessionState) : Option SessionState :=
  match s.tokens id with
  | none => some (s.finish t)
  | some row =>
    if row.revoked ∨ row.expiresAt ≤ since then some (s.finish t)
    else match s.locks (.token id) with
      | none => some ((s.lock (.token id) t).goto t (.spent id s.logouts))
      | some _ => blocked

/-- `find_by_id_for_update` and the status check behind it. -/
def lockUser (s : SessionState) (t id checkedIn : Nat) (blocked : Option SessionState) : Option SessionState :=
  match s.locks .user with
  | none =>
    if s.status ≠ 1 then some (s.finish t)
    else some ((s.lock .user t).goto t (.locked id checkedIn s.tokenVersion))
  | some _ => blocked

/-- The first update of `force_logout`. -/
def bump (s : SessionState) (t : Nat) (blocked : Option SessionState) : Option SessionState :=
  match s.locks .user with
  | none => some ((s.lock .user t).goto t .bumped)
  | some _ => blocked

def revokeRow (s : SessionState) (t id : Nat) (todo done : List Nat) (blocked : Option SessionState) :
    Option SessionState :=
  match s.locks (.token id) with
  | none =>
    if s.unrevoked id then
      some ((s.lock (.token id) t).goto t (.revoking (todo.filter (· ≠ id)) (id :: done)))
    else some (s.goto t (.revoking (todo.filter (· ≠ id)) done))
  | some _ => blocked

end SessionState

def sessionStep (refreshTtl : Nat) (s : SessionState) : SessionAction → Option SessionState
  | .tick elapsed => some { s with now := s.now + elapsed }
  | .readUser l => match s.logins l with
    | .idle => some (s.setLogin l (.read s.tokenVersion s.status))
    | _ => none
  | .verifyPassword l => match s.logins l with
    | .read tv status => some (s.setLogin l (.verified tv status s.logouts))
    | _ => none
  | .ldapAuthenticate l => match s.logins l with
    | .idle => some (s.setLogin l (.authenticated s.logouts))
    | _ => none
  | .upsertLdapUser l => match s.logins l, s.locks .user with
    | .authenticated checkedIn, none => some (s.setLogin l (.verified s.tokenVersion s.status checkedIn))
    | _, _ => none
  | .touchLastLogin l => match s.logins l with
    | .verified tv status checkedIn =>
      if status ≠ 1 then some (s.setLogin l .ended)
      else if s.locks .user = none then some (s.setLogin l (.touched tv checkedIn))
      else none
    | _ => none
  | .insertToken l => match s.logins l with
    | .touched tv checkedIn =>
      if s.lockedForUpdate then none else some ((s.issue refreshTtl tv checkedIn).setLogin l .ended)
    | _ => none
  | .begin t => match s.txs t with
    | .idle => some (s.goto t (.begun s.now))
    | _ => none
  | .revokeIfActive t id => match s.txs t with
    | .begun since => s.spend t since id (some (s.goto t (.waitsToken since id)))
    | .waitsToken since waited => if waited = id then s.spend t since id none else none
    | _ => none
  | .findByIdForUpdate t => match s.txs t with
    | .spent id checkedIn => s.lockUser t id checkedIn (some (s.goto t (.waitsUser id checkedIn)))
    | .waitsUser id checkedIn => s.lockUser t id checkedIn none
    | _ => none
  | .commitRefresh t => match s.txs t with
    | .locked id checkedIn tv => some (((s.revoke [id]).issue refreshTtl tv checkedIn).finish t)
    | _ => none
  | .bumpVersion t => match s.txs t with
    | .idle => s.bump t (some (s.goto t .waitsBump))
    | .waitsBump => s.bump t none
    | _ => none
  | .snapshotTokens t => match s.txs t with
    | .bumped => some (s.goto t (.revoking ((List.range s.nextToken).filter s.unrevoked) []))
    | _ => none
  | .revokeNext t id => match s.txs t with
    | .revoking todo done =>
      if id ∈ todo then s.revokeRow t id todo done (some (s.goto t (.waitsRow id todo done))) else none
    | .waitsRow waited todo done => if waited = id then s.revokeRow t id todo done none else none
    | _ => none
  | .commitLogout t => match s.txs t with
    | .revoking [] done =>
      some ({ s.revoke done with tokenVersion := s.tokenVersion + 1, logouts := s.logouts + 1 }.finish t)
    | _ => none
  | .abort t => match s.txs t with
    | .idle | .ended => none
    | _ => some (s.finish t)

/-- What each action can do, with what it needs: one constructor for every way
through `sessionStep`. -/
inductive SessionMove (refreshTtl : Nat) (s : SessionState) : SessionAction → SessionState → Prop
  | tick {elapsed} : SessionMove refreshTtl s (.tick elapsed) { s with now := s.now + elapsed }
  | readUser {l} : SessionMove refreshTtl s (.readUser l) (s.setLogin l (.read s.tokenVersion s.status))
  | verifyPassword {l tv status} : s.logins l = .read tv status →
      SessionMove refreshTtl s (.verifyPassword l) (s.setLogin l (.verified tv status s.logouts))
  | ldapAuthenticate {l} : SessionMove refreshTtl s (.ldapAuthenticate l) (s.setLogin l (.authenticated s.logouts))
  | upsertLdapUser {l checkedIn} : s.logins l = .authenticated checkedIn → s.locks .user = none →
      SessionMove refreshTtl s (.upsertLdapUser l) (s.setLogin l (.verified s.tokenVersion s.status checkedIn))
  | loginRefused {l} : SessionMove refreshTtl s (.touchLastLogin l) (s.setLogin l .ended)
  | touchLastLogin {l tv status checkedIn} : s.logins l = .verified tv status checkedIn →
      SessionMove refreshTtl s (.touchLastLogin l) (s.setLogin l (.touched tv checkedIn))
  | insertToken {l tv checkedIn} : s.logins l = .touched tv checkedIn → s.lockedForUpdate = false →
      SessionMove refreshTtl s (.insertToken l) ((s.issue refreshTtl tv checkedIn).setLogin l .ended)
  | begin {t} : s.txs t = .idle → SessionMove refreshTtl s (.begin t) (s.goto t (.begun s.now))
  | spend {t id row} : (∀ r, ¬(s.txs t).owns r) → s.tokens id = some row → row.revoked = false →
      s.locks (.token id) = none →
      SessionMove refreshTtl s (.revokeIfActive t id) ((s.lock (.token id) t).goto t (.spent id s.logouts))
  | waitToken {t since id} : s.txs t = .begun since →
      SessionMove refreshTtl s (.revokeIfActive t id) (s.goto t (.waitsToken since id))
  | lockUser {t id checkedIn} : s.txs t = .spent id checkedIn ∨ s.txs t = .waitsUser id checkedIn →
      s.locks .user = none → SessionMove refreshTtl s (.findByIdForUpdate t)
        ((s.lock .user t).goto t (.locked id checkedIn s.tokenVersion))
  | waitUser {t id checkedIn} : s.txs t = .spent id checkedIn →
      SessionMove refreshTtl s (.findByIdForUpdate t) (s.goto t (.waitsUser id checkedIn))
  | commitRefresh {t id checkedIn tv} : s.txs t = .locked id checkedIn tv →
      SessionMove refreshTtl s (.commitRefresh t) (((s.revoke [id]).issue refreshTtl tv checkedIn).finish t)
  | bump {t} : (∀ r, ¬(s.txs t).owns r) → s.locks .user = none →
      SessionMove refreshTtl s (.bumpVersion t) ((s.lock .user t).goto t .bumped)
  | waitBump {t} : s.txs t = .idle → SessionMove refreshTtl s (.bumpVersion t) (s.goto t .waitsBump)
  | snapshotTokens {t} : s.txs t = .bumped → SessionMove refreshTtl s (.snapshotTokens t)
      (s.goto t (.revoking ((List.range s.nextToken).filter s.unrevoked) []))
  | revokeRow {t id todo done} : s.txs t = .revoking todo done ∨ s.txs t = .waitsRow id todo done →
      s.locks (.token id) = none → s.unrevoked id → SessionMove refreshTtl s (.revokeNext t id)
        ((s.lock (.token id) t).goto t (.revoking (todo.filter (· ≠ id)) (id :: done)))
  | passRow {t id todo done} : s.txs t = .revoking todo done ∨ s.txs t = .waitsRow id todo done →
      s.unrevoked id = false → SessionMove refreshTtl s (.revokeNext t id)
        (s.goto t (.revoking (todo.filter (· ≠ id)) done))
  | waitRow {t id todo done holder} : s.txs t = .revoking todo done → id ∈ todo →
    s.locks (.token id) = some holder →
      SessionMove refreshTtl s (.revokeNext t id) (s.goto t (.waitsRow id todo done))
  | commitLogout {t done} : s.txs t = .revoking [] done → SessionMove refreshTtl s (.commitLogout t)
      ({ s.revoke done with tokenVersion := s.tokenVersion + 1, logouts := s.logouts + 1 }.finish t)
  /-- an error, a refused request, a dropped future or a deadlock victim -/
  | rollback {t a} : SessionMove refreshTtl s a (s.finish t)

section
variable {refreshTtl : Nat} {s s' : SessionState} {a : SessionAction} {t id since checkedIn : Nat}
  {todo done : List Nat} {blocked : Option SessionState} {phase : TxPhase}

theorem SessionState.spend_cases (stepped : s.spend t since id blocked = some s') :
    s' = s.finish t ∨ blocked = some s' ∨
      ∃ row, s.tokens id = some row ∧ row.revoked = false ∧ s.locks (.token id) = none ∧
        s' = (s.lock (.token id) t).goto t (.spent id s.logouts) := by
  unfold spend at stepped
  split at stepped
  next => exact .inl (some.inj stepped).symm
  next row found =>
    split at stepped
    next => exact .inl (some.inj stepped).symm
    next active =>
      rw [not_or, Bool.not_eq_true] at active
      split at stepped
      next free => exact .inr (.inr ⟨row, found, active.1, free, (some.inj stepped).symm⟩)
      next => exact .inr (.inl stepped)

theorem SessionState.lockUser_cases (stepped : s.lockUser t id checkedIn blocked = some s') :
    s' = s.finish t ∨ blocked = some s' ∨
      s.locks .user = none ∧ s' = (s.lock .user t).goto t (.locked id checkedIn s.tokenVersion) := by
  unfold lockUser at stepped
  split at stepped
  next free =>
    split at stepped
    next => exact .inl (some.inj stepped).symm
    next => exact .inr (.inr ⟨free, (some.inj stepped).symm⟩)
  next => exact .inr (.inl stepped)

theorem SessionState.bump_cases (stepped : s.bump t blocked = some s') :
    blocked = some s' ∨ s.locks .user = none ∧ s' = (s.lock .user t).goto t .bumped := by
  unfold bump at stepped
  split at stepped
  next free => exact .inr ⟨free, (some.inj stepped).symm⟩
  next => exact .inl stepped

theorem SessionState.revokeRow_cases (stepped : s.revokeRow t id todo done blocked = some s') :
    blocked = some s' ∧ (∃ holder, s.locks (.token id) = some holder) ∨
      s.locks (.token id) = none ∧ s.unrevoked id ∧
        s' = (s.lock (.token id) t).goto t (.revoking (todo.filter (· ≠ id)) (id :: done)) ∨
      s.unrevoked id = false ∧ s' = s.goto t (.revoking (todo.filter (· ≠ id)) done) := by
  unfold revokeRow at stepped
  split at stepped
  next free =>
    split at stepped
    next live => exact .inr (.inl ⟨free, live, (some.inj stepped).symm⟩)
    next dead => exact .inr (.inr ⟨Bool.eq_false_iff.mpr dead, (some.inj stepped).symm⟩)
  next holder held => exact .inl ⟨stepped, holder, held⟩

theorem sessionMove_of_step (stepped : sessionStep refreshTtl s a = some s') : SessionMove refreshTtl s a s' := by
  cases a <;> simp only [sessionStep] at stepped
  case tick elapsed =>
    cases some.inj stepped
    exact .tick
  case readUser l =>
    split at stepped <;> cases stepped
    exact .readUser
  case verifyPassword l =>
    split at stepped <;> cases stepped
    exact .verifyPassword ‹_›
  case ldapAuthenticate l =>
    split at stepped <;> cases stepped
    exact .ldapAuthenticate
  case upsertLdapUser l =>
    split at stepped <;> cases stepped
    exact .upsertLdapUser ‹_› ‹_›
  case touchLastLogin l =>
    split at stepped
    next verified =>
      split at stepped
      · cases stepped
        exact .loginRefused
      · split at stepped <;> cases stepped
        exact .touchLastLogin verified
    next => cases stepped
  case insertToken l =>
    split at stepped
    next touched =>
      split at stepped <;> cases stepped
      exact .insertToken touched (Bool.eq_false_iff.mpr ‹_›)
    next => cases stepped
  case begin t =>
    split at stepped <;> cases stepped
    exact .begin ‹_›
  case revokeIfActive t id =>
    split at stepped
    next begun =>
      obtain rfl | waits | ⟨row, found, active, free, rfl⟩ := SessionState.spend_cases stepped
      · exact .rollback
      · cases waits
        exact .waitToken begun
      · exact .spend (by simp [begun, TxPhase.owns]) found active free
    next waited waits =>
      split at stepped
      · subst waited
        obtain rfl | still | ⟨row, found, active, free, rfl⟩ := SessionState.spend_cases stepped
        · exact .rollback
        · cases still
        · exact .spend (by simp [waits, TxPhase.owns]) found active free
      · cases stepped
    next => cases stepped
  case findByIdForUpdate t =>
    split at stepped
    next spent =>
      obtain rfl | waits | ⟨free, rfl⟩ := SessionState.lockUser_cases stepped
      · exact .rollback
      · cases waits
        exact .waitUser spent
      · exact .lockUser (.inl spent) free
    next waits =>
      obtain rfl | still | ⟨free, rfl⟩ := SessionState.lockUser_cases stepped
      · exact .rollback
      · cases still
      · exact .lockUser (.inr waits) free
    next => cases stepped
  case commitRefresh t =>
    split at stepped <;> cases stepped
    exact .commitRefresh ‹_›
  case bumpVersion t =>
    split at stepped
    next idle =>
      obtain waits | ⟨free, rfl⟩ := SessionState.bump_cases stepped
      · cases waits
        exact .waitBump idle
      · exact .bump (by simp [idle, TxPhase.owns]) free
    next waits =>
      obtain still | ⟨free, rfl⟩ := SessionState.bump_cases stepped
      · cases still
      · exact .bump (by simp [waits, TxPhase.owns]) free
    next => cases stepped
  case snapshotTokens t =>
    split at stepped <;> cases stepped
    exact .snapshotTokens ‹_›
  case revokeNext t id =>
    split at stepped
    next revoking =>
      split at stepped
      next mem =>
        obtain ⟨waits, holder, held⟩ | ⟨free, live, rfl⟩ | ⟨dead, rfl⟩ := SessionState.revokeRow_cases stepped
        · cases waits
          exact .waitRow revoking mem held
        · exact .revokeRow (.inl revoking) free live
        · exact .passRow (.inl revoking) dead
      next => cases stepped
    next waited _ _ waits =>
      split at stepped
      · subst waited
        obtain ⟨still, -⟩ | ⟨free, live, rfl⟩ | ⟨dead, rfl⟩ := SessionState.revokeRow_cases stepped
        · cases still
        · exact .revokeRow (.inr waits) free live
        · exact .passRow (.inr waits) dead
      · cases stepped
    next => cases stepped
  case commitLogout t =>
    split at stepped <;> cases stepped
    exact .commitLogout ‹_›
  case abort t =>
    split at stepped <;> cases stepped
    exact .rollback

def SessionState.LocksAgree (s : SessionState) : Prop := Locks.Agree s.locks fun t => (s.txs t).owns

theorem SessionState.owns_update_of_ne (u : Nat) (different : u ≠ t) (row : Row) :
    (Function.update s.txs t phase u).owns row ↔ (s.txs u).owns row := by
  rw [Function.update_of_ne different]

theorem SessionState.LocksAgree.goto (agree : s.LocksAgree) (mine : ∀ row, phase.owns row ↔ (s.txs t).owns row) :
    (s.goto t phase).LocksAgree :=
  Locks.Agree.keep agree owns_update_of_ne (by simpa [SessionState.goto] using mine)

theorem SessionState.LocksAgree.lock {row : Row} (agree : s.LocksAgree) (free : s.locks row = none)
    (mine : ∀ other, phase.owns other ↔ other = row ∨ (s.txs t).owns other) :
    ((s.lock row t).goto t phase).LocksAgree :=
  Locks.Agree.take agree owns_update_of_ne free (by simpa [SessionState.goto, SessionState.lock] using mine)

theorem SessionState.LocksAgree.lock_first {row : Row} (agree : s.LocksAgree) (free : s.locks row = none)
    (unowned : ∀ r, ¬(s.txs t).owns r) (mine : ∀ other, phase.owns other ↔ other = row) :
    ((s.lock row t).goto t phase).LocksAgree :=
  agree.lock free fun other => by rw [mine other, or_iff_left (unowned other)]

theorem SessionState.LocksAgree.finish (agree : s.LocksAgree) : (s.finish t).LocksAgree :=
  Locks.Agree.release agree owns_update_of_ne (by simp [TxPhase.owns])

theorem SessionState.LocksAgree.move (agree : s.LocksAgree) (move : SessionMove refreshTtl s a s') :
    s'.LocksAgree := by
  cases move with
  | tick | readUser | verifyPassword | ldapAuthenticate | upsertLdapUser | loginRefused | touchLastLogin
  | insertToken => exact agree
  | begin idle => exact agree.goto (by simp [idle, TxPhase.owns])
  | spend unowned _ _ free => exact agree.lock_first free unowned fun _ => Iff.rfl
  | waitToken begun => exact agree.goto (by simp [begun, TxPhase.owns])
  | lockUser was free => exact agree.lock free (by rcases was with was | was <;> simp [was, TxPhase.owns])
  | waitUser spent => exact agree.goto (by simp [spent, TxPhase.owns])
  | commitRefresh | commitLogout | rollback => exact agree.finish
  | bump unowned free => exact agree.lock_first free unowned fun _ => Iff.rfl
  | waitBump idle => exact agree.goto (by simp [idle, TxPhase.owns])
  | snapshotTokens bumped => exact agree.goto (by simp [bumped, TxPhase.owns])
  | revokeRow was free =>
    refine agree.lock free fun other => ?_
    rcases was with was | was <;> simp [was, TxPhase.owns, or_left_comm]
  | passRow was => exact agree.goto (by rcases was with was | was <;> simp [was, TxPhase.owns])
  | waitRow revoking => exact agree.goto (by simp [revoking, TxPhase.owns])

end

end LlmGateway
