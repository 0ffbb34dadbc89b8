import LlmGateway.Session.Model

namespace LlmGateway

open Machine Function TxPhase

def SessionState.WaitsFor (s : SessionState) : Nat → Nat → Prop :=
  Locks.WaitsFor s.locks fun t => (s.txs t).waits

def avoidsLockedRows (s : SessionState) : SessionAction → Bool
  | .snapshotTokens _ => (List.range s.nextToken).all fun id => !s.unrevoked id || (s.locks (.token id)).isNone
  | .revokeIfActive _ id => match s.locks .user with
    | some t => match (s.txs t).lists with
      | some (todo, _) => !todo.contains id
      | none => true
    | none => true
  | _ => true

/-- The rows a forced logout has still to visit are not locked, so it never waits for one. -/
structure RowsFree (s : SessionState) : Prop where
  agree : s.LocksAgree
  free : ∀ t todo done, (s.txs t).lists = some (todo, done) → ∀ id ∈ todo, s.locks (.token id) = none
  unblocked : ∀ t id todo done, s.txs t ≠ .waitsRow id todo done

section
variable {refreshTtl : Nat} {s s' : SessionState} {a : SessionAction} {t u : Nat} {phase : TxPhase} {row : Row}
  {trace : List SessionAction}

theorem RowsFree.goto (inv : RowsFree s) (agree : s'.LocksAgree) (moved : s'.txs = Function.update s.txs t phase)
    (unblocked : ∀ id todo done, phase ≠ .waitsRow id todo done)
    (mine : ∀ todo done, phase.lists = some (todo, done) → ∀ id ∈ todo, s'.locks (.token id) = none)
    (others : ∀ u, u ≠ t → ∀ todo done, (s.txs u).lists = some (todo, done) →
      ∀ id ∈ todo, s'.locks (.token id) = none) : RowsFree s' := by
  refine ⟨agree, fun u todo done found => ?_, fun u id todo done => ?_⟩
  · by_cases same : u = t
    · subst u
      rw [moved, update_self] at found
      exact mine todo done found
    · rw [moved, update_of_ne same] at found
      exact others u same todo done found
  · by_cases same : u = t
    · subst u
      rw [moved, update_self]
      exact unblocked id todo done
    · rw [moved, update_of_ne same]
      exact inv.unblocked u id todo done

theorem RowsFree.advance (inv : RowsFree s) (agree : (s.goto t phase).LocksAgree) (idle : phase.lists = none) :
    RowsFree (s.goto t phase) := by
  refine inv.goto agree rfl ?_ (fun todo done found => by simp [idle] at found) fun u _ => inv.free u
  rintro id todo done rfl
  simp [lists] at idle

theorem RowsFree.lockUser (inv : RowsFree s) (agree : ((s.lock .user t).goto t phase).LocksAgree)
    (idle : phase.lists = none) : RowsFree ((s.lock .user t).goto t phase) := by
  refine inv.goto agree rfl ?_ (fun todo done found => by simp [idle] at found) fun u _ todo done found id mem => ?_
  · rintro id todo done rfl
    simp [lists] at idle
  · simpa [SessionState.goto, SessionState.lock, Locks.take] using inv.free u todo done found id mem

theorem RowsFree.lockToken {id : Nat} (inv : RowsFree s) (agree : ((s.lock (.token id) t).goto t phase).LocksAgree)
    (unblocked : ∀ id todo done, phase ≠ .waitsRow id todo done)
    (mine : ∀ todo done, phase.lists = some (todo, done) → ∀ x ∈ todo, x ≠ id ∧ s.locks (.token x) = none)
    (others : ∀ u, u ≠ t → ∀ todo done, (s.txs u).lists = some (todo, done) → id ∉ todo) :
    RowsFree ((s.lock (.token id) t).goto t phase) := by
  have elsewhere : ∀ x, x ≠ id → s.locks (.token x) = none →
      ((s.lock (.token id) t).goto t phase).locks (.token x) = none := by
    intro x different free
    simpa [SessionState.goto, SessionState.lock, Locks.take, different] using free
  refine inv.goto agree rfl unblocked (fun todo done found x mem => ?_) fun u same todo done found x mem => ?_
  · obtain ⟨different, free⟩ := mine todo done found x mem
    exact elsewhere x different free
  · have different : x ≠ id := by
      rintro rfl
      exact others u same todo done found mem
    exact elsewhere x different (inv.free u todo done found x mem)

theorem RowsFree.finish (inv : RowsFree s) (agree : s'.LocksAgree) (moved : s'.txs = Function.update s.txs t .ended)
    (locks : s'.locks = Locks.release s.locks t) : RowsFree s' := by
  refine inv.goto agree moved nofun nofun fun u _ todo done found id mem => ?_
  rw [locks]
  exact Locks.release_eq_none (inv.free u todo done found id mem)

theorem RowsFree.move (inv : RowsFree s) (allowed : avoidsLockedRows s a)
    (move : SessionMove refreshTtl s a s') : RowsFree s' := by
  have agree := inv.agree.move move
  cases move with
  | tick | readUser | verifyPassword | ldapAuthenticate | upsertLdapUser | loginRefused | touchLastLogin
  | insertToken => exact ⟨agree, inv.free, inv.unblocked⟩
  | begin | waitToken | waitUser | waitBump => exact inv.advance agree rfl
  | lockUser | bump => exact inv.lockUser agree rfl
  | commitRefresh | commitLogout | rollback => exact inv.finish agree rfl rfl
  | @spend t id row _ _ _ _ =>
    refine inv.lockToken agree nofun nofun fun u _ todo done found => ?_
    have holder := (inv.agree .user u).mpr (owns_user_of_lists found)
    simpa [avoidsLockedRows, holder, found] using allowed
  | @snapshotTokens t bumped =>
    refine inv.goto agree rfl nofun (fun todo done found id mem => ?_) fun u _ => inv.free u
    cases Option.some.inj found
    obtain ⟨bound, live⟩ := List.mem_filter.mp mem
    have free : s.locks (.token id) = none := by simpa [live] using List.all_eq_true.mp allowed id bound
    exact free
  | @revokeRow t id todo done was _ _ =>
    have revoking : s.txs t = .revoking todo done := was.resolve_right (inv.unblocked t id todo done)
    have lists : (s.txs t).lists = some (todo, done) := by rw [revoking]; rfl
    refine inv.lockToken agree nofun (fun todo' done' found x mem => ?_) fun u same _ _ found => ?_
    · cases Option.some.inj found
      obtain ⟨old, different⟩ := List.mem_filter.mp mem
      exact ⟨of_decide_eq_true different, inv.free t todo done lists x old⟩
    · have owner := inv.agree.owner_eq (owns_user_of_lists found) (owns_user_of_lists lists)
      exact absurd owner same
  | @passRow t id todo done was _ =>
    have revoking : s.txs t = .revoking todo done := was.resolve_right (inv.unblocked t id todo done)
    refine inv.goto agree rfl nofun (fun todo' done' found x mem => ?_) fun u _ => inv.free u
    cases Option.some.inj found
    exact inv.free t todo done (by rw [revoking]; rfl) x (List.mem_filter.mp mem).1
  | @waitRow t id todo done holder revoking mem held =>
    have free := inv.free t todo done (by rw [revoking]; rfl) id mem
    simp [free] at held

theorem rowsFree_start : RowsFree .start where
  agree _ _ := ⟨nofun, nofun⟩
  free := nofun
  unblocked := nofun

def TxPhase.rank : TxPhase → Nat
  | .waitsToken .. => 2
  | .waitsUser .. | .waitsBump => 1
  | _ => 0

theorem RowsFree.rank_lt (inv : RowsFree s) (waiting : (s.txs t).waits row) (held : s.locks row = some u) :
    (s.txs u).rank < (s.txs t).rank := by
  have owned : (s.txs u).owns row := (inv.agree row u).mp held
  cases was : s.txs t with
  | waitsToken since id =>
    rw [was] at waiting
    cases waiting
    cases other : s.txs u <;> simp_all [owns, rank]
  | waitsRow id todo done => exact absurd was (inv.unblocked t id todo done)
  | waitsUser id checkedIn | waitsBump =>
    rw [was] at waiting
    cases waiting
    cases other : s.txs u <;> simp_all [owns, rank]
  | idle | begun | spent | locked | bumped | revoking | ended => simp [was, waits] at waiting

/-- There is no deadlock if a forced logout finds its rows unlocked and refreshes leave them alone until then. -/
theorem no_deadlock_when_rows_free
    (reach : Reach (sessionStep refreshTtl) (fun s a => avoidsLockedRows s a) .start trace s) :
    ∀ t, ¬Relation.TransGen s.WaitsFor t t := by
  have inv : RowsFree s := reach.invariant RowsFree rowsFree_start
    fun _ _ _ inv allowed stepped => inv.move allowed (sessionMove_of_step stepped)
  exact fun t => Locks.no_cycle (fun t => (s.txs t).rank) fun t row u => inv.rank_lt

end

def storeToken : List SessionAction := [.readUser 0, .verifyPassword 0, .touchLastLogin 0, .insertToken 0]

def refreshAgainstLogout : List SessionAction :=
  storeToken ++ [.begin 0, .revokeIfActive 0 0, .bumpVersion 1, .snapshotTokens 1, .findByIdForUpdate 0,
    .revokeNext 1 0]

theorem refresh_and_logout_deadlock :
    ∃ s, run (sessionStep 60) .start refreshAgainstLogout = some s ∧ s.WaitsFor 0 1 ∧ s.WaitsFor 1 0 ∧
      Relation.TransGen s.WaitsFor 0 0 := by
  have replayed : run (sessionStep 60) .start refreshAgainstLogout = some _ := rfl
  refine ⟨_, replayed, ⟨.user, rfl, rfl⟩, ⟨.token 0, rfl, rfl⟩, ?_⟩
  exact .tail (.single ⟨.user, rfl, rfl⟩) ⟨.token 0, rfl, rfl⟩

def logoutBehindRefresh : List SessionAction :=
  storeToken ++ [.begin 0, .revokeIfActive 0 0, .findByIdForUpdate 0, .bumpVersion 1]

theorem logout_behind_refresh_waits :
    ∃ s, guardedRun (sessionStep 60) avoidsLockedRows .start logoutBehindRefresh = some s ∧ s.WaitsFor 1 0 ∧
      ∀ t, ¬Relation.TransGen s.WaitsFor t t := by
  have replayed : guardedRun (sessionStep 60) avoidsLockedRows .start logoutBehindRefresh = some _ := rfl
  refine ⟨_, replayed, ⟨.user, rfl, rfl⟩, ?_⟩
  exact no_deadlock_when_rows_free (reach_of_guardedRun avoidsLockedRows (fun _ _ => id) replayed)

end LlmGateway
