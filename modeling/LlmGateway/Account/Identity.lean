import LlmGateway.Account.Login

namespace LlmGateway

open Machine Users

section
variable {env : AccountEnv} {settings settings' : LdapSettings} {directory directory' : Directory}
  {start db later db₁ db₂ db₃ : Users} {username username' password password' displayName passwordHash : Str}
  {user user' : UserRow} {isAdmin : Bool} {a : AccountAction} {trace : List AccountAction} {id salt : Nat}

theorem Users.createLocalUser_spec
    (done : db.createLocalUser username displayName passwordHash isAdmin = .ok (user, later)) :
    db.Grows later ∧ user.source = .local ∧ ∀ row ∈ later.rows, row ∈ db.rows ∨ row = user := by
  unfold createLocalUser at done
  split at done
  next =>
    split at done
    next => cases done
    next missing =>
      cases done
      exact ⟨grows_insert, rfl, fun row => mem_insert.mp⟩
  next => cases done

theorem Users.findById_eq_some {target row : UserRow} (found : db.findById id = some target)
    (stored : row ∈ db.rows) (named : row.id = id) : row = target := by
  have here : target ∈ db.rows := List.mem_of_find?_eq_some found
  have same : target.id = id := by simpa using List.find?_some found
  exact eq_of_id stored here (named.trans same.symm)

def LocalInserted (db later : Users) : Prop :=
  db.Grows later ∧ ∃ user : UserRow, user.source = .local ∧ ∀ row ∈ later.rows, row ∈ db.rows ∨ row = user

theorem createUser_cases {displayName : Option Str} {isAdmin : Option Bool} {result : Except AppError UserRow}
    (done : createUser env db username displayName password isAdmin salt = (result, later)) :
    later = db ∨ LocalInserted db later := by
  unfold createUser at done
  simp only at done
  split at done
  next =>
    cases done
    exact .inl rfl
  next =>
    split at done
    next =>
      cases done
      exact .inl rfl
    next =>
      split at done
      next user table created =>
        cases done
        obtain ⟨grows, source, others⟩ := createLocalUser_spec created
        exact .inr ⟨grows, user, source, others⟩
      next =>
        cases done
        exact .inl rfl
      next =>
        cases done
        exact .inl rfl

def LocalReset (db later : Users) (id : Nat) (hash : Str) : Prop :=
  ∃ target hashed, db.findById id = some target ∧ target.source = .local ∧
    db.setPasswordHash id hash = .ok hashed ∧ later = hashed.forceLogout id

theorem resetPassword_cases {result : Except AppError Unit}
    (done : resetPassword env db id password salt = (result, later)) :
    later = db ∨ LocalReset db later id (env.hashPassword salt password) := by
  unfold resetPassword at done
  split at done
  next =>
    cases done
    exact .inl rfl
  next target found =>
    split at done
    next =>
      cases done
      exact .inl rfl
    next =>
      split at done
      next =>
        cases done
        exact .inl rfl
      next managed =>
        split at done
        next =>
          cases done
          exact .inl rfl
        next =>
          split at done
          next hashed stored =>
            cases done
            exact .inr ⟨target, hashed, found, not_not.mp managed, stored, rfl⟩
          next =>
            cases done
            exact .inl rfl

theorem accountStep_cases (stepped : accountStep env db a = some later) :
    later = db ∨ LocalInserted db later ∨ (∃ id hash, LocalReset db later id hash) ∨
      ∃ settings directory username password user, a = .login settings directory username password ∧
        DirectoryEntry env settings directory db username password user later := by
  cases a with
  | createUser username displayName password isAdmin salt =>
    cases Option.some.inj stepped
    exact (createUser_cases rfl).imp_right .inl
  | resetPassword id password salt =>
    cases Option.some.inj stepped
    exact (resetPassword_cases rfl).imp_right fun reset => .inr (.inl ⟨_, _, reset⟩)
  | login settings directory username password =>
    cases Option.some.inj stepped
    obtain ⟨same, -⟩ | ⟨user, entry, -⟩ := login_cases _ rfl
    · exact .inl same
    · exact .inr (.inr (.inr ⟨settings, directory, username, password, user, rfl, entry⟩))

theorem Users.setPasswordHash_eq_ok (done : db.setPasswordHash id passwordHash = .ok later) :
    ∃ hash, later = db.update (·.id == id) ({ · with passwordHash := some hash }) fun _ => ⟨rfl, rfl⟩ := by
  unfold setPasswordHash at done
  split at done
  next hash _ =>
    cases done
    exact ⟨hash, rfl⟩
  next => cases done

theorem accountStep_grows (stepped : accountStep env db a = some later) : db.Grows later := by
  obtain rfl | ⟨grows, -⟩ | ⟨id, hash, target, hashed, -, -, stored, rfl⟩ | ⟨_, _, _, _, user, -, -, identity, -,
      upserted⟩ :=
    accountStep_cases stepped
  · exact .refl later
  · exact grows
  · obtain ⟨hash, rfl⟩ := setPasswordHash_eq_ok stored
    exact (grows_update _).trans (grows_update _)
  · obtain ⟨stored, -, upsert⟩ := upsertLdapUser_spec upserted
    exact upsert.grows

theorem reach_grows (reach : Reach (accountStep env) Any db trace later) : db.Grows later :=
  reach.invariant db.Grows (.refl db) fun _ _ _ before _ stepped => before.trans (accountStep_grows stepped)

def HashesLocal (db : Users) : Prop := ∀ row ∈ db.rows, row.source = .ldap → row.passwordHash = none

def sparesLocalAccounts (env : AccountEnv) (db : Users) : AccountAction → Bool
  | .login settings directory username password =>
    match env.asksDirectory settings username, authenticate settings directory username password,
      varchar 64 username with
    | true, .ok _, some stored => ((db.findByUsername stored).bind (·.passwordHash)).isNone
    | _, _, _ => true
  | _ => true

theorem HashesLocal.update {hit : UserRow → Bool} {set : UserRow → UserRow}
    {keeps : ∀ row, (set row).id = row.id ∧ (set row).username = row.username} (clean : HashesLocal db)
    (chosen : ∀ row ∈ db.rows, hit row → (set row).source = .ldap → (set row).passwordHash = none) :
    HashesLocal (db.update hit set keeps) := by
  intro row mem source
  obtain ⟨old, stored, rfl⟩ := mem_update.mp mem
  cases picked : hit old with
  | true =>
    simp only [picked, ↓reduceIte] at source ⊢
    exact chosen old stored picked source
  | false =>
    simp only [picked, Bool.false_eq_true, ↓reduceIte] at source ⊢
    exact clean old stored source

theorem HashesLocal.step (clean : HashesLocal db) (spared : sparesLocalAccounts env db a)
    (stepped : accountStep env db a = some later) : HashesLocal later := by
  obtain rfl | ⟨-, user, source, others⟩ | ⟨id, hash, target, hashed, found, managed, stored, rfl⟩ |
    ⟨settings, directory, username, password, user, rfl, asked, identity, accepted, upserted⟩ :=
      accountStep_cases stepped
  · exact clean
  · intro row mem ldap
    rcases others row mem with old | rfl
    · exact clean row old ldap
    · simp [source] at ldap
  · obtain ⟨hash, rfl⟩ := setPasswordHash_eq_ok stored
    have reset : HashesLocal (db.update (·.id == id) ({ · with passwordHash := some hash }) fun _ =>
        ⟨rfl, rfl⟩) := by
      refine clean.update fun row there hit ldap => ?_
      have same : row = target := findById_eq_some found there (by simpa using hit)
      simp [same, managed] at ldap
    exact reset.update fun row there _ ldap => reset row there ldap
  · obtain ⟨stored, name, upsert⟩ := upsertLdapUser_spec upserted
    have unhashed : user.passwordHash = none := by
      simp only [sparesLocalAccounts, asked, accepted, name, Option.isNone_iff_eq_none] at spared
      exact upsert.passwordHash.trans spared
    intro row mem ldap
    rcases upsert.others row mem with old | rfl
    · exact clean row old ldap
    · exact unhashed

/-- The local branch lets in no directory account if the directory never accepted the name of an account with a
password. -/
theorem local_branch_is_for_local_accounts (clean : HashesLocal start)
    (reach : Reach (accountStep env) (fun db a => sparesLocalAccounts env db a) start trace db)
    (entered : login env settings directory db username password = (.ok (.localPassword, user), later)) :
    user.source ≠ .ldap := by
  have hashes : HashesLocal db := reach.invariant HashesLocal clean fun _ _ _ before spared => before.step spared
  obtain ⟨found, hash, stored⟩ := login_localPassword entered
  intro ldap
  have none := hashes user (findByUsername_eq_some found).1 ldap
  simp [stored] at none

/-- Two directory logins end in one row exactly if the table stores their names alike. -/
theorem same_row_iff_same_stored_name
    (first : login env settings directory db username password = (.ok (.directory, user), db₁))
    (between : Reach (accountStep env) Any db₁ trace db₂)
    (second : login env settings' directory' db₂ username' password' = (.ok (.directory, user'), db₃)) :
    user.id = user'.id ↔ varchar 64 username = varchar 64 username' := by
  obtain ⟨-, _, -, upserted⟩ := login_directory first
  obtain ⟨-, _, -, upserted'⟩ := login_directory second
  obtain ⟨stored, name, upsert⟩ := upsertLdapUser_spec upserted
  obtain ⟨stored', name', upsert'⟩ := upsertLdapUser_spec upserted'
  obtain ⟨kept, there, sameId, sameName⟩ := ((reach_grows between).trans upsert'.grows) user upsert.member
  rw [name, name', Option.some.injEq, ← upsert.username, ← upsert'.username, ← sameId, ← sameName]
  constructor
  · intro ids
    rw [eq_of_id there upsert'.member ids]
  · intro names
    rw [eq_of_username there upsert'.member names]

end

def aliceEntry : SearchEntry := ⟨"uid=alice,dc=example".toList, fun _ => none⟩

def aliceDirectory : Directory where
  connect := .ok ()
  simpleBind _ password := .ok (if password = "secret".toList then 0 else 49)
  search _ filter := .ok (if Text.eqIgnoreAsciiCase filter "(uid=alice)".toList then [aliceEntry] else [])
  timedOut := false

def deadDirectory : Directory := { aliceDirectory with connect := .error (.other "connection refused") }

def aliceSettings : LdapSettings where
  url := "ldap://directory"
  bindDn := none
  bindPassword := none
  baseDn := "dc=example".toList
  userFilter := "(uid=\x7b0\x7d)".toList
  adminGroups := []

def plainEnv : AccountEnv := ⟨none, fun _ password => password, fun password hash => password == hash⟩

def adoptedAccount : List AccountAction :=
  [.createUser "alice".toList none "wonderland".toList none 0,
    .login aliceSettings aliceDirectory "alice".toList "secret".toList]

/-- The upsert leaves the account its password, which works when the directory is down. -/
theorem adopted_account_keeps_password : ∃ db user, run (accountStep plainEnv) .empty adoptedAccount = some db ∧
      login plainEnv aliceSettings deadDirectory db "alice".toList "wonderland".toList =
        (.ok (.localPassword, user), db) ∧ user.source = .ldap :=
  ⟨_, _, rfl, rfl, rfl⟩

def twoAccounts : List AccountAction :=
  [.createUser "carol".toList none "wonderland".toList none 0,
    .login aliceSettings aliceDirectory "alice".toList "secret".toList]

/-- Beside an account of the directory, the local one enters by its password. -/
theorem local_account_enters_locally :
    ∃ db user, guardedRun (accountStep plainEnv) (sparesLocalAccounts plainEnv) .empty twoAccounts = some db ∧
      login plainEnv aliceSettings deadDirectory db "carol".toList "wonderland".toList =
        (.ok (.localPassword, user), db) ∧ user.source ≠ .ldap := by
  obtain ⟨db, user, replayed, entered⟩ : ∃ db user,
      guardedRun (accountStep plainEnv) (sparesLocalAccounts plainEnv) .empty twoAccounts = some db ∧
      login plainEnv aliceSettings deadDirectory db "carol".toList "wonderland".toList =
        (.ok (.localPassword, user), db) := ⟨_, _, rfl, rfl⟩
  have clean : HashesLocal .empty := nofun
  have reach := reach_of_guardedRun (sparesLocalAccounts plainEnv) (fun _ _ => id) replayed
  exact ⟨db, user, replayed, entered, local_branch_is_for_local_accounts clean reach entered⟩

/-- The search finds one entry for both spellings, and the logins get two rows. -/
theorem respelled_name_is_another_row :
    ldapSearch aliceSettings aliceDirectory (userSearchFilter aliceSettings "alice".toList) = .ok [aliceEntry] ∧
      ldapSearch aliceSettings aliceDirectory (userSearchFilter aliceSettings "Alice".toList) = .ok [aliceEntry] ∧
      ∃ user user' db db', login plainEnv aliceSettings aliceDirectory .empty "alice".toList "secret".toList =
          (.ok (.directory, user), db) ∧
        login plainEnv aliceSettings aliceDirectory db "Alice".toList "secret".toList =
          (.ok (.directory, user'), db') ∧ user.id ≠ user'.id :=
  ⟨rfl, rfl, _, _, _, _, rfl, rfl, by decide⟩

theorem same_name_is_same_row :
    ∃ user user' db db', login plainEnv aliceSettings aliceDirectory .empty "alice".toList "secret".toList =
        (.ok (.directory, user), db) ∧
      login plainEnv aliceSettings aliceDirectory db "alice".toList "secret".toList =
        (.ok (.directory, user'), db') ∧ user.id = user'.id := by
  obtain ⟨user, user', db, db', first, second⟩ : ∃ user user' db db',
      login plainEnv aliceSettings aliceDirectory .empty "alice".toList "secret".toList =
        (.ok (.directory, user), db) ∧
      login plainEnv aliceSettings aliceDirectory db "alice".toList "secret".toList =
        (.ok (.directory, user'), db') := ⟨_, _, _, _, rfl, rfl⟩
  exact ⟨user, user', db, db', first, second, (same_row_iff_same_stored_name first .start second).mpr rfl⟩

end LlmGateway
