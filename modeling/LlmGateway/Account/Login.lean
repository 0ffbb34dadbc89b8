import LlmGateway.Lib.Machine
import LlmGateway.Account.Users

namespace LlmGateway

inductive AppError
  | badRequest (message : String)
  | unauthorized (message : String)
  | forbidden (message : String)
  | internal

/-- The branch of `login` that let the user in. -/
inductive LoginVia
  | directory
  | localPassword

/-- The built-in admin and the password hashing, which salts. -/
structure AccountEnv where
  seedAdminUsername : Option Str
  hashPassword : (salt : Nat) → (password : Str) → Str
  verifyPassword : (password hash : Str) → Bool

def AccountEnv.isProtectedAdmin (env : AccountEnv) (username : Str) : Bool := env.seedAdminUsername == some username

def invalidLogin : AppError := .unauthorized "invalid username or password"

/-- `issue_session` up to the tokens it hands out. -/
def issueSession (via : LoginVia) (user : UserRow) : Except AppError (LoginVia × UserRow) :=
  if user.status ≠ 1 then .error (.forbidden "account disabled") else .ok (via, user)

/-- The end of `login`: the password of the local account. -/
def localLogin (env : AccountEnv) (db : Users) (username password : Str) : Except AppError (LoginVia × UserRow) :=
  if '\x00' ∈ username then .error .internal
  else match db.findByUsername username with
    | none => .error invalidLogin
    | some user => match user.passwordHash with
      | none => .error invalidLogin
      | some hash =>
        if env.verifyPassword password hash then issueSession .localPassword user else .error invalidLogin

def AccountEnv.asksDirectory (env : AccountEnv) (settings : LdapSettings) (username : Str) : Bool :=
  settings.isConfigured && !env.isProtectedAdmin username

def login (env : AccountEnv) (settings : LdapSettings) (directory : Directory) (db : Users)
    (username password : Str) :
    Except AppError (LoginVia × UserRow) × Users :=
  if (Text.trim username).isEmpty || password.isEmpty then
    (.error (.badRequest "username and password are required"), db)
  else if env.asksDirectory settings username then
    match authenticate settings directory username password with
    | .ok identity =>
      match db.upsertLdapUser username identity.email identity.displayName identity.dn identity.isAdmin with
      | .ok (user, later) => (issueSession .directory user, later)
      | .error _ => (.error .internal, db)
    | .error .badCredentials => (.error invalidLogin, db)
    | .error _ => (localLogin env db username password, db)
  else (localLogin env db username password, db)

def createUser (env : AccountEnv) (db : Users) (username : Str) (displayName : Option Str) (password : Str)
    (isAdmin : Option Bool) (salt : Nat) : Except AppError UserRow × Users :=
  let username := Text.trim username
  if username.isEmpty || decide (64 < Text.utf8Len username) then
    (.error (.badRequest "username must be 1-64 chars"), db)
  else if Text.utf8Len password < 8 then (.error (.badRequest "password must be at least 8 chars"), db)
  else
    let displayName := (displayName.map Text.trim).filter (!·.isEmpty)
    match db.createLocalUser username (displayName.getD username) (env.hashPassword salt password)
      (isAdmin.getD false) with
    | .ok (user, later) => (.ok user, later)
    | .error .uniqueViolation => (.error (.badRequest "username already exists"), db)
    | .error .other => (.error .internal, db)

def resetPassword (env : AccountEnv) (db : Users) (id : Nat) (password : Str) (salt : Nat) :
    Except AppError Unit × Users :=
  match db.findById id with
  | none => (.error (.badRequest "user not found"), db)
  | some target =>
    if env.isProtectedAdmin target.username then
      (.error (.forbidden "built-in admin account is protected and cannot be modified"), db)
    else if target.source ≠ .local then
      (.error (.badRequest "LDAP users are managed in the directory; reset password there"), db)
    else if Text.utf8Len password < 8 then (.error (.badRequest "password must be at least 8 chars"), db)
    else match db.setPasswordHash id (env.hashPassword salt password) with
      | .ok later => (.ok (), later.forceLogout id)
      | .error _ => (.error .internal, db)

inductive AccountAction
  | createUser (username : Str) (displayName : Option Str) (password : Str) (isAdmin : Option Bool) (salt : Nat)
  | resetPassword (id : Nat) (password : Str) (salt : Nat)
  | login (settings : LdapSettings) (directory : Directory) (username password : Str)

/-- A request leaves the table it leaves, whether it succeeds or not. -/
def accountStep (env : AccountEnv) (db : Users) : AccountAction → Option Users
  | .createUser username displayName password isAdmin salt =>
    some (createUser env db username displayName password isAdmin salt).2
  | .resetPassword id password salt => some (resetPassword env db id password salt).2
  | .login settings directory username password => some (login env settings directory db username password).2

section
variable {env : AccountEnv} {settings : LdapSettings} {directory : Directory} {db later : Users}
  {username password : Str} {user : UserRow} {via : LoginVia}

theorem issueSession_eq_ok {branch : LoginVia} {row : UserRow}
    (issued : issueSession branch row = .ok (via, user)) :
    branch = via ∧ row = user := by
  unfold issueSession at issued
  split at issued
  next => cases issued
  next =>
    cases issued
    exact ⟨rfl, rfl⟩

theorem localLogin_eq_ok (entered : localLogin env db username password = .ok (via, user)) :
    via = .localPassword ∧ db.findByUsername username = some user ∧
      ∃ hash, user.passwordHash = some hash ∧ env.verifyPassword password hash := by
  unfold localLogin at entered
  split at entered
  next => cases entered
  next =>
    split at entered
    next => cases entered
    next row found =>
      split at entered
      next => cases entered
      next hash stored =>
        split at entered
        next verified =>
          obtain ⟨rfl, rfl⟩ := issueSession_eq_ok entered
          exact ⟨rfl, found, hash, stored, verified⟩
        next => cases entered

/-- The directory accepted the password and the row was upserted. -/
def DirectoryEntry (env : AccountEnv) (settings : LdapSettings) (directory : Directory) (db : Users)
    (username password : Str) (user : UserRow) (later : Users) : Prop :=
  env.asksDirectory settings username ∧ ∃ identity,
    authenticate settings directory username password = .ok identity ∧
    db.upsertLdapUser username identity.email identity.displayName identity.dn identity.isAdmin = .ok (user, later)

theorem login_cases (result : Except AppError (LoginVia × UserRow))
    (done : login env settings directory db username password = (result, later)) :
    later = db ∧ (result = localLogin env db username password ∨ ∃ e, result = .error e) ∨
      ∃ user, DirectoryEntry env settings directory db username password user later ∧
        result = issueSession .directory user := by
  unfold login at done
  split at done
  next =>
    cases done
    exact .inl ⟨rfl, .inr ⟨_, rfl⟩⟩
  next =>
    split at done
    next asked =>
      split at done
      next identity accepted =>
        split at done
        next user table upserted =>
          cases done
          exact .inr ⟨user, ⟨asked, identity, accepted, upserted⟩, rfl⟩
        next =>
          cases done
          exact .inl ⟨rfl, .inr ⟨_, rfl⟩⟩
      next =>
        cases done
        exact .inl ⟨rfl, .inr ⟨_, rfl⟩⟩
      next =>
        cases done
        exact .inl ⟨rfl, .inl rfl⟩
    next =>
      cases done
      exact .inl ⟨rfl, .inl rfl⟩

theorem login_directory
    (entered : login env settings directory db username password = (.ok (.directory, user), later)) :
    DirectoryEntry env settings directory db username password user later := by
  obtain ⟨-, inside | ⟨e, failed⟩⟩ | ⟨row, entry, issued⟩ := login_cases _ entered
  · cases (localLogin_eq_ok inside.symm).1
  · cases failed
  · obtain ⟨-, rfl⟩ := issueSession_eq_ok issued.symm
    exact entry

theorem login_localPassword
    (entered : login env settings directory db username password = (.ok (.localPassword, user), later)) :
    db.findByUsername username = some user ∧ ∃ hash, user.passwordHash = some hash := by
  obtain ⟨-, inside | ⟨e, failed⟩⟩ | ⟨row, entry, issued⟩ := login_cases _ entered
  · obtain ⟨-, found, hash, stored, -⟩ := localLogin_eq_ok inside.symm
    exact ⟨found, hash, stored⟩
  · cases failed
  · cases (issueSession_eq_ok issued.symm).1

end

end LlmGateway
