import Mathlib.Data.List.Nodup
import LlmGateway.Account.Ldap

namespace LlmGateway

open List

inductive UserSource
  | local
  | ldap
  deriving DecidableEq

structure UserRow where
  id : Nat
  username : Str
  email : Option Str
  displayName : Option Str
  ldapDn : Option Str
  source : UserSource
  passwordHash : Option Str
  isAdmin : Bool
  status : Int
  tokenVersion : Nat

/-- `VARCHAR(n)`: a NUL is refused, and so is an excess that is not all spaces; other excess is cut off. -/
def varchar (n : Nat) (text : Str) : Option Str :=
  if '\x00' ∈ text then none
  else if text.length ≤ n then some text
  else if (text.drop n).all (· == ' ') then some (text.take n)
  else none

def varcharNullable (n : Nat) : Option Str → Option (Option Str)
  | none => some none
  | some text => (varchar n text).map some

/-- The table `users`. Usernames are unique by constraint and ids by the sequence
they are taken from. -/
structure Users where
  rows : List UserRow
  nextId : Nat
  usernames : (rows.map (·.username)).Nodup
  ids : (rows.map (·.id)).Nodup
  bounded : ∀ row ∈ rows, row.id < nextId

inductive DbError
  | uniqueViolation
  | other

namespace Users

variable {db : Users} {row other : UserRow} {username : Str}

def empty : Users := ⟨[], 1, .nil, .nil, nofun⟩

def findByUsername (db : Users) (username : Str) : Option UserRow := db.rows.find? (·.username == username)

def findById (db : Users) (id : Nat) : Option UserRow := db.rows.find? (·.id == id)

theorem findByUsername_eq_none (missing : db.findByUsername username = none) :
    ∀ row ∈ db.rows, row.username ≠ username := by
  simpa [findByUsername] using missing

theorem findByUsername_eq_some (found : db.findByUsername username = some row) :
    row ∈ db.rows ∧ row.username = username :=
  ⟨mem_of_find?_eq_some found, by simpa using List.find?_some found⟩

theorem eq_of_username (first : row ∈ db.rows) (second : other ∈ db.rows) (same : row.username = other.username) :
    row = other :=
  inj_on_of_nodup_map db.usernames first second same

theorem eq_of_id (first : row ∈ db.rows) (second : other ∈ db.rows) (same : row.id = other.id) : row = other :=
  inj_on_of_nodup_map db.ids first second same

theorem nodup_key_snoc {κ : Type*} {key : UserRow → κ} {rows : List UserRow} (distinct : (rows.map key).Nodup)
    (fresh : ∀ old ∈ rows, key old ≠ key row) : ((rows ++ [row]).map key).Nodup := by
  rw [map_append, map_singleton, nodup_append]
  refine ⟨distinct, nodup_singleton _, fun value mem last final => ?_⟩
  obtain ⟨old, stored, rfl⟩ := mem_map.mp mem
  rw [mem_singleton.mp final]
  exact fresh old stored

theorem map_key_update {κ : Type*} {key : UserRow → κ} {hit : UserRow → Bool} {set : UserRow → UserRow}
    (keeps : ∀ row, key (set row) = key row) (rows : List UserRow) :
    (rows.map fun row => if hit row then set row else row).map key = rows.map key := by
  rw [map_map]
  refine map_congr_left fun row _ => ?_
  by_cases chosen : hit row <;> simp [chosen, keeps row]

/-- An insert of a username that is not there, with the next id of the sequence. -/
def insert (db : Users) (row : UserRow) (next : row.id = db.nextId)
    (missing : db.findByUsername row.username = none) :
    Users where
  rows := db.rows ++ [row]
  nextId := db.nextId + 1
  usernames := nodup_key_snoc db.usernames (findByUsername_eq_none missing)
  ids := nodup_key_snoc db.ids fun old stored => next ▸ Nat.ne_of_lt (db.bounded old stored)
  bounded stored mem := by
    rcases mem_append.mp mem with old | new
    · exact Nat.lt_succ_of_lt (db.bounded stored old)
    · rw [mem_singleton.mp new, next]
      exact Nat.lt_succ_self _

/-- `UPDATE users SET .. WHERE ..` of columns other than the keys. -/
def update (db : Users) (hit : UserRow → Bool) (set : UserRow → UserRow)
    (keeps : ∀ row, (set row).id = row.id ∧ (set row).username = row.username) : Users where
  rows := db.rows.map fun row => if hit row then set row else row
  nextId := db.nextId
  usernames := by
    rw [map_key_update fun row => (keeps row).2]
    exact db.usernames
  ids := by
    rw [map_key_update fun row => (keeps row).1]
    exact db.ids
  bounded stored mem := by
    obtain ⟨row, old, rfl⟩ := mem_map.mp mem
    have bound := db.bounded row old
    by_cases chosen : hit row <;> simpa [chosen, keeps row] using bound

def createLocalUser (db : Users) (username displayName passwordHash : Str) (isAdmin : Bool) :
    Except DbError (UserRow × Users) :=
  match varchar 64 username, varchar 128 displayName, varchar 255 passwordHash with
  | some username, some displayName, some passwordHash =>
    let row : UserRow :=
      ⟨db.nextId, username, none, some displayName, none, .local, some passwordHash, isAdmin, 1, 0⟩
    match missing : db.findByUsername username with
    | some _ => .error .uniqueViolation
    | none => .ok (row, db.insert row rfl missing)
  | _, _, _ => .error .other

end Users

/-- The `DO UPDATE` of the upsert. It does not touch the password hash. -/
def UserRow.mergeLdap (row : UserRow) (email displayName : Option Str) (ldapDn : Str) (isAdmin : Bool) : UserRow :=
  { row with
    email := email.or row.email
    displayName := displayName.or row.displayName
    ldapDn := some ldapDn
    source := .ldap
    isAdmin }

namespace Users

variable {db : Users} {row : UserRow} {set : UserRow → UserRow} {new : UserRow}

def upsertLdapUser (db : Users) (username : Str) (email displayName : Option Str) (ldapDn : Str) (isAdmin : Bool) :
    Except DbError (UserRow × Users) :=
  match varchar 64 username, varcharNullable 255 email, varcharNullable 128 displayName, varchar 512 ldapDn with
  | some username, some email, some displayName, some ldapDn =>
    match missing : db.findByUsername username with
    | some row =>
      .ok (row.mergeLdap email displayName ldapDn isAdmin,
        db.update (·.username == username) (·.mergeLdap email displayName ldapDn isAdmin) fun _ => ⟨rfl, rfl⟩)
    | none =>
      let row : UserRow := ⟨db.nextId, username, email, displayName, some ldapDn, .ldap, none, isAdmin, 1, 0⟩
      .ok (row, db.insert row rfl missing)
  | _, _, _, _ => .error .other

def setPasswordHash (db : Users) (id : Nat) (passwordHash : Str) : Except DbError Users :=
  match varchar 255 passwordHash with
  | some hash => .ok (db.update (·.id == id) ({ · with passwordHash := some hash }) fun _ => ⟨rfl, rfl⟩)
  | none => .error .other

/-- Of `force_logout` the table sees the new token version. -/
def forceLogout (db : Users) (id : Nat) : Users :=
  db.update (·.id == id) (fun row => { row with tokenVersion := row.tokenVersion + 1 }) fun _ => ⟨rfl, rfl⟩

theorem mem_update {hit : UserRow → Bool}
    {keeps : ∀ row, (set row).id = row.id ∧ (set row).username = row.username} :
    row ∈ (db.update hit set keeps).rows ↔ ∃ old ∈ db.rows, (if hit old then set old else old) = row :=
  mem_map

theorem mem_insert {next : new.id = db.nextId} {missing : db.findByUsername new.username = none} :
    row ∈ (db.insert new next missing).rows ↔ row ∈ db.rows ∨ row = new := by
  simp [insert]

def Grows (db later : Users) : Prop :=
  ∀ row ∈ db.rows, ∃ kept ∈ later.rows, kept.id = row.id ∧ kept.username = row.username

theorem Grows.refl (db : Users) : db.Grows db := fun row stored => ⟨row, stored, rfl, rfl⟩

theorem Grows.trans {first second third : Users} (earlier : first.Grows second) (later : second.Grows third) :
    first.Grows third := by
  intro row stored
  obtain ⟨middle, kept, id, username⟩ := earlier row stored
  obtain ⟨last, final, id', username'⟩ := later middle kept
  exact ⟨last, final, id'.trans id, username'.trans username⟩

theorem grows_update {hit : UserRow → Bool}
    (keeps : ∀ row, (set row).id = row.id ∧ (set row).username = row.username) :
    db.Grows (db.update hit set keeps) := by
  intro row stored
  refine ⟨if hit row then set row else row, mem_update.mpr ⟨row, stored, rfl⟩, ?_⟩
  by_cases chosen : hit row <;> simp [chosen, keeps row]

theorem grows_insert {next : new.id = db.nextId} {missing : db.findByUsername new.username = none} :
    db.Grows (db.insert new next missing) :=
  fun row stored => ⟨row, mem_insert.mpr (.inl stored), rfl, rfl⟩

theorem update_self_mem {stored : Str} {keeps : ∀ row, (set row).id = row.id ∧ (set row).username = row.username}
    (found : db.findByUsername stored = some row) (mem : new ∈ (db.update (·.username == stored) set keeps).rows) :
    new ∈ db.rows ∨ new = set row := by
  obtain ⟨old, there, rfl⟩ := mem_update.mp mem
  obtain ⟨here, named⟩ := findByUsername_eq_some found
  by_cases chosen : old.username = stored
  · have same : old = row := eq_of_username there here (chosen.trans named.symm)
    exact .inr (by simp [same, named])
  · exact .inl (by simpa [chosen] using there)

/-- What the upsert leaves: the row of the stored username, with the password hash it had. -/
structure Upserted (db : Users) (stored : Str) (user : UserRow) (later : Users) : Prop where
  grows : db.Grows later
  member : user ∈ later.rows
  username : user.username = stored
  passwordHash : user.passwordHash = (db.findByUsername stored).bind (·.passwordHash)
  others : ∀ row ∈ later.rows, row ∈ db.rows ∨ row = user

theorem upsertLdapUser_spec {username ldapDn : Str} {email displayName : Option Str} {isAdmin : Bool}
    {user : UserRow} {later : Users}
    (done : db.upsertLdapUser username email displayName ldapDn isAdmin = .ok (user, later)) :
    ∃ stored, varchar 64 username = some stored ∧ Upserted db stored user later := by
  unfold upsertLdapUser at done
  split at done
  next stored _ _ _ name _ _ _ =>
    refine ⟨stored, name, ?_⟩
    split at done
    next row found =>
      cases done
      obtain ⟨here, named⟩ := findByUsername_eq_some found
      refine ⟨grows_update _, mem_update.mpr ⟨row, here, by simp [named]⟩, named, by rw [found]; rfl, fun new => ?_⟩
      exact update_self_mem found
    next missing =>
      cases done
      exact ⟨grows_insert, mem_insert.mpr (.inr rfl), rfl, by rw [missing]; rfl, fun new => mem_insert.mp⟩
  next => cases done

end Users

end LlmGateway
