import LlmGateway.Lib.Text

namespace LlmGateway

inductive LdapError
  | userNotFound
  | badCredentials
  | notConfigured
  | transport (reason : String)

/-- An error of the LDAP client: a result code of the server, or anything else. -/
inductive Ldap3Error
  | ldapResult (rc : Nat) (text : String)
  | other (text : String)

/-- Code 49 is `invalidCredentials`. -/
def LdapError.ofLdap3 : Ldap3Error → LdapError
  | .ldapResult rc text => if rc = 49 then .badCredentials else .transport text
  | .other text => .transport text

structure LdapIdentity where
  dn : Str
  email : Option Str
  displayName : Option Str
  isAdmin : Bool

structure LdapSettings where
  url : String
  bindDn : Option Str
  bindPassword : Option Str
  baseDn : Str
  userFilter : Str
  adminGroups : List Str

def LdapSettings.isConfigured (settings : LdapSettings) : Bool := settings.url ≠ ""

structure SearchEntry where
  dn : Str
  attrs : String → Option (List Str)

/-- The answers of a directory server during one call. `timedOut` says that the ten seconds ran out. -/
structure Directory where
  connect : Except Ldap3Error Unit
  simpleBind : (dn password : Str) → Except Ldap3Error Nat
  search : (base filter : Str) → Except Ldap3Error (List SearchEntry)
  timedOut : Bool

def ldapEscapeFilter (text : Str) : Str :=
  text.flatMap fun c => match c with
    | '\\' => "\\5c".toList
    | '*' => "\\2a".toList
    | '(' => "\\28".toList
    | ')' => "\\29".toList
    | '\x00' => "\\00".toList
    | c => [c]

def dnHasCn (dn : Str) (cns : List Str) : Bool :=
  cns.any fun cn => (dn.splitOn ',').any fun rdn => Text.eqIgnoreAsciiCase (Text.trim rdn) ("cn=".toList ++ cn)

def groupCn (group : Str) : Str :=
  match ((group.splitOn ',').map Text.trim).find? fun rdn =>
    "cn=".toList.isPrefixOf (Text.toAsciiLowercase rdn) with
  | some rdn => rdn.drop 3
  | none => group

def serviceBind (settings : LdapSettings) (directory : Directory) : Except LdapError Unit :=
  match settings.bindDn, settings.bindPassword with
  | some dn, some password => match directory.simpleBind dn password with
    | .ok _ => .ok ()
    | .error e => .error (.ofLdap3 e)
  | _, _ => .ok ()

def ldapSearch (settings : LdapSettings) (directory : Directory) (filter : Str) :
    Except LdapError (List SearchEntry) :=
  (directory.search settings.baseDn filter).mapError .ofLdap3

def adminGroupsFilter (settings : LdapSettings) (userDn : Str) : Str :=
  "(&(objectClass=groupOfNames)(|".toList ++
    (settings.adminGroups.map groupCn).flatMap (fun cn => "(cn=".toList ++ cn ++ ")".toList) ++
    ")(member=".toList ++ userDn ++ "))".toList

def matchAdminGroups (settings : LdapSettings) (directory : Directory) (memberOf : List Str) (userDn : Str) :
    Except LdapError Bool :=
  if settings.adminGroups.isEmpty then .ok false
  else if settings.adminGroups.any fun group => memberOf.any (· == group) then .ok true
  else if memberOf.any fun m => dnHasCn m (settings.adminGroups.map groupCn) then .ok true
  else if !memberOf.isEmpty then .ok false
  else do
    directory.connect.mapError LdapError.ofLdap3
    serviceBind settings directory
    let found ← ldapSearch settings directory (adminGroupsFilter settings userDn)
    return !found.isEmpty

def userSearchFilter (settings : LdapSettings) (username : Str) : Str :=
  Text.fill (ldapEscapeFilter username) settings.userFilter

/-- The work of `authenticate` inside its time limit. -/
def authenticateWork (settings : LdapSettings) (directory : Directory) (username password : Str) :
    Except LdapError LdapIdentity := do
  directory.connect.mapError LdapError.ofLdap3
  serviceBind settings directory
  match ← ldapSearch settings directory (userSearchFilter settings username) with
  | [] => throw .userNotFound
  | entry :: _ =>
    let rc ← (directory.simpleBind entry.dn password).mapError LdapError.ofLdap3
    if rc ≠ 0 then throw .badCredentials
    let isAdmin ← matchAdminGroups settings directory ((entry.attrs "memberOf").getD []) entry.dn
    return {
      dn := entry.dn
      email := (entry.attrs "mail").bind List.head?
      displayName := ((entry.attrs "displayName").or (entry.attrs "cn")).bind List.head?
      isAdmin }

def authenticate (settings : LdapSettings) (directory : Directory) (username password : Str) :
    Except LdapError LdapIdentity :=
  if !settings.isConfigured then .error .notConfigured
  else if password.isEmpty then .error .badCredentials
  else if directory.timedOut then .error (.transport "LDAP operation timed out")
  else authenticateWork settings directory username password

end LlmGateway
