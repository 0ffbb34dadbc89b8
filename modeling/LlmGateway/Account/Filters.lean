import LlmGateway.Lib.LdapFilter
import LlmGateway.Account.Ldap

namespace LlmGateway

open LdapFilter List

variable {settings : LdapSettings} {username userDn first : Str} {rest : List Str}

theorem ldapEscapeFilter_normal {c : Char} (normal : isNormal c) : ldapEscapeFilter [c] = [c] := by
  rw [ldapEscapeFilter, flatMap_singleton]
  split
  all_goals first | rfl | exact absurd normal (by decide)

theorem decode_ldapEscapeFilter (text rest : Str) :
    decode (ldapEscapeFilter text ++ rest) = (decode rest).map (utf8 text ++ ·) := by
  induction text with
  | nil => simp [ldapEscapeFilter, utf8]
  | cons c text ih =>
    have single : ∀ tail, decode (ldapEscapeFilter [c] ++ tail) =
        (decode tail).map (String.utf8EncodeChar c ++ ·) := by
      intro tail
      cases normal : isNormal c with
      | true =>
        rw [ldapEscapeFilter_normal normal]
        exact decode_normal normal
      | false => rcases isNormal_eq_false.mp normal with rfl | rfl | rfl | rfl | rfl <;> rfl
    rw [← singleton_append, ldapEscapeFilter, flatMap_append, append_assoc]
    rw [← ldapEscapeFilter, ← ldapEscapeFilter, single, ih, Option.map_map]
    simp [utf8, Function.comp_def]

theorem userSearchFilter_parses (template : FilterTree Template)
    (written : template.render Template.text = settings.userFilter) (username : Str) :
    Parses (userSearchFilter settings username) (template.map fun t => plug (utf8 username) t.parts) := by
  rw [userSearchFilter, ← written]
  exact parses_fill (decode_ldapEscapeFilter username) template

def equalTo {V : Type} (left : Left) (value : V) : FilterTree V :=
  .item ⟨left, value, [], fun some => absurd rfl some⟩

def objectClassAttr : Left := ⟨"objectClass".toList, .equal, by decide, by decide⟩

def cnAttr : Left := ⟨"cn".toList, .equal, by decide, by decide⟩

def memberAttr : Left := ⟨"member".toList, .equal, by decide, by decide⟩

def cnFilters (first : Str) : List Str → FilterTrees Str
  | [] => .single (equalTo cnAttr first)
  | next :: rest => .cons (equalTo cnAttr first) (cnFilters next rest)

def adminGroupsTree (first : Str) (rest : List Str) (userDn : Str) : FilterTree Str :=
  .and (.cons (equalTo objectClassAttr "groupOfNames".toList)
    (.cons (.or (cnFilters first rest)) (.single (equalTo memberAttr userDn))))

theorem equalTo_render (left : Left) (value : Str) :
    (equalTo left value).render id = ('(' :: (left.text ++ left.type.mark ++ ['='])) ++ (value ++ [')']) := by
  simp [equalTo, FilterTree.render, Item.render]

theorem cnFilters_render : (cnFilters first rest).render id =
    (first :: rest).flatMap fun cn => "(cn=".toList ++ cn ++ ")".toList := by
  have single : ∀ cn, (equalTo cnAttr cn).render id = "(cn=".toList ++ cn ++ ")".toList := by
    intro cn
    rw [equalTo_render, append_assoc]
    rfl
  induction rest generalizing first with
  | nil => rw [cnFilters, FilterTrees.render, single, flatMap_singleton]
  | cons next rest ih =>
    rw [cnFilters, FilterTrees.render, ih, single]
    rfl

theorem cnFilters_values : (cnFilters first rest).values = first :: rest := by
  induction rest generalizing first with
  | nil => rfl
  | cons next rest ih =>
    rw [cnFilters, FilterTrees.values, ih]
    rfl

theorem adminGroupsTree_render : (adminGroupsTree first rest userDn).render id =
    ('(' :: '&' :: ((equalTo objectClassAttr "groupOfNames".toList).render id ++ ['(', '|'])) ++
      (cnFilters first rest).render id ++ (')' :: ((equalTo memberAttr userDn).render id ++ [')'])) := by
  rw [adminGroupsTree]
  generalize equalTo objectClassAttr "groupOfNames".toList = objectClass
  simp [FilterTree.render, FilterTrees.render]

theorem adminGroupsFilter_eq (listed : settings.adminGroups.map groupCn = first :: rest) :
    adminGroupsFilter settings userDn = (adminGroupsTree first rest userDn).render id := by
  have opening : '(' :: '&' :: ((equalTo objectClassAttr "groupOfNames".toList).render id ++ ['(', '|']) =
      "(&(objectClass=groupOfNames)(|".toList := rfl
  have closing : ')' :: ((equalTo memberAttr userDn).render id ++ [')']) =
      ")(member=".toList ++ (userDn ++ "))".toList) := by
    rw [equalTo_render, append_assoc, append_assoc userDn]
    rfl
  rw [adminGroupsTree_render, opening, closing, cnFilters_render, ← listed, ← append_assoc, ← append_assoc]
  rfl

theorem adminGroupsTree_values :
    (adminGroupsTree first rest userDn).values = "groupOfNames".toList :: (first :: rest) ++ [userDn] := by
  rw [← cnFilters_values]
  rfl

/-- Both searches mean what their templates say exactly when neither the names of the groups nor the DN need
escapes. -/
theorem filters_parse_iff (template : FilterTree Template)
    (written : template.render Template.text = settings.userFilter)
    (listed : settings.adminGroups.map groupCn = first :: rest) :
    ReadsAs (userSearchFilter settings username) (template.map fun t => plug (utf8 username) t.parts) ∧
        ReadsAs (adminGroupsFilter settings userDn) ((adminGroupsTree first rest userDn).map utf8) ↔
      (∀ group ∈ settings.adminGroups, ∀ c ∈ groupCn group, isNormal c) ∧ ∀ c ∈ userDn, isNormal c := by
  have constant : ∀ c ∈ "groupOfNames".toList, isNormal c := by decide
  have names : (∀ cn ∈ first :: rest, ∀ c ∈ cn, isNormal c) ↔
      ∀ group ∈ settings.adminGroups, ∀ c ∈ groupCn group, isNormal c := by
    rw [← listed, forall_mem_map]
  rw [readsAs_iff_parses, readsAs_iff_parses, and_iff_right (userSearchFilter_parses template written username),
    adminGroupsFilter_eq listed, parses_plain_iff, adminGroupsTree_values,
    forall_mem_append, forall_mem_cons, names, forall_mem_singleton]
  exact and_congr_left' (and_iff_right constant)

def uidAttr : Left := ⟨"uid".toList, .equal, by decide, by decide⟩

def uidTemplate : FilterTree Template := equalTo uidAttr ⟨"{0}".toList, [none], rfl⟩

def uidSettings : LdapSettings where
  url := "ldap://directory"
  bindDn := none
  bindPassword := none
  baseDn := "dc=corp".toList
  userFilter := "(uid={0})".toList
  adminGroups := ["admins".toList]

/-- A username that looks like a filter is searched for as it is. -/
theorem hostile_username_is_literal : ReadsAs (userSearchFilter uidSettings "*)(uid=root".toList)
        (uidTemplate.map fun t => plug (utf8 "*)(uid=root".toList) t.parts) ∧
      ReadsAs (adminGroupsFilter uidSettings "uid=root,dc=corp".toList)
        ((adminGroupsTree "admins".toList [] "uid=root,dc=corp".toList).map utf8) :=
  (filters_parse_iff uidTemplate rfl rfl).mpr ⟨by decide, by decide⟩

/-- A search for members of `admins` with one more condition, which is always true. -/
def widenedTree : FilterTree Str :=
  .and (.cons (equalTo objectClassAttr "groupOfNames".toList) (.cons (.or (cnFilters "admins".toList []))
    (.cons (equalTo memberAttr "uid=x".toList) (.single (.item ⟨objectClassAttr, [], [[]], fun _ => rfl⟩)))))

/-- The DN of a user that contains parentheses and a star is read as part of the filter. -/
theorem dn_is_read_as_filter :
    ReadsAs (adminGroupsFilter uidSettings "uid=x)(objectClass=*".toList) (widenedTree.map utf8) ∧
      ¬ReadsAs (adminGroupsFilter uidSettings "uid=x)(objectClass=*".toList)
        ((adminGroupsTree "admins".toList [] "uid=x)(objectClass=*".toList).map utf8) := by
  constructor
  · have same : adminGroupsFilter uidSettings "uid=x)(objectClass=*".toList = widenedTree.render id := by
      decide +kernel
    rw [same, readsAs_iff_parses, parses_plain_iff]
    decide +kernel
  · have listed : uidSettings.adminGroups.map groupCn = ["admins".toList] := by decide +kernel
    rw [adminGroupsFilter_eq listed, readsAs_iff_parses, parses_plain_iff]
    decide +kernel

end LlmGateway
