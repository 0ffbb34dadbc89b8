import LlmGateway.Account.Ldap

namespace LlmGateway

open Text List

variable {settings : LdapSettings} {directory : Directory} {memberOf : List Str} {userDn dn group cn : Str}

def rdnKey (rdn : Str) : Str := toAsciiLowercase (trim rdn)

def sameDn (left right : Str) : Bool := (left.splitOn ',').map rdnKey == (right.splitOn ',').map rdnKey

def leadingCnIs (dn cn : Str) : Bool :=
  ((dn.splitOn ',').head?.map rdnKey) == some (toAsciiLowercase ("cn=".toList ++ cn))

def entitles (dn group : Str) : Bool := if '=' ∈ group then sameDn dn group else leadingCnIs dn group

/-- The test that `match_admin_groups` makes. -/
def matchesGroup (dn group : Str) : Bool := dn == group || dnHasCn dn [groupCn group]

def strayMatch (dn group : Str) : Bool :=
  if '=' ∈ group then !sameDn dn group && dnHasCn dn [groupCn group]
  else !leadingCnIs dn group && (dn == group || dnHasCn dn [group])

def startsWithCn (rdn : Str) : Bool := "cn=".toList.isPrefixOf (toAsciiLowercase (trim rdn))

def missedSpelling (dn group : Str) : Bool :=
  '=' ∈ group && !(group.splitOn ',').any startsWithCn && sameDn dn group && dn != group

theorem sameDn_iff : sameDn dn group ↔ (dn.splitOn ',').map rdnKey = (group.splitOn ',').map rdnKey := by
  simp [sameDn]

theorem length_rdnKey_le (rdn : Str) : (rdnKey rdn).length ≤ rdn.length := by
  rw [rdnKey, length_toAsciiLowercase]
  exact trim_sublist.length_le

theorem dnHasCn_iff {cns : List Str} : dnHasCn dn cns ↔
    ∃ cn ∈ cns, ∃ rdn ∈ dn.splitOn ',', rdnKey rdn = toAsciiLowercase ("cn=".toList ++ cn) := by
  simp [dnHasCn, eqIgnoreAsciiCase_iff, rdnKey]

theorem dnHasCn_single : dnHasCn dn [cn] ↔
    ∃ rdn ∈ dn.splitOn ',', rdnKey rdn = toAsciiLowercase ("cn=".toList ++ cn) := by
  simp [dnHasCn_iff]

theorem dnHasCn_of_leading (leading : leadingCnIs dn cn) : dnHasCn dn [cn] := by
  rw [leadingCnIs, beq_iff_eq] at leading
  obtain ⟨rdn, first, same⟩ := Option.map_eq_some_iff.mp leading
  exact dnHasCn_single.mpr ⟨rdn, mem_of_head? first, same⟩

theorem groupCn_of_none (none : (group.splitOn ',').any startsWithCn = false) : groupCn group = group := by
  unfold groupCn
  split
  next rdn found =>
    obtain ⟨piece, mem, rfl⟩ := mem_map.mp (mem_of_find?_eq_some found)
    have starts := List.find?_some found
    exact absurd starts (any_eq_false.mp none piece mem)
  · rfl

theorem groupCn_of_some (some : (group.splitOn ',').any startsWithCn) :
    ∃ rdn ∈ group.splitOn ',', rdnKey rdn = toAsciiLowercase ("cn=".toList ++ groupCn group) := by
  unfold groupCn
  split
  next rdn found =>
    obtain ⟨piece, mem, rfl⟩ := mem_map.mp (mem_of_find?_eq_some found)
    have starts := List.find?_some found
    obtain ⟨rest, split⟩ := isPrefixOf_iff_prefix.mp starts
    have lowered : toAsciiLowercase ((trim piece).drop 3) = rest := by
      rw [toAsciiLowercase, map_drop, ← toAsciiLowercase, ← split]
      rfl
    refine ⟨piece, mem, ?_⟩
    rw [rdnKey, toAsciiLowercase_append, lowered, ← split]
    rfl
  next missing =>
    obtain ⟨piece, mem, starts⟩ := any_eq_true.mp some
    exact absurd starts (List.find?_eq_none.mp missing _ (mem_map_of_mem mem))

theorem no_cn_of_bare (bare : '=' ∉ group) : (group.splitOn ',').any startsWithCn = false := by
  rw [any_eq_false]
  intro rdn mem starts
  obtain ⟨rest, split⟩ := isPrefixOf_iff_prefix.mp starts
  have inside : '=' ∈ toAsciiLowercase (trim rdn) := by
    rw [← split]
    simp
  exact bare ((trim_sublist.trans (splitOn_sublist mem)).subset (equals_mem_toAsciiLowercase.mp inside))

theorem dnHasCn_of_sameDn (same : sameDn dn group) (some : (group.splitOn ',').any startsWithCn) :
    dnHasCn dn [groupCn group] := by
  obtain ⟨rdn, mem, key⟩ := groupCn_of_some some
  have inside : rdnKey rdn ∈ (dn.splitOn ',').map rdnKey := sameDn_iff.mp same ▸ mem_map_of_mem mem
  obtain ⟨other, known, equal⟩ := mem_map.mp inside
  exact dnHasCn_single.mpr ⟨other, known, equal.trans key⟩

theorem not_dnHasCn_self (same : sameDn dn group) : dnHasCn dn [group] = false := by
  refine Bool.eq_false_iff.mpr fun has => ?_
  obtain ⟨rdn, mem, key⟩ := dnHasCn_single.mp has
  have inside : rdnKey rdn ∈ (group.splitOn ',').map rdnKey := sameDn_iff.mp same ▸ mem_map_of_mem mem
  obtain ⟨other, known, equal⟩ := mem_map.mp inside
  have short := Nat.le_trans (length_rdnKey_le other) (splitOn_sublist known).length_le
  have long := congrArg List.length (equal.trans key)
  simp only [length_toAsciiLowercase, length_append] at long
  have three : "cn=".toList.length = 3 := rfl
  omega

theorem strayMatch_iff : strayMatch dn group ↔ matchesGroup dn group ∧ entitles dn group = false := by
  unfold strayMatch entitles matchesGroup
  split
  · have self : dn = group → sameDn dn group := by
      rintro rfl
      simp [sameDn]
    grind
  next bare =>
    rw [groupCn_of_none (no_cn_of_bare bare)]
    grind

theorem missedSpelling_iff : missedSpelling dn group ↔ entitles dn group ∧ matchesGroup dn group = false := by
  unfold missedSpelling entitles matchesGroup
  split
  · cases starts : (group.splitOn ',').any startsWithCn with
    | true =>
      have hit : sameDn dn group → dnHasCn dn [groupCn group] := fun same =>
        dnHasCn_of_sameDn same starts
      grind
    | false =>
      have missed : sameDn dn group → dnHasCn dn [group] = false := not_dnHasCn_self
      rw [groupCn_of_none starts]
      grind
  next bare =>
    rw [groupCn_of_none (no_cn_of_bare bare)]
    have hit : leadingCnIs dn group → dnHasCn dn [group] := dnHasCn_of_leading
    grind

theorem matchesGroup_iff : matchesGroup dn group ↔
    strayMatch dn group ∨ entitles dn group ∧ missedSpelling dn group = false := by
  have stray : strayMatch dn group ↔ _ := strayMatch_iff
  have missed : missedSpelling dn group ↔ _ := missedSpelling_iff
  grind

theorem matchAdminGroups_iff (mem : memberOf ≠ []) :
    matchAdminGroups settings directory memberOf userDn = .ok true ↔
      ∃ dn ∈ memberOf, ∃ group ∈ settings.adminGroups, matchesGroup dn group := by
  have exact : settings.adminGroups.any (fun group => memberOf.any (· == group)) ↔
      ∃ dn ∈ memberOf, dn ∈ settings.adminGroups := by
    simp only [any_eq_true, beq_iff_eq]
    constructor
    · rintro ⟨_, inside, dn, known, rfl⟩
      exact ⟨dn, known, inside⟩
    · rintro ⟨dn, known, inside⟩
      exact ⟨dn, inside, dn, known, rfl⟩
  have byName : memberOf.any (fun dn => dnHasCn dn (settings.adminGroups.map groupCn)) ↔
      ∃ dn ∈ memberOf, ∃ group ∈ settings.adminGroups, dnHasCn dn [groupCn group] := by
    simp [dnHasCn_iff]
  have tests : (∃ dn ∈ memberOf, ∃ group ∈ settings.adminGroups, matchesGroup dn group) ↔
      (∃ dn ∈ memberOf, dn ∈ settings.adminGroups) ∨
        ∃ dn ∈ memberOf, ∃ group ∈ settings.adminGroups, dnHasCn dn [groupCn group] := by
    simp [matchesGroup, and_or_left, exists_or]
  rw [tests, ← exact, ← byName, matchAdminGroups]
  by_cases none : settings.adminGroups = []
  · simp [none, dnHasCn]
  · simp only [List.isEmpty_iff, none, if_false]
    grind

/-- Membership decides as configured exactly when neither a stray match nor a respelled DN without a common name
stands alone. -/
theorem admin_match_exact_iff (member : memberOf ≠ []) :
    (matchAdminGroups settings directory memberOf userDn = .ok true ↔
      ∃ dn ∈ memberOf, ∃ group ∈ settings.adminGroups, entitles dn group) ↔
    ((∃ dn ∈ memberOf, ∃ group ∈ settings.adminGroups, strayMatch dn group) →
      ∃ dn ∈ memberOf, ∃ group ∈ settings.adminGroups, entitles dn group) ∧
    ((∃ dn ∈ memberOf, ∃ group ∈ settings.adminGroups, missedSpelling dn group) →
      ∃ dn ∈ memberOf, ∃ group ∈ settings.adminGroups,
        strayMatch dn group ∨ entitles dn group ∧ missedSpelling dn group = false) := by
  rw [matchAdminGroups_iff member]
  simp only [matchesGroup_iff]
  constructor
  · intro same
    refine ⟨fun ⟨dn, known, group, listed, stray⟩ => same.mp ⟨dn, known, group, listed, .inl stray⟩, ?_⟩
    rintro ⟨dn, known, group, listed, missed⟩
    exact same.mpr ⟨dn, known, group, listed, (missedSpelling_iff.mp missed).1⟩
  · rintro ⟨strays, respelled⟩
    constructor
    · rintro ⟨dn, known, group, listed, stray | ⟨entitled, -⟩⟩
      · exact strays ⟨dn, known, group, listed, stray⟩
      · exact ⟨dn, known, group, listed, entitled⟩
    · rintro ⟨dn, known, group, listed, entitled⟩
      cases missed : missedSpelling dn group with
      | true => exact respelled ⟨dn, known, group, listed, missed⟩
      | false => exact ⟨dn, known, group, listed, .inr ⟨entitled, missed⟩⟩

def silentDirectory : Directory where
  connect := .ok ()
  simpleBind _ _ := .ok 0
  search _ _ := .ok []
  timedOut := false

/-- The group `admins` below `ou=groups` is the configured one. -/
def oneAdminGroup : LdapSettings where
  url := "ldap://directory"
  bindDn := none
  bindPassword := none
  baseDn := "dc=corp".toList
  userFilter := "(uid={0})".toList
  adminGroups := ["cn=admins,ou=groups,dc=corp".toList]

/-- The group of the same name in another part of the tree makes an admin. -/
theorem foreign_group_is_admin :
    matchAdminGroups oneAdminGroup silentDirectory ["cn=admins,ou=printers,dc=corp".toList] [] = .ok true ∧
      ∀ group ∈ oneAdminGroup.adminGroups, entitles "cn=admins,ou=printers,dc=corp".toList group = false := by
  constructor
  · rfl
  · decide +kernel

/-- With the configured group among the memberships the answer is right, whatever else is there. -/
theorem configured_group_is_admin :
    matchAdminGroups oneAdminGroup silentDirectory
      ["CN=Admins, OU=groups, DC=corp".toList, "cn=admins,ou=printers,dc=corp".toList] [] = .ok true ↔
      ∃ dn ∈ ["CN=Admins, OU=groups, DC=corp".toList, "cn=admins,ou=printers,dc=corp".toList],
        ∃ group ∈ oneAdminGroup.adminGroups, entitles dn group := by
  refine (admin_match_exact_iff (by decide)).mpr ⟨fun _ => ?_, ?_⟩
  · decide +kernel
  · decide +kernel

end LlmGateway
