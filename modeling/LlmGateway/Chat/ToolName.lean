import LlmGateway.Responses.ToolContext

namespace ShortSha256

/-- The digest is written with sixteen ASCII characters. -/
structure Hexadecimal [ShortSha256] : Prop where
  length : ∀ text, (hex text).length = 16
  bytes : ∀ text, Text.utf8Len (hex text) = 16

/-- One digest for all names, where no two of them are cut. -/
@[reducible] def zeros : ShortSha256 := ⟨fun _ => List.replicate 16 '0'⟩

theorem zeros_hexadecimal : @Hexadecimal zeros := @Hexadecimal.mk zeros (fun _ => rfl) (fun _ => rfl)

end ShortSha256

namespace LlmGateway

open Text

theorem utf8Len_takeBytes (bytes : Nat) (text : Str) : utf8Len (takeBytes bytes text) ≤ bytes := by
  induction text generalizing bytes with
  | nil => exact Nat.zero_le _
  | cons c rest ih =>
    unfold takeBytes
    split_ifs with fits
    · have := ih (bytes - c.utf8Size)
      rw [utf8Len_cons]
      omega
    · exact Nat.zero_le _

variable [ShortSha256]

def isLongName (full : Str) : Bool := chatToolNameMaxLen < utf8Len full

def cutName (full : Str) : Str :=
  let suffix := "__".toList ++ ShortSha256.hex full
  takeBytes (chatToolNameMaxLen - utf8Len suffix) full ++ suffix

def shortName (full : Str) : Str := if isLongName full then cutName full else full

theorem flattenNamespaceToolName_eq (ns name : Str) :
    flattenNamespaceToolName ns name = shortName (ns ++ "__".toList ++ name) := by
  unfold flattenNamespaceToolName shortName isLongName
  by_cases short : utf8Len (ns ++ "__".toList ++ name) ≤ chatToolNameMaxLen
  · rw [if_pos short, if_neg (by simpa using short)]
  · rw [if_neg short, if_pos (by simpa using short)]
    rfl

theorem utf8Len_shortName (hexadecimal : ShortSha256.Hexadecimal) (full : Str) :
    utf8Len (shortName full) ≤ chatToolNameMaxLen := by
  unfold shortName
  split_ifs with long
  · have suffix : utf8Len ("__".toList ++ ShortSha256.hex full) = 18 := by
      rw [utf8Len_append, hexadecimal.bytes]
      rfl
    have start := utf8Len_takeBytes (chatToolNameMaxLen - 18) full
    simp only [cutName, utf8Len_append, suffix] at start ⊢
    simp only [chatToolNameMaxLen] at start ⊢
    omega
  · simpa [isLongName] using long

theorem hex_eq_of_cutName (hexadecimal : ShortSha256.Hexadecimal) {x y : Str} (same : cutName x = cutName y) :
    ShortSha256.hex x = ShortSha256.hex y := by
  unfold cutName at same
  simp only [← List.append_assoc] at same
  exact (List.append_inj' same (by rw [hexadecimal.length, hexadecimal.length])).2

theorem isBlank_shortName {full : Str} (solid : '_' ∈ full) : (trim (shortName full)).isEmpty = false := by
  rw [← Bool.not_eq_true, isEmpty_trim_iff]
  intro blank
  have mark : '_' ∈ shortName full := by
    unfold shortName cutName
    split_ifs
    · simp
    · exact solid
  cases blank '_' mark

end LlmGateway
