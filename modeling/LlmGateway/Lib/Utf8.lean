import Mathlib.Data.List.Basic

namespace Utf8

def encode (text : String) : List UInt8 := text.toList.flatMap String.utf8EncodeChar

/-- Inside a character a decoder knows its bits, the continuation bytes still owed and the range of the next one. -/
inductive Decoder
  | start
  | inside (bits : Nat) (owed : Nat) (low high : UInt8)

def replacement : Char := Char.ofNat 0xFFFD

/-- The first byte of a character. The ranges after `E0`, `ED`, `F0` and `F4` are narrower. -/
def lead (byte : UInt8) : List Char × Decoder :=
  if byte < 0x80 then ([Char.ofNat byte.toNat], .start)
  else if byte < 0xC2 then ([replacement], .start)
  else if byte < 0xE0 then ([], .inside (byte.toNat - 0xC0) 1 0x80 0xBF)
  else if byte < 0xF0 then
    ([], .inside (byte.toNat - 0xE0) 2 (if byte = 0xE0 then 0xA0 else 0x80) (if byte = 0xED then 0x9F else 0xBF))
  else if byte < 0xF5 then
    ([], .inside (byte.toNat - 0xF0) 3 (if byte = 0xF0 then 0x90 else 0x80) (if byte = 0xF4 then 0x8F else 0xBF))
  else ([replacement], .start)

/-- A byte that cannot go on with a character ends it as a replacement character and is read again. -/
def Decoder.read (decoder : Decoder) (byte : UInt8) : List Char × Decoder :=
  match decoder with
  | .start => lead byte
  | .inside bits owed low high =>
    if low ≤ byte ∧ byte ≤ high then
      let bits := bits * 64 + (byte.toNat - 0x80)
      if owed = 1 then ([Char.ofNat bits], .start) else ([], .inside bits (owed - 1) 0x80 0xBF)
    else (replacement :: (lead byte).1, (lead byte).2)

def Decoder.decode (decoder : Decoder) : List UInt8 → List Char
  | [] => match decoder with
    | .start => []
    | .inside .. => [replacement]
  | byte :: rest => (decoder.read byte).1 ++ (decoder.read byte).2.decode rest

/-- Lossy decoding: every maximal part that is no character is one replacement character. -/
def decodeLossy (bytes : List UInt8) : List Char := Decoder.start.decode bytes

/-- No byte below the continuation bytes can go on with a character. -/
def Decoder.Sound : Decoder → Prop
  | .start => True
  | .inside _ _ low _ => 0x80 ≤ low

theorem lead_sound (byte : UInt8) : (lead byte).2.Sound := by
  simp only [lead]
  repeat' split
  all_goals simp [Decoder.Sound]

theorem Decoder.Sound.read {decoder : Decoder} (sound : decoder.Sound) (byte : UInt8) :
    (decoder.read byte).2.Sound := by
  cases decoder with
  | start => exact lead_sound byte
  | inside bits owed low high =>
    simp only [Decoder.read]
    split
    · split
      · trivial
      · exact UInt8.le_refl _
    · exact lead_sound byte

/-- A newline ends whatever comes before it, and what follows is decoded on its own. -/
theorem Decoder.Sound.decode_newline {decoder : Decoder} (sound : decoder.Sound) (bytes : List UInt8) :
    ∃ text, ∀ rest, decoder.decode (bytes ++ 0x0A :: rest) = text ++ '\n' :: decodeLossy rest := by
  induction bytes generalizing decoder with
  | nil =>
    cases decoder with
    | start => exact ⟨[], fun _ => rfl⟩
    | inside bits owed low high =>
      have outside : ¬(low ≤ 0x0A ∧ 0x0A ≤ high) := fun inside => by
        have := UInt8.le_trans sound inside.1
        simp at this
      refine ⟨[replacement], fun rest => ?_⟩
      rw [List.nil_append, Decoder.decode, Decoder.read, if_neg outside]
      rfl
  | cons byte bytes ih =>
    obtain ⟨text, split⟩ := ih (sound.read byte)
    exact ⟨(decoder.read byte).1 ++ text, fun rest => by
      rw [List.cons_append, Decoder.decode, split, List.append_assoc]⟩

theorem decodeLossy_newline (bytes : List UInt8) :
    ∃ text, ∀ rest, decodeLossy (bytes ++ 0x0A :: rest) = text ++ '\n' :: decodeLossy rest :=
  (show Decoder.start.Sound from trivial).decode_newline bytes

example : decodeLossy (encode "aé€😀") = "aé€😀".toList := by decide +kernel

example : decodeLossy [0xF0, 0x9F, 0x61, 0xC0] = [replacement, 'a', replacement] := by decide

end Utf8
