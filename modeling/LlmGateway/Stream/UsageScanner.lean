import LlmGateway.Lib.JsonText
import LlmGateway.Stream.SseTokens
import LlmGateway.Stream.UsageFrames

namespace LlmGateway

open Pattern List

def contains (text pattern : Str) : Bool := (Text.cutAt pattern text).isSome

def frameMayCarryUsageOrTerminal (text : Str) : Bool :=
  contains text doneMark || contains text "usage".toList || terminalTypes.any (contains text)

section Scanner

variable [FloatText]

def feedLine (found : Option Usage × Bool) (line : Str) : Option Usage × Bool :=
  match stripStart "data:".toList line with
  | none => found
  | some value =>
    if Text.trim value = doneMark then (found.1, true)
    else match Json.parse (Text.trim value) with
      | some v => feedValue found v
      | none => found

/-- One event of `feed_sse`. Its lines are read one by one. -/
def feedEvent (usage : Option Usage) (event : List UInt8) : Option Usage × Bool :=
  let text := Utf8.decodeLossy event
  if frameMayCarryUsageOrTerminal text then (lines text).foldl feedLine (usage, false) else (usage, false)

/-- The loop of `feed_sse`: the bytes left, the usage and whether a terminal event has come. -/
def scanEvents : Nat → Option Usage → List UInt8 → List UInt8 × Option Usage × Bool
  | 0, usage, buf => (buf, usage, false)
  | rounds + 1, usage, buf =>
    match findEventEnd buf with
    | none => (buf, usage, false)
    | some idx =>
      let (usage, done) := feedEvent usage (buf.take idx)
      if done then (buf.drop idx, usage, true) else scanEvents rounds usage (buf.drop idx)

def feedSse (buf chunk : List UInt8) : List UInt8 × Option Usage × Bool :=
  let (rest, usage, done) := scanEvents (buf ++ chunk).length none (buf ++ chunk)
  (if ChatSseParser.maxBuffer < rest.length then [] else rest, usage, done)

/-- The scanner of `wrap_stream`. -/
def byteScanner : SseScanner (List UInt8) (List UInt8) := ⟨feedSse, lfBlank, []⟩

end Scanner

section Blank

variable {buf rest : List UInt8}

theorem findEventEnd_of_blank (ends : lfBlank <:+ buf) : findEventEnd buf ≠ none := by
  obtain ⟨front, rfl⟩ := ends
  rw [findEventEnd_eq]
  intro absent
  obtain ⟨lf, -⟩ := Option.or_eq_none_iff.mp absent
  rw [firstEnd_append, Option.or_eq_none_iff, Option.map_eq_none_iff] at lf
  have last : firstEnd lfBlank front [0x0A, 0x0A] = none := lf.2
  rw [firstEnd] at last
  split at last
  · cases last
  · rw [firstEnd_lfBlank_newline] at last
    cases last

theorem rest_of_blank (left : rest <:+ buf ++ lfBlank) (absent : findEventEnd rest = none) :
    rest = [] ∨ rest = [0x0A] := by
  by_cases short : rest.length < lfBlank.length
  · have inside := suffix_of_suffix_length_le left (suffix_append buf lfBlank) short.le
    rw [lfBlank, suffix_cons_iff, suffix_cons_iff, suffix_nil] at inside
    rcases inside with rfl | rfl | rfl
    · simp [lfBlank] at short
    · exact .inr rfl
    · exact .inl rfl
  · have blank := suffix_of_suffix_length_le (suffix_append buf lfBlank) left (by omega)
    exact absurd absent (findEventEnd_of_blank blank)

variable [FloatText]

theorem scanEvents_left (rounds : Nat) (usage : Option Usage) (enough : buf.length ≤ rounds) :
    (scanEvents rounds usage buf).1 <:+ buf ∧
      ((scanEvents rounds usage buf).2.2 = false → findEventEnd (scanEvents rounds usage buf).1 = none) := by
  induction rounds generalizing usage buf with
  | zero =>
    obtain rfl := length_eq_zero_iff.mp (Nat.le_zero.mp enough)
    exact ⟨suffix_refl _, fun _ => rfl⟩
  | succ rounds ih =>
    rw [scanEvents]
    cases found : findEventEnd buf with
    | none => exact ⟨suffix_refl _, fun _ => found⟩
    | some idx =>
      dsimp only
      split
      · exact ⟨drop_suffix _ _, nofun⟩
      · have shorter : (buf.drop idx).length ≤ rounds := by
          have := findEventEnd_pos found
          rw [length_drop]
          omega
        obtain ⟨suffix, clean⟩ := ih (feedEvent usage (buf.take idx)).1 shorter
        exact ⟨suffix.trans (drop_suffix _ _), clean⟩

theorem feedSse_blank_twice (buf : List UInt8) (undone : (feedSse buf lfBlank).2.2 = false) :
    (feedSse (feedSse buf lfBlank).1 lfBlank).2 = (none, false) := by
  obtain ⟨suffix, clean⟩ := scanEvents_left (buf ++ lfBlank).length none (Nat.le_refl _)
  have left : (feedSse buf lfBlank).1 = [] ∨ (feedSse buf lfBlank).1 = [0x0A] := by
    rcases rest_of_blank suffix (clean undone) with rest | rest
    · exact .inl (by simp only [feedSse, rest]; rfl)
    · exact .inr (by simp only [feedSse, rest]; rfl)
  rcases left with left | left <;> rw [left] <;> rfl

end Blank

end LlmGateway
