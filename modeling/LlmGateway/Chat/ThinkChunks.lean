import LlmGateway.Chat.InlineThink

namespace LlmGateway

open Text List Option

def afterThinkOpen (text : Str) : Str := ((cutAt thinkOpen text).map Prod.snd).getD []

def streamedThink (text : Str) : Str × Str :=
  match leadingThinkPrefixDecision text with
  | .reasoning => (splitLeadingThink text).getD (afterThinkOpen text, [])
  | _ => ([], text)

theorem flatten_unlessEmpty (text : Str) : (if text.isEmpty then [] else [text]).flatten = text := by
  cases text <;> simp

section Opened

open InlineThinkState

variable {text before rest : Str} (opened : cutAt thinkOpen text = some (before, rest))
include opened

theorem feed_reasoning (decision : leadingThinkPrefixDecision text = .reasoning) :
    new.feed text = emitReasoning ⟨.reasoning, rest⟩ := by
  rw [feed, new]
  dsimp only
  rw [nil_append, decision]
  rw [stripOpenTag, opened]

theorem splitLeadingThink_eq : splitLeadingThink text = cutAt thinkClose rest := by
  rw [splitLeadingThink, opened]
  rfl

end Opened

def ThinkBlock (text rest : Str) : Prop :=
  rest ≠ [] ∧ ∃ blank, (∀ c ∈ blank, isWhitespace c) ∧ text = blank ++ (thinkOpen ++ rest)

section Decision

variable {text rest more : Str}

theorem trimStart_blank {blank : Str} (blanks : ∀ c ∈ blank, isWhitespace c) (text : Str) :
    trimStart (blank ++ text) = trimStart text := by
  rw [trimStart, dropWhile_append_of_pos blanks, trimStart]

theorem trimStart_append (solid : trimStart text ≠ []) (more : Str) :
    trimStart (text ++ more) = trimStart text ++ more := by
  rw [trimStart, dropWhile_append, if_neg (by rwa [List.isEmpty_iff]), trimStart]

theorem thinkOpen_solid (rest : Str) : trimStart (thinkOpen ++ rest) = thinkOpen ++ rest := rfl

theorem ThinkBlock.trimmed (block : ThinkBlock text rest) : trimStart text = thinkOpen ++ rest := by
  obtain ⟨_, blank, blanks, rfl⟩ := block
  rw [trimStart_blank blanks, thinkOpen_solid]

theorem ThinkBlock.append (block : ThinkBlock text rest) (more : Str) :
    ThinkBlock (text ++ more) (rest ++ more) := by
  obtain ⟨filled, blank, blanks, rfl⟩ := block
  refine ⟨by simp [filled], blank, blanks, ?_⟩
  simp

theorem takeWhile_blank (text : Str) : ∀ c ∈ text.takeWhile isWhitespace, isWhitespace c :=
  fun _ => mem_takeWhile_imp

theorem eq_blank_append (opens : thinkOpen ++ rest = trimStart text) :
    text = text.takeWhile isWhitespace ++ (thinkOpen ++ rest) := by
  rw [opens, trimStart, takeWhile_append_dropWhile]

theorem decision_reasoning_iff : leadingThinkPrefixDecision text = .reasoning ↔ ∃ rest, ThinkBlock text rest := by
  constructor
  · intro decision
    unfold leadingThinkPrefixDecision at decision
    dsimp only at decision
    split_ifs at decision with blank short opens
    obtain ⟨rest, opens⟩ := isPrefixOf_iff_prefix.mp opens
    refine ⟨rest, ?_, text.takeWhile isWhitespace, takeWhile_blank text, eq_blank_append opens⟩
    rintro rfl
    exact short (by rw [← opens]; decide)
  · rintro ⟨rest, block⟩
    have longer : (thinkOpen ++ rest).isPrefixOf thinkOpen = false := by
      rw [Bool.eq_false_iff, Ne, isPrefixOf_iff_prefix]
      intro short
      have bound := short.length_le
      rw [length_append] at bound
      have filled := length_pos_iff.mpr block.1
      omega
    have opens : thinkOpen.isPrefixOf (thinkOpen ++ rest) :=
      isPrefixOf_iff_prefix.mpr (prefix_append _ _)
    rw [leadingThinkPrefixDecision, block.trimmed]
    rw [if_neg (by simp [thinkOpen]), longer, opens]
    rfl

theorem decision_text_append (decision : leadingThinkPrefixDecision text = .text) (more : Str) :
    leadingThinkPrefixDecision (text ++ more) = .text := by
  unfold leadingThinkPrefixDecision at decision
  dsimp only at decision
  split_ifs at decision with blank short opens
  replace short := mt isPrefixOf_iff_prefix.mpr short
  replace opens := mt isPrefixOf_iff_prefix.mpr opens
  have solid : trimStart text ≠ [] := by simpa using blank
  rw [leadingThinkPrefixDecision, trimStart_append solid]
  have still : ¬ (trimStart text ++ more).isPrefixOf thinkOpen := by
    intro whole
    have within := isPrefixOf_iff_prefix.mp whole
    exact short ((prefix_append _ _).trans within)
  have closed : ¬ thinkOpen.isPrefixOf (trimStart text ++ more) := by
    intro starts
    have opening := isPrefixOf_iff_prefix.mp starts
    rcases prefix_or_prefix_of_prefix opening (prefix_append (trimStart text) more) with inside | outside
    · exact opens inside
    · exact short outside
  rw [if_neg (by simp [solid]), if_neg still, if_neg closed]

theorem cutAt_open_blank {blank : Str} (blanks : ∀ c ∈ blank, isWhitespace c) (rest : Str) :
    cutAt thinkOpen (blank ++ (thinkOpen ++ rest)) = some (blank, rest) := by
  refine cutAt_eq_some_iff.mpr ⟨rfl, ?_⟩
  intro i inside starts
  have first : ((blank ++ (thinkOpen ++ rest)).drop i).head? = some (blank.get ⟨i, inside⟩) := by
    rw [List.head?_drop, List.getElem?_append_left inside]
    exact List.getElem?_eq_getElem inside
  have tag : ((blank ++ (thinkOpen ++ rest)).drop i).head? = some '<' := by
    obtain ⟨tail, whole⟩ := starts
    rw [← whole]
    rfl
  have space := blanks _ (get_mem blank ⟨i, inside⟩)
  rw [Option.some.inj (first.symm.trans tag)] at space
  exact absurd space (by decide)

theorem ThinkBlock.cutAt_open (block : ThinkBlock text rest) :
    ∃ blank, (∀ c ∈ blank, isWhitespace c) ∧ cutAt thinkOpen text = some (blank, rest) := by
  obtain ⟨_, blank, blanks, rfl⟩ := block
  exact ⟨blank, blanks, cutAt_open_blank blanks rest⟩

theorem ThinkBlock.streamedThink_eq (block : ThinkBlock text rest) :
    streamedThink text = (cutAt thinkClose rest).getD (rest, []) := by
  obtain ⟨blank, _, opened⟩ := block.cutAt_open
  have after : afterThinkOpen text = rest := by
    rw [afterThinkOpen, opened]
    rfl
  rw [streamedThink, decision_reasoning_iff.mpr ⟨rest, block⟩, splitLeadingThink_eq opened, after]

theorem streamedThink_of_not_block (other : ¬ ∃ rest, ThinkBlock text rest) : streamedThink text = ([], text) := by
  rw [← decision_reasoning_iff] at other
  rw [streamedThink]
  cases decision : leadingThinkPrefixDecision text with
  | needMore => rfl
  | reasoning => exact absurd decision other
  | text => rfl

end Decision

theorem le_find?_range' {p : Nat → Bool} {k n : Nat} (positive : 1 ≤ k) (within : k ≤ n) (holds : p k) :
    k ≤ ((List.range' 1 n).reverse.find? p).getD 0 := by
  induction n with
  | zero => omega
  | succ n ih =>
    rw [List.range'_concat, reverse_append, reverse_singleton, singleton_append, List.find?_cons]
    cases last : p (1 + 1 * n) with
    | true =>
      rw [getD_some]
      omega
    | false =>
      have other : k ≠ n + 1 := by
        rintro rfl
        rw [show 1 + 1 * n = n + 1 by omega, holds] at last
        cases last
      exact ih (by omega)

theorem le_partialCloseSuffixLen {buffer tail : Str} (part : tail <:+ buffer) (start : tail <+: thinkClose) :
    tail.length ≤ partialCloseSuffixLen buffer := by
  cases tail with
  | nil => exact Nat.zero_le _
  | cons c rest =>
    have ends : buffer.drop (buffer.length - (c :: rest).length) = c :: rest := (suffix_iff_eq_drop.mp part).symm
    have starts : thinkClose.take (c :: rest).length = c :: rest := (prefix_iff_eq_take.mp start).symm
    refine le_find?_range' (by simp) (le_min start.length_le part.length_le) ?_
    rw [ends, starts, beq_self_eq_true]

/-- No closing tag starts in what is sent, whatever comes later. -/
theorem cutAt_close_held {buffer : Str} (absent : cutAt thinkClose buffer = none) (more : Str) :
    let emit := buffer.length - partialCloseSuffixLen buffer
    cutAt thinkClose (buffer ++ more) =
      (cutAt thinkClose (buffer.drop emit ++ more)).map fun pieces => (buffer.take emit ++ pieces.1, pieces.2) := by
  intro emit
  have within : emit ≤ buffer.length := Nat.sub_le _ _
  have absent : ∀ i < emit, ¬ thinkClose <+: (buffer ++ more).drop i := by
    intro i earlier starts
    rw [drop_append_of_le_length (by omega)] at starts
    rcases prefix_or_prefix_of_prefix starts (prefix_append (buffer.drop i) more) with inside | outside
    · exact not_prefix_of_cutAt_eq_none absent i inside
    · have held := le_partialCloseSuffixLen (drop_suffix i buffer) outside
      rw [length_drop] at held
      omega
  rw [cutAt_skip (by rw [length_append]; omega) absent, drop_append_of_le_length within,
    take_append_of_le_length within]

namespace InlineThinkState

def feedAll (state : InlineThinkState) : List Str → (Str × Str) × InlineThinkState
  | [] => (([], []), state)
  | chunk :: rest =>
    let (sent, next) := state.feed chunk
    let (later, last) := next.feedAll rest
    ((sent.1.flatten ++ later.1, sent.2.flatten ++ later.2), last)

def separate (chunks : List Str) : Str × Str :=
  let (sent, last) := new.feedAll chunks
  let rest := last.flush.1
  (sent.1 ++ rest.1.flatten, sent.2 ++ rest.2.flatten)

/-- Where a state stands that has read `text` and sent `reasoning` and `said`. -/
inductive Separating : (text reasoning said : Str) → InlineThinkState → Prop
  | detecting {text} (waiting : leadingThinkPrefixDecision text = .needMore) :
    Separating text [] [] ⟨.detecting, text⟩
  | reasoning {text sent held} (block : ThinkBlock text (sent ++ held))
      (inside : cutAt thinkClose (sent ++ held) = none)
      (apart : ∀ more, cutAt thinkClose (sent ++ held ++ more) =
        (cutAt thinkClose (held ++ more)).map fun pieces => (sent ++ pieces.1, pieces.2)) :
      Separating text sent [] ⟨.reasoning, held⟩
  | text {text reasoning said} (settled : ∀ more, streamedThink (text ++ more) = (reasoning, said ++ more)) :
      Separating text reasoning said ⟨.text, []⟩

variable {text reasoning said : Str} {state : InlineThinkState}

theorem separating_new : Separating [] [] [] new := .detecting rfl

theorem emitReasoning_separating {sent buffer : Str} (block : ThinkBlock text (sent ++ buffer))
    (apart : cutAt thinkClose (sent ++ buffer) =
      (cutAt thinkClose buffer).map fun pieces => (sent ++ pieces.1, pieces.2))
    (later : ∀ more, cutAt thinkClose buffer = none → cutAt thinkClose (sent ++ buffer ++ more) =
      (cutAt thinkClose (buffer ++ more)).map fun pieces => (sent ++ pieces.1, pieces.2)) :
    let step := emitReasoning ⟨.reasoning, buffer⟩
    Separating text (sent ++ step.1.1.flatten) step.1.2.flatten step.2 := by
  cases closing : cutAt thinkClose buffer with
  | some pieces =>
    rw [closing, map_some] at apart
    simp only [emitReasoning, closing, flatten_unlessEmpty]
    refine .text fun more => ?_
    rw [(block.append more).streamedThink_eq, cutAt_append apart more, getD_some]
  | none =>
    rw [closing, map_none] at apart
    have later := fun more => later more closing
    simp only [emitReasoning, closing]
    by_cases held : buffer.length = partialCloseSuffixLen buffer
    · rw [if_pos held]
      simpa using Separating.reasoning block apart later
    · rw [if_neg held]
      have whole : sent ++ buffer.take (buffer.length - partialCloseSuffixLen buffer) ++
          buffer.drop (buffer.length - partialCloseSuffixLen buffer) = sent ++ buffer := by
        rw [append_assoc, take_append_drop]
      simp only [flatten_singleton, flatten_nil]
      refine .reasoning (by rwa [whole]) (by rwa [whole]) fun more => ?_
      rw [whole, later more, cutAt_close_held closing more, Option.map_map]
      simp [Function.comp_def]

theorem feed_separating (before : Separating text reasoning said state) (chunk : Str) :
    let step := state.feed chunk
    Separating (text ++ chunk) (reasoning ++ step.1.1.flatten) (said ++ step.1.2.flatten) step.2 := by
  cases before with
  | detecting waiting =>
    simp only [feed]
    cases decision : leadingThinkPrefixDecision (text ++ chunk) with
    | needMore => exact .detecting decision
    | text =>
      refine .text fun more => ?_
      rw [streamedThink, decision_text_append decision more]
      simp
    | reasoning =>
      obtain ⟨rest, block⟩ := decision_reasoning_iff.mp decision
      obtain ⟨blank, _, opened⟩ := block.cutAt_open
      simp only [stripOpenTag, opened, nil_append]
      have block : ThinkBlock (text ++ chunk) ([] ++ rest) := block
      simpa using emitReasoning_separating block (by simp) (by simp)
  | reasoning block inside apart =>
    refine emitReasoning_separating ?_ ?_ fun more _ => ?_
    · rw [← append_assoc]
      exact block.append chunk
    · rw [← append_assoc]
      exact apart chunk
    · rw [← append_assoc, append_assoc, apart, append_assoc]
  | text settled =>
    simp only [feed, flatten_nil, append_nil, flatten_singleton]
    refine .text fun more => ?_
    rw [append_assoc, settled, append_assoc]

theorem feedAll_separating (before : Separating text reasoning said state) (chunks : List Str) :
    let run := state.feedAll chunks
    Separating (text ++ chunks.flatten) (reasoning ++ run.1.1) (said ++ run.1.2) run.2 := by
  induction chunks generalizing text reasoning said state with
  | nil => simpa [feedAll] using before
  | cons chunk rest ih =>
    have run := ih (feed_separating before chunk)
    simpa [feedAll, flatten_cons] using run

theorem flush_separating (before : Separating text reasoning said state) :
    streamedThink text = (reasoning ++ state.flush.1.1.flatten, said ++ state.flush.1.2.flatten) := by
  cases before with
  | detecting waiting =>
    simp only [flush, flatten_unlessEmpty, streamedThink, waiting]
    simp
  | reasoning block inside apart =>
    rw [block.streamedThink_eq, inside]
    simp only [flush, flatten_unlessEmpty, getD_none, flatten_nil, append_nil]
  | text settled => simpa [flush] using settled []

theorem separate_eq (chunks : List Str) : separate chunks = streamedThink chunks.flatten := by
  have run := feedAll_separating separating_new chunks
  have whole := flush_separating run
  exact whole.symm

/-- Reasoning and text do not depend on where the chunks are cut. -/
theorem separate_spec (chunks : List Str) :
    (∀ rest, ThinkBlock chunks.flatten rest → separate chunks = (cutAt thinkClose rest).getD (rest, [])) ∧
      ((¬ ∃ rest, ThinkBlock chunks.flatten rest) → separate chunks = ([], chunks.flatten)) := by
  rw [separate_eq]
  exact ⟨fun rest block => block.streamedThink_eq, streamedThink_of_not_block⟩

theorem separate_split_tags :
    ThinkBlock [" <th".toList, "ink>a</th".toList, "ink>b".toList].flatten "a</think>b".toList ∧
      separate [" <th".toList, "ink>a</th".toList, "ink>b".toList] = ("a".toList, "b".toList) := by
  have block : ThinkBlock [" <th".toList, "ink>a</th".toList, "ink>b".toList].flatten "a</think>b".toList :=
    ⟨by decide, [' '], by decide, by decide⟩
  have parts := (separate_spec [" <th".toList, "ink>a</th".toList, "ink>b".toList]).1 _ block
  exact ⟨block, parts.trans (by decide)⟩

end InlineThinkState

section Split

open InlineThinkState

def closedBlock (text : Str) : Option (Str × Str) :=
  match leadingThinkPrefixDecision text, (InlineThinkState.new.feed text).2.mode with
  | .reasoning, .text => some (separate [text])
  | _, _ => none

variable {text rest : Str}

theorem ThinkBlock.closedBlock_eq (block : ThinkBlock text rest) : closedBlock text = splitLeadingThink text := by
  obtain ⟨blank, _, opened⟩ := block.cutAt_open
  have decision := decision_reasoning_iff.mpr ⟨rest, block⟩
  rw [closedBlock, decision, feed_reasoning opened decision, splitLeadingThink_eq opened, separate_eq,
    flatten_singleton, block.streamedThink_eq, emitReasoning]
  cases cutAt thinkClose rest with
  | some pieces => rfl
  | none =>
    dsimp only
    split_ifs <;> rfl

theorem closedBlock_of_not_block (other : ¬ ∃ rest, ThinkBlock text rest) : closedBlock text = none := by
  rw [← decision_reasoning_iff] at other
  rw [closedBlock]
  cases decision : leadingThinkPrefixDecision text with
  | needMore => rfl
  | reasoning => exact absurd decision other
  | text => rfl

theorem isSome_splitLeadingThink_iff : (splitLeadingThink text).isSome ↔
    ∃ before think after, text = before ++ (thinkOpen ++ (think ++ (thinkClose ++ after))) := by
  constructor
  · intro found
    obtain ⟨⟨think, after⟩, found⟩ := isSome_iff_exists.mp found
    obtain ⟨⟨before, rest⟩, opened, closing⟩ := bind_eq_some_iff.mp found
    exact ⟨before, think, after, by rw [cutAt_eq_append opened, cutAt_eq_append closing]⟩
  · rintro ⟨before, think, after, whole⟩
    have tagged : (cutAt thinkOpen text).isSome := by
      rw [whole]
      exact isSome_cutAt
    obtain ⟨⟨first, rest⟩, opened⟩ := isSome_iff_exists.mp tagged
    have divided := cutAt_eq_append opened
    -- the first opening tag does not stand after the one that is closed
    have early : first.length ≤ before.length := by
      by_contra late
      refine cutAt_first opened (Nat.lt_of_not_le late) ?_
      rw [whole, drop_left]
      exact prefix_append _ _
    have longer : (think ++ (thinkClose ++ after)).length ≤ rest.length := by
      have same := congrArg List.length (divided.symm.trans whole)
      simp only [length_append] at same ⊢
      omega
    have ends : think ++ (thinkClose ++ after) <:+ text := ⟨before ++ thinkOpen, by rw [whole, append_assoc]⟩
    have follows : rest <:+ text := ⟨first ++ thinkOpen, by rw [divided, append_assoc]⟩
    obtain ⟨more, inside⟩ := suffix_of_suffix_length_le ends follows longer
    rw [splitLeadingThink_eq opened, ← inside, ← append_assoc]
    exact isSome_cutAt

def SplitAgrees (text : Str) : Prop :=
  splitLeadingThink text = closedBlock text ∧
    ∀ think after, splitLeadingThink text = some (think, after) →
      ∃ blank, (∀ c ∈ blank, isWhitespace c) ∧ text = blank ++ (thinkOpen ++ (think ++ (thinkClose ++ after)))

theorem ThinkBlock.splitAgrees (block : ThinkBlock text rest) : SplitAgrees text := by
  refine ⟨block.closedBlock_eq.symm, fun think after found => ?_⟩
  obtain ⟨blank, blanks, opened⟩ := block.cutAt_open
  rw [splitLeadingThink_eq opened] at found
  exact ⟨blank, blanks, by rw [cutAt_eq_append opened, cutAt_eq_append found]⟩

/-- The search for a closed block finds one that the stream does not take, unless the text starts with its tag. -/
theorem splitLeadingThink_agrees_iff (text : Str) : SplitAgrees text ↔
    ((∃ before think after, text = before ++ (thinkOpen ++ (think ++ (thinkClose ++ after)))) →
      thinkOpen <+: trimStart text) := by
  rw [← isSome_splitLeadingThink_iff]
  constructor
  · rintro ⟨same, _⟩ found
    by_contra other
    have none : closedBlock text = none := closedBlock_of_not_block fun ⟨rest, block⟩ =>
      other (block.trimmed ▸ prefix_append _ _)
    rw [same, none] at found
    cases found
  · intro leading
    by_cases block : ∃ rest, ThinkBlock text rest
    · obtain ⟨rest, block⟩ := block
      exact block.splitAgrees
    · have absent : splitLeadingThink text = none := by
        by_contra found
        obtain ⟨rest, opens⟩ := leading (isSome_iff_ne_none.mpr found)
        have whole := eq_blank_append opens
        have empty : rest = [] := by
          by_contra filled
          exact block ⟨rest, filled, _, takeWhile_blank text, whole⟩
        rw [whole, splitLeadingThink_eq (cutAt_open_blank (takeWhile_blank text) rest), empty] at found
        exact found rfl
      refine ⟨absent.trans (closedBlock_of_not_block block).symm, fun think after found => ?_⟩
      rw [absent] at found
      cases found

theorem late_block_splits : ¬ SplitAgrees "x<think>a</think>b".toList := by
  rintro ⟨same, _⟩
  exact absurd same (by decide)

end Split

end LlmGateway
