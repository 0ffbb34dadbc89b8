import LlmGateway.Stream.SseTokens

namespace LlmGateway

open Emitter List Option ChatSseParser SseToken Bool

def dataLines (fields : List SseField) : List Str := fields.filterMap SseField.data?

def hasData (fields : List SseField) : Bool := !(dataLines fields).isEmpty

def eventName (fields : List SseField) : Option Str := (fields.filterMap SseField.event?).getLast?

def isDone (fields : List SseField) : Bool := List.intercalate ['\n'] (dataLines fields) == doneMark

def mergeable (group : List (List SseField)) : Bool :=
  match group.filter hasData with
  | [] => true
  | [fields] => isDone fields || eventName group.flatten == eventName fields
  | _ => false

/-- Every run of pieces ended by `\r\n` may be read as one event with what follows
it, up to the `[DONE]` mark. -/
def mergesHarmless (run : List (List SseField)) : List SseToken → Bool
  | [] => true
  | token :: rest =>
    if token.isCrlf then mergesHarmless (run ++ [token.fields]) rest
    else mergeable (run ++ [token.fields]) && ((run ++ [token.fields]).any isDone || mergesHarmless [] rest)

section Outcomes
variable {fields : List SseField} {group rest : List (List SseField)}

theorem sseOutcome_eq (fields : List SseField) : sseOutcome fields =
    if hasData fields then
      if isDone fields then .done
      else .event ⟨(eventName fields).map String.ofList, String.ofList (List.intercalate ['\n'] (dataLines fields))⟩
    else .nothing := by
  simp only [sseOutcome, hasData, isDone, eventName, dataLines, beq_iff_eq]
  cases (fields.filterMap SseField.data?).isEmpty <;> rfl

theorem outcomes_nothing (none : hasData fields = false) : outcomes (fields :: rest) = outcomes rest := by
  rw [outcomes, sseOutcome_eq, none]
  rfl

theorem outcomes_filter (fields : List (List SseField)) : outcomes (fields.filter hasData) = outcomes fields := by
  induction fields with
  | nil => rfl
  | cons first rest ih =>
    cases data : hasData first with
    | false => rw [filter_cons_of_neg (by simp [data]), outcomes_nothing data, ih]
    | true => rw [filter_cons_of_pos data, outcomes, outcomes, ih]

theorem dataLines_flatten (group : List (List SseField)) :
    dataLines group.flatten = (group.filter hasData).flatMap dataLines := by
  induction group with
  | nil => rfl
  | cons first rest ih =>
    rw [flatten_cons, dataLines, filterMap_append, ← dataLines, ← dataLines, ih]
    cases data : hasData first with
    | false =>
      have none : dataLines first = [] := by simpa [hasData] using data
      rw [filter_cons_of_neg (by simp [data]), none, nil_append]
    | true => rw [filter_cons_of_pos data, flatMap_cons]

theorem outcomes_event (data : hasData fields) (open' : isDone fields = false) : outcomes (fields :: rest) =
    (⟨(eventName fields).map String.ofList, String.ofList (List.intercalate ['\n'] (dataLines fields))⟩ ::
      (outcomes rest).1, (outcomes rest).2) := by
  rw [outcomes, sseOutcome_eq, data, open']
  rfl

theorem outcomes_done (done : isDone fields) : outcomes (fields :: rest) = ([], true) := by
  have data : hasData fields := by
    rw [hasData, not_eq_true']
    cases lines : dataLines fields with
    | nil =>
      rw [isDone, lines] at done
      exact absurd done (by decide)
    | cons line lines' => rfl
  rw [outcomes, sseOutcome_eq, data, done]
  rfl

theorem sseOutcome_congr {other : List SseField} (lines : dataLines other = dataLines fields)
    (named : isDone fields ∨ eventName other = eventName fields) : sseOutcome other = sseOutcome fields := by
  have data : hasData other = hasData fields := by rw [hasData, hasData, lines]
  have done : isDone other = isDone fields := by rw [isDone, isDone, lines]
  rw [sseOutcome_eq, sseOutcome_eq, data, done, lines]
  rcases named with mark | named
  · rw [mark]
    rfl
  · rw [named]

theorem outcomes_mergeable (harmless : mergeable group) (rest : List (List SseField)) :
    outcomes (group.flatten :: rest) = outcomes (group ++ rest) := by
  have lines := dataLines_flatten group
  rw [← outcomes_filter (group ++ rest), filter_append]
  rw [mergeable] at harmless
  split at harmless
  next none =>
    rw [none] at lines ⊢
    rw [nil_append, outcomes_filter]
    exact outcomes_nothing (by simp [hasData, lines])
  next one only =>
    rw [only] at lines ⊢
    rw [flatMap_singleton] at lines
    have same : sseOutcome group.flatten = sseOutcome one :=
      sseOutcome_congr lines ((or_eq_true_iff.mp harmless).imp_right eq_of_beq)
    rw [singleton_append, outcomes, outcomes, outcomes_filter, same]
  · simp at harmless

theorem intercalate_append {first second : List Str} (some : first ≠ []) (more : second ≠ []) :
    List.intercalate ['\n'] (first ++ second) =
      List.intercalate ['\n'] first ++ '\n' :: List.intercalate ['\n'] second := by
  obtain ⟨line, lines, rfl⟩ := exists_cons_of_ne_nil more
  induction first with
  | nil => exact absurd rfl some
  | cons head tail ih =>
    cases tail with
    | nil => simp [List.intercalate]
    | cons next tail =>
      have later := ih (by simp)
      simp only [List.intercalate, cons_append, intersperse_cons_cons, flatten_cons] at later ⊢
      rw [later]
      simp

theorem outcomes_not_mergeable (harmful : mergeable group = false) (rest rest' : List (List SseField)) :
    outcomes (group.flatten :: rest) ≠ outcomes (group ++ rest') := by
  have lines := dataLines_flatten group
  have inside : ∀ fields ∈ group.filter hasData, dataLines fields ≠ [] := fun fields mem => by
    simpa [hasData] using (mem_filter.mp mem).2
  rw [← outcomes_filter (group ++ rest'), filter_append]
  rw [mergeable] at harmful
  rcases found : group.filter hasData with _ | ⟨first, _ | ⟨second, others⟩⟩ <;>
    rw [found] at lines inside harmful
  · simp at harmful
  · rw [flatMap_singleton] at lines
    obtain ⟨mark, named⟩ := Bool.or_eq_false_iff.mp harmful
    have data : hasData first := by simpa [hasData] using inside first (by simp)
    have data' : hasData group.flatten := by rw [hasData, lines]; exact data
    have mark' : isDone group.flatten = false := by rw [isDone, lines]; exact mark
    rw [singleton_append, outcomes_event data' mark', outcomes_event data mark]
    intro same
    simp only [Prod.mk.injEq, List.cons.injEq, SseEvent.mk.injEq] at same
    have names := map_injective (fun _ _ => String.ofList_inj.mp) same.1.1.1
    exact absurd names (ne_of_beq_false named)
  · -- the data of two pieces are joined by a newline, so it is neither the mark nor the data of the first piece
    have some := inside first (by simp)
    have more : (second :: others).flatMap dataLines ≠ [] := by
      have := inside second (by simp)
      simp [this]
    have text := intercalate_append some more
    rw [← flatMap_cons, ← lines] at text
    have data : hasData first := by simpa [hasData] using some
    have data' : hasData group.flatten := by
      rw [hasData, lines, flatMap_cons]
      simpa using fun none => absurd none some
    have mark : isDone group.flatten = false := by
      rw [isDone, beq_eq_false_iff_ne, text]
      intro same
      have newline : '\n' ∈ doneMark := by rw [← same]; simp
      exact absurd newline (by decide)
    rw [outcomes_event data' mark, cons_append]
    cases done : isDone first with
    | true =>
      rw [outcomes_done done]
      simp
    | false =>
      rw [outcomes_event data done]
      intro same
      simp only [Prod.mk.injEq, List.cons.injEq, SseEvent.mk.injEq] at same
      have longer := congrArg List.length (String.ofList_inj.mp same.1.1.2)
      rw [text, length_append, length_cons] at longer
      omega

theorem eventName_append (first second : List SseField) :
    eventName (first ++ second) = (eventName second).or (eventName first) := by
  rw [eventName, filterMap_append, List.getLast?_append]
  rfl

theorem eventName_none {fields : List SseField} (mem : fields ∈ group)
    (nameless : eventName group.flatten = none) : eventName fields = none := by
  obtain ⟨before, after, rfl⟩ := append_of_mem mem
  rw [flatten_append, flatten_cons, eventName_append, eventName_append, or_eq_none_iff,
    or_eq_none_iff] at nameless
  exact nameless.1.2

theorem mergeable_of_append {before : List (List SseField)} (harmless : mergeable (before ++ group)) :
    mergeable group := by
  rw [mergeable, filter_append] at harmless
  rw [mergeable]
  rcases found : group.filter hasData with _ | ⟨first, _ | ⟨second, others⟩⟩ <;> rw [found] at harmless
  · rcases earlier : before.filter hasData with _ | ⟨other, others⟩ <;> rw [earlier] at harmless
    · simp only [nil_append, or_eq_true, beq_iff_eq] at harmless ⊢
      refine harmless.imp_right fun named => ?_
      rw [flatten_append, eventName_append] at named
      cases name : eventName group.flatten with
      | none =>
        have mem : first ∈ group := (mem_filter.mp (found ▸ mem_singleton_self first)).1
        exact (eventName_none mem name).symm
      | some text =>
        rw [name, some_or] at named
        exact named
    · cases others <;> simp at harmless
  · rcases earlier : before.filter hasData with _ | ⟨other, _ | ⟨another, others'⟩⟩ <;> rw [earlier] at harmless <;>
      simp at harmless

theorem outcomes_stops (fields : List (List SseField)) : (outcomes fields).2 = fields.any isDone := by
  induction fields with
  | nil => rfl
  | cons first rest ih =>
    rw [any_cons, ← ih]
    cases done : isDone first with
    | true => rw [outcomes_done done, Bool.true_or]
    | false =>
      cases data : hasData first with
      | false => rw [outcomes_nothing data, Bool.false_or]
      | true => rw [outcomes_event data done, Bool.false_or]

theorem outcomes_congr (before : List (List SseField)) {first second : List (List SseField)}
    (same : before.any isDone ∨ outcomes first = outcomes second) :
    outcomes (before ++ first) = outcomes (before ++ second) := by
  rw [outcomes_append, outcomes_append]
  rcases same with stopped | same
  · rw [outcomes_stops, stopped, if_pos rfl, if_pos rfl]
  · rw [same]

end Outcomes

section Harmless
variable {tokens tail run : List SseToken} {later : List (List SseField)}

/-- The tokens of one buffer: whatever they are merged with has no effect on what
comes out. `before` stands for the pieces of the run that an earlier chunk has completed. -/
theorem outcomes_merged {before run : List (List SseField)}
    (base : ∀ before, mergesHarmless before tail →
      outcomes (before ++ later) = outcomes (before ++ tail.map fields))
    (harmless : mergesHarmless (before ++ run) (tokens ++ tail)) :
    outcomes (before ++ (mergedFields run tokens ++ later)) =
      outcomes (before ++ (run ++ (tokens ++ tail).map fields)) := by
  induction tokens generalizing before run with
  | nil =>
    have rest := base _ harmless
    rwa [append_assoc, append_assoc] at rest
  | cons token tokens ih =>
    rw [cons_append, mergesHarmless] at harmless
    rw [mergedFields, cons_append, map_cons]
    cases kind : token.isCrlf with
    | true =>
      simp only [kind, ↓reduceIte] at harmless ⊢
      rw [append_assoc] at harmless
      have rest := ih harmless
      rwa [append_assoc run] at rest
    | false =>
      simp only [kind, false_eq_true, ↓reduceIte, and_eq_true, or_eq_true] at harmless ⊢
      obtain ⟨merges, after⟩ := harmless
      rw [append_assoc] at merges
      rw [cons_append, outcomes_congr before (.inr (outcomes_mergeable (mergeable_of_append merges) _))]
      have one : ∀ rest, before ++ (run ++ [token.fields] ++ rest) = before ++ run ++ [token.fields] ++ rest := by
        simp
      have two : ∀ rest, before ++ (run ++ token.fields :: rest) = before ++ run ++ [token.fields] ++ rest := by
        simp
      rw [one, two]
      have none : ([] : List (List SseField)) ++ [] = [] := rfl
      exact outcomes_congr _ (after.imp_right fun harmless => ih (none ▸ harmless))

theorem outcomes_chunks {chunks : List (List SseToken)} {before : List (List SseField)}
    (harmless : mergesHarmless before chunks.flatten) :
    outcomes (before ++ chunks.flatMap (mergedFields [])) =
      outcomes (before ++ chunks.flatten.map fields) := by
  induction chunks generalizing before with
  | nil => rfl
  | cons chunk chunks ih =>
    rw [← append_nil before] at harmless
    exact outcomes_merged (fun before harmless => ih harmless) harmless

theorem harmful_split (crlf : ∀ token ∈ run, token.isCrlf)
    (harmful : mergesHarmless (run.map fields) tokens = false) :
    ∃ before group last after, run ++ tokens = before ++ (group ++ last :: after) ∧
      (before.map fields).any isDone = false ∧ (∀ token ∈ group, token.isCrlf) ∧
      last.isCrlf = false ∧ mergeable (group.map fields ++ [last.fields]) = false := by
  induction tokens generalizing run with
  | nil => simp [mergesHarmless] at harmful
  | cons token tokens ih =>
    rw [mergesHarmless] at harmful
    cases kind : token.isCrlf with
    | true =>
      simp only [kind, ↓reduceIte] at harmful
      have crlf' : ∀ other ∈ run ++ [token], other.isCrlf := fun other mem => by
        rcases mem_append.mp mem with before | same
        · exact crlf other before
        · rw [mem_singleton.mp same, kind]
      obtain ⟨before, group, last, after, split, rest⟩ := ih crlf' (by simpa using harmful)
      exact ⟨before, group, last, after, by rw [append_cons, split], rest⟩
    | false =>
      simp only [kind, false_eq_true, ↓reduceIte] at harmful
      cases merges : mergeable (run.map fields ++ [token.fields]) with
      | false => exact ⟨[], run, token, tokens, rfl, rfl, crlf, kind, merges⟩
      | true =>
        simp only [merges, Bool.true_and, Bool.or_eq_false_iff] at harmful
        obtain ⟨before, group, last, after, split, quiet, rest⟩ := ih (forall_mem_nil _) harmful.2
        refine ⟨run ++ token :: before, group, last, after, ?_, ?_, rest⟩
        · rw [← nil_append tokens, split]
          simp
        · simpa [quiet] using harmful.1

theorem mergedFields_group {group : List SseToken} {last : SseToken} (crlf : ∀ token ∈ group, token.isCrlf)
    (ends : last.isCrlf = false) (run : List (List SseField)) :
    mergedFields run (group ++ [last]) = [(run ++ (group.map fields ++ [last.fields])).flatten] := by
  induction group generalizing run with
  | nil => simp [mergedFields, ends]
  | cons token group ih =>
    obtain ⟨here, crlf⟩ := forall_mem_cons.mp crlf
    rw [cons_append, mergedFields, here, if_pos rfl, ih crlf]
    simp

theorem forEach_tokenBytes (cut : ∀ token ∈ tokens, token.Cut) (bytes : List UInt8) :
    forEach cutByte (tokenBytes tokens ++ bytes) [] =
      (tokens ++ (forEach cutByte bytes []).1, (forEach cutByte bytes []).2) := by
  induction tokens with
  | nil => rfl
  | cons token tokens ih =>
    obtain ⟨here, cut⟩ := forall_mem_cons.mp cut
    have split : tokenBytes (token :: tokens) ++ bytes = token.bytes ++ (tokenBytes tokens ++ bytes) :=
      append_assoc ..
    rw [split, forEach_append]
    simp only [followedBy, here.again, ih cut]
    rfl

end Harmless

section Chunks
variable {buf bytes : List UInt8}

theorem chunkTokens_append (first second : List (List UInt8)) : chunkTokens buf (first ++ second) =
    chunkTokens buf first ++ chunkTokens (forEach cutByte first.flatten buf).2 second := by
  induction first generalizing buf with
  | nil => rfl
  | cons chunk first ih =>
    rw [cons_append, chunkTokens, ih, chunkTokens, flatten_cons, forEach_append, followedBy_state]
    rfl

theorem flatten_chunkTokens (chunks : List (List UInt8)) :
    (chunkTokens buf chunks).flatten = (forEach cutByte chunks.flatten buf).1 := by
  induction chunks generalizing buf with
  | nil => rfl
  | cons chunk chunks ih => rw [chunkTokens, flatten_cons, flatten_cons, ih, forEach_append, followedBy_events]

def bytewise (bytes : List UInt8) : List (List UInt8) := bytes.map ([·])

theorem flatten_bytewise (bytes : List UInt8) : (bytewise bytes).flatten = bytes := by
  induction bytes with
  | nil => rfl
  | cons byte bytes ih => rw [bytewise, map_cons, flatten_cons, ← bytewise, ih]; rfl

theorem mergedFields_bytewise (uncut : Uncut buf) (bytes : List UInt8) :
    (chunkTokens buf (bytewise bytes)).flatMap (mergedFields []) =
      (forEach cutByte bytes buf).1.map fields := by
  induction bytes generalizing buf with
  | nil => rfl
  | cons byte bytes ih =>
    obtain ⟨alone, uncut', -⟩ := uncut.cutByte byte
    have single : forEach cutByte [byte] buf = cutByte byte buf := by simp [forEach, followedBy, quiet]
    have first : mergedFields [] (cutByte byte buf).1 = (cutByte byte buf).1.map fields := by
      cases tokens : (cutByte byte buf).1 with
      | nil => rfl
      | cons token rest =>
        have only := (alone token (by simp [tokens])).1
        rw [tokens] at only
        rw [only]
        simp [mergedFields]
    rw [bytewise, map_cons, ← bytewise, chunkTokens, flatMap_cons, single, first, ih uncut', forEach,
      followedBy_events, map_append]

theorem parse_new {chunks : List (List UInt8)} (small : chunks.flatten.length ≤ maxBuffer) :
    new.parse chunks = outcomes ((chunkTokens [] chunks).flatMap (mergedFields [])) :=
  parse_eq_outcomes uncut_nil rfl (by simpa [new] using small)

theorem parse_group {before group after : List SseToken} {last : SseToken} {rest : List UInt8}
    (cut : ∀ token ∈ before ++ (group ++ last :: after), token.Cut) (uncut : Uncut rest)
    (crlf : ∀ token ∈ group, token.isCrlf) (ends : last.isCrlf = false)
    (small : (tokenBytes (before ++ (group ++ last :: after)) ++ rest).length ≤ maxBuffer) :
    ∃ chunks : List (List UInt8), chunks.flatten = tokenBytes (before ++ (group ++ last :: after)) ++ rest ∧
      new.parse chunks = outcomes (before.map fields ++
        ((group.map fields ++ [last.fields]).flatten :: after.map fields)) := by
  have cutBefore : ∀ token ∈ before, token.Cut := fun token mem => cut token (by simp [mem])
  have cutGroup : ∀ token ∈ group ++ [last], token.Cut := fun token mem => cut token (by
    rcases mem_append.mp mem with inside | same
    · simp [inside]
    · simp [mem_singleton.mp same])
  have cutAfter : ∀ token ∈ after, token.Cut := fun token mem => cut token (by simp [mem])
  have one : forEach cutByte (tokenBytes before) [] = (before, []) := by
    simpa [forEach, quiet] using forEach_tokenBytes cutBefore []
  have two : forEach cutByte (tokenBytes (group ++ [last])) [] = (group ++ [last], []) := by
    simpa [forEach, quiet] using forEach_tokenBytes cutGroup []
  have three : forEach cutByte (tokenBytes after ++ rest) [] = (after, rest) := by
    rw [forEach_tokenBytes cutAfter, uncut.again, append_nil]
  have flat : (bytewise (tokenBytes before) ++
      ([tokenBytes (group ++ [last])] ++ bytewise (tokenBytes after ++ rest))).flatten =
      tokenBytes (before ++ (group ++ last :: after)) ++ rest := by
    rw [flatten_append, flatten_bytewise, flatten_append, flatten_bytewise, flatten_singleton]
    simp [tokenBytes]
  refine ⟨_, flat, ?_⟩
  rw [parse_new (by rwa [flat]), chunkTokens_append, chunkTokens_append, flatten_bytewise, one,
    flatten_singleton, two, flatMap_append, flatMap_append, mergedFields_bytewise uncut_nil,
    mergedFields_bytewise uncut_nil, one, three, chunkTokens, two]
  simp [chunkTokens, mergedFields_group crlf ends]

end Chunks

/-- The chunks do not matter exactly when every possible merge of events is harmless. -/
theorem parse_chunking_iff (bytes : List UInt8) (small : bytes.length ≤ maxBuffer) :
    (∀ first second : List (List UInt8), first.flatten = bytes → second.flatten = bytes →
      new.parse first = new.parse second) ↔
    mergesHarmless [] (forEach cutByte bytes []).1 := by
  constructor
  · intro same
    by_contra harmful
    obtain ⟨cut, uncut, split⟩ := uncut_nil.forEach bytes
    obtain ⟨before, group, last, after, tokens, quiet, crlf, ends, merges⟩ :=
      harmful_split (forall_mem_nil _) (not_eq_true _ ▸ harmful)
    rw [nil_append] at tokens split
    have flat : tokenBytes (before ++ (group ++ last :: after)) ++ (forEach cutByte bytes []).2 = bytes := by
      rw [← tokens]
      exact split.symm
    obtain ⟨chunks, together, parsed⟩ := parse_group (tokens ▸ cut) uncut crlf ends (flat.symm ▸ small)
    have apart : new.parse (bytewise bytes) = outcomes (before.map fields ++
        (group.map fields ++ [last.fields] ++ after.map fields)) := by
      rw [parse_new (by rwa [flatten_bytewise]), mergedFields_bytewise uncut_nil, tokens]
      simp
    have equal := same chunks (bytewise bytes) (together.trans flat) (flatten_bytewise bytes)
    rw [parsed, apart, outcomes_append, outcomes_append, outcomes_stops, quiet] at equal
    simp only [false_eq_true, ↓reduceIte, Prod.mk.injEq, append_cancel_left_eq] at equal
    exact outcomes_not_mergeable merges _ _ (Prod.ext equal.1 equal.2)
  · intro harmless first second one two
    have all : ∀ chunks : List (List UInt8), chunks.flatten = bytes →
        new.parse chunks = outcomes ((forEach cutByte bytes []).1.map fields) := by
      rintro chunks rfl
      rw [← flatten_chunkTokens] at harmless
      have merged := outcomes_chunks harmless
      rw [parse_new small]
      rwa [flatten_chunkTokens] at merged
    rw [all first one, all second two]

/-- A comment ended by `\r\n` before an event ended by `\n`, and the mark at the end. -/
def commentFirst : List UInt8 := Utf8.encode ": note\r\n\r\nevent: a\ndata: é\n\ndata: [DONE]\r\n\r\n"

theorem commentFirst_any_chunks : commentFirst.length ≤ maxBuffer ∧
    ∀ first second : List (List UInt8), first.flatten = commentFirst → second.flatten = commentFirst →
      new.parse first = new.parse second :=
  have small : commentFirst.length ≤ maxBuffer := by decide +kernel
  ⟨small, (parse_chunking_iff commentFirst small).mpr (by decide +kernel)⟩

/-- An event ended by `\r\n` and one ended by `\n`. -/
def mixedSeparators : List UInt8 := Utf8.encode "data: a\r\n\r\ndata: b\n\n"

/-- In one chunk the two events are read as one. -/
theorem mixed_separators_merge : mixedSeparators.length ≤ maxBuffer ∧
    (new.parse [mixedSeparators]).1.map SseEvent.data = ["a\nb"] ∧
      (new.parse [mixedSeparators.take 11, mixedSeparators.drop 11]).1.map SseEvent.data = ["a", "b"] ∧
      [mixedSeparators].flatten = [mixedSeparators.take 11, mixedSeparators.drop 11].flatten := by
  decide +kernel

end LlmGateway
