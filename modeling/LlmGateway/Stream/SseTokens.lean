import LlmGateway.Lib.Emitter
import LlmGateway.Stream.SseParser

namespace LlmGateway

open Emitter Pattern List Option ChatSseParser

section Fields
variable {before after : List UInt8}

theorem splitInclusive_newline (text rest : Str) : splitInclusive (text ++ ['\n']) ≠ [] ∧
    splitInclusive (text ++ '\n' :: rest) = splitInclusive (text ++ ['\n']) ++ splitInclusive rest := by
  induction text with
  | nil => simp [splitInclusive]
  | cons c text ih =>
    obtain ⟨some, split⟩ := ih
    obtain ⟨piece, pieces, first⟩ := exists_cons_of_ne_nil some
    rw [cons_append, cons_append, splitInclusive, splitInclusive, split, first]
    split <;> simp

theorem sseFields_append (newline : before.getLast? = some 0x0A) :
    sseFields (before ++ after) = sseFields before ++ sseFields after := by
  obtain ⟨bytes, rfl⟩ := List.getLast?_eq_some_iff.mp newline
  obtain ⟨text, decoded⟩ := Utf8.decodeLossy_newline bytes
  have alone : Utf8.decodeLossy (bytes ++ [0x0A]) = text ++ ['\n'] := decoded []
  have split := (splitInclusive_newline text (Utf8.decodeLossy after)).2
  rw [append_assoc, singleton_append, sseFields, sseFields, lines, lines, decoded, alone, split,
    map_append, filterMap_append]
  rfl

theorem sseFields_newline : sseFields [0x0A] = [] := by decide +kernel

theorem sseFields_cons_newline : sseFields (0x0A :: after) = sseFields after := by
  have split : sseFields ([0x0A] ++ after) = sseFields [0x0A] ++ sseFields after := sseFields_append rfl
  rwa [sseFields_newline] at split

end Fields

variable {buf : List UInt8} (seen : List UInt8)

def lfBlank : List UInt8 := [0x0A, 0x0A]
def crlfBlank : List UInt8 := [0x0D, 0x0A, 0x0D, 0x0A]

theorem findEventEnd_eq (buf : List UInt8) :
    findEventEnd buf = (firstEnd lfBlank [] buf).or (firstEnd crlfBlank [] buf) := by
  rw [← position_add_length (by simp [lfBlank]), ← position_add_length (by simp [crlfBlank])]
  rfl

theorem lfBlank_suffix (last byte : UInt8) :
    lfBlank.isSuffixOf (seen ++ [last] ++ [byte]) = (0x0A == byte && 0x0A == last) := by
  simp [List.isSuffixOf, List.isPrefixOf, lfBlank]

theorem firstEnd_lfBlank_last (last : UInt8) (bytes : List UInt8) :
    firstEnd lfBlank (seen ++ [last]) bytes = firstEnd lfBlank [last] bytes := by
  induction bytes generalizing seen last with
  | nil => rfl
  | cons byte bytes ih =>
    have alone : lfBlank.isSuffixOf ([last] ++ [byte]) = (0x0A == byte && 0x0A == last) :=
      lfBlank_suffix [] last byte
    rw [firstEnd, firstEnd, lfBlank_suffix, alone, ih (seen ++ [last]), ih [last]]

theorem firstEnd_lfBlank_fresh {bytes : List UInt8} (other : bytes.head? ≠ some 0x0A) :
    firstEnd lfBlank seen bytes = firstEnd lfBlank [] bytes := by
  cases bytes with
  | nil => rfl
  | cons byte bytes =>
    have other : byte ≠ 0x0A := fun same => other (congrArg some same)
    have unfinished : ∀ seen : List UInt8, lfBlank.isSuffixOf (seen ++ [byte]) = false := fun seen => by
      simp [List.isSuffixOf, List.isPrefixOf, lfBlank, other.symm]
    rw [firstEnd, firstEnd, unfinished, unfinished, firstEnd_lfBlank_last, nil_append]

theorem firstEnd_lfBlank_newline (bytes : List UInt8) :
    firstEnd lfBlank (seen ++ [0x0A]) (0x0A :: bytes) = some 1 := by
  rw [firstEnd, lfBlank_suffix]
  rfl

/-- A stream, cut at every blank line. A newline with nothing before it is a token of its own. -/
inductive SseToken
  | newline
  | lf (piece : List UInt8)
  | crlf (piece : List UInt8)

def SseToken.bytes : SseToken → List UInt8
  | newline => [0x0A]
  | lf piece => piece
  | crlf piece => piece

def SseToken.isCrlf : SseToken → Bool
  | crlf _ => true
  | _ => false

def cutByte (byte : UInt8) : Emitter (List UInt8) SseToken := fun buf =>
  if buf = [] ∧ byte = 0x0A then ([.newline], [])
  else
    let piece := buf ++ [byte]
    if (position lfBlank piece).isSome then ([.lf piece], [])
    else if (position crlfBlank piece).isSome then ([.crlf piece], [])
    else ([], piece)

/-- A buffer without a blank line that does not start with a newline. -/
structure Uncut (buf : List UInt8) : Prop where
  again : forEach cutByte buf [] = ([], buf)
  noLf : firstEnd lfBlank [] buf = none
  noCrlf : firstEnd crlfBlank [] buf = none
  start : buf.head? ≠ some 0x0A

/-- What is known of a token: cutting it again gives it back, and where its blank line ends. -/
structure SseToken.Cut (token : SseToken) : Prop where
  again : forEach cutByte token.bytes [] = ([token], [])
  start : token ≠ .newline → token.bytes.head? ≠ some 0x0A
  lf : ∀ piece, token = .lf piece → firstEnd lfBlank [] piece = some piece.length
  crlf : ∀ piece, token = .crlf piece → firstEnd lfBlank [] piece = none ∧
    firstEnd crlfBlank [] piece = some piece.length ∧ piece.getLast? = some 0x0A

theorem uncut_nil : Uncut [] := ⟨rfl, rfl, rfl, nofun⟩

theorem firstEnd_snoc {pattern : List UInt8} {byte : UInt8} (absent : firstEnd pattern [] buf = none)
    (found : firstEnd pattern [] (buf ++ [byte]) ≠ none) :
    firstEnd pattern [] (buf ++ [byte]) = some (buf ++ [byte]).length ∧ pattern <:+ buf ++ [byte] := by
  have last : firstEnd pattern [] (buf ++ [byte]) = (firstEnd pattern ([] ++ buf) [byte]).map (· + buf.length) :=
    firstEnd_append_of_none absent
  rw [firstEnd, nil_append] at last
  split at last
  next complete =>
    rw [last, map_some, length_append, length_singleton, Nat.add_comm]
    exact ⟨rfl, isSuffixOf_iff_suffix.mp complete⟩
  · exact absurd last found

theorem position_isSome {pattern text : List UInt8} (some : pattern ≠ []) :
    (position pattern text).isSome ↔ firstEnd pattern [] text ≠ none := by
  rw [← position_add_length some, ← isSome_iff_ne_none, isSome_map]

theorem Uncut.head_snoc {byte : UInt8} (uncut : Uncut buf) (inside : ¬(buf = [] ∧ byte = 0x0A)) :
    (buf ++ [byte]).head? ≠ some 0x0A := by
  cases buf with
  | nil => simpa using inside
  | cons first rest => exact uncut.start

theorem cutByte_eq (byte : UInt8) (buf : List UInt8) : cutByte byte buf =
    if buf = [] ∧ byte = 0x0A then ([.newline], [])
    else if firstEnd lfBlank [] (buf ++ [byte]) ≠ none then ([.lf (buf ++ [byte])], [])
    else if firstEnd crlfBlank [] (buf ++ [byte]) ≠ none then ([.crlf (buf ++ [byte])], [])
    else ([], buf ++ [byte]) := by
  have lf : lfBlank ≠ [] := by decide
  have crlf : crlfBlank ≠ [] := by decide
  simp [cutByte, position_isSome lf, position_isSome crlf]

theorem Uncut.cutByte (uncut : Uncut buf) (byte : UInt8) :
    (∀ token ∈ (cutByte byte buf).1, (LlmGateway.cutByte byte buf).1 = [token] ∧ token.Cut) ∧
      Uncut (LlmGateway.cutByte byte buf).2 ∧
      buf ++ [byte] = (LlmGateway.cutByte byte buf).1.flatMap SseToken.bytes ++
        (LlmGateway.cutByte byte buf).2 := by
  have again : forEach LlmGateway.cutByte (buf ++ [byte]) [] = LlmGateway.cutByte byte buf := by
    rw [forEach_append, followedBy, uncut.again]
    simp [forEach, followedBy, quiet]
  have cut := cutByte_eq byte buf
  split at cut
  next newline =>
    obtain ⟨rfl, rfl⟩ := newline
    refine ⟨fun token mem => ?_, uncut_nil, rfl⟩
    rw [mem_singleton.mp mem]
    exact ⟨rfl, rfl, fun other => absurd rfl other, by simp, by simp⟩
  rename_i inside
  have start := uncut.head_snoc inside
  split at cut
  next lf =>
    have ends := firstEnd_snoc uncut.noLf lf
    rw [cut] at again ⊢
    refine ⟨fun token mem => ?_, uncut_nil, by simp [SseToken.bytes]⟩
    rw [mem_singleton.mp mem]
    refine ⟨rfl, again, fun _ => start, fun piece same => ?_, by simp⟩
    cases same
    exact ends.1
  rename_i noLf
  split at cut
  next crlf =>
    have ends := firstEnd_snoc uncut.noCrlf crlf
    rw [cut] at again ⊢
    refine ⟨fun token mem => ?_, uncut_nil, by simp [SseToken.bytes]⟩
    rw [mem_singleton.mp mem]
    refine ⟨rfl, again, fun _ => start, by simp, fun piece same => ?_⟩
    cases same
    refine ⟨not_not.mp noLf, ends.1, ?_⟩
    obtain ⟨before, split⟩ := ends.2
    rw [← split]
    simp [crlfBlank]
  next noCrlf =>
    rw [cut] at again ⊢
    exact ⟨by simp, ⟨again, not_not.mp noLf, not_not.mp noCrlf, start⟩, rfl⟩

theorem Uncut.forEach (uncut : Uncut buf) (bytes : List UInt8) :
    (∀ token ∈ (Emitter.forEach LlmGateway.cutByte bytes buf).1, token.Cut) ∧
      Uncut (Emitter.forEach LlmGateway.cutByte bytes buf).2 ∧
      buf ++ bytes = (Emitter.forEach LlmGateway.cutByte bytes buf).1.flatMap SseToken.bytes ++
        (Emitter.forEach LlmGateway.cutByte bytes buf).2 := by
  induction bytes generalizing buf with
  | nil => exact ⟨nofun, uncut, by simp [Emitter.forEach, quiet]⟩
  | cons byte bytes ih =>
    obtain ⟨cut, uncut', split⟩ := uncut.cutByte byte
    obtain ⟨cutLater, uncut'', splitLater⟩ := ih uncut'
    rw [Emitter.forEach, followedBy]
    refine ⟨fun token mem => ?_, uncut'', ?_⟩
    · rcases mem_append.mp mem with here | later
      · exact (cut token here).2
      · exact cutLater token later
    · rw [append_cons, split, append_assoc, splitLater, flatMap_append, append_assoc]

section Drained
variable {buf event left rest : List UInt8} {idx : Nat} {fields : List (List SseField)}

/-- The loop of `push` run to its end. -/
def drained (buf : List UInt8) : List UInt8 × List SseEvent × Bool := drainEvents buf.length buf

def SseOutcome.before (outcome : SseOutcome) (left : List UInt8) (later : List UInt8 × List SseEvent × Bool) :
    List UInt8 × List SseEvent × Bool :=
  match outcome with
  | .nothing => later
  | .done => (left, [], true)
  | .event event => (later.1, event :: later.2.1, later.2.2)

theorem findEventEnd_pos (found : findEventEnd buf = some idx) : 0 < idx := by
  rw [findEventEnd_eq] at found
  rcases or_eq_some_iff.mp found with lf | ⟨-, crlf⟩
  · exact (firstEnd_eq_some_iff.mp lf).1
  · exact (firstEnd_eq_some_iff.mp crlf).1

theorem drainEvents_succ (rounds : Nat) : drainEvents (rounds + 1) buf = match findEventEnd buf with
    | none => (buf, [], false)
    | some idx =>
      (sseOutcome (sseFields (buf.take idx))).before (buf.drop idx) (drainEvents rounds (buf.drop idx)) := by
  rw [drainEvents]
  cases findEventEnd buf with
  | none => rfl
  | some idx => cases sseOutcome (sseFields (buf.take idx)) <;> rfl

theorem drainEvents_nil (rounds : Nat) : drainEvents rounds [] = ([], [], false) := by
  cases rounds <;> rfl

theorem drainEvents_enough {first second : Nat} (enough : buf.length ≤ first) (enough' : buf.length ≤ second) :
    drainEvents first buf = drainEvents second buf := by
  induction first generalizing buf second with
  | zero => rw [length_eq_zero_iff.mp (Nat.le_zero.mp enough), drainEvents_nil, drainEvents_nil]
  | succ first ih =>
    cases second with
    | zero => rw [length_eq_zero_iff.mp (Nat.le_zero.mp enough'), drainEvents_nil, drainEvents_nil]
    | succ second =>
      rw [drainEvents_succ, drainEvents_succ]
      cases found : findEventEnd buf with
      | none => rfl
      | some idx =>
        have positive := findEventEnd_pos found
        have short : (buf.drop idx).length ≤ buf.length - 1 := by
          rw [length_drop]
          omega
        have same : drainEvents first (buf.drop idx) = drainEvents second (buf.drop idx) := ih (by omega) (by omega)
        simp only [same]

theorem drained_eq_of_none (absent : findEventEnd buf = none) : drained buf = (buf, [], false) := by
  cases buf with
  | nil => rfl
  | cons byte buf => rw [drained, length_cons, drainEvents_succ, absent]

theorem drained_append (event left : List UInt8) (found : findEventEnd (event ++ left) = some event.length) :
    drained (event ++ left) = (sseOutcome (sseFields event)).before left (drained left) := by
  have positive := findEventEnd_pos found
  have enough : drainEvents ((event ++ left).length - 1) left = drained left :=
    drainEvents_enough (by rw [length_append]; omega) (Nat.le_refl _)
  have rounds : (event ++ left).length = (event ++ left).length - 1 + 1 := by
    rw [length_append]
    omega
  rw [drained, rounds, drainEvents_succ, found]
  simp only [take_left, drop_left, enough]

def trimNewlines (buf : List UInt8) : List UInt8 := buf.dropWhile (· == 0x0A)

theorem trimNewlines_newline (buf : List UInt8) : trimNewlines (0x0A :: buf) = trimNewlines buf := rfl

theorem trimNewlines_self (other : buf.head? ≠ some 0x0A) : trimNewlines buf = buf := by
  cases buf with
  | nil => rfl
  | cons byte buf =>
    have other : (byte == 0x0A) = false := beq_eq_false_iff_ne.mpr fun same => other (congrArg some same)
    rw [trimNewlines, dropWhile_cons, other]
    rfl

/-- All events of the fields, up to the one that is the `[DONE]` mark. -/
def outcomes : List (List SseField) → List SseEvent × Bool
  | [] => ([], false)
  | fields :: rest => ((sseOutcome fields).before [] ([], outcomes rest)).2

/-- The loop finds these fields, event by event, and leaves `rest` behind newlines if it is not stopped. -/
structure DrainsTo (buf : List UInt8) (fields : List (List SseField)) (rest : List UInt8) : Prop where
  events : (drained buf).2 = outcomes fields
  left : (outcomes fields).2 = false → trimNewlines (drained buf).1 = rest

theorem DrainsTo.none (absent : findEventEnd buf = none) : DrainsTo buf [] (trimNewlines buf) := by
  have all := drained_eq_of_none absent
  exact ⟨congrArg Prod.snd all, fun _ => congrArg (fun drained => trimNewlines drained.1) all⟩

theorem DrainsTo.cons (found : findEventEnd (event ++ left) = some event.length)
    (later : DrainsTo left fields rest) :
    DrainsTo (event ++ left) (sseFields event :: fields) rest := by
  constructor
  · rw [drained_append event left found, outcomes, ← later.events]
    cases sseOutcome (sseFields event) <;> rfl
  · rw [drained_append event left found, outcomes]
    cases sseOutcome (sseFields event) with
    | nothing => exact later.left
    | done => exact nofun
    | event event => exact later.left

theorem firstEnd_crlfBlank_newline (bytes : List UInt8) :
    firstEnd crlfBlank [] (0x0A :: bytes) = (firstEnd crlfBlank [] bytes).map (· + 1) := by
  rw [firstEnd, if_neg (by decide), nil_append, firstEnd_cons_seen (by decide)]

theorem findEventEnd_newline (other : buf.head? ≠ some 0x0A) :
    findEventEnd (0x0A :: buf) = (findEventEnd buf).map (· + 1) := by
  rw [findEventEnd_eq, findEventEnd_eq, firstEnd_crlfBlank_newline, map_or]
  congr 1
  rw [firstEnd, if_neg (by decide), firstEnd_lfBlank_fresh _ other]

theorem findEventEnd_le (found : findEventEnd buf = some idx) : idx ≤ buf.length := by
  rw [findEventEnd_eq] at found
  rcases or_eq_some_iff.mp found with lf | ⟨-, crlf⟩
  · exact (firstEnd_eq_some_iff.mp lf).2.1
  · exact (firstEnd_eq_some_iff.mp crlf).2.1

theorem drained_newline (buf : List UInt8) : (drained (0x0A :: buf)).2 = (drained buf).2 ∧
    trimNewlines (drained (0x0A :: buf)).1 = trimNewlines (drained buf).1 := by
  induction size : buf.length using Nat.strong_induction_on generalizing buf with
  | _ size ih =>
    by_cases blank : buf.head? = some 0x0A
    · obtain ⟨rest, rfl⟩ := List.head?_eq_some_iff.mp blank
      have found : findEventEnd ([0x0A, 0x0A] ++ rest) = some [(0x0A : UInt8), 0x0A].length := by
        rfl
      have skipped : drained (0x0A :: 0x0A :: rest) = drained rest := drained_append _ rest found
      have shorter := ih rest.length (by rw [← size]; simp) rest rfl
      rw [skipped]
      exact ⟨shorter.1.symm, shorter.2.symm⟩
    · cases found : findEventEnd buf with
      | none =>
        have absent : findEventEnd (0x0A :: buf) = none := by rw [findEventEnd_newline blank, found]; rfl
        rw [drained_eq_of_none found, drained_eq_of_none absent]
        exact ⟨rfl, rfl⟩
      | some idx =>
        have long : (buf.take idx).length = idx := length_take_of_le (findEventEnd_le found)
        have found' : findEventEnd (0x0A :: buf) = some (idx + 1) := by rw [findEventEnd_newline blank, found]; rfl
        have split : buf.take idx ++ buf.drop idx = buf := take_append_drop idx buf
        have first := drained_append (buf.take idx) (buf.drop idx) (by rw [split, long, found])
        have second := drained_append (0x0A :: buf.take idx) (buf.drop idx)
          (by rw [cons_append, split, length_cons, long, found'])
        rw [cons_append, split, sseFields_cons_newline] at second
        rw [split] at first
        rw [first, second]
        exact ⟨rfl, rfl⟩

theorem DrainsTo.newline (drains : DrainsTo buf fields rest) : DrainsTo (0x0A :: buf) fields rest := by
  obtain ⟨events, left⟩ := drained_newline buf
  exact ⟨events.trans drains.events, fun unstopped => left.trans (drains.left unstopped)⟩

end Drained

def SseToken.fields (token : SseToken) : List SseField := sseFields token.bytes

/-- Pieces ended by `\r\n` go together with what follows, up to the next blank line ended by `\n`. -/
def mergedFields (run : List (List SseField)) : List SseToken → List (List SseField)
  | [] => run
  | token :: rest =>
    if token.isCrlf then mergedFields (run ++ [token.fields]) rest
    else (run ++ [token.fields]).flatten :: mergedFields [] rest

/-- Pieces that are all ended by `\r\n`. -/
def CrlfRun (run : List SseToken) : Prop := ∀ token ∈ run, token.Cut ∧ token.isCrlf

def tokenBytes (tokens : List SseToken) : List UInt8 := tokens.flatMap SseToken.bytes

section Runs
variable {run tokens : List SseToken} {token : SseToken} {rest event : List UInt8}

theorem SseToken.Cut.crlf_piece (cut : token.Cut) (crlf : token.isCrlf) :
    firstEnd lfBlank [] token.bytes = none ∧ firstEnd crlfBlank [] token.bytes = some token.bytes.length ∧
      token.bytes.getLast? = some 0x0A ∧ token.bytes.head? ≠ some 0x0A := by
  cases token with
  | newline => simp [isCrlf] at crlf
  | lf piece => simp [isCrlf] at crlf
  | crlf piece =>
    obtain ⟨noLf, ends, last⟩ := cut.crlf piece rfl
    exact ⟨noLf, ends, last, cut.start (by simp)⟩

theorem CrlfRun.head (all : CrlfRun run) : (tokenBytes run).head? ≠ some 0x0A := by
  cases run with
  | nil => exact nofun
  | cons token run =>
    obtain ⟨-, -, last, start⟩ := (all token (by simp)).1.crlf_piece (all token (by simp)).2
    cases bytes : token.bytes with
    | nil => simp [bytes] at last
    | cons byte bytes' => simpa [tokenBytes, bytes] using start

theorem CrlfRun.last (all : CrlfRun run) (nonempty : run ≠ []) : ∃ before, tokenBytes run = before ++ [0x0A] := by
  obtain ⟨before, token, rfl⟩ := (eq_nil_or_concat' run).resolve_left nonempty
  obtain ⟨-, -, last, -⟩ := (all token (by simp)).1.crlf_piece (all token (by simp)).2
  obtain ⟨piece, ends⟩ := List.getLast?_eq_some_iff.mp last
  exact ⟨tokenBytes before ++ piece, by simp [tokenBytes, ends]⟩

theorem CrlfRun.noLf (all : CrlfRun run) : firstEnd lfBlank [] (tokenBytes run) = none := by
  induction run with
  | nil => rfl
  | cons token run ih =>
    have all' : CrlfRun run := fun token mem => all token (mem_cons_of_mem _ mem)
    obtain ⟨noLf, -⟩ := (all token (by simp)).1.crlf_piece (all token (by simp)).2
    have split : tokenBytes (token :: run) = token.bytes ++ tokenBytes run := rfl
    rw [split, firstEnd_append_of_none noLf, firstEnd_lfBlank_fresh _ all'.head, ih all']
    rfl

theorem CrlfRun.fields (all : CrlfRun run) :
    sseFields (tokenBytes run ++ rest) = (run.map SseToken.fields).flatten ++ sseFields rest := by
  induction run with
  | nil => rfl
  | cons token run ih =>
    have all' : CrlfRun run := fun token mem => all token (mem_cons_of_mem _ mem)
    obtain ⟨-, -, last, -⟩ := (all token (by simp)).1.crlf_piece (all token (by simp)).2
    have split : tokenBytes (token :: run) ++ rest = token.bytes ++ (tokenBytes run ++ rest) := append_assoc ..
    rw [split, sseFields_append last, ih all', map_cons, flatten_cons, append_assoc]
    rfl

theorem CrlfRun.tail (all : CrlfRun (token :: run)) : CrlfRun run :=
  fun token mem => all token (mem_cons_of_mem _ mem)

theorem findEventEnd_run_lf (all : CrlfRun run) (piece : firstEnd lfBlank [] event = some event.length)
    (start : event.head? ≠ some 0x0A) (left : List UInt8) :
    findEventEnd (tokenBytes run ++ event ++ left) = some (tokenBytes run ++ event).length := by
  have found : firstEnd lfBlank [] (tokenBytes run ++ event) = some (tokenBytes run ++ event).length := by
    rw [firstEnd_append_of_none all.noLf, firstEnd_lfBlank_fresh _ start, piece, map_some,
      length_append, Nat.add_comm]
  rw [findEventEnd_eq, firstEnd_append_of_some found, some_or]

theorem findEventEnd_run_newline (all : CrlfRun run) (nonempty : run ≠ []) (left : List UInt8) :
    findEventEnd (tokenBytes run ++ [0x0A] ++ left) = some (tokenBytes run ++ [0x0A]).length := by
  obtain ⟨before, ends⟩ := all.last nonempty
  have found : firstEnd lfBlank [] (tokenBytes run ++ [0x0A]) = some (tokenBytes run ++ [0x0A]).length := by
    rw [firstEnd_append_of_none all.noLf, nil_append, ends, firstEnd_lfBlank_newline]
    simp only [map_some, length_append, length_singleton, Option.some.injEq]
    omega
  rw [findEventEnd_eq, firstEnd_append_of_some found, some_or]

theorem CrlfRun.drainsTo (all : CrlfRun run) (uncut : Uncut rest) :
    DrainsTo (tokenBytes run ++ rest) (run.map SseToken.fields) rest := by
  induction run with
  | nil =>
    have absent : findEventEnd rest = none := by rw [findEventEnd_eq, uncut.noLf, uncut.noCrlf]; rfl
    have drains := DrainsTo.none absent
    rwa [trimNewlines_self uncut.start] at drains
  | cons token run ih =>
    obtain ⟨noLf, ends, -, -⟩ := (all token (by simp)).1.crlf_piece (all token (by simp)).2
    have absent : firstEnd lfBlank [] (tokenBytes (token :: run) ++ rest) = none := by
      rw [firstEnd_append_of_none all.noLf, firstEnd_lfBlank_fresh _ uncut.start, uncut.noLf]
      rfl
    have split : tokenBytes (token :: run) ++ rest = token.bytes ++ (tokenBytes run ++ rest) := append_assoc ..
    rw [split] at absent ⊢
    have found : findEventEnd (token.bytes ++ (tokenBytes run ++ rest)) = some token.bytes.length := by
      rw [findEventEnd_eq, absent, none_or, firstEnd_append_of_some ends]
    exact .cons found (ih all.tail)

theorem drainsTo_mergedFields (all : CrlfRun run) (cut : ∀ token ∈ tokens, token.Cut) (uncut : Uncut rest) :
    DrainsTo (tokenBytes run ++ (tokenBytes tokens ++ rest)) (mergedFields (run.map SseToken.fields) tokens)
      rest := by
  induction tokens generalizing run with
  | nil => exact all.drainsTo uncut
  | cons token tokens ih =>
    obtain ⟨here, cut⟩ := forall_mem_cons.mp cut
    have split : tokenBytes run ++ (tokenBytes (token :: tokens) ++ rest) =
        tokenBytes run ++ token.bytes ++ (tokenBytes tokens ++ rest) := by
      simp [tokenBytes]
    have later : DrainsTo (tokenBytes tokens ++ rest) (mergedFields [] tokens) rest :=
      ih (show CrlfRun [] from nofun) cut
    rw [split, mergedFields]
    cases kind : token.isCrlf with
    | true =>
      have all' : CrlfRun (run ++ [token]) := fun other mem => by
        rcases mem_append.mp mem with before | same
        · exact all other before
        · rw [mem_singleton.mp same]
          exact ⟨here, kind⟩
      have drains := ih all' cut
      simpa [tokenBytes] using drains
    | false =>
      have fields : sseFields (tokenBytes run ++ token.bytes) =
          (run.map SseToken.fields ++ [token.fields]).flatten := by
        rw [all.fields, flatten_append, flatten_singleton]
        rfl
      rw [if_neg (by simp), ← fields]
      cases token with
      | crlf piece => simp [SseToken.isCrlf] at kind
      | lf piece => exact .cons (findEventEnd_run_lf all (here.lf piece rfl) (here.start (by simp)) _) later
      | newline =>
        by_cases nonempty : run = []
        · subst nonempty
          have none : sseFields (tokenBytes [] ++ SseToken.newline.bytes) = [] := sseFields_newline
          exact DrainsTo.newline ⟨later.events, later.left⟩
        · exact .cons (findEventEnd_run_newline all nonempty _) later

end Runs

theorem drained_trim (buf : List UInt8) : (drained (trimNewlines buf)).2 = (drained buf).2 ∧
    trimNewlines (drained (trimNewlines buf)).1 = trimNewlines (drained buf).1 := by
  induction buf with
  | nil => exact ⟨rfl, rfl⟩
  | cons byte buf ih =>
    by_cases newline : byte = 0x0A
    · rw [newline, trimNewlines_newline]
      obtain ⟨events, left⟩ := drained_newline buf
      exact ⟨ih.1.trans events.symm, ih.2.trans left.symm⟩
    · rw [trimNewlines_self (by simpa using newline)]
      exact ⟨rfl, rfl⟩

theorem trimNewlines_append (buf chunk : List UInt8) :
    trimNewlines (trimNewlines buf ++ chunk) = trimNewlines (buf ++ chunk) := by
  induction buf with
  | nil => rfl
  | cons byte buf ih =>
    by_cases newline : byte = 0x0A
    · rw [newline, trimNewlines_newline, cons_append, trimNewlines_newline, ih]
    · have self : trimNewlines (byte :: buf) = byte :: buf := trimNewlines_self (by simpa using newline)
      rw [self]

theorem DrainsTo.of_trim {buf buf' rest : List UInt8} {fields : List (List SseField)}
    (same : trimNewlines buf' = trimNewlines buf) (drains : DrainsTo buf fields rest) :
    DrainsTo buf' fields rest := by
  have one := drained_trim buf
  have two := drained_trim buf'
  rw [same] at two
  exact ⟨(two.1.symm.trans one.1).trans drains.events,
    fun unstopped => (two.2.symm.trans one.2).trans (drains.left unstopped)⟩

theorem drainEvents_length (rounds : Nat) (buf : List UInt8) : (drainEvents rounds buf).1.length ≤ buf.length := by
  induction rounds generalizing buf with
  | zero => exact Nat.le_refl _
  | succ rounds ih =>
    rw [drainEvents_succ]
    cases findEventEnd buf with
    | none => exact Nat.le_refl _
    | some idx =>
      have dropped : (buf.drop idx).length ≤ buf.length := by rw [length_drop]; omega
      have later := (ih (buf.drop idx)).trans dropped
      show ((sseOutcome (sseFields (buf.take idx))).before _ _).1.length ≤ _
      cases sseOutcome (sseFields (buf.take idx)) with
      | nothing => exact later
      | done => exact dropped
      | event event => exact later

theorem outcomes_append (first second : List (List SseField)) : outcomes (first ++ second) =
    if (outcomes first).2 then outcomes first
    else ((outcomes first).1 ++ (outcomes second).1, (outcomes second).2) := by
  induction first with
  | nil => rfl
  | cons fields first ih =>
    rw [cons_append, outcomes, outcomes, ih]
    cases sseOutcome fields with
    | nothing => rfl
    | done => rfl
    | event event => cases stopped : (outcomes first).2 <;> simp [SseOutcome.before, stopped]

def chunkTokens (buf : List UInt8) : List (List UInt8) → List (List SseToken)
  | [] => []
  | chunk :: chunks => (forEach cutByte chunk buf).1 :: chunkTokens (forEach cutByte chunk buf).2 chunks

theorem ChatSseParser.push_eq (parser : ChatSseParser) (chunk : List UInt8)
    (small : (drained (parser.buf ++ chunk)).1.length ≤ maxBuffer) :
    parser.push chunk = (⟨(drained (parser.buf ++ chunk)).1⟩, (drained (parser.buf ++ chunk)).2) := by
  have all : parser.push chunk = (⟨if maxBuffer < (drained (parser.buf ++ chunk)).1.length then []
    else (drained (parser.buf ++ chunk)).1⟩, (drained (parser.buf ++ chunk)).2) := rfl
  rw [all, if_neg (Nat.not_lt.mpr small)]

theorem ChatSseParser.parse_cons (parser : ChatSseParser) (chunk : List UInt8) (chunks : List (List UInt8)) :
    parser.parse (chunk :: chunks) =
      if (parser.push chunk).2.2 then (parser.push chunk).2
      else ((parser.push chunk).2.1 ++ ((parser.push chunk).1.parse chunks).1,
        ((parser.push chunk).1.parse chunks).2) := by
  rw [parse]
  generalize parser.push chunk = pushed
  obtain ⟨next, events, done⟩ := pushed
  cases done <;> rfl

theorem parse_eq_outcomes {parser : ChatSseParser} {buf : List UInt8} {chunks : List (List UInt8)}
    (uncut : Uncut buf)
    (same : trimNewlines parser.buf = buf) (small : parser.buf.length + chunks.flatten.length ≤ maxBuffer) :
    parser.parse chunks = outcomes ((chunkTokens buf chunks).flatMap (mergedFields [])) := by
  induction chunks generalizing parser buf with
  | nil => rfl
  | cons chunk chunks ih =>
    obtain ⟨cut, uncut', split⟩ := uncut.forEach chunk
    have drains : DrainsTo (parser.buf ++ chunk) (mergedFields [] (forEach cutByte chunk buf).1)
        (forEach cutByte chunk buf).2 := by
      have all := drainsTo_mergedFields (show CrlfRun [] from nofun) cut uncut'
      refine DrainsTo.of_trim ?_ all
      have bytes : tokenBytes [] ++ (tokenBytes (forEach cutByte chunk buf).1 ++ (forEach cutByte chunk buf).2) =
          buf ++ chunk := split.symm
      rw [bytes, ← same, trimNewlines_append]
    have short : (drained (parser.buf ++ chunk)).1.length ≤ parser.buf.length + chunk.length := by
      rw [← length_append]
      exact drainEvents_length _ _
    rw [flatten_cons, length_append] at small
    have pushed := parser.push_eq chunk (by omega)
    rw [parse_cons, pushed, drains.events, chunkTokens, flatMap_cons, outcomes_append]
    cases stopped : (outcomes (mergedFields [] (forEach cutByte chunk buf).1)).2 with
    | true => rfl
    | false =>
      have room : (⟨(drained (parser.buf ++ chunk)).1⟩ : ChatSseParser).buf.length + chunks.flatten.length ≤
          maxBuffer := by
        simp only
        omega
      have later := ih uncut' (drains.left stopped) room
      simp [later]

end LlmGateway
