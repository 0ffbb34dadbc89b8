import LlmGateway.Chat.MediaText
import LlmGateway.Responses.ItemConversion
import LlmGateway.Responses.ToolOrder

namespace LlmGateway

open Json Text List Function MessageOut ShortSha256

def filled (text : Option Str) : List Str := (text.filter fun text => !isBlank text).toList

namespace InputItem

def carried : InputItem → List Str
  | reasoning text => filled text
  | call _ embedded | webSearch _ _ embedded | assistant _ embedded => filled embedded
  | _ => []

def used : InputItem → List Str
  | reasoning text => filled text
  | call _ embedded => filled embedded
  | _ => []

/-- What is embedded in an item whose branch does not look for it. -/
def unread : InputItem → List Str
  | webSearch _ _ embedded | assistant _ embedded => filled embedded
  | _ => []

def assists (item : InputItem) : Bool := item.isCall || item.isAssistant

end InputItem

/-- How many messages of the assistant there are, whether one is last, and whether media wait. -/
structure Progress where
  assistants : Nat
  last : Bool
  media : Bool

namespace Progress

def start : Progress := ⟨0, false, false⟩

def called (progress : Progress) : Nat :=
  if progress.last && !progress.media then progress.assistants else progress.assistants + 1

def next (progress : Progress) : InputItem → Progress
  | .reasoning _ | .skipped => progress
  | .call _ _ => ⟨progress.called, true, false⟩
  | .webSearch _ _ _ => ⟨progress.called, false, false⟩
  | .output _ _ media => ⟨progress.assistants, false, progress.media || !media.isEmpty⟩
  | .assistant _ _ => ⟨progress.assistants + 1, true, progress.media⟩
  | .boundary role _ =>
    if role = assistantRole then ⟨progress.assistants + 1, true, false⟩ else ⟨progress.assistants, false, false⟩

def home (progress : Progress) : List InputItem → Nat
  | [] => progress.assistants
  | item :: rest =>
    if item.isBoundary then progress.assistants
    else if item.assists then (progress.next item).assistants
    else (progress.next item).home rest

def texts (source : InputItem → List Str) (number : Nat) (progress : Progress) :
    List InputItem → List Str
  | [] => []
  | item :: rest =>
    (if progress.home (item :: rest) = number then source item else []) ++
      (progress.next item).texts source number rest

def calls (number : Nat) (progress : Progress) : List InputItem → Bool
  | [] => false
  | item :: rest =>
    item.isCall && decide ((progress.next item).assistants = number) || (progress.next item).calls number rest

end Progress

/-- The reasoning for each message and which of them have calls, and the reasoning that waits. -/
structure Ledger where
  held : Nat → List Str
  calls : Nat → Bool
  pending : List Str

namespace Ledger

variable (ledger : Ledger)

def settle (ledger : Ledger) (number : Nat) : Ledger :=
  ⟨Function.update ledger.held number (ledger.held number ++ ledger.pending), ledger.calls, []⟩

def wait (ledger : Ledger) (texts : List Str) : Ledger := { ledger with pending := ledger.pending ++ texts }

def mark (ledger : Ledger) (called : Bool) (number : Nat) : Ledger :=
  { ledger with calls := Function.update ledger.calls number (ledger.calls number || called) }

def take (ledger : Ledger) (progress : Progress) (item : InputItem) : Ledger :=
  if item.isBoundary then ledger.settle progress.assistants
  else if item.assists then
    ((ledger.wait item.used).settle (progress.next item).assistants).mark item.isCall
      (progress.next item).assistants
  else ledger.wait item.used

def close (ledger : Ledger) (progress : Progress) : List InputItem → Ledger
  | [] => ledger.settle progress.assistants
  | item :: rest => (ledger.take progress item).close (progress.next item) rest

theorem wait_nil : ledger.wait [] = ledger := by rw [wait, append_nil]

theorem held_settle (number other : Nat) :
    (ledger.settle number).held other = ledger.held other ++ if number = other then ledger.pending else [] := by
  by_cases same : number = other
  · rw [if_pos same, ← same]
    exact update_self ..
  · rw [if_neg same, append_nil]
    exact update_of_ne (Ne.symm same) ..

theorem calls_mark (called : Bool) (number other : Nat) :
    (ledger.mark called number).calls other = (ledger.calls other || called && decide (number = other)) := by
  by_cases same : number = other
  · rw [decide_eq_true same, Bool.and_true, ← same]
    exact update_self ..
  · rw [decide_eq_false same, Bool.and_false, Bool.or_false]
    exact update_of_ne (Ne.symm same) ..

theorem used_of_boundary {item : InputItem} (boundary : item.isBoundary) : item.used = [] := by
  cases item with
  | boundary role content => rfl
  | _ => cases boundary

theorem isCall_of_boundary {item : InputItem} (boundary : item.isBoundary) : item.isCall = false := by
  cases item with
  | boundary role content => rfl
  | _ => cases boundary

theorem held_close (items : List InputItem) (ledger : Ledger) (progress : Progress) (number : Nat) :
    (ledger.close progress items).held number = ledger.held number ++
      ((if progress.home items = number then ledger.pending else []) ++
        progress.texts InputItem.used number items) := by
  induction items generalizing ledger progress with
  | nil => rw [close, held_settle, Progress.home, Progress.texts, append_nil]
  | cons item items ih =>
    rw [close, ih, Progress.texts, Progress.home, take]
    by_cases boundary : item.isBoundary
    · simp only [if_pos boundary, held_settle, used_of_boundary boundary]
      simp [settle]
    · by_cases assists : item.assists
      · simp only [if_neg boundary, if_pos assists, mark, held_settle]
        simp only [settle, wait, ite_self]
        split_ifs
        · simp
        · simp
      · simp only [if_neg boundary, if_neg assists, wait]
        split_ifs
        · simp
        · simp

theorem calls_close (items : List InputItem) (ledger : Ledger) (progress : Progress) (number : Nat) :
    (ledger.close progress items).calls number = (ledger.calls number || progress.calls number items) := by
  induction items generalizing ledger progress with
  | nil => rw [close, Progress.calls, Bool.or_false, settle]
  | cons item items ih =>
    rw [close, ih, Progress.calls, ← Bool.or_assoc]
    congr 1
    unfold take
    by_cases boundary : item.isBoundary
    · rw [if_pos boundary, isCall_of_boundary boundary, Bool.false_and, Bool.or_false, settle]
    · by_cases assists : item.assists
      · rw [if_neg boundary, if_pos assists, calls_mark]
        rfl
      · have uncalled : item.isCall = false := by
          rw [InputItem.assists, Bool.or_eq_true, not_or, Bool.not_eq_true] at assists
          exact assists.1
        rw [if_neg boundary, if_neg assists, uncalled, Bool.false_and, Bool.or_false, wait]

end Ledger

def Filled (texts : List Str) : Prop := ∀ text ∈ texts, isBlank text = false

theorem filled_filled (text : Option Str) : Filled (filled text) := by
  intro piece mem
  have kept := (Option.mem_filter_iff.mp (Option.mem_toList.mp mem)).2
  simpa using kept

theorem Filled.append {texts more : List Str} (one : Filled texts) (two : Filled more) : Filled (texts ++ more) :=
  fun text mem => (mem_append.mp mem).elim (one text) (two text)

def joined (texts : List Str) : Option Str := if texts.isEmpty then none else some (joinLines texts)

theorem joined_cons (text : Str) (texts : List Str) : joined (text :: texts) = some (joinLines (text :: texts)) :=
  rfl

theorem isBlank_joinLines {texts : List Str} (some : texts ≠ []) (filled : Filled texts) :
    isBlank (joinLines texts) = false := by
  obtain ⟨text, rest, rfl⟩ := exists_cons_of_ne_nil some
  refine Bool.eq_false_iff.mpr fun blank => ?_
  have inside := blank_inside (infix_joinLines mem_cons_self) blank
  exact Bool.false_ne_true ((filled text mem_cons_self).symm.trans inside)

theorem filter_joined {texts : List Str} (filled : Filled texts) :
    (joined texts).filter (fun text => !isBlank text) = joined texts := by
  cases texts with
  | nil => rfl
  | cons text rest => exact filter_filled (isBlank_joinLines (cons_ne_nil _ _) filled)

theorem appendPendingReasoning_joined (texts : List Str) (text : Option Str) :
    appendPendingReasoning (joined texts) text = joined (texts ++ filled text) := by
  unfold appendPendingReasoning filled
  cases text.filter fun text => !isBlank text with
  | none => rw [Option.toList_none, append_nil]
  | some piece =>
    cases texts with
    | nil => rw [Option.toList_some, nil_append, joined_cons, joinLines_single]; rfl
    | cons first rest =>
      rw [Option.toList_some, joined_cons, cons_append, joined_cons, ← cons_append,
        joinLines_append (cons_ne_nil _ _) (cons_ne_nil _ _), joinLines_single]

theorem attach_joined {message : MessageOut} {held pending : List Str}
    (has : message.reasoningContent = joined held) (old : Filled held) (new : Filled pending) :
    (message.attach (joined pending)).reasoningContent = joined (held ++ pending) := by
  unfold MessageOut.attach
  rw [filter_joined new]
  cases pending with
  | nil => rw [append_nil, ← has]; rfl
  | cons first rest =>
    cases held with
    | nil => simp [withReasoning, has, joined]
    | cons held others =>
      have kept := isBlank_joinLines (cons_ne_nil _ _) old
      simp only [joined_cons, withReasoning, has, kept, Bool.false_eq_true, if_false, cons_append]
      rw [← cons_append, joinLines_append (cons_ne_nil _ _) (cons_ne_nil _ _)]

/-- The messages have the reasoning and the calls of the ledger. -/
structure Kept (messages : List MessageOut) (assistants : Nat) (ledger : Ledger) : Prop where
  count : (messages.filter isAssistant).length = assistants
  each : ∀ number message, (messages.filter isAssistant)[number]? = some message →
    message.reasoningContent = joined (ledger.held (number + 1)) ∧
      (!message.toolCalls.isEmpty) = ledger.calls (number + 1)
  others : ∀ message ∈ messages, message.isAssistant = false → message.reasoningContent = none
  fresh : ∀ number, assistants < number → ledger.held number = [] ∧ ledger.calls number = false
  filled : ∀ number, Filled (ledger.held number)

section Kept

variable {messages before after : List MessageOut} {message last : MessageOut} {assistants : Nat}
  {ledger later : Ledger}

theorem Kept.push_other (kept : Kept messages assistants ledger) (other : message.isAssistant = false)
    (none : message.reasoningContent = none) : Kept (messages ++ [message]) assistants ledger := by
  have same : (messages ++ [message]).filter isAssistant = messages.filter isAssistant := by
    simp [other]
  refine ⟨same ▸ kept.count, same ▸ kept.each, fun one mem => ?_, kept.fresh, kept.filled⟩
  rcases mem_append.mp mem with old | new
  · exact kept.others one old
  · rw [mem_singleton.mp new]
    exact fun _ => none

theorem Kept.push_assistant (kept : Kept messages assistants ledger) (assistant : message.isAssistant)
    (elsewhere : ∀ number, number ≠ assistants + 1 →
      later.held number = ledger.held number ∧ later.calls number = ledger.calls number)
    (here : message.reasoningContent = joined (later.held (assistants + 1)) ∧
      (!message.toolCalls.isEmpty) = later.calls (assistants + 1))
    (filled : Filled (later.held (assistants + 1))) : Kept (messages ++ [message]) (assistants + 1) later := by
  have whole : (messages ++ [message]).filter isAssistant =
      messages.filter isAssistant ++ [message] := by simp [assistant]
  refine ⟨?_, fun number one found => ?_, fun one mem => ?_, fun number above => ?_, fun number => ?_⟩
  · rw [whole, length_append, kept.count]
    rfl
  · rw [whole, List.getElem?_append, kept.count] at found
    split_ifs at found with old
    · rw [(elsewhere (number + 1) (by omega)).1, (elsewhere (number + 1) (by omega)).2]
      exact kept.each number one found
    · have same : number = assistants := by
        obtain ⟨bound, -⟩ := List.getElem?_eq_some_iff.mp found
        rw [length_singleton] at bound
        omega
      rw [same, Nat.sub_self] at found
      cases found
      rw [same]
      exact here
  · rcases mem_append.mp mem with old | new
    · exact kept.others one old
    · rw [mem_singleton.mp new, assistant]
      exact fun wrong => Bool.noConfusion wrong
  · rw [(elsewhere number (by omega)).1, (elsewhere number (by omega)).2]
    exact kept.fresh number (by omega)
  · by_cases same : number = assistants + 1
    · rw [same]
      exact filled
    · rw [(elsewhere number same).1]
      exact kept.filled number

theorem filter_last (assistant : last.isAssistant) (none : ∀ message ∈ after, message.isAssistant = false) :
    (before ++ last :: after).filter isAssistant = before.filter isAssistant ++ [last] := by
  have nothing : after.filter isAssistant = [] := filter_eq_nil_iff.mpr fun message mem =>
    Bool.eq_false_iff.mp (none message mem)
  rw [filter_append, filter_cons_of_pos assistant, nothing]

theorem Kept.of_last (kept : Kept (before ++ last :: after) assistants ledger) (assistant : last.isAssistant)
    (none : ∀ message ∈ after, message.isAssistant = false) :
    (before.filter isAssistant).length + 1 = assistants ∧
      last.reasoningContent = joined (ledger.held assistants) ∧
        (!last.toolCalls.isEmpty) = ledger.calls assistants := by
  have count := kept.count
  have each := kept.each (before.filter isAssistant).length last
  rw [filter_last assistant none] at count each
  rw [length_append, length_singleton] at count
  rw [count] at each
  exact ⟨count, each List.getElem?_concat_length⟩

theorem Kept.change (kept : Kept (before ++ last :: after) assistants ledger) (assistant : last.isAssistant)
    (none : ∀ message ∈ after, message.isAssistant = false) (still : message.isAssistant)
    (elsewhere : ∀ number, number ≠ assistants →
      later.held number = ledger.held number ∧ later.calls number = ledger.calls number)
    (here : message.reasoningContent = joined (later.held assistants) ∧
      (!message.toolCalls.isEmpty) = later.calls assistants)
    (filled : Filled (later.held assistants)) : Kept (before ++ message :: after) assistants later := by
  obtain ⟨count, -⟩ := kept.of_last assistant none
  refine ⟨?_, fun number one found => ?_, fun one mem => ?_, fun number above => ?_, fun number => ?_⟩
  · rw [filter_last still none, length_append]
    exact count
  · rw [filter_last still none, List.getElem?_append] at found
    split_ifs at found with old
    · rw [(elsewhere (number + 1) (by omega)).1, (elsewhere (number + 1) (by omega)).2]
      refine kept.each number one ?_
      rw [filter_last assistant none, List.getElem?_append, if_pos old]
      exact found
    · obtain ⟨bound, -⟩ := List.getElem?_eq_some_iff.mp found
      rw [length_singleton] at bound
      have same : number + 1 = assistants := by omega
      rw [Nat.lt_one_iff.mp bound] at found
      cases found
      rw [same]
      exact here
  · rcases mem_append.mp mem with old | new
    · exact kept.others one (mem_append_left _ old)
    · rcases mem_cons.mp new with rfl | rest
      · rw [still]
        exact fun wrong => Bool.noConfusion wrong
      · exact kept.others one (by simp [rest])
  · rw [(elsewhere number (by omega)).1, (elsewhere number (by omega)).2]
    exact kept.fresh number above
  · by_cases same : number = assistants
    · rw [same]
      exact filled
    · rw [(elsewhere number same).1]
      exact kept.filled number

theorem exists_last_assistant (messages : List MessageOut) :
    (∀ message ∈ messages, message.isAssistant = false) ∨
      ∃ before last after, messages = before ++ last :: after ∧ last.isAssistant ∧
        ∀ message ∈ after, message.isAssistant = false := by
  induction messages using List.reverseRecOn with
  | nil => exact .inl (by simp)
  | append_singleton messages message ih =>
    cases assistant : message.isAssistant with
    | true => exact .inr ⟨messages, message, [], rfl, assistant, by simp⟩
    | false =>
      rcases ih with none | ⟨before, last, after, rfl, found, none⟩
      · refine .inl fun one mem => ?_
        rcases mem_append.mp mem with old | new
        · exact none one old
        · rw [mem_singleton.mp new, assistant]
      · refine .inr ⟨before, last, after ++ [message], by simp, found, fun one mem => ?_⟩
        rcases mem_append.mp mem with old | new
        · exact none one old
        · rw [mem_singleton.mp new, assistant]

theorem modifyFirst_append {α : Type*} {p : α → Bool} {f : α → α} {front rest : List α} {x : α}
    (none : ∀ y ∈ front, p y = false) (here : p x) :
    modifyFirst p f (front ++ x :: rest) = front ++ f x :: rest := by
  induction front with
  | nil => rw [nil_append, modifyFirst, if_pos here, nil_append]
  | cons y front ih =>
    rw [cons_append, modifyFirst, if_neg (by simp [none y mem_cons_self]),
      ih fun z mem => none z (mem_cons_of_mem _ mem), cons_append]

theorem attach_split (assistant : last.isAssistant) (none : ∀ message ∈ after, message.isAssistant = false)
    (reasoning : Option Str) :
    attachReasoningToLastAssistant (before ++ last :: after) reasoning =
      before ++ last.attach reasoning :: after := by
  unfold attachReasoningToLastAssistant MessageOut.attach
  cases reasoning.filter fun text => !isBlank text with
  | none => rfl
  | some text =>
    have behind : ∀ message ∈ after.reverse, message.isAssistant = false := fun message mem =>
      none message (mem_reverse.mp mem)
    simp [modifyFirst_append behind assistant]

theorem Kept.attach (kept : Kept messages assistants ledger) (waits : Filled ledger.pending) :
    Kept (attachReasoningToLastAssistant messages (joined ledger.pending)) assistants
      (ledger.settle assistants) := by
  have elsewhere (number : Nat) (other : number ≠ assistants) :
      (ledger.settle assistants).held number = ledger.held number ∧
        (ledger.settle assistants).calls number = ledger.calls number := by
    rw [Ledger.held_settle, if_neg (Ne.symm other), append_nil]
    exact ⟨rfl, rfl⟩
  have settled : (ledger.settle assistants).held assistants = ledger.held assistants ++ ledger.pending := by
    rw [Ledger.held_settle, if_pos rfl]
  have filled : Filled ((ledger.settle assistants).held assistants) :=
    settled ▸ (kept.filled assistants).append waits
  rcases exists_last_assistant messages with none | ⟨before, last, after, rfl, assistant, none⟩
  · have nothing : messages.filter isAssistant = [] := filter_eq_nil_iff.mpr fun message mem =>
      Bool.eq_false_iff.mp (none message mem)
    rw [attach_none none]
    refine ⟨kept.count, fun number one found => ?_, kept.others, fun number above => ?_, fun number => ?_⟩
    · rw [nothing] at found
      cases found
    · rw [(elsewhere number (by omega)).1, (elsewhere number (by omega)).2]
      exact kept.fresh number above
    · by_cases same : number = assistants
      · exact same ▸ filled
      · exact (elsewhere number same).1 ▸ kept.filled number
  · obtain ⟨-, reasoning, calls⟩ := kept.of_last assistant none
    obtain ⟨content, same⟩ := last.attach_eq (joined ledger.pending)
    rw [attach_split assistant none]
    refine kept.change assistant none ?_ elsewhere ⟨?_, ?_⟩ filled
    · rw [same]
      exact assistant
    · rw [settled]
      exact attach_joined reasoning (kept.filled assistants) waits
    · rw [same]
      exact calls

theorem Kept.flush (kept : Kept messages assistants ledger) (media : List Json) :
    Kept (flushPendingMedia messages media) assistants ledger := by
  unfold flushPendingMedia
  split_ifs
  · exact kept
  · exact kept.push_other rfl rfl

theorem Kept.wait (kept : Kept messages assistants ledger) (texts : List Str) :
    Kept messages assistants (ledger.wait texts) :=
  ⟨kept.count, kept.each, kept.others, kept.fresh, kept.filled⟩

def lastAssists (messages : List MessageOut) : Bool := messages.getLast?.any isAssistant

theorem lastAssists_concat (messages : List MessageOut) (message : MessageOut) :
    lastAssists (messages ++ [message]) = message.isAssistant := by
  rw [lastAssists, List.getLast?_concat, Option.any_some]

theorem lastAssists_flush (messages : List MessageOut) (media : List Json) :
    lastAssists (flushPendingMedia messages media) = (lastAssists messages && media.isEmpty) := by
  unfold flushPendingMedia
  cases media.isEmpty with
  | true => rw [if_pos rfl, Bool.and_true]
  | false =>
    rw [if_neg Bool.false_ne_true, lastAssists_concat, Bool.and_false]
    rfl

theorem lastAssists_attach (messages : List MessageOut) (reasoning : Option Str) :
    lastAssists (attachReasoningToLastAssistant messages reasoning) = lastAssists messages := by
  have bare (messages : List MessageOut) : lastAssists (messages.map bare) = lastAssists messages := by
    rw [lastAssists, List.getLast?_map, Option.any_map]
    rfl
  rw [← bare, bare_attach, bare]

theorem lastAssists_appendToolCall (messages : List MessageOut) (tool : ToolCallOut) :
    lastAssists (appendToolCallToLastAssistant messages tool) := by
  rcases appendToolCall_cases messages tool with ⟨before, last, -, assistant, joined⟩ | ⟨-, opened⟩
  · rw [joined, lastAssists_concat]
    exact assistant
  · rw [opened, lastAssists_concat]
    rfl

theorem mark_elsewhere (ledger : Ledger) (called : Bool) {number other : Nat} (differs : other ≠ number) :
    (ledger.mark called number).held other = ledger.held other ∧
      (ledger.mark called number).calls other = ledger.calls other :=
  ⟨rfl, update_of_ne differs ..⟩

theorem Kept.call (kept : Kept messages assistants ledger) (tool : ToolCallOut) :
    Kept (appendToolCallToLastAssistant messages tool) (if lastAssists messages then assistants else assistants + 1)
      (ledger.mark true (if lastAssists messages then assistants else assistants + 1)) := by
  have marked (number : Nat) : (ledger.mark true number).calls number := by
    rw [Ledger.calls_mark, decide_eq_true rfl, Bool.and_true, Bool.or_true]
  rcases appendToolCall_cases messages tool with ⟨before, last, rfl, assistant, joins⟩ | ⟨other, opens⟩
  · obtain ⟨-, reasoning, -⟩ := kept.of_last assistant (by simp)
    rw [lastAssists_concat, assistant, if_pos rfl, joins]
    refine kept.change assistant (by simp) assistant (fun number => mark_elsewhere ledger true) ⟨reasoning, ?_⟩
      (kept.filled assistants)
    rw [marked]
    simp
  · have outside : lastAssists messages = false := by
      cases found : messages.getLast? with
      | none => rw [lastAssists, found, Option.any_none]
      | some last => rw [lastAssists, found, Option.any_some, other last found]
    have new : (ledger.mark true (assistants + 1)).held (assistants + 1) = [] :=
      (kept.fresh _ (Nat.lt_succ_self _)).1
    rw [outside, if_neg Bool.false_ne_true, opens]
    refine kept.push_assistant rfl (fun number => mark_elsewhere ledger true) ⟨?_, ?_⟩
      (kept.filled (assistants + 1))
    · rw [new]
      rfl
    · rw [marked]
      rfl

end Kept

/-- The conversion has come as far as the ledger. -/
structure Tracks (state : Conversion) (progress : Progress) (ledger : Ledger) : Prop where
  kept : Kept state.messages progress.assistants ledger
  last : lastAssists state.messages = progress.last
  media : (!state.pendingMedia.isEmpty) = progress.media
  pending : state.pendingReasoning = joined ledger.pending
  waits : Filled ledger.pending

section Tracks

variable {state : Conversion} {progress : Progress} {ledger : Ledger}

theorem filled_used (item : InputItem) : Filled item.used := by
  cases item with
  | reasoning text => exact filled_filled text
  | call tool embedded => exact filled_filled embedded
  | _ => exact fun text mem => nomatch mem

theorem Tracks.callTool (tracks : Tracks state progress ledger) (tool : ToolCallOut) (reasoning : Option Str) :
    Tracks (state.callTool tool reasoning) ⟨progress.called, true, false⟩
      (((ledger.wait (filled reasoning)).settle progress.called).mark true progress.called) := by
  have joins : (if lastAssists (flushPendingMedia state.messages state.pendingMedia) then progress.assistants
      else progress.assistants + 1) = progress.called := by
    rw [lastAssists_flush, tracks.last, Progress.called, ← tracks.media, Bool.not_not]
  have called := (tracks.kept.flush state.pendingMedia).call tool
  rw [joins] at called
  have waits : Filled (ledger.pending ++ filled reasoning) := tracks.waits.append (filled_filled reasoning)
  refine ⟨?_, ?_, rfl, rfl, fun text mem => nomatch mem⟩
  · rw [Conversion.callTool, tracks.pending, appendPendingReasoning_joined]
    exact (called.wait (filled reasoning)).attach waits
  · rw [Conversion.callTool, lastAssists_attach, lastAssists_appendToolCall]

theorem Tracks.assistant (tracks : Tracks state progress ledger) (content : Json) (embedded : Option Str) :
    Tracks (state.take (.assistant content embedded)) ⟨progress.assistants + 1, true, progress.media⟩
      (((ledger.wait []).settle (progress.assistants + 1)).mark false (progress.assistants + 1)) := by
  have fresh := tracks.kept.fresh (progress.assistants + 1) (Nat.lt_succ_self _)
  have held : (((ledger.wait []).settle (progress.assistants + 1)).mark false (progress.assistants + 1)).held
      (progress.assistants + 1) = ledger.pending := by
    rw [Ledger.mark, Ledger.held_settle, if_pos rfl]
    simp [Ledger.wait, fresh.1]
  refine ⟨?_, lastAssists_concat _ _, tracks.media, rfl, fun text mem => nomatch mem⟩
  refine tracks.kept.push_assistant rfl (fun number other => ⟨?_, ?_⟩) ⟨?_, ?_⟩ ?_
  · rw [Ledger.mark, Ledger.held_settle, if_neg (Ne.symm other), append_nil]
    rfl
  · exact update_of_ne other ..
  · rw [held, tracks.pending]
    exact filter_joined tracks.waits
  · rw [Ledger.calls_mark, Bool.false_and, Bool.or_false]
    exact fresh.2.symm
  · exact held ▸ tracks.waits

theorem Tracks.boundary (tracks : Tracks state progress ledger) (role : Str) (content : Json) :
    Tracks (state.take (.boundary role content)) (progress.next (.boundary role content))
      (ledger.settle progress.assistants) := by
  have settled := tracks.kept.attach tracks.waits
  rw [← tracks.pending] at settled
  have flushed := settled.flush state.pendingMedia
  have last : lastAssists (state.take (.boundary role content)).messages =
      (plainMessage role content).isAssistant :=
    lastAssists_concat _ _
  rw [Progress.next]
  split_ifs with assistant
  · have plain : (plainMessage role content).isAssistant := decide_eq_true assistant
    refine ⟨?_, last.trans plain, rfl, rfl, fun text mem => nomatch mem⟩
    have fresh := settled.fresh (progress.assistants + 1) (Nat.lt_succ_self _)
    refine flushed.push_assistant plain (fun number _ => ⟨rfl, rfl⟩) ⟨?_, ?_⟩ (settled.filled _)
    · rw [fresh.1]
      rfl
    · exact fresh.2.symm
  · have plain : (plainMessage role content).isAssistant = false := decide_eq_false assistant
    exact ⟨flushed.push_other plain rfl, last.trans plain, rfl, rfl, fun text mem => nomatch mem⟩

theorem isEmpty_labelled (callId : Str) (media : List Json) : (labelled callId media).isEmpty = media.isEmpty := by
  cases media with
  | nil => rfl
  | cons part rest => simp [labelled]

theorem Tracks.take (tracks : Tracks state progress ledger) (item : InputItem) :
    Tracks (state.take item) (progress.next item) (ledger.take progress item) := by
  cases item with
  | reasoning text =>
    refine ⟨tracks.kept.wait _, tracks.last, tracks.media, ?_, tracks.waits.append (filled_used _)⟩
    rw [Conversion.take, tracks.pending, appendPendingReasoning_joined]
    rfl
  | call tool embedded => exact tracks.callTool tool embedded
  | webSearch tool results embedded =>
    have called := tracks.callTool tool none
    exact ⟨called.kept.push_other rfl rfl, lastAssists_concat _ _, rfl, rfl, by rintro _ ⟨⟩⟩
  | output callId content media =>
    have same : ledger.take progress (.output callId content media) = ledger := ledger.wait_nil
    rw [same]
    refine ⟨tracks.kept.push_other rfl rfl, lastAssists_concat _ _, ?_, tracks.pending, tracks.waits⟩
    rw [Conversion.take, Progress.next, ← tracks.media]
    cases state.pendingMedia with
    | nil => exact congrArg not (isEmpty_labelled callId media)
    | cons part rest => rfl
  | assistant content embedded => exact tracks.assistant content embedded
  | boundary role content => exact tracks.boundary role content
  | skipped =>
    have same : ledger.take progress .skipped = ledger := ledger.wait_nil
    rw [same]
    exact tracks

theorem Tracks.run (tracks : Tracks state progress ledger) (items : List InputItem) :
    Kept (attachReasoningToLastAssistant
        (flushPendingMedia (items.foldl Conversion.take state).messages
          (items.foldl Conversion.take state).pendingMedia)
        (items.foldl Conversion.take state).pendingReasoning)
      (items.foldl Progress.next progress).assistants (ledger.close progress items) := by
  induction items generalizing state progress ledger with
  | nil =>
    rw [foldl_nil, tracks.pending]
    exact (tracks.kept.flush state.pendingMedia).attach tracks.waits
  | cons item items ih => exact ih (tracks.take item)

end Tracks

def expectedReasoning (calls : Bool) (texts : List Str) : Option Str :=
  (joined texts).or (if calls then some toolCallReasoningPlaceholder else none)

/-- Every text of the items stands once in the message that is its home, in order, and nothing else does. -/
structure ReasoningAttached (source : InputItem → List Str) (messages : List MessageOut) (items : List InputItem) :
    Prop where
  count : (messages.filter isAssistant).length = (items.foldl Progress.next .start).assistants
  each : ∀ number message, (messages.filter isAssistant)[number]? = some message →
    message.reasoningContent =
      expectedReasoning (!message.toolCalls.isEmpty) (Progress.start.texts source (number + 1) items)
  others : ∀ message ∈ messages, message.isAssistant = false → message.reasoningContent = none

theorem backfilled_toolCalls (message : MessageOut) : message.backfilled.toolCalls = message.toolCalls := by
  unfold backfilled
  split_ifs
  · rfl
  · rfl

theorem backfilled_reasoning {message : MessageOut} {texts : List Str} (assistant : message.isAssistant)
    (filled : Filled texts) (has : message.reasoningContent = joined texts) :
    message.backfilled.reasoningContent = expectedReasoning (!message.toolCalls.isEmpty) texts := by
  unfold backfilled expectedReasoning
  rw [assistant, has, Bool.true_and]
  cases texts with
  | nil =>
    have blank : isBlank ((joined []).getD []) := rfl
    rw [blank, Bool.and_true]
    split_ifs
    · rfl
    · exact has
  | cons text rest =>
    have solid : isBlank ((joined (text :: rest)).getD []) = false := isBlank_joinLines (cons_ne_nil _ _) filled
    rw [solid, Bool.and_false, if_neg Bool.false_ne_true, has]
    rfl

theorem tracks_start {system : List MessageOut}
    (plain : ∀ message ∈ system, message.isAssistant = false ∧ message.reasoningContent = none) :
    Tracks ⟨system, none, []⟩ .start ⟨fun _ => [], fun _ => false, []⟩ := by
  have nothing : system.filter isAssistant = [] := filter_eq_nil_iff.mpr fun message mem =>
    Bool.eq_false_iff.mp (plain message mem).1
  have last : lastAssists system = false := by
    cases found : system.getLast? with
    | none => rw [lastAssists, found, Option.any_none]
    | some last => rw [lastAssists, found, Option.any_some, (plain last (mem_of_getLast? found)).1]
  refine ⟨⟨?_, fun number message found => ?_, fun message mem _ => (plain message mem).2, fun _ _ => ⟨rfl, rfl⟩,
    fun _ _ mem => nomatch mem⟩, last, rfl, rfl, fun _ mem => nomatch mem⟩
  · rw [nothing]
    rfl
  · rw [nothing] at found
    cases found

theorem filter_finish (state : Conversion) : state.finish.filter isAssistant =
    ((attachReasoningToLastAssistant (flushPendingMedia state.messages state.pendingMedia)
      state.pendingReasoning).filter isAssistant).map backfilled := by
  have same : isAssistant ∘ backfilled = isAssistant := funext backfilled_isAssistant
  rw [Conversion.finish, backfillToolCallReasoningPlaceholders, filter_map, same]

section Run

variable {system : List MessageOut}
  (plain : ∀ message ∈ system, message.isAssistant = false ∧ message.reasoningContent = none)
  (items : List InputItem)
include plain

theorem kept_run : Kept (attachReasoningToLastAssistant
      (flushPendingMedia (items.foldl Conversion.take ⟨system, none, []⟩).messages
        (items.foldl Conversion.take ⟨system, none, []⟩).pendingMedia)
      (items.foldl Conversion.take ⟨system, none, []⟩).pendingReasoning)
    (items.foldl Progress.next .start).assistants
    ⟨fun number => Progress.start.texts InputItem.used number items, fun number =>
      Progress.start.calls number items, []⟩ := by
  have kept := (tracks_start plain).run items
  refine ⟨kept.count, fun number message found => ?_, kept.others, fun number above => ?_, fun number => ?_⟩
  · have each := kept.each number message found
    rw [Ledger.held_close, Ledger.calls_close] at each
    simpa using each
  · have fresh := kept.fresh number above
    rw [Ledger.held_close, Ledger.calls_close] at fresh
    simpa using fresh
  · have filled := kept.filled number
    rw [Ledger.held_close] at filled
    simpa using filled

theorem calls_finish {number : Nat} {message : MessageOut}
    (found : ((items.foldl Conversion.take ⟨system, none, []⟩).finish.filter isAssistant)[number]? = some message) :
    (!message.toolCalls.isEmpty) = Progress.start.calls (number + 1) items := by
  rw [filter_finish, List.getElem?_map, Option.map_eq_some_iff] at found
  obtain ⟨old, found, rfl⟩ := found
  rw [backfilled_toolCalls]
  exact ((kept_run plain items).each number old found).2

theorem attached_used :
    ReasoningAttached InputItem.used (items.foldl Conversion.take ⟨system, none, []⟩).finish items := by
  have kept := kept_run plain items
  refine ⟨?_, fun number message found => ?_, fun message mem other => ?_⟩
  · rw [filter_finish, length_map]
    exact kept.count
  · rw [filter_finish, List.getElem?_map, Option.map_eq_some_iff] at found
    obtain ⟨old, found, rfl⟩ := found
    have assistant := of_mem_filter (mem_of_getElem? found)
    rw [backfilled_toolCalls]
    exact backfilled_reasoning assistant (kept.filled (number + 1)) (kept.each number old found).1
  · obtain ⟨old, inside, rfl⟩ := mem_map.mp mem
    rw [backfilled_isAssistant] at other
    have unchanged : old.backfilled = old := by rw [backfilled, other]; rfl
    rw [unchanged]
    exact kept.others old inside other

end Run

theorem InputItem.carried_eq (item : InputItem) : item.carried = item.used ++ item.unread := by
  cases item with
  | reasoning | call => exact (append_nil _).symm
  | _ => rfl

theorem used_sublist (item : InputItem) : item.used.Sublist item.carried := by
  rw [item.carried_eq]
  exact sublist_append_left _ _

theorem texts_sublist {one two : InputItem → List Str} (each : ∀ item, (one item).Sublist (two item)) (number : Nat)
    (items : List InputItem) (progress : Progress) :
    (progress.texts one number items).Sublist (progress.texts two number items) := by
  induction items generalizing progress with
  | nil => exact List.Sublist.refl _
  | cons item items ih =>
    refine List.Sublist.append ?_ (ih (progress.next item))
    split_ifs
    · exact each item
    · exact List.Sublist.refl _

theorem length_joinLines {texts : List Str} (some : texts ≠ []) :
    (joinLines texts).length + 1 = (texts.map fun text => text.length + 1).sum := by
  induction texts with
  | nil => exact absurd rfl some
  | cons text rest ih =>
    cases rest with
    | nil => simp [joinLines_single]
    | cons next rest =>
      have later := ih (cons_ne_nil _ _)
      rw [joinLines_cons (cons_ne_nil _ _), map_cons, sum_cons, ← later, length_append,
        length_cons]
      omega

theorem sum_of_sublist {texts more : List Str} (sub : texts.Sublist more) :
    (texts.map fun text => text.length + 1).sum + more.length ≤
      (more.map fun text => text.length + 1).sum + texts.length := by
  induction sub with
  | slnil => exact Nat.le_refl _
  | cons text _ ih =>
    rw [map_cons, sum_cons, length_cons]
    omega
  | cons_cons text _ ih =>
    rw [map_cons, sum_cons, length_cons, map_cons, sum_cons, length_cons]
    omega

theorem eq_of_joinLines {texts more : List Str} (sub : texts.Sublist more) (some : texts ≠ [])
    (same : joinLines texts = joinLines more) : texts = more := by
  have filled : more ≠ [] := fun none => some (sublist_nil.mp (none ▸ sub))
  have sums := sum_of_sublist sub
  rw [← length_joinLines some, ← length_joinLines filled, same] at sums
  exact sub.eq_of_length_le (by omega)

theorem eq_placeholder {texts : List Str} (some : texts ≠ [])
    (same : joinLines texts = toolCallReasoningPlaceholder) : texts = [toolCallReasoningPlaceholder] := by
  obtain ⟨text, rest, rfl⟩ := exists_cons_of_ne_nil some
  cases rest with
  | nil => rw [← same, joinLines_single]
  | cons next rest =>
    have newline : '\n' ∈ toolCallReasoningPlaceholder := by
      rw [← same, joinLines_cons (cons_ne_nil _ _)]
      simp
    exact absurd newline (by decide)

theorem expectedReasoning_eq_iff {used carried : List Str} (sub : used.Sublist carried) (calls : Bool) :
    expectedReasoning calls used = expectedReasoning calls carried ↔
      used = carried ∨ used = [] ∧ carried = [toolCallReasoningPlaceholder] ∧ calls := by
  constructor
  · intro same
    cases used with
    | nil =>
      cases carried with
      | nil => exact .inl rfl
      | cons text rest =>
        cases calls with
        | true => exact .inr ⟨rfl, eq_placeholder (cons_ne_nil _ _) (Option.some.inj same).symm, rfl⟩
        | false => cases same
    | cons first others =>
      obtain ⟨text, rest, rfl⟩ := exists_cons_of_ne_nil fun none : carried = [] =>
        cons_ne_nil _ _ (sublist_nil.mp (none ▸ sub))
      exact .inl (eq_of_joinLines sub (cons_ne_nil _ _) (Option.some.inj same))
  · rintro (rfl | ⟨rfl, rfl, rfl⟩)
    · rfl
    · rfl

/-- No reasoning is embedded in a search or a message of the assistant, unless it is all that its message has and
the same as the placeholder of the calls there. -/
def ReasoningRead (items : List InputItem) : Prop :=
  ∀ (i : Nat) (inside : i < items.length), items[i].unread = [] ∨
    let number := ((items.take i).foldl Progress.next .start).home (items.drop i)
    Progress.start.texts InputItem.carried number items = [toolCallReasoningPlaceholder] ∧
      Progress.start.calls number items

instance (items : List InputItem) : Decidable (ReasoningRead items) :=
  inferInstanceAs (Decidable (∀ (i : Nat) (inside : i < items.length), items[i].unread = [] ∨
    Progress.start.texts InputItem.carried (((items.take i).foldl Progress.next .start).home (items.drop i)) items =
        [toolCallReasoningPlaceholder] ∧
      Progress.start.calls (((items.take i).foldl Progress.next .start).home (items.drop i)) items))

namespace Progress

theorem used_eq_carried_iff (item : InputItem) : item.used = item.carried ↔ item.unread = [] := by
  rw [InputItem.carried_eq, self_eq_append_right]

theorem texts_eq_iff (number : Nat) (items : List InputItem) (progress : Progress) :
    progress.texts InputItem.used number items = progress.texts InputItem.carried number items ↔
      ∀ (i : Nat) (inside : i < items.length),
        ((items.take i).foldl next progress).home (items.drop i) = number → items[i].unread = [] := by
  induction items generalizing progress with
  | nil => exact iff_of_true rfl fun i inside => absurd inside (Nat.not_lt_zero i)
  | cons item items ih =>
    have later := ih (progress.next item)
    have here : (if progress.home (item :: items) = number then item.used else []) =
        (if progress.home (item :: items) = number then item.carried else []) ↔
        (progress.home (item :: items) = number → item.unread = []) := by
      split_ifs with mine
      · rw [used_eq_carried_iff, imp_iff_right mine]
      · exact iff_of_true rfl fun other => absurd other mine
    have first : (if progress.home (item :: items) = number then item.used else []).length ≤
        (if progress.home (item :: items) = number then item.carried else []).length := by
      split_ifs
      · exact (used_sublist item).length_le
      · exact Nat.le_refl _
    have rest := (texts_sublist used_sublist number items (progress.next item)).length_le
    constructor
    · intro same
      have lengths := congrArg length same
      rw [texts, texts, length_append, length_append] at lengths
      obtain ⟨one, two⟩ := append_inj same (by omega)
      intro i inside
      cases i with
      | zero => exact here.mp one
      | succ i => exact later.mp two i (Nat.lt_of_succ_lt_succ inside)
    · intro read
      rw [texts, texts, here.mpr (read 0 (Nat.succ_pos _)),
        later.mpr fun i inside => read (i + 1) (Nat.succ_lt_succ inside)]

theorem next_last {progress : Progress} (sound : progress.last → 0 < progress.assistants) (item : InputItem) :
    (progress.next item).last → 0 < (progress.next item).assistants := by
  cases item with
  | reasoning | skipped => exact sound
  | call =>
    rintro -
    simp only [next, called]
    grind
  | webSearch => nofun
  | output => nofun
  | assistant => exact fun _ => Nat.succ_pos _
  | boundary role =>
    simp only [next]
    split_ifs
    · exact fun _ => Nat.succ_pos _
    · nofun

theorem foldl_last (items : List InputItem) {progress : Progress}
    (sound : progress.last → 0 < progress.assistants) :
    (items.foldl next progress).last → 0 < (items.foldl next progress).assistants := by
  induction items generalizing progress with
  | nil => exact sound
  | cons item items ih => exact ih (next_last sound item)

theorem assistants_le_next (progress : Progress) (item : InputItem) :
    progress.assistants ≤ (progress.next item).assistants := by
  cases item with
  | reasoning | skipped | output => exact Nat.le_refl _
  | call | webSearch =>
    simp only [next, called]
    split_ifs <;> omega
  | assistant => exact Nat.le_succ _
  | boundary role =>
    simp only [next]
    split_ifs
    · exact Nat.le_succ _
    · exact Nat.le_refl _

theorem assistants_le_foldl (items : List InputItem) (progress : Progress) :
    progress.assistants ≤ (items.foldl next progress).assistants := by
  induction items generalizing progress with
  | nil => exact Nat.le_refl _
  | cons item items ih => exact (progress.assistants_le_next item).trans (ih _)

/-- What is embedded in a search or a message has a message to stand in. -/
theorem home_of_unread {progress : Progress} (sound : progress.last → 0 < progress.assistants) {item : InputItem}
    (embedded : item.unread ≠ []) (rest : List InputItem) :
    progress.home (item :: rest) = (progress.next item).assistants ∧ 0 < (progress.next item).assistants := by
  cases item with
  | webSearch =>
    refine ⟨rfl, ?_⟩
    simp only [next, called]
    grind
  | assistant => exact ⟨rfl, Nat.succ_pos _⟩
  | _ => exact absurd rfl embedded

theorem exists_home {items : List InputItem} {i : Nat} (inside : i < items.length)
    (embedded : items[i].unread ≠ []) :
    ∃ number < (items.foldl next start).assistants,
      ((items.take i).foldl next start).home (items.drop i) = number + 1 := by
  have sound := foldl_last (items.take i) (show start.last → 0 < start.assistants from nofun)
  obtain ⟨home, positive⟩ := home_of_unread sound embedded (items.drop (i + 1))
  have total := assistants_le_foldl (items.drop (i + 1)) (((items.take i).foldl next start).next items[i])
  rw [← foldl_cons, ← drop_eq_getElem_cons, ← foldl_append, take_append_drop] at total
  rw [drop_eq_getElem_cons inside, home]
  exact ⟨_, Nat.lt_of_lt_of_le (Nat.pred_lt positive.ne') total, (Nat.succ_pred_eq_of_pos positive).symm⟩

end Progress

/-- The same for each message: the texts for it are read, or only the placeholder is not. -/
theorem reasoningRead_iff {items : List InputItem} : ReasoningRead items ↔
    ∀ number < (items.foldl Progress.next .start).assistants,
      let used := Progress.start.texts InputItem.used (number + 1) items
      let carried := Progress.start.texts InputItem.carried (number + 1) items
      used = carried ∨
        used = [] ∧ carried = [toolCallReasoningPlaceholder] ∧ Progress.start.calls (number + 1) items := by
  constructor
  · intro read number _ used carried
    by_cases same : used = carried
    · exact .inl same
    right
    have missed := same
    rw [Progress.texts_eq_iff] at missed
    push Not at missed
    obtain ⟨i, inside, home, embedded⟩ := missed
    obtain ⟨only, calls⟩ := (read i inside).resolve_left embedded
    rw [home] at only calls
    have sub : used.Sublist carried := texts_sublist used_sublist (number + 1) items Progress.start
    have single : carried = [toolCallReasoningPlaceholder] := only
    rw [single] at sub same
    exact ⟨(sublist_singleton.mp sub).resolve_right same, single, calls⟩
  · intro read i inside
    by_cases embedded : items[i].unread = []
    · exact .inl embedded
    right
    obtain ⟨number, below, home⟩ := Progress.exists_home inside embedded
    rw [home]
    rcases read number below with same | ⟨-, only, calls⟩
    · exact absurd ((Progress.texts_eq_iff _ _ _).mp same i inside home) embedded
    · exact ⟨only, calls⟩

section Request

variable [FloatText] [ShortSha256]

/-- The reasoning is attached where it belongs exactly when none but the placeholder is embedded in a search or a
message of the assistant. -/
theorem reasoning_attached_iff {req : Json} {ctx : ToolContext} {given : List Json} {messages : List MessageOut}
    (found : rawPresent (req.get "input") = some (.arr given))
    (converted : requestMessagesToChat req ctx = .ok messages) :
    ∃ items, given.mapM (InputItem.read ctx) = .ok items ∧
      (ReasoningAttached InputItem.carried messages items ↔ ReasoningRead items) := by
  obtain ⟨items, read, rfl⟩ := requestMessages_of_array found converted
  refine ⟨items, read, ?_⟩
  have plain : ∀ message ∈ systemMessages req, message.isAssistant = false ∧ message.reasoningContent = none := by
    intro message member
    obtain ⟨other, -, silent⟩ := systemMessages_others req message member
    exact ⟨other, silent⟩
  have attached := attached_used plain items
  have sub (number : Nat) := texts_sublist used_sublist number items Progress.start
  rw [reasoningRead_iff]
  constructor
  · intro claimed number inside
    rw [← attached.count] at inside
    have found := List.getElem?_eq_getElem inside
    have same := (attached.each number _ found).symm.trans (claimed.each number _ found)
    rw [calls_finish plain items found] at same
    exact (expectedReasoning_eq_iff (sub (number + 1)) _).mp same
  · intro read
    refine ⟨attached.count, fun number message found => ?_, attached.others⟩
    obtain ⟨inside, -⟩ := List.getElem?_eq_some_iff.mp found
    rw [attached.count] at inside
    rw [attached.each number message found, calls_finish plain items found]
    exact (expectedReasoning_eq_iff (sub (number + 1)) _).mpr (read number inside)

end Request

def thoughtfulItem : Json :=
  .obj [("content", .str "Hello.".toList), ("reasoning_content", .str "A greeting.".toList),
    ("role", .str assistantRole), ("type", .str "message".toList)]

/-- The reasoning of the message is lost. -/
theorem thoughtful_item_lost : ∃ items messages,
    [thoughtfulItem].mapM (@InputItem.read verbatim blank noTools) = .ok items ∧
      @requestMessagesToChat verbatim blank (arrayRequest [thoughtfulItem]) noTools = .ok messages ∧
      ¬ ReasoningAttached InputItem.carried messages items := by
  have carries : ([thoughtfulItem].mapM (@InputItem.read verbatim blank noTools)).toOption.any
      (fun items => !(Progress.start.texts InputItem.carried 1 items).isEmpty) := by decide +kernel
  have silent : (@requestMessagesToChat verbatim blank (arrayRequest [thoughtfulItem]) noTools).toOption.any
      (fun messages => (messages.filter isAssistant)[0]?.any fun message => message.reasoningContent.isNone) =
        true := by decide +kernel
  obtain ⟨items, read, carries⟩ := Fallible.exists_of_any carries
  obtain ⟨messages, converted, silent⟩ := Fallible.exists_of_any silent
  refine ⟨items, messages, read, converted, fun attached => ?_⟩
  rw [Option.any_eq_true] at silent
  obtain ⟨message, found, none⟩ := silent
  have each := attached.each 0 message found
  rw [Option.isNone_iff_eq_none.mp none] at each
  cases texts : Progress.start.texts InputItem.carried (0 + 1) items with
  | nil =>
    rw [texts] at carries
    cases carries
  | cons text rest =>
    rw [texts] at each
    cases each

def thoughtfulCall : List Json :=
  [.obj [("text", .str "First a look.".toList), ("type", .str "reasoning".toList)],
    .obj [("call_id", .str "a".toList), ("name", .str "read_file".toList), ("reasoning", .str "The file.".toList),
      ("type", .str "function_call".toList)],
    functionOutputItem "a", .obj [("text", .str "Done.".toList), ("type", .str "reasoning".toList)]]

theorem thoughtful_call_kept : ∃ items messages,
    thoughtfulCall.mapM (@InputItem.read verbatim blank noTools) = .ok items ∧
      @requestMessagesToChat verbatim blank (arrayRequest thoughtfulCall) noTools = .ok messages ∧
      ReasoningAttached InputItem.carried messages items := by
  have reads : (thoughtfulCall.mapM (@InputItem.read verbatim blank noTools)).toOption.any
      (fun items => decide (ReasoningRead items)) := by decide +kernel
  have accepted : (@requestMessagesToChat verbatim blank (arrayRequest thoughtfulCall) noTools).isOk := by
    decide +kernel
  obtain ⟨messages, converted⟩ := Fallible.exists_of_isOk accepted
  obtain ⟨items, read, same⟩ := @reasoning_attached_iff verbatim blank _ _ thoughtfulCall _ rfl converted
  rw [read, Except.toOption, Option.any_some] at reads
  exact ⟨items, messages, read, converted, same.mpr (of_decide_eq_true reads)⟩

end LlmGateway
