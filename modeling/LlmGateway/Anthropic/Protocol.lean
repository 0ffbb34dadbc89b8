import LlmGateway.Anthropic.Stream

namespace LlmGateway

open Machine List AnthropicEvent

inductive ClientPhase
  | waiting
  | streaming
  | ending
  | done
  | failed
  deriving DecidableEq

/-- A client of a Messages stream: the blocks it has open and those it has closed. -/
structure MessageClient where
  phase : ClientPhase
  opened : List (Nat × BlockKind)
  stopped : List Nat

namespace MessageClient

def new : MessageClient := ⟨.waiting, [], []⟩

def knows (client : MessageClient) (index : Nat) : Bool :=
  client.opened.any (·.1 = index) || client.stopped.contains index

def hasRoomFor (client : MessageClient) (kind : BlockKind) : Bool :=
  kind = .toolUse || client.opened.all (·.2 = .toolUse)

/-- A strict client: it takes an event only where the protocol has one. -/
def accept (client : MessageClient) : AnthropicEvent → Option MessageClient
  | .messageStart _ _ _ => if client.phase = .waiting then some { client with phase := .streaming } else none
  | .blockStart index block =>
    if client.phase = .streaming && !client.knows index && client.hasRoomFor block.kind then
      some { client with opened := (index, block.kind) :: client.opened }
    else none
  | .blockDelta index delta =>
    if client.phase = .streaming && client.opened.contains (index, delta.kind) then some client else none
  | .blockStop index =>
    if client.phase = .streaming && client.opened.any (·.1 = index) then
      some { client with opened := client.opened.filter (·.1 ≠ index), stopped := index :: client.stopped }
    else none
  | .messageDelta _ _ =>
    if client.phase = .streaming && client.opened.isEmpty then some { client with phase := .ending } else none
  | .messageStop => if client.phase = .ending then some { client with phase := .done } else none
  | .error _ =>
    if client.phase = .waiting || client.phase = .streaming then some { client with phase := .failed } else none

end MessageClient

namespace AnthropicEvent

def isBlock : AnthropicEvent → Bool
  | blockStart _ _ | blockDelta _ _ | blockStop _ => true
  | _ => false

def isMessageStart : AnthropicEvent → Bool
  | messageStart _ _ _ => true
  | _ => false

def isError : AnthropicEvent → Bool
  | error _ => true
  | _ => false

def isMessageDelta : AnthropicEvent → Bool
  | messageDelta _ _ => true
  | _ => false

def isMessageStop : AnthropicEvent → Bool
  | messageStop => true
  | _ => false

def started : AnthropicEvent → Option Nat
  | blockStart index _ => some index
  | _ => none

def stopped : AnthropicEvent → Option Nat
  | blockStop index => some index
  | _ => none

end AnthropicEvent

def OpenAfter (events : List AnthropicEvent) (index : Nat) (kind : BlockKind) : Prop :=
  (∃ block, .blockStart index block ∈ events ∧ block.kind = kind) ∧ .blockStop index ∉ events

/-- The form of a Messages stream from its first event to its last. -/
structure WellFormedStream (events : List AnthropicEvent) : Prop where
  begins : (∃ event ∈ events, event.isError = false) →
    ∃ start rest, events = start :: rest ∧ start.isMessageStart ∧ ∀ event ∈ rest, event.isMessageStart = false
  startedOnce : (events.filterMap (·.started)).Nodup
  stoppedOnce : (events.filterMap (·.stopped)).Nodup
  deltasOpen : ∀ before index delta after, events = before ++ .blockDelta index delta :: after →
    OpenAfter before index delta.kind
  oneNonTool : ∀ before after, events = before ++ after → ∀ index kind other otherKind,
    OpenAfter before index kind → kind ≠ .toolUse → OpenAfter before other otherKind → otherKind ≠ .toolUse →
      index = other
  ends : ((∃ body message, events = body ++ [.error message]) ∧
      ∀ event ∈ events, event.isMessageDelta = false ∧ event.isMessageStop = false) ∨
    (∀ index block, .blockStart index block ∈ events → .blockStop index ∈ events) ∧
      ∃ body reason usage, events = body ++ [.messageDelta reason usage, .messageStop] ∧
        ∀ event ∈ body, event.isMessageDelta = false ∧ event.isMessageStop = false

section Blocks

variable {events trace before : List AnthropicEvent} {event : AnthropicEvent} {client : MessageClient}
  {index other : Nat} {kind : BlockKind} {block : ContentBlock}

theorem AnthropicEvent.started_eq_some : event.started = some index ↔ ∃ block, event = .blockStart index block := by
  cases event <;> simp [started]

theorem AnthropicEvent.stopped_eq_some : event.stopped = some index ↔ event = .blockStop index := by
  cases event <;> simp [stopped]

theorem mem_started : index ∈ events.filterMap (·.started) ↔ ∃ block, .blockStart index block ∈ events := by
  simp only [mem_filterMap, started_eq_some]
  constructor
  · rintro ⟨event, mem, block, rfl⟩
    exact ⟨block, mem⟩
  · rintro ⟨block, mem⟩
    exact ⟨_, mem, block, rfl⟩

theorem mem_stopped : index ∈ events.filterMap (·.stopped) ↔ .blockStop index ∈ events := by
  simp [stopped_eq_some]

/-- What the client knows of the blocks agrees with the events it has seen. -/
structure MessageClient.Knows (client : MessageClient) (trace : List AnthropicEvent) : Prop where
  opened : ∀ index kind, (index, kind) ∈ client.opened ↔ OpenAfter trace index kind
  stopped : ∀ index, index ∈ client.stopped ↔ .blockStop index ∈ trace
  started : ∀ index, client.knows index ↔ ∃ block, .blockStart index block ∈ trace
  startedOnce : (trace.filterMap (·.started)).Nodup
  stoppedOnce : (trace.filterMap (·.stopped)).Nodup
  oneNonTool : ∀ index kind other otherKind, (index, kind) ∈ client.opened → kind ≠ .toolUse →
    (other, otherKind) ∈ client.opened → otherKind ≠ .toolUse → index = other

theorem MessageClient.knows_iff :
    client.knows index ↔ (∃ kind, (index, kind) ∈ client.opened) ∨ index ∈ client.stopped := by
  simp [knows]

theorem openAfter_silent (quietStart : event.started = none) (quietStop : event.stopped = none) :
    OpenAfter (trace ++ [event]) index kind ↔ OpenAfter trace index kind := by
  have noStart : ∀ block, .blockStart index block ≠ event := by
    rintro block rfl
    cases quietStart
  have noStop : .blockStop index ≠ event := by
    rintro rfl
    cases quietStop
  simp [OpenAfter, noStart, noStop]

theorem openAfter_start (unstarted : ∀ block, blockStart index block ∉ trace)
    (unstopped : .blockStop index ∉ trace) :
    OpenAfter (trace ++ [.blockStart index block]) other kind ↔
      (other = index ∧ kind = block.kind) ∨ OpenAfter trace other kind := by
  simp only [OpenAfter, mem_append, mem_singleton, blockStart.injEq, reduceCtorEq, or_false]
  constructor
  · rintro ⟨⟨found, earlier | ⟨rfl, rfl⟩, same⟩, running⟩
    · exact .inr ⟨⟨found, earlier, same⟩, running⟩
    · exact .inl ⟨rfl, same.symm⟩
  · rintro (⟨rfl, rfl⟩ | ⟨⟨found, earlier, same⟩, running⟩)
    · exact ⟨⟨block, .inr ⟨rfl, rfl⟩, rfl⟩, unstopped⟩
    · exact ⟨⟨found, .inl earlier, same⟩, running⟩

theorem openAfter_stop :
    OpenAfter (trace ++ [.blockStop index]) other kind ↔ other ≠ index ∧ OpenAfter trace other kind := by
  simp only [OpenAfter, mem_append, mem_singleton, blockStop.injEq, reduceCtorEq, or_false,
    not_or]
  tauto

namespace MessageClient

theorem Knows.nil : new.Knows [] where
  opened := by simp [new, OpenAfter]
  stopped := by simp [new]
  started := by simp [new, knows]
  startedOnce := .nil
  stoppedOnce := .nil
  oneNonTool := by simp [new]

theorem Knows.silent (known : client.Knows trace) (phase : ClientPhase) (quietStart : event.started = none)
    (quietStop : event.stopped = none) : { client with phase := phase }.Knows (trace ++ [event]) where
  opened index kind := (known.opened index kind).trans (openAfter_silent quietStart quietStop).symm
  stopped index := by
    have noStop : .blockStop index ≠ event := by
      rintro rfl
      cases quietStop
    simpa [noStop] using known.stopped index
  started index := by
    have noStart : ∀ block, .blockStart index block ≠ event := by
      rintro block rfl
      cases quietStart
    simpa [noStart, knows] using known.started index
  startedOnce := by simpa [quietStart] using known.startedOnce
  stoppedOnce := by simpa [quietStop] using known.stoppedOnce
  oneNonTool := known.oneNonTool

theorem Knows.start (known : client.Knows trace) (new : client.knows index = false)
    (room : client.hasRoomFor block.kind) :
    { client with opened := (index, block.kind) :: client.opened }.Knows
      (trace ++ [blockStart index block]) := by
  have unstarted : ∀ block, blockStart index block ∉ trace := fun block mem => by
    simp [(known.started index).mpr ⟨block, mem⟩] at new
  have unstopped : .blockStop index ∉ trace := fun mem => by
    simp [knows, (known.stopped index).mpr mem] at new
  have onlyTools : ∀ other otherKind, block.kind ≠ .toolUse → (other, otherKind) ∈ client.opened →
      otherKind = .toolUse := fun other otherKind nonTool mem => by
    simp only [hasRoomFor, nonTool, decide_false, Bool.false_or, all_eq_true, decide_eq_true_eq] at room
    exact room _ mem
  constructor
  · intro other kind
    rw [openAfter_start unstarted unstopped, ← known.opened, mem_cons, Prod.mk.injEq]
  · intro other
    simpa using known.stopped other
  · intro other
    have before := known.started other
    rw [knows_iff] at before ⊢
    simp only [mem_cons, Prod.mk.injEq, mem_append, blockStart.injEq, exists_or, or_assoc]
    aesop
  · rw [filterMap_append]
    refine known.startedOnce.append (nodup_singleton index) (disjoint_singleton.mpr fun mem => ?_)
    exact (mem_started.mp mem).elim unstarted
  · simpa [AnthropicEvent.stopped] using known.stoppedOnce
  · intro first firstKind second secondKind one oneNonTool two twoNonTool
    rcases mem_cons.mp one with fresh | old <;> rcases mem_cons.mp two with fresh' | old'
    · cases fresh
      cases fresh'
      rfl
    · cases fresh
      exact absurd (onlyTools _ _ oneNonTool old') twoNonTool
    · cases fresh'
      exact absurd (onlyTools _ _ twoNonTool old) oneNonTool
    · exact known.oneNonTool _ _ _ _ old oneNonTool old' twoNonTool

theorem Knows.stop (known : client.Knows trace) (shown : client.opened.any (·.1 = index)) :
    { client with opened := client.opened.filter (·.1 ≠ index), stopped := index :: client.stopped }.Knows
      (trace ++ [blockStop index]) := by
  obtain ⟨⟨found, kind⟩, mem, same⟩ := any_eq_true.mp shown
  obtain rfl : index = found := (of_decide_eq_true same).symm
  have running := (known.opened _ kind).mp mem
  constructor
  · intro other otherKind
    rw [openAfter_stop, ← known.opened, mem_filter, decide_eq_true_eq]
    exact and_comm
  · intro other
    rw [mem_cons, mem_append, mem_singleton, known.stopped, blockStop.injEq, or_comm]
  · intro other
    have before := known.started other
    rw [knows_iff] at before ⊢
    simp only [mem_append, mem_singleton, reduceCtorEq, or_false]
    rw [← before]
    by_cases stoppedNow : other = index
    · subst stoppedNow
      exact ⟨fun _ => .inl ⟨kind, mem⟩, fun _ => .inr mem_cons_self⟩
    · simp [stoppedNow]
  · simpa [AnthropicEvent.started] using known.startedOnce
  · rw [filterMap_append]
    refine known.stoppedOnce.append (nodup_singleton _) (disjoint_singleton.mpr fun stopped => ?_)
    exact running.2 (mem_stopped.mp stopped)
  · intro first firstKind second secondKind one oneNonTool two twoNonTool
    exact known.oneNonTool _ _ _ _ (mem_filter.mp one).1 oneNonTool (mem_filter.mp two).1 twoNonTool

end MessageClient

end Blocks

section Phases

variable {trace : List AnthropicEvent} {event : AnthropicEvent} {client client' : MessageClient}

def Streaming (trace : List AnthropicEvent) : Prop :=
  ∃ start body, trace = start :: body ∧ start.isMessageStart ∧ ∀ event ∈ body, event.isBlock

/-- The events that lead to a phase. -/
def ClientPhase.Shape (trace : List AnthropicEvent) : ClientPhase → Prop
  | waiting => trace = []
  | streaming => Streaming trace
  | ending => ∃ body reason usage, trace = body ++ [.messageDelta reason usage] ∧ Streaming body
  | done => ∃ body reason usage, trace = body ++ [.messageDelta reason usage, .messageStop] ∧ Streaming body
  | failed => ∃ body message, trace = body ++ [.error message] ∧ (body = [] ∨ Streaming body)

structure MessageClient.Follows (client : MessageClient) (trace : List AnthropicEvent) : Prop where
  knows : client.Knows trace
  shape : client.phase.Shape trace
  closed : client.phase = .ending ∨ client.phase = .done → client.opened = []

theorem Streaming.snoc (streaming : Streaming trace) (inside : event.isBlock) : Streaming (trace ++ [event]) := by
  obtain ⟨start, body, rfl, first, blocks⟩ := streaming
  refine ⟨start, body ++ [event], rfl, first, fun later mem => ?_⟩
  rcases mem_append.mp mem with old | new
  · exact blocks later old
  · rw [mem_singleton.mp new, inside]

namespace MessageClient

theorem Follows.nil : new.Follows [] where
  knows := .nil
  shape := rfl
  closed := fun _ => rfl

theorem Follows.streaming (follows : client.Follows trace) (phase : client.phase = .streaming) :
    Streaming trace := by
  have shape := follows.shape
  rwa [phase] at shape

theorem Follows.next (follows : client.Follows trace) (accepted : client.accept event = some client') :
    client'.Follows (trace ++ [event]) := by
  have shape := follows.shape
  cases event with
  | messageStart id model usage =>
    obtain ⟨phase, same⟩ := Option.ite_none_right_eq_some.mp accepted
    cases same
    rw [phase] at shape
    refine ⟨follows.knows.silent _ rfl rfl, ?_, by simp⟩
    exact ⟨_, [], by rw [show trace = [] from shape]; rfl, rfl, by simp⟩
  | blockStart index block =>
    obtain ⟨allowed, same⟩ := Option.ite_none_right_eq_some.mp accepted
    simp only [Bool.and_eq_true, decide_eq_true_eq, Bool.not_eq_true'] at allowed
    obtain ⟨⟨phase, new⟩, room⟩ := allowed
    cases same
    refine ⟨follows.knows.start new room, ?_, by simp [phase]⟩
    simp only [phase]
    exact (follows.streaming phase).snoc rfl
  | blockDelta index delta =>
    obtain ⟨allowed, same⟩ := Option.ite_none_right_eq_some.mp accepted
    obtain ⟨phase, -⟩ := Bool.and_eq_true_iff.mp allowed
    have phase := of_decide_eq_true phase
    cases same
    refine ⟨follows.knows.silent _ rfl rfl, ?_, by simp [phase]⟩
    rw [phase]
    exact (follows.streaming phase).snoc rfl
  | blockStop index =>
    obtain ⟨allowed, same⟩ := Option.ite_none_right_eq_some.mp accepted
    obtain ⟨phase, shown⟩ := Bool.and_eq_true_iff.mp allowed
    have phase := of_decide_eq_true phase
    cases same
    refine ⟨follows.knows.stop shown, ?_, by simp [phase]⟩
    simp only [phase]
    exact (follows.streaming phase).snoc rfl
  | messageDelta reason usage =>
    obtain ⟨allowed, same⟩ := Option.ite_none_right_eq_some.mp accepted
    obtain ⟨phase, none⟩ := Bool.and_eq_true_iff.mp allowed
    have phase := of_decide_eq_true phase
    cases same
    exact ⟨follows.knows.silent _ rfl rfl, ⟨trace, reason, usage, rfl, follows.streaming phase⟩,
      fun _ => isEmpty_iff.mp none⟩
  | messageStop =>
    obtain ⟨phase, same⟩ := Option.ite_none_right_eq_some.mp accepted
    cases same
    rw [phase] at shape
    obtain ⟨body, reason, usage, rfl, streaming⟩ := shape
    exact ⟨follows.knows.silent _ rfl rfl, ⟨body, reason, usage, by simp, streaming⟩,
      fun _ => follows.closed (.inl phase)⟩
  | error message =>
    obtain ⟨allowed, same⟩ := Option.ite_none_right_eq_some.mp accepted
    cases same
    refine ⟨follows.knows.silent _ rfl rfl, ⟨trace, message, rfl, ?_⟩, by simp⟩
    rcases (Bool.or_eq_true _ _).mp allowed with waiting | streaming
    · rw [of_decide_eq_true waiting] at shape
      exact .inl shape
    · exact .inr (follows.streaming (of_decide_eq_true streaming))

theorem reach_follows (reach : Reach accept Any new trace client) : client.Follows trace := by
  induction reach with
  | start => exact .nil
  | next _ _ accepted ih => exact ih.next accepted

end MessageClient

theorem AnthropicEvent.of_isBlock (inside : event.isBlock) :
    event.isMessageStart = false ∧ event.isMessageDelta = false ∧ event.isMessageStop = false := by
  cases event <;> first | exact ⟨rfl, rfl, rfl⟩ | cases inside

theorem Streaming.begins (streaming : Streaming trace) (tail : List AnthropicEvent)
    (later : ∀ event ∈ tail, event.isMessageStart = false) :
    ∃ start rest, trace ++ tail = start :: rest ∧ start.isMessageStart ∧
      ∀ event ∈ rest, event.isMessageStart = false := by
  obtain ⟨start, body, rfl, first, blocks⟩ := streaming
  refine ⟨start, body ++ tail, rfl, first, fun event mem => ?_⟩
  rcases mem_append.mp mem with inside | after
  · exact (of_isBlock (blocks event inside)).1
  · exact later event after

theorem Streaming.unended (streaming : Streaming trace) :
    ∀ event ∈ trace, event.isMessageDelta = false ∧ event.isMessageStop = false := by
  obtain ⟨start, body, rfl, first, blocks⟩ := streaming
  intro event mem
  rcases mem_cons.mp mem with rfl | inside
  · cases event <;> first | exact ⟨rfl, rfl⟩ | cases first
  · exact (of_isBlock (blocks event inside)).2

namespace MessageClient

theorem accepted_split {before after : List AnthropicEvent}
    (ran : run accept new (before ++ event :: after) = some client) :
    ∃ middle next : MessageClient, middle.Follows before ∧ middle.accept event = some next := by
  rw [run_append] at ran
  obtain ⟨middle, first, rest⟩ := Option.bind_eq_some_iff.mp ran
  obtain ⟨next, accepted, -⟩ := Option.bind_eq_some_iff.mp rest
  exact ⟨middle, next, reach_follows (reach_of_run first), accepted⟩

theorem wellFormed_of_run (ran : run accept new trace = some client)
    (finished : client.phase = .done ∨ client.phase = .failed) : WellFormedStream trace := by
  have follows := reach_follows (reach_of_run ran)
  have shape := follows.shape
  refine ⟨?_, follows.knows.startedOnce, follows.knows.stoppedOnce, ?_, ?_, ?_⟩
  · rintro ⟨event, mem, harmless⟩
    rcases finished with phase | phase <;> rw [phase] at shape
    · obtain ⟨body, reason, usage, rfl, streaming⟩ := shape
      exact streaming.begins _ (by simp [isMessageStart])
    · obtain ⟨body, message, rfl, rfl | streaming⟩ := shape
      · obtain rfl := mem_singleton.mp mem
        cases harmless
      · exact streaming.begins _ (by simp [isMessageStart])
  · rintro before index delta after rfl
    obtain ⟨middle, next, earlier, accepted⟩ := accepted_split ran
    obtain ⟨allowed, -⟩ := Option.ite_none_right_eq_some.mp accepted
    have shown := (Bool.and_eq_true_iff.mp allowed).2
    exact (earlier.knows.opened _ _).mp (contains_iff_mem.mp shown)
  · rintro before after rfl index kind other otherKind one oneNonTool two twoNonTool
    rw [run_append] at ran
    obtain ⟨middle, first, -⟩ := Option.bind_eq_some_iff.mp ran
    have earlier := (reach_follows (reach_of_run first)).knows
    exact earlier.oneNonTool _ _ _ _ ((earlier.opened _ _).mpr one) oneNonTool ((earlier.opened _ _).mpr two)
      twoNonTool
  · rcases finished with phase | phase <;> rw [phase] at shape
    · refine .inr ⟨fun index block mem => ?_, ?_⟩
      · rcases knows_iff.mp ((follows.knows.started index).mpr ⟨block, mem⟩) with ⟨kind, shown⟩ | stopped
        · rw [follows.closed (.inr phase)] at shown
          cases shown
        · exact (follows.knows.stopped index).mp stopped
      · obtain ⟨body, reason, usage, same, streaming⟩ := shape
        exact ⟨body, reason, usage, same, streaming.unended⟩
    · obtain ⟨body, message, rfl, rfl | streaming⟩ := shape
      · exact .inl ⟨⟨[], message, rfl⟩, by simp [isMessageDelta, isMessageStop]⟩
      · refine .inl ⟨⟨body, message, rfl⟩, fun event mem => ?_⟩
        rcases mem_append.mp mem with inside | last
        · exact streaming.unended event inside
        · rw [mem_singleton.mp last]
          exact ⟨rfl, rfl⟩

end MessageClient

end Phases

end LlmGateway
