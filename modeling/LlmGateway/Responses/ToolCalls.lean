import LlmGateway.Responses.Ending

namespace LlmGateway

open Emitter List IntMap ChatToResponsesStreamState ChatTool

namespace ChatTool

def kind (tool : ChatTool) : Bool × Bool × Bool × Option Str × Option Str :=
  (tool.bridged, tool.custom, tool.toolSearch, tool.origName, tool.ns)

/-- A later stage of a call that has been told nothing since. Only an empty id may have been filled in, when a call
with a name is done. -/
structure Told (before after : ChatTool) : Prop where
  id : before.id.isEmpty = false → after.id = before.id
  name : after.name = before.name
  arguments : after.arguments ++ after.pendingArgs = before.arguments ++ before.pendingArgs
  started : after.started = before.started
  kind : after.kind = before.kind
  done : before.done → after.done
  filled : after.id.isEmpty = (before.id.isEmpty && (before.done || !after.done || before.name.isEmpty))

theorem Told.refl (tool : ChatTool) : tool.Told tool :=
  ⟨fun _ => rfl, rfl, rfl, rfl, rfl, fun ended => ended, by cases tool.done <;> simp⟩

theorem Told.trans {first second third : ChatTool} (one : first.Told second) (two : second.Told third) :
    first.Told third where
  id known := by
    have same := one.id known
    rw [two.id (same ▸ known), same]
  name := two.name.trans one.name
  arguments := two.arguments.trans one.arguments
  started := two.started.trans one.started
  kind := two.kind.trans one.kind
  done ended := two.done (one.done ended)
  filled := by
    have early := one.done
    have late := two.done
    rw [two.filled, one.filled, one.name]
    revert early late
    cases first.done <;> cases second.done <;> cases third.done <;> simp

theorem Sound.receive_told {tool : ChatTool} (sound : tool.Sound) (ctx : ToolContext) (reasoning : Option Str)
    (call : ToolCallDelta) : (tool.receive ctx reasoning call).2.id = call.trimmedId.getD tool.id ∧
      (tool.receive ctx reasoning call).2.name = call.trimmedName.getD tool.name ∧
      (tool.receive ctx reasoning call).2.arguments ++ (tool.receive ctx reasoning call).2.pendingArgs =
        tool.arguments ++ tool.pendingArgs ++ call.argumentsDelta.getD [] := by
  obtain ⟨reasoningContent, heard⟩ := tool.heard_eq ctx reasoning call
  obtain ⟨bridged, custom, toolSearch, origName, ns, named⟩ := tool.named_eq ctx call
  cases released : tool.released with
  | true =>
    rw [sound.receive_released released, heard, named]
    simp [sound.flushed released]
  | false =>
    rw [receive_unreleased released, heard, named]
    simp

end ChatTool

namespace ChatTool

/-- A relation between a call and the stages that it comes to without another frame. -/
structure Stages [FloatText] (later : ChatTool → ChatTool → Prop) : Prop where
  refl : ∀ tool, later tool tool
  trans : ∀ {first second third}, later first second → later second third → later first third
  reasoned : ∀ tool reasoningContent, later tool { tool with reasoningContent }
  released : ∀ tool outputIndex, later tool (tool.release outputIndex).2

/-- The same at the end of the output. -/
structure EndStages [FloatText] (later : ChatTool → ChatTool → Prop) : Prop extends Stages later where
  dropped : ∀ tool, tool.name.isEmpty → later tool { tool with done := true }
  finished : ∀ tool responseId key, tool.done = false → tool.name.isEmpty = false →
    later tool { tool.withFallbackId responseId key with done := true }

theorem Told.stages [FloatText] : EndStages Told where
  refl := .refl
  trans := .trans
  reasoned tool _ := { Told.refl tool with }
  released tool _ := { Told.refl tool with arguments := by simp [release] }
  dropped tool nameless := { Told.refl tool with done := fun _ => rfl, filled := by simp [nameless] }
  finished tool responseId key undone named :=
    { Told.refl tool with
      id := fun known => by simp [withFallbackId, known]
      done := fun _ => rfl
      filled := by cases empty : tool.id.isEmpty <;> simp [withFallbackId, empty, undone, named] }

theorem sameDone_stages [FloatText] : Stages fun before after => after.done = before.done where
  refl _ := rfl
  trans one two := two.trans one
  reasoned _ _ := rfl
  released _ _ := rfl

end ChatTool

namespace ChatToResponsesStreamState

structure Later (later : ChatTool → ChatTool → Prop) (s s' : ChatToResponsesStreamState) : Prop where
  toolCtx : s'.toolCtx = s.toolCtx
  keys : s'.tools.keys = s.tools.keys
  tools : ∀ key, later (s.toolAt key) (s'.toolAt key)

namespace Later

variable [FloatText] {later : ChatTool → ChatTool → Prop} {s s' s'' : ChatToResponsesStreamState} {key : Int}
  {tool after : ChatTool}

theorem of_tools (stages : Stages later) (toolCtx : s'.toolCtx = s.toolCtx) (same : s'.tools = s.tools) :
    Later later s s' := by
  refine ⟨toolCtx, by rw [same], fun key => ?_⟩
  rw [toolAt, toolAt, same]
  exact stages.refl _

theorem trans (stages : Stages later) (one : Later later s s') (two : Later later s' s'') : Later later s s'' :=
  ⟨two.toolCtx.trans one.toolCtx, two.keys.trans one.keys, fun key => stages.trans (one.tools key) (two.tools key)⟩

theorem insert (stages : Stages later) (toolCtx : s'.toolCtx = s.toolCtx)
    (tools : s'.tools = s.tools.insert key after)
    (found : s.tools[key]? = some tool) (step : later tool after) : Later later s s' := by
  refine ⟨toolCtx, by rw [tools, keys_insert_of_mem (mem_keys_of_get found)], fun other => ?_⟩
  rw [toolAt_insert tools]
  split
  next here =>
    rw [here, toolAt_eq found]
    exact step
  · exact stages.refl _

theorem appendTextDelta (stages : Stages later) (delta : Str) :
    Later later s (appendTextDelta delta s).2 := by
  obtain ⟨next, order, index, same⟩ := appendTextDelta_frame s delta
  rw [same]
  exact of_tools stages rfl rfl

theorem appendReasoningDelta (stages : Stages later) (delta : Str) :
    Later later s (appendReasoningDelta delta s).2 := by
  obtain ⟨next, order, index, same⟩ := appendReasoningDelta_frame s delta
  rw [same]
  refine ⟨rfl, Std.TreeMap.keys_map, fun key => ?_⟩
  rw [toolAt, toolAt, shareReasoning, Std.TreeMap.getElem?_map]
  cases s.tools[key]? with
  | none => exact stages.refl _
  | some tool =>
    cases started : tool.started with
    | true => simpa [started] using stages.reasoned tool (tool.reasoningContent ++ delta)
    | false => simpa [started] using stages.refl tool

theorem applyFinishReason (stages : Stages later) (reason : Str) :
    Later later s (applyFinishReason reason s) := by
  unfold ChatToResponsesStreamState.applyFinishReason
  dsimp only
  split <;> exact of_tools stages rfl rfl

theorem releaseFrom (stages : Stages later) (force : Bool) (keys : List Int) :
    Later later s (releaseFrom force keys s).2 := by
  refine releaseFrom_invariant (Later later s) (fun s' key tool held found _ _ => held.trans stages ?_) force keys
    (of_tools stages rfl rfl)
  exact insert stages rfl rfl found (stages.released tool _)

theorem finishTool (stages : EndStages later) (status : ResponseStatus) (key : Int) :
    Later later s (finishTool status key s).2 := by
  rcases finishTool_cases status key s with ⟨-, same⟩ | ⟨tool, found, undone, ⟨nameless, same⟩ | ⟨named, same⟩⟩
  · rw [same]
    exact of_tools stages.toStages rfl rfl
  · rw [same]
    exact insert stages.toStages rfl rfl found (stages.dropped tool nameless)
  · rw [same]
    exact insert stages.toStages rfl rfl found (stages.finished tool s.id key undone named)

theorem doneDeltaEvents (stages : EndStages later) : Later later s (doneDeltaEvents s).2 := by
  rw [ChatToResponsesStreamState.doneDeltaEvents, followedBy_state, followedBy_state, followedBy_state,
    followedBy_state, closeMessage_frame, closeReasoning_frame]
  have released : Later later s (releaseReadyTools true (releaseReadyTools false s).2).2 :=
    (releaseFrom stages.toStages false _).trans stages.toStages (releaseFrom stages.toStages true _)
  refine forEach_invariant (Later later s) (fun key _ held =>
    held.trans stages.toStages (finishTool stages _ key)) _ ?_
  exact released.trans stages.toStages (of_tools stages.toStages rfl rfl)

theorem keepsTexts (stages : Stages later) (s : ChatToResponsesStreamState) :
    Guard.free.KeepsTexts (fun _ _ => some ()) fun s' (_ : Unit) => Later later s s' where
  think _ _ _ held := held.trans stages (of_tools stages rfl rfl)
  reasoning delta := .of_state fun _ held => held.trans stages (appendReasoningDelta stages delta)
  text delta := .of_state fun _ held => held.1.trans stages (appendTextDelta stages delta)

theorem processTexts (stages : Stages later) (delta : ChatStreamDelta) :
    Later later s (processTexts delta s).2 := by
  obtain ⟨-, -, same⟩ := (keepsTexts stages s).texts delta s () ⟨of_tools stages rfl rfl, textsGuarded_free s delta⟩
  exact same

theorem closed (stages : EndStages later) : Later later s s.closed := by
  have flushed : Later later s (flushContent { s with finalized := true }).2 := by
    obtain ⟨-, -, same, -⟩ := (keepsTexts stages.toStages s).flush { s with finalized := true } ()
      ⟨of_tools stages.toStages rfl rfl, endGuarded_free _⟩
    exact same
  rw [ChatToResponsesStreamState.closed, followedBy_state]
  exact flushed.trans stages.toStages (doneDeltaEvents stages)

end Later

section Done

variable [FloatText] {s : ChatToResponsesStreamState} (status : ResponseStatus)

theorem done_finishTool (key : Int) {other : Int} (listed : other ∈ s.tools.keys)
    (known : (s.toolAt other).done ∨ other = key) :
    ((finishTool status key s).2.toolAt other).done := by
  rcases finishTool_cases status key s with ⟨done, same⟩ | ⟨tool, found, -, ⟨-, same⟩ | ⟨-, same⟩⟩
  · rw [same]
    refine known.elim (fun done => done) fun here => ?_
    obtain ⟨tool, found⟩ := Option.isSome_iff_exists.mp (mem_keys_iff.mp listed)
    rw [toolAt_eq found]
    exact done tool (here ▸ found)
  · rw [same, toolAt_insert rfl]
    split
    · rfl
    next elsewhere =>
      exact known.resolve_right elsewhere
  · rw [same, toolAt_insert rfl]
    split
    · rfl
    next elsewhere =>
      exact known.resolve_right elsewhere

theorem done_finishTools {key : Int} {keys : List Int} (listed : key ∈ s.tools.keys)
    (known : (s.toolAt key).done ∨ key ∈ keys) :
    ((forEach (finishTool status) keys s).2.toolAt key).done := by
  induction keys generalizing s with
  | nil => exact known.resolve_right not_mem_nil
  | cons first rest ih =>
    rw [forEach, followedBy_state]
    refine ih ((Later.finishTool Told.stages status first).keys.symm ▸ listed) ?_
    rcases known with done | mem
    · exact .inl (done_finishTool status first listed (.inl done))
    · rcases mem_cons.mp mem with here | later
      · exact .inl (done_finishTool status first listed (.inr here))
      · exact .inr later

theorem done_doneDeltaEvents (key : Int) (listed : key ∈ s.tools.keys) :
    ((doneDeltaEvents s).2.toolAt key).done := by
  rw [← (Later.doneDeltaEvents Told.stages (s := s)).keys] at listed
  rw [doneDeltaEvents, followedBy_state, followedBy_state, followedBy_state, followedBy_state] at listed ⊢
  generalize (closeReasoning _ _).2 = t at listed ⊢
  have old : key ∈ t.tools.keys := by
    rwa [forEach_invariant (fun s' : ChatToResponsesStreamState => s'.tools.keys = t.tools.keys)
      (fun key s' same => (Later.finishTool Told.stages _ key).keys.trans same) t.tools.keys rfl] at listed
  exact done_finishTools _ old (.inr old)

end Done

section Frames

variable [FloatText] [TableOrder]

def framesOfChoice (s : ChatToResponsesStreamState) (choice : ChatStreamChoice) :
    List (Option (Int × ToolCallDelta)) :=
  collect appendToolCallDelta (fun s call => [some (s.chatIndex call, call)]) (processTexts choice.delta s).2
    choice.delta.toolCalls ++ if (choice.finishReason.bind Text.nonBlank).isSome then [none] else []

def framesOfChunk (s : ChatToResponsesStreamState) (chunk : ChatStreamChunk) :
    List (Option (Int × ToolCallDelta)) :=
  if s.failedError.isSome || chunk.error.isSome then []
  else collect processChoice framesOfChoice (ensureCreated (noteHeader chunk s)).2 chunk.choices

/-- The frames of the calls, each with the key it is taken for, and `none` for each finish reason between them. -/
def resolvedFrames (s : ChatToResponsesStreamState) (chunks : List ChatStreamChunk) :
    List (Option (Int × ToolCallDelta)) :=
  collect processChunk framesOfChunk s chunks

end Frames

end ChatToResponsesStreamState

section Upstream

variable (frames : List (Option (Int × ToolCallDelta))) (key : Int)

def readOf (read : ToolCallDelta → Option Str) : Option (Int × ToolCallDelta) → Option Str
  | some (other, call) => if other = key then read call else none
  | none => none

def said (read : ToolCallDelta → Option Str) : List Str := frames.filterMap (readOf key read)

def lastSaid (read : ToolCallDelta → Option Str) : Option Str := (said frames key read).getLast?

def argumentsOf : Str := (said frames key (·.argumentsDelta)).flatten

def HasFrame : Prop := ∃ call, some (key, call) ∈ frames

def HasName : Prop := (lastSaid frames key (·.trimmedName)).isSome

/-- A finish reason has come at one of whose sides `holds`. -/
def AtFinish (holds : List (Option (Int × ToolCallDelta)) → List (Option (Int × ToolCallDelta)) → Prop) : Prop :=
  ∃ before after, frames = before ++ none :: after ∧ holds before after

def Finished : Prop := AtFinish frames fun before _ => HasFrame before key

/-- A finish reason has come, the first since the first frame of the call, when the call had its name. -/
def FinishedNamed : Prop := AtFinish frames fun before _ => HasName before key ∧ ¬Finished before key

/-- The upstream has sent an id for the call, or another frame of it after the finish reason at which it was given
one. -/
def Identified : Prop := (lastSaid frames key (·.trimmedId)).isSome ∨
  AtFinish frames fun before after => (HasName before key ∧ ¬Finished before key) ∧ HasFrame after key

variable {frames key} {other : Int} {call : ToolCallDelta} {entry : Option (Int × ToolCallDelta)}

theorem mem_said {read : ToolCallDelta → Option Str} {text : Str} (mem : text ∈ said frames key read) :
    ∃ call, some (key, call) ∈ frames ∧ read call = some text := by
  obtain ⟨entry, place, found⟩ := mem_filterMap.mp mem
  unfold readOf at found
  split at found
  next other call =>
    split_ifs at found with here
    exact ⟨call, here ▸ place, found⟩
  · cases found

theorem said_snoc (read : ToolCallDelta → Option Str) :
    said (frames ++ [entry]) key read = said frames key read ++ (readOf key read entry).toList := by
  rw [said, filterMap_append, filterMap_cons]
  cases readOf key read entry <;> rfl

theorem lastSaid_snoc (read : ToolCallDelta → Option Str) :
    lastSaid (frames ++ [entry]) key read = (readOf key read entry).or (lastSaid frames key read) := by
  rw [lastSaid, said_snoc]
  cases readOf key read entry with
  | none => rw [Option.toList_none, append_nil]; rfl
  | some text => exact getLast?_concat

theorem argumentsOf_snoc : argumentsOf (frames ++ [entry]) key =
    argumentsOf frames key ++ (readOf key (·.argumentsDelta) entry).getD [] := by
  rw [argumentsOf, said_snoc, flatten_append]
  cases readOf key (·.argumentsDelta) entry <;> simp [argumentsOf]

theorem hasFrame_snoc : HasFrame (frames ++ [entry]) key ↔
    HasFrame frames key ∨ ∃ call, entry = some (key, call) := by
  simp only [HasFrame, mem_append, mem_singleton, exists_or, eq_comm]

theorem atFinish_snoc {holds : List (Option (Int × ToolCallDelta)) → List (Option (Int × ToolCallDelta)) → Prop} :
    AtFinish (frames ++ [entry]) holds ↔
      AtFinish frames (fun before after => holds before (after ++ [entry])) ∨ entry = none ∧ holds frames [] := by
  constructor
  · rintro ⟨before, after, split, held⟩
    rcases eq_nil_or_concat after with rfl | ⟨after, last, rfl⟩
    · obtain ⟨rfl, same⟩ := append_inj' split rfl
      exact .inr ⟨singleton_inj.mp same, held⟩
    · rw [concat_eq_append] at split held
      rw [← cons_append, ← append_assoc] at split
      obtain ⟨rfl, same⟩ := append_inj' split rfl
      cases singleton_inj.mp same
      exact .inl ⟨before, after, rfl, held⟩
  · rintro (⟨before, after, rfl, held⟩ | ⟨rfl, held⟩)
    · exact ⟨before, after ++ [entry], by simp, held⟩
    · exact ⟨frames, [], rfl, held⟩

theorem finished_snoc : Finished (frames ++ [entry]) key ↔
    Finished frames key ∨ entry = none ∧ HasFrame frames key :=
  atFinish_snoc

theorem finishedNamed_snoc : FinishedNamed (frames ++ [entry]) key ↔
    FinishedNamed frames key ∨ entry = none ∧ HasName frames key ∧ ¬Finished frames key :=
  atFinish_snoc

theorem AtFinish.or_iff {holds others : List (Option (Int × ToolCallDelta)) →
    List (Option (Int × ToolCallDelta)) → Prop} :
    AtFinish frames (fun before after => holds before after ∨ others before after) ↔
      AtFinish frames holds ∨ AtFinish frames others := by
  simp only [AtFinish, and_or_left, exists_or]

theorem identified_snoc : Identified (frames ++ [entry]) key ↔ Identified frames key ∨
    (readOf key (·.trimmedId) entry).isSome ∨ (∃ call, entry = some (key, call)) ∧ FinishedNamed frames key := by
  have nowhere : ¬HasFrame [] key := fun ⟨_, mem⟩ => not_mem_nil mem
  have later : AtFinish frames (fun before _ => (HasName before key ∧ ¬Finished before key) ∧
      ∃ call, entry = some (key, call)) ↔ (∃ call, entry = some (key, call)) ∧ FinishedNamed frames key := by
    constructor
    · rintro ⟨before, after, split, held, now⟩
      exact ⟨now, before, after, split, held⟩
    · rintro ⟨now, before, after, split, held⟩
      exact ⟨before, after, split, held, now⟩
  rw [Identified, Identified, lastSaid_snoc, Option.isSome_or, Bool.or_eq_true, atFinish_snoc]
  simp only [hasFrame_snoc, and_or_left, AtFinish.or_iff, later, nowhere, and_false, or_false]
  tauto

theorem Finished.hasFrame (finished : Finished frames key) : HasFrame frames key := by
  obtain ⟨before, after, rfl, call, mem⟩ := finished
  exact ⟨call, mem_append_left _ mem⟩

theorem HasName.hasFrame (named : HasName frames key) : HasFrame frames key := by
  obtain ⟨name, found⟩ := Option.isSome_iff_exists.mp named
  obtain ⟨call, mem, -⟩ := mem_said (mem_of_getLast? found)
  exact ⟨call, mem⟩

theorem Identified.known (identified : Identified frames key) :
    (lastSaid frames key (·.trimmedId)).isSome ∨ FinishedNamed frames key :=
  identified.imp_right fun ⟨before, after, split, held, _⟩ => ⟨before, after, split, held⟩

end Upstream

section Forms

/-- What the client sees a call as. -/
inductive CallForm
  | webSearch
  | custom (name : Str)
  | toolSearch
  | function (name : Str) (ns : Option Str)

namespace ToolContext

variable (ctx : ToolContext) (name : Str)

/-- What a call of a name is by the tools of the request. -/
def callForm : CallForm :=
  if ctx.bridgesWebSearch && name == "web_search".toList then .webSearch
  else
    match ctx.lookup name with
    | some ⟨.custom, _, _⟩ => .custom name
    | some ⟨.toolSearch, _, _⟩ => .toolSearch
    | some ⟨.namespaced, original, ns⟩ => .function original ns
    | _ => .function name none

/-- A call that has been taken for one of these kinds stays of that kind, or of a greater one. -/
def rank : Nat :=
  match ctx.lookup name with
  | some ⟨.custom, _, _⟩ => 3
  | some ⟨.toolSearch, _, _⟩ => 2
  | some ⟨.namespaced, _, _⟩ => 1
  | _ => 0

def spaced : Option (Str × Option Str) :=
  match ctx.lookup name with
  | some ⟨.namespaced, original, ns⟩ => some (original, ns)
  | _ => none

def kindAfter (names : List Str) : Bool × Bool × Bool × Option Str × Option Str :=
  (names.getLast?.any fun name => ctx.bridgesWebSearch && name == "web_search".toList,
    names.any fun name => ctx.rank name == 3, names.any fun name => ctx.rank name == 2,
    (names.filterMap ctx.spaced).getLast?.map Prod.fst, (names.filterMap ctx.spaced).getLast?.bind Prod.snd)

/-- No name of a call is of a kind that outranks that of its last name. -/
def Steady (names : List Str) : Prop :=
  ∀ name, names.getLast? = some name → ctx.callForm name = .webSearch ∨
    ∀ other ∈ names, ctx.rank other ≤ ctx.rank name

theorem kind_named {tool : ChatTool} {names : List Str} (kind : tool.kind = ctx.kindAfter names)
    (call : ToolCallDelta) :
    (tool.named ctx call).kind = ctx.kindAfter (names ++ call.trimmedName.toList) := by
  unfold named
  cases call.trimmedName with
  | none =>
    rw [Option.toList_none, append_nil]
    exact kind
  | some name =>
    simp only [ChatTool.kind, kindAfter, Prod.mk.injEq] at kind
    obtain ⟨-, custom, toolSearch, origName, ns⟩ := kind
    dsimp only [classified]
    rcases found : ctx.lookup name with _ | ⟨_ | _ | _ | _, original, space⟩ <;>
      simp [ChatTool.kind, kindAfter, rank, spaced, found, custom, toolSearch, origName, ns]

end ToolContext

/-- The item is of the form, with the arguments. -/
def CallForm.Shows [FloatText] (form : CallForm) (arguments : Str) (item : ResponsesOutputOut) : Prop :=
  match form with
  | webSearch => item.type = "web_search_call".toList ∧ item.query = parseWebSearchQuery arguments
  | custom name => item.type = "custom_tool_call".toList ∧ item.name = some name ∧
      item.input = some (customToolInputFromChatArguments (canonicalizeJsonStringIfParseable arguments))
  | toolSearch => item.type = "tool_search_call".toList ∧
      item.arguments = some (parseToolArgumentsObject (canonicalizeJsonStringIfParseable arguments))
  | function name ns => item.type = "function_call".toList ∧ item.name = some name ∧ item.ns = ns ∧
      item.arguments = some (.str (canonicalizeJsonStringIfParseable arguments))

theorem ChatTool.outputItem_shows [FloatText] {tool : ChatTool} {ctx : ToolContext} {names : List Str}
    (kind : tool.kind = ctx.kindAfter names) (last : names.getLast? = some tool.name) (steady : ctx.Steady names)
    (status : ResponseStatus) : (ctx.callForm tool.name).Shows tool.arguments (tool.outputItem status) := by
  have steady := steady _ last
  obtain ⟨before, rfl⟩ := getLast?_eq_some_iff.mp last
  simp only [ChatTool.kind, ToolContext.kindAfter, Prod.mk.injEq, getLast?_concat, Option.any_some] at kind
  obtain ⟨bridged, custom, toolSearch, origName, ns⟩ := kind
  unfold ToolContext.callForm at steady ⊢
  unfold outputItem
  cases web : ctx.bridgesWebSearch && tool.name == "web_search".toList with
  | true =>
    rw [web] at bridged
    rw [bridged]
    exact ⟨rfl, rfl⟩
  | false =>
    rw [web] at bridged steady
    have below : ∀ other ∈ before ++ [tool.name], ctx.rank other ≤ ctx.rank tool.name := by
      refine steady.resolve_left ?_
      rcases ctx.lookup tool.name with _ | ⟨_ | _ | _ | _, _, _⟩ <;> exact nofun
    have outranked {bound : Nat} (less : ctx.rank tool.name < bound) :
        ((before ++ [tool.name]).any fun name => ctx.rank name == bound) = false := by
      refine any_eq_false.mpr fun other mem same => ?_
      have := below other mem
      rw [beq_iff_eq.mp same] at this
      omega
    have unspaced (plain : ctx.rank tool.name = 0) : (before ++ [tool.name]).filterMap ctx.spaced = [] := by
      refine filterMap_eq_nil_iff.mpr fun other mem => ?_
      have zero := Nat.le_zero.mp (plain ▸ below other mem)
      unfold ToolContext.rank at zero
      unfold ToolContext.spaced
      generalize ctx.lookup other = found at zero ⊢
      rcases found with _ | ⟨_ | _ | _ | _, _, _⟩ <;> first | rfl | cases zero
    rw [bridged]
    rcases found : ctx.lookup tool.name with _ | ⟨_ | _ | _ | _, original, space⟩
    · have rank : ctx.rank tool.name = 0 := by simp [ToolContext.rank, found]
      rw [outranked (by omega)] at custom toolSearch
      rw [unspaced rank] at origName ns
      rw [custom, toolSearch, origName, ns]
      exact ⟨rfl, rfl, rfl, rfl⟩
    · have rank : ctx.rank tool.name = 0 := by simp [ToolContext.rank, found]
      rw [outranked (by omega)] at custom toolSearch
      rw [unspaced rank] at origName ns
      rw [custom, toolSearch, origName, ns]
      exact ⟨rfl, rfl, rfl, rfl⟩
    · have held : tool.custom = true := by simp [custom, ToolContext.rank, found]
      rw [held]
      exact ⟨rfl, rfl, rfl⟩
    · have rank : ctx.rank tool.name = 1 := by simp [ToolContext.rank, found]
      rw [outranked (by omega)] at custom toolSearch
      have spaced : ((before ++ [tool.name]).filterMap ctx.spaced).getLast? = some (original, space) := by
        simp [ToolContext.spaced, found]
      rw [spaced] at origName ns
      rw [custom, toolSearch, origName, ns]
      exact ⟨rfl, rfl, rfl, rfl⟩
    · have rank : ctx.rank tool.name = 2 := by simp [ToolContext.rank, found]
      rw [outranked (by omega)] at custom
      have held : tool.toolSearch = true := by simp [toolSearch, ToolContext.rank, found]
      rw [custom, held]
      exact ⟨rfl, rfl⟩

end Forms

/-- The call knows what its frames have said. -/
structure Heard (ctx : ToolContext) (tool : ChatTool) (frames : List (Option (Int × ToolCallDelta))) (key : Int) :
    Prop where
  id : ∀ id, lastSaid frames key (·.trimmedId) = some id → tool.id = id
  known : tool.id.isEmpty = false ↔ (lastSaid frames key (·.trimmedId)).isSome ∨ FinishedNamed frames key
  name : tool.name = (lastSaid frames key (·.trimmedName)).getD []
  arguments : tool.arguments ++ tool.pendingArgs = argumentsOf frames key
  kind : tool.kind = ctx.kindAfter (said frames key (·.trimmedName))
  done : tool.done ↔ Finished frames key
  started : tool.started ↔ HasName frames key ∧ Identified frames key

section Heard

variable {ctx : ToolContext} {tool after : ChatTool} {frames : List (Option (Int × ToolCallDelta))} {key : Int}

theorem lastSaid_ne_nil {read : ToolCallDelta → Option Str} {text : Str}
    (full : ∀ call text, read call = some text → text.isEmpty = false)
    (held : lastSaid frames key read = some text) :
    text.isEmpty = false := by
  obtain ⟨call, -, found⟩ := mem_said (mem_of_getLast? held)
  exact full call text found

theorem Heard.named_iff (heard : Heard ctx tool frames key) : HasName frames key ↔ tool.name.isEmpty = false := by
  rw [heard.name, HasName]
  cases held : lastSaid frames key (·.trimmedName) with
  | none => simp
  | some name => simp [lastSaid_ne_nil (fun _ _ => trimmedName_ne_nil) held]

theorem Heard.told_id (heard : Heard ctx tool frames key) (told : tool.Told after) (id : Str)
    (held : lastSaid frames key (·.trimmedId) = some id) : after.id = id := by
  have same := heard.id id held
  have full := lastSaid_ne_nil (fun _ _ => trimmedId_ne_nil) held
  rw [told.id (same ▸ full), same]

theorem Heard.told (heard : Heard ctx tool frames key) (told : tool.Told after) (done : after.done = tool.done) :
    Heard ctx after frames key where
  id := heard.told_id told
  known := by
    rw [← heard.known, told.filled, done]
    cases tool.done <;> simp
  name := told.name.trans heard.name
  arguments := told.arguments.trans heard.arguments
  kind := told.kind.trans heard.kind
  done := done ▸ heard.done
  started := told.started ▸ heard.started

theorem Heard.finish (heard : Heard ctx tool frames key) (told : tool.Told after)
    (done : after.done ↔ HasFrame frames key) : Heard ctx after (frames ++ [none]) key where
  id id held := heard.told_id told id (by rwa [lastSaid_snoc] at held)
  known := by
    rw [lastSaid_snoc, finishedNamed_snoc, ← heard.done, told.filled, Bool.and_eq_false_iff, heard.known,
      heard.named_iff, readOf, Option.none_or]
    have framed : HasName frames key → after.done := fun named => done.mpr named.hasFrame
    rw [heard.named_iff] at framed
    simp only [Bool.or_eq_false_iff, Bool.not_eq_false', Bool.not_eq_true, true_and]
    tauto
  name := by
    rw [lastSaid_snoc]
    exact told.name.trans heard.name
  arguments := by
    rw [argumentsOf_snoc]
    simpa [readOf] using told.arguments.trans heard.arguments
  kind := by
    rw [said_snoc]
    simpa [readOf] using told.kind.trans heard.kind
  done := by
    rw [finished_snoc, done]
    exact ⟨fun framed => .inr ⟨rfl, framed⟩, Or.rec Finished.hasFrame And.right⟩
  started := by
    rw [told.started, heard.started, HasName, HasName, lastSaid_snoc, identified_snoc]
    simp [readOf]

theorem Heard.receive (heard : Heard ctx tool frames key) (sound : tool.Sound) (reasoning : Option Str)
    (call : ToolCallDelta) : Heard ctx (tool.receive ctx reasoning call).2 (frames ++ [some (key, call)]) key := by
  obtain ⟨id, name, arguments⟩ := sound.receive_told ctx reasoning call
  obtain ⟨-, -, done, started, ready⟩ := tool.receive_layout ctx reasoning call
  have here (read : ToolCallDelta → Option Str) : readOf key read (some (key, call)) = read call := if_pos rfl
  have newName : (tool.receive ctx reasoning call).2.name =
      (lastSaid (frames ++ [some (key, call)]) key (·.trimmedName)).getD [] := by
    rw [name, lastSaid_snoc, here, heard.name]
    cases call.trimmedName <;> rfl
  have named : HasName (frames ++ [some (key, call)]) key ↔
      (tool.receive ctx reasoning call).2.name.isEmpty = false := by
    rw [newName, HasName]
    cases held : lastSaid (frames ++ [some (key, call)]) key (·.trimmedName) with
    | none => simp
    | some name => simp [lastSaid_ne_nil (fun _ _ => trimmedName_ne_nil) held]
  have known : (tool.receive ctx reasoning call).2.id.isEmpty = false ↔
      (lastSaid (frames ++ [some (key, call)]) key (·.trimmedId)).isSome ∨
        FinishedNamed (frames ++ [some (key, call)]) key := by
    rw [id, lastSaid_snoc, here, finishedNamed_snoc, Option.isSome_or, Bool.or_eq_true]
    cases found : call.trimmedId with
    | none => simpa using heard.known
    | some id => simp [trimmedId_ne_nil found]
  refine ⟨fun given held => ?_, known, newName, ?_, ?_, ?_, ?_⟩
  · rw [lastSaid_snoc, here] at held
    rw [id]
    cases now : call.trimmedId with
    | none => exact heard.id given (by simpa [now] using held)
    | some now => simpa [now] using held
  · rw [arguments, argumentsOf_snoc, here, heard.arguments]
  · obtain ⟨first, second, same⟩ := tool.receive_eq ctx reasoning call
    obtain ⟨reasoningContent, listened⟩ := tool.heard_eq ctx reasoning call
    rw [same, listened, said_snoc, here]
    exact ctx.kind_named heard.kind call
  · rw [done, heard.done, finished_snoc]
    simp
  · rw [started, Bool.or_eq_true, heard.started, ← ready, ChatTool.ready, Bool.and_eq_true, Bool.not_eq_true',
      Bool.not_eq_true', known, ← named, identified_snoc, finishedNamed_snoc, lastSaid_snoc, here]
    have kept : HasName frames key → HasName (frames ++ [some (key, call)]) key := by
      rw [HasName, HasName, lastSaid_snoc, Option.isSome_or, Bool.or_eq_true]
      exact .inr
    simp only [Option.isSome_or, Bool.or_eq_true, Option.some.injEq, Prod.mk.injEq, true_and, exists_eq',
      reduceCtorEq, false_and, or_false]
    constructor
    · rintro (⟨named, identified⟩ | ⟨(now | before) | finished, named⟩)
      · exact ⟨kept named, .inl identified⟩
      · exact ⟨named, .inr (.inl now)⟩
      · exact ⟨named, .inl (.inl before)⟩
      · exact ⟨named, .inr (.inr finished)⟩
    · rintro ⟨named, identified | now | finished⟩
      · exact .inr ⟨identified.known.imp_left .inr, named⟩
      · exact .inr ⟨.inl (.inl now), named⟩
      · exact .inr ⟨.inr finished, named⟩

theorem Heard.skip {other : Int} (heard : Heard ctx tool frames key) (different : other ≠ key)
    (call : ToolCallDelta) :
    Heard ctx tool (frames ++ [some (other, call)]) key := by
  have away (read : ToolCallDelta → Option Str) : readOf key read (some (other, call)) = none := if_neg different
  have names : HasName (frames ++ [some (other, call)]) key ↔ HasName frames key := by
    rw [HasName, lastSaid_snoc, away, Option.none_or, HasName]
  refine ⟨?_, ?_, ?_, ?_, ?_, ?_, ?_⟩
  · rw [lastSaid_snoc, away]
    exact heard.id
  · rw [lastSaid_snoc, away, finishedNamed_snoc]
    simpa using heard.known
  · rw [lastSaid_snoc, away]
    exact heard.name
  · rw [argumentsOf_snoc, away]
    simpa using heard.arguments
  · rw [said_snoc, away]
    simpa using heard.kind
  · rw [finished_snoc]
    simpa using heard.done
  · rw [names, identified_snoc, away]
    simpa [different] using heard.started

end Heard

namespace ChatToResponsesStreamState

/-- The state is laid out, and its table holds what the frames have said. -/
structure Follows (ctx : ToolContext) (s : ChatToResponsesStreamState)
    (frames : List (Option (Int × ToolCallDelta))) :
    Prop where
  placed : s.Placed
  toolCtx : s.toolCtx = ctx
  keys : ∀ key, key ∈ s.tools.keys ↔ HasFrame frames key
  heard : ∀ key, Heard ctx (s.toolAt key) frames key

theorem finishChoice_state [FloatText] (reason : Str) (s : ChatToResponsesStreamState) :
    (finishChoice reason s).2 = (doneDeltaEvents (applyFinishReason reason s)).2 := by
  rw [finishChoice, followedBy_state, quiet_state]

section Follows

variable {ctx : ToolContext} {s s' : ChatToResponsesStreamState} {frames : List (Option (Int × ToolCallDelta))}

theorem Follows.new (ctx : ToolContext) (id model : Str) (created : I64) :
    Follows ctx (.new id model created ctx) [] where
  placed := .new id model created ctx
  toolCtx := rfl
  keys key := by simp [ChatToResponsesStreamState.new, HasFrame]
  heard key := by
    have none (holds) : ¬AtFinish [] holds := by
      rintro ⟨before, after, split, _⟩
      simp at split
    rw [toolAt_new]
    constructor <;>
      simp [fresh, lastSaid, said, argumentsOf, FinishedNamed, Finished, Identified, none, ChatTool.kind,
        ToolContext.kindAfter]

theorem Follows.retells (follows : s.Follows ctx frames) (placed : s'.Placed) (told : Later Told s s')
    (done : Later (fun before after => after.done = before.done) s s') : s'.Follows ctx frames :=
  ⟨placed, told.toolCtx.trans follows.toolCtx, fun key => told.keys ▸ follows.keys key,
    fun key => (follows.heard key).told (told.tools key) (done.tools key)⟩

variable [TableOrder]

theorem chatIndex_closeReasoning (status : ResponseStatus) (call : ToolCallDelta) :
    (closeReasoning status s).2.chatIndex call = s.chatIndex call := by
  rw [closeReasoning_frame]
  rfl

theorem Follows.receiveFrame (follows : s.Follows ctx frames) (reasoning : Option Str) (call : ToolCallDelta) :
    (receiveFrame reasoning call s).2.Follows ctx (frames ++ [some (s.chatIndex call, call)]) := by
  have tools := receiveFrame_tools reasoning call s
  refine ⟨follows.placed.receiveFrame reasoning call, follows.toolCtx, fun key => ?_, fun key => ?_⟩
  · rw [tools, mem_keys_insert, follows.keys, hasFrame_snoc]
    simp [or_comm, eq_comm]
  · rw [toolAt_insert tools]
    split
    next here =>
      subst here
      rw [follows.toolCtx]
      exact (follows.heard _).receive (follows.placed.toolAt_sound _) reasoning call
    next other =>
      exact (follows.heard key).skip (Ne.symm other) call

variable [FloatText]

theorem Follows.call (follows : s.Follows ctx frames) (call : ToolCallDelta) :
    (appendToolCallDelta call s).2.Follows ctx (frames ++ [some (s.chatIndex call, call)]) := by
  have closed := (follows.retells (follows.placed.closeReasoning .completed)
    (.of_tools Told.stages.toStages (by rw [closeReasoning_frame]) (by rw [closeReasoning_frame]))
    (.of_tools sameDone_stages (by rw [closeReasoning_frame]) (by rw [closeReasoning_frame]))).receiveFrame
      s.closedReasoning call
  rw [chatIndex_closeReasoning] at closed
  exact closed.retells (follows.placed.appendToolCallDelta call) (Later.releaseFrom Told.stages.toStages false _)
    (Later.releaseFrom sameDone_stages false _)

omit [TableOrder] in
theorem Follows.finish (follows : s.Follows ctx frames) (reason : Str) :
    (finishChoice reason s).2.Follows ctx (frames ++ [none]) := by
  have told := (Later.applyFinishReason Told.stages.toStages reason).trans Told.stages.toStages
    (Later.doneDeltaEvents Told.stages (s := applyFinishReason reason s))
  have noted := Later.applyFinishReason Told.stages.toStages reason (s := s)
  rw [finishChoice_state]
  refine ⟨(follows.placed.applyFinishReason reason).doneDeltaEvents, told.toolCtx.trans follows.toolCtx,
    fun key => ?_, fun key => (follows.heard key).finish (told.tools key) ?_⟩
  · rw [told.keys, follows.keys, hasFrame_snoc]
    simp
  · rw [← follows.keys, ← noted.keys]
    refine ⟨fun done => ?_, done_doneDeltaEvents key⟩
    by_contra absent
    rw [← (Later.doneDeltaEvents Told.stages).keys, mem_keys_iff, Bool.not_eq_true, Option.isSome_eq_false_iff,
      Option.isNone_iff_eq_none] at absent
    rw [toolAt, absent] at done
    cases done

theorem Follows.choice (follows : s.Follows ctx frames) (choice : ChatStreamChoice) :
    (processChoice choice s).2.Follows ctx (frames ++ framesOfChoice s choice) := by
  have spoken : (processTexts choice.delta s).2.Follows ctx frames := by
    obtain ⟨-, -, placed⟩ := Placed.kept.guarded.texts choice.delta s ()
      ⟨follows.placed, textsGuarded_free s choice.delta⟩
    exact follows.retells placed (Later.processTexts Told.stages.toStages choice.delta)
      (Later.processTexts sameDone_stages choice.delta)
  have called := collect_invariant (fun s call => [some (s.chatIndex call, call)]) (Follows ctx)
    (fun s seen call held => held.call call) choice.delta.toolCalls spoken
  rw [processChoice, followedBy_state, followedBy_state, framesOfChoice, ← append_assoc]
  cases choice.finishReason.bind Text.nonBlank with
  | none =>
    rw [if_neg (by simp), append_nil]
    exact called
  | some reason =>
    rw [whenSome, Option.isSome_some, if_pos rfl]
    exact called.finish reason

theorem Follows.chunk (follows : s.Follows ctx frames) (chunk : ChatStreamChunk) :
    (processChunk chunk s).2.Follows ctx (frames ++ framesOfChunk s chunk) := by
  unfold processChunk framesOfChunk
  split
  next failed =>
    simpa [failed] using follows
  next healthy =>
    split
    next err found =>
      simp only [found, Option.isSome_some, Bool.or_true, if_true, append_nil]
      exact ⟨Placed.kept.fail s _ follows.placed, follows.toolCtx, follows.keys, follows.heard⟩
    next fine =>
      have started : (ensureCreated (noteHeader chunk s)).2.Follows ctx frames := by
        have same : (ensureCreated (noteHeader chunk s)).2.toolCtx = s.toolCtx ∧
            (ensureCreated (noteHeader chunk s)).2.tools = s.tools := by
          unfold ensureCreated
          split <;> exact ⟨rfl, rfl⟩
        exact follows.retells (Placed.kept.created _ (Placed.kept.header s chunk follows.placed))
          (.of_tools Told.stages.toStages same.1 same.2) (.of_tools sameDone_stages same.1 same.2)
      simp only [healthy, fine, Option.isSome_none, Bool.or_false, Bool.false_eq_true, if_false]
      exact collect_invariant framesOfChoice (Follows ctx) (fun s seen choice held => held.choice choice)
        chunk.choices started

theorem Follows.run (follows : s.Follows ctx frames) (chunks : List ChatStreamChunk) :
    (forEach processChunk chunks s).2.Follows ctx (frames ++ resolvedFrames s chunks) :=
  collect_invariant framesOfChunk (Follows ctx) (fun _ _ chunk held => held.chunk chunk) chunks follows

end Follows

end ChatToResponsesStreamState

/-- The item is that of the upstream's call: its id, and by its name its form and its arguments. -/
structure IsItemOf [FloatText] (ctx : ToolContext) (frames : List (Option (Int × ToolCallDelta))) (key : Int)
    (item : ResponsesOutputOut) : Prop where
  id : ∀ id, lastSaid frames key (·.trimmedId) = some id → item.callRef = id
  form : ∀ name, lastSaid frames key (·.trimmedName) = some name →
    (ctx.callForm name).Shows (argumentsOf frames key) item

def CallsKept [FloatText] (ctx : ToolContext) (frames : List (Option (Int × ToolCallDelta)))
    (output : List ResponsesOutputOut) : Prop :=
  ∃ keys : List Int, keys.Nodup ∧ (∀ key, key ∈ keys ↔ HasName frames key) ∧
    Forall₂ (IsItemOf ctx frames) keys (output.filter (·.isCall))

section Kept

variable [FloatText] {ctx : ToolContext} {tool after : ChatTool} {frames : List (Option (Int × ToolCallDelta))}
  {key : Int}

theorem Heard.isItemOf (heard : Heard ctx tool frames key) (told : tool.Told after)
    (flushed : after.pendingArgs = [])
    (steady : ctx.Steady (said frames key (·.trimmedName))) (status : ResponseStatus) :
    IsItemOf ctx frames key (after.outputItem status) where
  id id held := outputItem_callRef.trans (heard.told_id told id held)
  form name held := by
    have named : after.name = name := by rw [told.name, heard.name, held, Option.getD_some]
    have arguments := told.arguments.trans heard.arguments
    rw [flushed, append_nil] at arguments
    rw [← arguments, ← named]
    exact outputItem_shows (told.kind.trans heard.kind) (named ▸ held) steady status

namespace ChatToResponsesStreamState

variable {s s' : ChatToResponsesStreamState}

omit [FloatText] in
theorem Placed.mem_toolKeys_iff (placed : s.Placed) (released : s.AllReleased) (key : Int) :
    key ∈ s.toolKeys ↔ (s.toolAt key).started := by
  rw [mem_toolKeys, placed.tool_mem_order_iff]
  constructor
  · rintro ⟨tool, found, shown⟩
    rw [toolAt_eq found]
    exact (placed.sound key tool found).started shown
  · intro started
    cases found : s.tools[key]? with
    | none => simp [toolAt, found, fresh] at started
    | some tool =>
      rw [toolAt_eq found] at started
      exact ⟨tool, rfl, released key tool found started⟩

theorem Follows.callsKept_iff (follows : s.Follows ctx frames) (told : Later Told s s') (placed : s'.Placed)
    (released : s'.AllReleased) (steady : ∀ key, ctx.Steady (said frames key (·.trimmedName))) :
    CallsKept ctx frames s'.finalResponse.output ↔ ∀ key, HasName frames key → Identified frames key := by
  have mem (key : Int) : key ∈ s'.toolKeys ↔ HasName frames key ∧ Identified frames key := by
    rw [placed.mem_toolKeys_iff released, (told.tools key).started, (follows.heard key).started]
  rw [CallsKept, placed.toolItems]
  constructor
  · -- as many items as named calls leave no place for one that was not started
    rintro ⟨keys, nodup, every, items⟩ key named
    have listed : s'.toolKeys ⊆ keys := fun key known => (every key).mpr ((mem key).mp known).1
    have perm := (subperm_of_subset placed.nodup_toolKeys listed).perm_of_length_le
      (by rw [items.length_eq, length_map])
    exact ((mem key).mp (perm.mem_iff.mpr ((every key).mpr named))).2
  · intro identified
    refine ⟨s'.toolKeys, placed.nodup_toolKeys, fun key => ?_, ?_⟩
    · rw [mem]
      exact ⟨And.left, fun named => ⟨named, identified key named⟩⟩
    · rw [forall₂_map_right_iff, forall₂_same]
      intro key known
      obtain ⟨tool, found, shown⟩ := placed.tool_mem_order_iff.mp (mem_toolKeys.mp known)
      have later := told.tools key
      rw [toolAt_eq found] at later ⊢
      exact (follows.heard key).isItemOf later ((placed.sound key tool found).flushed shown) (steady key) _

end ChatToResponsesStreamState

end Kept

/-- The response at the end of a stream has every call with a name, provided that each of them is identified. -/
theorem responsesStream_calls_kept_iff [FloatText] [TableOrder] (id model : Str) (created : I64)
    (toolCtx : ToolContext) (chunks : List ChatStreamChunk) (steady : ∀ key,
      toolCtx.Steady (said (resolvedFrames (.new id model created toolCtx) chunks) key (·.trimmedName))) :
    ∃ type response error usage,
      (responsesStream id model created toolCtx chunks).getLast? = some (.terminal type response error usage) ∧
      (CallsKept toolCtx (resolvedFrames (.new id model created toolCtx) chunks) response.output ↔
        ∀ key, HasName (resolvedFrames (.new id model created toolCtx) chunks) key →
          Identified (resolvedFrames (.new id model created toolCtx) chunks) key) := by
  have follows := (ChatToResponsesStreamState.Follows.new toolCtx id model created).run chunks
  have running : (forEach processChunk chunks (.new id model created toolCtx)).2.finalized =
      false := kept_running.run rfl chunks
  rw [responsesStream, followedBy_events]
  generalize (forEach processChunk chunks (.new id model created toolCtx)).2 = s at *
  rw [nil_append] at follows
  rw [finalize, finalizeInner_events running]
  refine ⟨_, _, _, _, by rw [← append_assoc, List.getLast?_concat], ?_⟩
  have placed := follows.placed.closed
  have released := ChatToResponsesStreamState.AllReleased.closed s
  have told : ChatToResponsesStreamState.Later Told s s.closed := .closed Told.stages
  generalize s.closed = t at placed released told
  obtain ⟨status, incompleteReason, same⟩ := t.verdict_frame false
  rw [same]
  exact follows.callsKept_iff (told.trans Told.stages.toStages (.of_tools Told.stages.toStages rfl rfl))
    { placed with } released steady

def patchCall : List ChatStreamChunk :=
  [deltaChunk none [toolFrame 0 (some "a") (some "apply_patch") "1"], deltaChunk none [toolFrame 0 none none "2"]]

theorem patch_call_kept :
    let _ : FloatText := Json.verbatim
    let _ : TableOrder := .sorted
    let ctx := ToolContext.empty.addCustomTool "apply_patch".toList
    ∃ type response error usage,
      (responsesStream "resp_1".toList [] 0 ctx patchCall).getLast? = some (.terminal type response error usage) ∧
        CallsKept ctx (resolvedFrames (.new "resp_1".toList [] 0 ctx) patchCall) response.output := by
  intro _ _ ctx
  have all : (resolvedFrames (.new "resp_1".toList [] 0 ctx) patchCall).all fun entry => entry.any fun frame =>
      frame.1 = 0 ∧ frame.2.trimmedName.all (· = "apply_patch".toList) := by decide +kernel
  have given : (lastSaid (resolvedFrames (.new "resp_1".toList [] 0 ctx) patchCall) 0 (·.trimmedId)).isSome := by
    decide +kernel
  have name {key : Int} {text : Str}
      (mem : text ∈ said (resolvedFrames (.new "resp_1".toList [] 0 ctx) patchCall) key (·.trimmedName)) :
      key = 0 ∧ text = "apply_patch".toList := by
    obtain ⟨call, place, found⟩ := mem_said mem
    obtain ⟨here, named⟩ := of_decide_eq_true (all_eq_true.mp all _ place)
    rw [found] at named
    exact ⟨here, of_decide_eq_true named⟩
  obtain ⟨type, response, error, usage, last, kept⟩ :=
    responsesStream_calls_kept_iff "resp_1".toList [] 0 ctx patchCall fun key text held => .inr fun other mem => by
      rw [(name mem).2, (name (mem_of_getLast? held)).2]
  refine ⟨type, response, error, usage, last, kept.mpr fun key named => ?_⟩
  obtain ⟨text, held⟩ := Option.isSome_iff_exists.mp named
  rw [(name (mem_of_getLast? held)).1]
  exact .inl given

def ResponsesEvent.endsEmpty : ResponsesEvent → Bool
  | .terminal _ response _ _ => response.output.isEmpty
  | _ => false

theorem call_without_id_lost :
    let _ : FloatText := Json.verbatim
    let _ : TableOrder := .sorted
    ∀ type response error usage,
      (responsesStream "resp_1".toList [] 0 .empty idlessCall).getLast? =
        some (.terminal type response error usage) →
        ¬CallsKept .empty (resolvedFrames (.new "resp_1".toList [] 0 .empty) idlessCall)
          response.output := by
  intro _ _ type response error usage last
  have empty : (responsesStream "resp_1".toList [] 0 .empty idlessCall).getLast?.any (·.endsEmpty) := by
    decide +kernel
  have named : (lastSaid (resolvedFrames (.new "resp_1".toList [] 0 .empty) idlessCall) 0
      (·.trimmedName)).isSome := by decide +kernel
  rw [last, Option.any_some] at empty
  rintro ⟨keys, -, every, items⟩
  rw [isEmpty_iff.mp empty, filter_nil, forall₂_nil_right_iff] at items
  have member := (every 0).mpr named
  rw [items] at member
  cases member

end LlmGateway
