import LlmGateway.Lib.Text

namespace LlmGateway

open Text

inductive ThinkMode
  | detecting
  | reasoning
  | text
  deriving DecidableEq

/-- The separator of an inline `<think>` block at the start of a stream. -/
structure InlineThinkState where
  mode : ThinkMode
  buffer : Str
  deriving DecidableEq

def thinkOpen : Str := "<think>".toList

def thinkClose : Str := "</think>".toList

inductive PrefixDecision
  | needMore
  | reasoning
  | text

def leadingThinkPrefixDecision (buffer : Str) : PrefixDecision :=
  let trimmed := trimStart buffer
  if trimmed.isEmpty then .needMore
  else if trimmed.isPrefixOf thinkOpen then .needMore
  else if thinkOpen.isPrefixOf trimmed then .reasoning
  else .text

def partialCloseSuffixLen (buffer : Str) : Nat :=
  ((List.range' 1 (min thinkClose.length buffer.length)).reverse.find? fun k =>
    buffer.drop (buffer.length - k) == thinkClose.take k).getD 0

namespace InlineThinkState

def new : InlineThinkState := ⟨.detecting, []⟩

def stripOpenTag (state : InlineThinkState) : InlineThinkState :=
  match cutAt thinkOpen state.buffer with
  | some (_, rest) => { state with buffer := rest }
  | none => state

/-- The reasoning and the text that can be sent. -/
def emitReasoning (state : InlineThinkState) : (List Str × List Str) × InlineThinkState :=
  match cutAt thinkClose state.buffer with
  | some (reasoning, answer) =>
    ((if reasoning.isEmpty then [] else [reasoning], if answer.isEmpty then [] else [answer]), ⟨.text, []⟩)
  | none =>
    let hold := partialCloseSuffixLen state.buffer
    if state.buffer.length = hold then (([], []), state)
    else
      let emit := state.buffer.length - hold
      (([state.buffer.take emit], []), { state with buffer := state.buffer.drop emit })

def feed (state : InlineThinkState) (delta : Str) : (List Str × List Str) × InlineThinkState :=
  match state.mode with
  | .text => (([], [delta]), state)
  | .detecting =>
    let buffer := state.buffer ++ delta
    match leadingThinkPrefixDecision buffer with
    | .needMore => (([], []), { state with buffer })
    | .reasoning => (stripOpenTag ⟨.reasoning, buffer⟩).emitReasoning
    | .text => (([], [buffer]), ⟨.text, []⟩)
  | .reasoning => emitReasoning { state with buffer := state.buffer ++ delta }

def flush (state : InlineThinkState) : (List Str × List Str) × InlineThinkState :=
  match state.mode with
  | .text => (([], []), state)
  | .detecting => (([], if state.buffer.isEmpty then [] else [state.buffer]), ⟨.text, []⟩)
  | .reasoning => ((if state.buffer.isEmpty then [] else [state.buffer], []), ⟨.text, []⟩)

end InlineThinkState

def splitLeadingThink (text : Str) : Option (Str × Str) := do
  let (_, afterOpen) ← cutAt thinkOpen text
  cutAt thinkClose afterOpen

end LlmGateway
