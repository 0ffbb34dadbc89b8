import LlmGateway.Lib.Json
import LlmGateway.Lib.Text

/-- The first eight bytes of a SHA-256 digest in hexadecimal digits. -/
class ShortSha256 where
  hex : Str → Str

/-- No digest, for names that are not too long. -/
@[reducible] def ShortSha256.blank : ShortSha256 := ⟨fun _ => []⟩

namespace LlmGateway

open Text Function Option

def chatToolNameMaxLen : Nat := 64

def toolSearchProxyName : Str := "tool_search".toList

inductive ToolKind
  | function
  | custom
  | namespaced
  | toolSearch
  deriving DecidableEq

/-- A tool as the request declares it. -/
structure ToolSpec where
  kind : ToolKind
  name : Str
  ns : Option Str
  deriving DecidableEq

/-- The tools of a request by the names they have upstream. -/
structure ToolContext where
  specs : Str → Option ToolSpec
  nsLookup : Str × Str → Option Str
  bridgesWebSearch : Bool

def takeBytes : Nat → Str → Str
  | _, [] => []
  | bytes, c :: rest => if c.utf8Size ≤ bytes then c :: takeBytes (bytes - c.utf8Size) rest else []

def flattenNamespaceToolName [ShortSha256] (ns name : Str) : Str :=
  let fullName := ns ++ "__".toList ++ name
  if utf8Len fullName ≤ chatToolNameMaxLen then fullName
  else
    let suffix := "__".toList ++ ShortSha256.hex fullName
    takeBytes (chatToolNameMaxLen - utf8Len suffix) fullName ++ suffix

def responsesToolName (tool : Json) : Option Str :=
  ((((tool.get "function").bind (Json.get · "name")).or (tool.get "name")).bind Json.asStr).bind nonBlank

namespace ToolContext

def empty : ToolContext := ⟨fun _ => none, fun _ => none, false⟩

def lookup (ctx : ToolContext) (chatName : Str) : Option ToolSpec := ctx.specs chatName

def addChatTool (ctx : ToolContext) (chatName : Str) (spec : ToolSpec) : ToolContext :=
  if (trim chatName).isEmpty || (ctx.specs chatName).isSome then ctx
  else
    { ctx with
      specs := Function.update ctx.specs chatName (some spec)
      nsLookup := match spec.ns with
        | some ns => Function.update ctx.nsLookup (ns, spec.name) (some chatName)
        | none => ctx.nsLookup }

section Flatten

variable [ShortSha256]

def chatNameFor (ctx : ToolContext) (name : Str) (ns : Option Str) : Str :=
  match ns.filter fun ns => !ns.isEmpty with
  | some ns => (ctx.nsLookup (ns, name)).getD (flattenNamespaceToolName ns name)
  | none => name

def addFunctionTool (ctx : ToolContext) (tool : Json) (ns : Option Str) : ToolContext :=
  match responsesToolName tool, ns with
  | none, _ => ctx
  | some name, some ns => ctx.addChatTool (flattenNamespaceToolName ns name) ⟨.namespaced, name, some ns⟩
  | some name, none => ctx.addChatTool name ⟨.function, name, none⟩

def addCustomTool (ctx : ToolContext) (name : Str) : ToolContext := ctx.addChatTool name ⟨.custom, name, none⟩

def addToolSearchTool (ctx : ToolContext) : ToolContext :=
  ctx.addChatTool toolSearchProxyName ⟨.toolSearch, toolSearchProxyName, none⟩

def addNamespaceTool (ctx : ToolContext) (tool : Json) : ToolContext :=
  match tool.getStr "name", ((tool.get "tools").or (tool.get "children")).bind Json.asArr with
  | some ns, some children =>
    children.foldl (fun ctx child =>
      if child.getStr "type" = some "function".toList then ctx.addFunctionTool child (some ns) else ctx) ctx
  | _, _ => ctx

def addResponseTool (ctx : ToolContext) (tool : Json) : ToolContext :=
  match tool with
  | .str name =>
    match nonBlank name with
    | some name => ctx.addCustomTool name
    | none => ctx
  | .obj _ =>
    let type := (tool.getStr "type").map String.ofList
    if type = some "function" then ctx.addFunctionTool tool none
    else if type = some "custom" then
      match responsesToolName tool with
      | some name => ctx.addCustomTool name
      | none => ctx
    else if type = some "tool_search" then ctx.addToolSearchTool
    else if type = some "namespace" then ctx.addNamespaceTool tool
    else if type = some "web_search" then { ctx with bridgesWebSearch := true }
    else ctx
  | _ => ctx

/-- The tools that arrived in results of a tool search, at any depth of the input. -/
def collectToolSearchOutputTools (ctx : ToolContext) (value : Json) : ToolContext :=
  match value with
  | .arr items => collectItems ctx items
  | .obj fields =>
    let own :=
      if ((fields.lookup "type").bind Json.asStr) = some "tool_search_output".toList then
        (((fields.lookup "tools").bind Json.asArr).getD []).foldl addResponseTool ctx
      else ctx
    collectFields own fields
  | _ => ctx
where
  collectItems (ctx : ToolContext) : List Json → ToolContext
    | [] => ctx
    | item :: rest => collectItems (collectToolSearchOutputTools ctx item) rest
  collectFields (ctx : ToolContext) : Json.Fields → ToolContext
    | [] => ctx
    | (_, value) :: rest => collectFields (collectToolSearchOutputTools ctx value) rest

def fromRequest (req : Json) : ToolContext :=
  let declared := (((req.get "tools").bind Json.asArr).getD []).foldl addResponseTool empty
  match req.get "input" with
  | some input => collectToolSearchOutputTools declared input
  | none => declared

end Flatten

end ToolContext

section Registered

variable [ShortSha256]

/-- What a declared tool and the name it has upstream have to do with each other. -/
def ToolSpec.Registered (spec : ToolSpec) (chatName : Str) : Prop :=
  (trim chatName).isEmpty = false ∧ nonBlank spec.name = some spec.name ∧
    match spec.kind, spec.ns with
    | .function, _ => spec.name = chatName
    | .custom, _ => spec.name = chatName
    | .namespaced, some ns => flattenNamespaceToolName ns spec.name = chatName
    | .namespaced, none => False
    | .toolSearch, _ => toolSearchProxyName = chatName

namespace ToolContext

structure Registered (ctx : ToolContext) : Prop where
  specs : ∀ {chatName spec}, ctx.lookup chatName = some spec → spec.Registered chatName
  flattened : ∀ {ns name chatName}, ctx.nsLookup (ns, name) = some chatName →
    flattenNamespaceToolName ns name = chatName

variable {ctx : ToolContext}

theorem Registered.empty : Registered empty where
  specs found := by cases found
  flattened found := by cases found

theorem Registered.addChatTool (registered : ctx.Registered) {chatName : Str} {spec : ToolSpec}
    (kind : (trim chatName).isEmpty = false → spec.Registered chatName)
    (flat : ∀ ns, spec.ns = some ns → flattenNamespaceToolName ns spec.name = chatName) :
    (ctx.addChatTool chatName spec).Registered := by
  unfold ToolContext.addChatTool
  split_ifs with skipped
  · exact registered
  · have filled : (trim chatName).isEmpty = false := by
      rw [Bool.or_eq_true, not_or] at skipped
      exact Bool.eq_false_iff.mpr skipped.1
    refine ⟨fun {name found} held => ?_, fun {ns name found} held => ?_⟩
    · change Function.update ctx.specs chatName (some spec) name = some found at held
      by_cases same : name = chatName
      · subst same
        rw [update_self] at held
        exact Option.some.inj held ▸ kind filled
      · rw [update_of_ne same] at held
        exact registered.specs held
    · cases added : spec.ns with
      | none =>
        rw [added] at held
        exact registered.flattened held
      | some space =>
        rw [added] at held
        change Function.update ctx.nsLookup (space, spec.name) (some chatName) (ns, name) = some found at held
        by_cases same : (ns, name) = (space, spec.name)
        · cases same
          rw [update_self] at held
          exact Option.some.inj held ▸ flat ns added
        · rw [update_of_ne same] at held
          exact registered.flattened held

theorem Registered.addFunctionTool (registered : ctx.Registered) (tool : Json) (ns : Option Str) :
    (ctx.addFunctionTool tool ns).Registered := by
  unfold ToolContext.addFunctionTool
  cases found : responsesToolName tool with
  | none => exact registered
  | some name =>
    obtain ⟨text, -, named⟩ := bind_eq_some_iff.mp found
    have trimmed := nonBlank_nonBlank named
    cases ns with
    | none =>
      refine registered.addChatTool (fun filled => ⟨filled, trimmed, rfl⟩) ?_
      intro ns absent
      cases absent
    | some ns =>
      refine registered.addChatTool (fun filled => ⟨filled, trimmed, rfl⟩) ?_
      intro space same
      cases same
      rfl

theorem Registered.addCustomTool (registered : ctx.Registered) {name : Str} (trimmed : nonBlank name = some name) :
    (ctx.addCustomTool name).Registered := by
  refine registered.addChatTool (fun filled => ⟨filled, trimmed, rfl⟩) ?_
  intro ns absent
  cases absent

theorem Registered.addToolSearchTool (registered : ctx.Registered) : ctx.addToolSearchTool.Registered := by
  refine registered.addChatTool (fun filled => ⟨filled, by decide, rfl⟩) ?_
  intro ns absent
  cases absent

theorem Registered.foldl {α : Type*} {add : ToolContext → α → ToolContext}
    (step : ∀ {ctx} tool, ctx.Registered → (add ctx tool).Registered) (registered : ctx.Registered)
    (tools : List α) :
    (tools.foldl add ctx).Registered := by
  induction tools generalizing ctx with
  | nil => exact registered
  | cons tool tools ih => exact ih (step tool registered)

theorem Registered.addNamespaceTool (registered : ctx.Registered) (tool : Json) :
    (ctx.addNamespaceTool tool).Registered := by
  unfold ToolContext.addNamespaceTool
  split
  · refine registered.foldl (fun child registered => ?_) _
    split_ifs
    · exact registered.addFunctionTool child _
    · exact registered
  · exact registered

theorem Registered.addResponseTool (registered : ctx.Registered) (tool : Json) :
    (ctx.addResponseTool tool).Registered := by
  unfold ToolContext.addResponseTool
  split
  · split
    next named =>
      exact registered.addCustomTool (nonBlank_nonBlank named)
    · exact registered
  · dsimp only
    split_ifs
    · exact registered.addFunctionTool _ none
    · split
      next found =>
        obtain ⟨text, -, named⟩ := bind_eq_some_iff.mp found
        exact registered.addCustomTool (nonBlank_nonBlank named)
      · exact registered
    · exact registered.addToolSearchTool
    · exact registered.addNamespaceTool _
    · exact ⟨registered.specs, registered.flattened⟩
    · exact registered
  · exact registered

mutual

theorem Registered.collect {ctx : ToolContext} (registered : ctx.Registered) : (value : Json) →
    (ctx.collectToolSearchOutputTools value).Registered
  | .arr items => by
    exact Registered.collectItems registered items
  | .obj fields => by
    rw [collectToolSearchOutputTools]
    refine Registered.collectFields ?_ fields
    split_ifs
    · exact registered.foldl (fun tool registered => registered.addResponseTool tool) _
    · exact registered
  | .null => registered
  | .bool _ => registered
  | .num _ => registered
  | .str _ => registered

theorem Registered.collectItems {ctx : ToolContext} (registered : ctx.Registered) : (items : List Json) →
    (collectToolSearchOutputTools.collectItems ctx items).Registered
  | [] => registered
  | item :: rest => Registered.collectItems (Registered.collect registered item) rest

theorem Registered.collectFields {ctx : ToolContext} (registered : ctx.Registered) : (fields : Json.Fields) →
    (collectToolSearchOutputTools.collectFields ctx fields).Registered
  | [] => registered
  | (_, value) :: rest => Registered.collectFields (Registered.collect registered value) rest

end

theorem fromRequest_registered (req : Json) : (fromRequest req).Registered := by
  have declared := Registered.empty.foldl (fun tool registered => registered.addResponseTool tool)
    (((req.get "tools").bind Json.asArr).getD [])
  unfold fromRequest
  split
  · exact declared.collect _
  · exact declared

theorem chatNameFor_flatten (registered : ctx.Registered) {name ns : Str} (filled : ns.isEmpty = false) :
    ctx.chatNameFor name (some ns) = flattenNamespaceToolName ns name := by
  have kept : (some ns).filter (fun ns => !ns.isEmpty) = some ns := by simp [Option.filter, filled]
  rw [chatNameFor, kept]
  cases found : ctx.nsLookup (ns, name) with
  | none => simp only [found, getD_none]
  | some chatName => simp [found, registered.flattened found]

end ToolContext

end Registered

end LlmGateway
