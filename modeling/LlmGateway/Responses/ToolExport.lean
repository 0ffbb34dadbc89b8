import LlmGateway.Chat.ToolName
import LlmGateway.Lib.Table
import LlmGateway.Responses.ConvertRequest

namespace LlmGateway

open Json Text Option

def valueToString : Json → Str
  | .str text => text
  | .null => []
  | other => other.print

def customToolPreservedMetadataHeading : Str := "Original tool definition:".toList

def customToolInputDescription : Str :=
  ("Raw string input for the original custom tool. Preserve formatting exactly and follow the original tool " ++
    "definition embedded in the description.").toList

def chatTool (function : FunctionOut) : ToolCallOut := ⟨[], "function".toList, some function⟩

def ToolCallOut.name (tool : ToolCallOut) : Str := (tool.function.map FunctionOut.name).getD []

def objectSchema (properties : Fields) (required : String) : Json :=
  .obj [("properties", .obj properties), ("required", .arr [.str required.toList]), ("type", .str "object".toList)]

def describedProperty (type description : String) : Json :=
  .obj [("description", .str description.toList), ("type", .str type.toList)]

def webSearchTool (description : Option Json) : ToolCallOut :=
  chatTool {
    description := (description.map valueToString).getD "Web search tool".toList
    name := "web_search".toList
    parameters := some (objectSchema [("query", describedProperty "string" "Search query")] "query")
    strict := none
    arguments := [] }

def toolSearchTool : ToolCallOut :=
  chatTool {
    description := ("Search and load Codex tools, plugins, connectors, and MCP namespaces for the current " ++
      "task.").toList
    name := toolSearchProxyName
    parameters := some (objectSchema
      [("limit", describedProperty "integer" "Maximum number of tool groups to return."),
        ("query", describedProperty "string" "Search query for tools or connectors to load.")] "query")
    strict := none
    arguments := [] }

/-- The definition of a custom tool is kept in the description of the function. -/
def customToolToChat (name originalDesc : Str) (tool : Json) : ToolCallOut :=
  let preserved := customToolPreservedMetadataHeading ++ "\n```json\n".toList ++ canonicalJsonString tool ++
    "```".toList
  chatTool {
    description := if isBlank originalDesc then preserved else originalDesc ++ "\n\n".toList ++ preserved
    name
    parameters := some (objectSchema
      [("input", .obj [("description", .str customToolInputDescription), ("type", .str "string".toList)])] "input")
    strict := none
    arguments := [] }

def normalizeFunctionParameters (parameters : Option Json) : Json :=
  match parameters with
  | some (.obj fields) => .obj (insertField "type" (.str "object".toList) fields)
  | _ => .obj [("properties", .obj []), ("type", .str "object".toList)]

/-- An exported tool with the tool of the request it stands for. A hosted web search stands for none. -/
structure ExportedTool where
  declared : Option ToolSpec
  tool : ToolCallOut

def toolField (fields : Fields) (key : String) : Option Json :=
  match fields.lookup "function" with
  | some (.obj nested) => (nested.lookup key).or (fields.lookup key)
  | _ => fields.lookup key

def exportedType (fields : Fields) : Str := trim (((fields.lookup "type").bind asStr).getD [])

def functionToolName (fields : Fields) : Str :=
  trim (((toolField fields "name").map valueToString).getD [])

def customToolName (fields : Fields) : Str :=
  trim (((fields.lookup "name").map valueToString).getD [])

def exportedNamespace (fields : Fields) : Option (Str × List Json) :=
  match ((fields.lookup "name").bind asStr).bind nonBlank,
      ((fields.lookup "tools").or (fields.lookup "children")).bind asArr with
  | some ns, some children => some (ns, children)
  | _, _ => none

def asObject : Json → Option Fields
  | .obj fields => some fields
  | _ => none

theorem isEmpty_trim_of_nonBlank {text piece : Str} (found : nonBlank text = some piece) :
    (trim piece).isEmpty = false := by
  obtain ⟨rfl, filled⟩ := nonBlank_eq_some_iff.mp found
  rwa [trim_trim]

section

variable [ShortSha256]

def functionToolToChat (fields : Fields) (ns : Option Str) (ctx : ToolContext) : Option ExportedTool :=
  let name := functionToolName fields
  if name.isEmpty then none
  else some {
    declared := some ⟨if ns.isSome then .namespaced else .function, name, ns⟩
    tool := chatTool {
      description := ((toolField fields "description").map valueToString).getD []
      name := ctx.chatNameFor name ns
      parameters := some (normalizeFunctionParameters (toolField fields "parameters"))
      strict := toolField fields "strict"
      arguments := [] } }

/-- What one entry of the tools array is exported as. -/
def toolToChat (tool : Json) (ctx : ToolContext) : Except Str (List ExportedTool) :=
  match tool with
  | .str name =>
    let name := trim name
    .ok (if name.isEmpty then [] else [⟨some ⟨.custom, name, none⟩, customToolToChat name [] tool⟩])
  | .obj fields =>
    let toolType := exportedType fields
    .ok (
      if toolType = "web_search".toList then [⟨none, webSearchTool (fields.lookup "description")⟩]
      else if toolType = "tool_search".toList then
        [⟨some ⟨.toolSearch, toolSearchProxyName, none⟩, toolSearchTool⟩]
      else if toolType = "namespace".toList then
        match exportedNamespace fields with
        | some (ns, children) =>
          (children.filterMap asObject).filterMap fun child => functionToolToChat child (some ns) ctx
        | none => []
      else if toolType = "function".toList ∨ toolType = [] then (functionToolToChat fields none ctx).toList
      else if toolType = "custom".toList then
        let name := customToolName fields
        let originalDesc := ((fields.lookup "description").map valueToString).getD []
        if name.isEmpty then [] else [⟨some ⟨.custom, name, none⟩, customToolToChat name originalDesc tool⟩]
      else [])
  | _ => .error "invalid tools".toList

def requestToolsToChat (tools : Option Json) (ctx : ToolContext) : Except Str (List ExportedTool) :=
  match rawPresent tools with
  | none => .ok []
  | some (.arr entries) => (entries.mapM fun tool => toolToChat tool ctx).map List.flatten
  | some _ => .error "invalid tools".toList

def ToolSpec.fullName (spec : ToolSpec) : Str :=
  match spec.ns with
  | some ns => ns ++ "__".toList ++ spec.name
  | none => spec.name

def ToolSpec.isCut (spec : ToolSpec) : Bool := spec.ns.isSome && isLongName spec.fullName

def ToolSpec.chatName (spec : ToolSpec) : Str := if spec.isCut then cutName spec.fullName else spec.fullName

theorem ToolSpec.chatName_namespaced (kind : ToolKind) (name ns : Str) :
    ToolSpec.chatName ⟨kind, name, some ns⟩ = flattenNamespaceToolName ns name := by
  rw [flattenNamespaceToolName_eq]
  rfl

def childSpecs (ns : Str) (child : Json) : List ToolSpec :=
  if child.getStr "type" = some "function".toList then
    (responsesToolName child).toList.map fun name => ⟨.namespaced, name, some ns⟩
  else []

def namespaceSpecs (tool : Json) : List ToolSpec :=
  match tool.getStr "name", ((tool.get "tools").or (tool.get "children")).bind Json.asArr with
  | some ns, some children => children.flatMap (childSpecs ns)
  | _, _ => []

/-- The tools that the context reads out of one entry. -/
def toolSpecs (tool : Json) : List ToolSpec :=
  match tool with
  | .str name => (nonBlank name).toList.map fun name => ⟨.custom, name, none⟩
  | .obj _ =>
    let type := (tool.getStr "type").map String.ofList
    if type = some "function" then (responsesToolName tool).toList.map fun name => ⟨.function, name, none⟩
    else if type = some "custom" then (responsesToolName tool).toList.map fun name => ⟨.custom, name, none⟩
    else if type = some "tool_search" then [⟨.toolSearch, toolSearchProxyName, none⟩]
    else if type = some "namespace" then namespaceSpecs tool
    else []
  | _ => []

/-- The tools that results of a tool search carry, in the order they are met. -/
def loadedTools (value : Json) : List Json :=
  match value with
  | .arr items => loadedItems items
  | .obj fields =>
    (if ((fields.lookup "type").bind Json.asStr) = some "tool_search_output".toList then
        ((fields.lookup "tools").bind Json.asArr).getD []
      else []) ++ loadedFields fields
  | _ => []
where
  loadedItems : List Json → List Json
    | [] => []
    | item :: rest => loadedTools item ++ loadedItems rest
  loadedFields : Fields → List Json
    | [] => []
    | (_, value) :: rest => loadedTools value ++ loadedFields rest

def registrations (req : Json) : List ToolSpec :=
  ((((req.get "tools").bind Json.asArr).getD []) ++ ((req.get "input").map loadedTools).getD []).flatMap toolSpecs

def ToolContext.Adds (ctx more : ToolContext) (specs : List ToolSpec) : Prop :=
  ∀ name, more.lookup name = (ctx.lookup name).or (specs.find? (·.chatName = name))

namespace ToolContext.Adds

variable {ctx more most : ToolContext} {specs others : List ToolSpec} {spec : ToolSpec}

theorem refl (ctx : ToolContext) : ctx.Adds ctx [] := fun _ => (or_none).symm

theorem trans (first : ctx.Adds more specs) (second : more.Adds most others) : ctx.Adds most (specs ++ others) := by
  intro name
  rw [second name, first name, List.find?_append, Option.or_assoc]

theorem addChatTool (ctx : ToolContext) (spec : ToolSpec) (solid : (trim spec.chatName).isEmpty = false) :
    ctx.Adds (ctx.addChatTool spec.chatName spec) [spec] := by
  intro name
  unfold ToolContext.addChatTool
  rw [solid, Bool.false_or]
  split_ifs with known
  · by_cases same : spec.chatName = name
    · obtain ⟨held, found⟩ := isSome_iff_exists.mp known
      rw [← same]
      change ctx.specs spec.chatName = (ctx.specs spec.chatName).or _
      rw [found]
      rfl
    · simp [same]
  · change Function.update ctx.specs spec.chatName (some spec) name = (ctx.specs name).or _
    by_cases same : spec.chatName = name
    · subst same
      have absent : ctx.specs spec.chatName = none := by simpa using known
      simp [absent]
    · simp [Function.update_of_ne (Ne.symm same), same]

theorem foldl {α : Type} {add : ToolContext → α → ToolContext} {read : α → List ToolSpec}
    (step : ∀ ctx tool, Adds ctx (add ctx tool) (read tool)) (ctx : ToolContext) (tools : List α) :
    ctx.Adds (tools.foldl add ctx) (tools.flatMap read) := by
  induction tools generalizing ctx with
  | nil => exact refl ctx
  | cons tool tools ih => exact (step ctx tool).trans (ih (add ctx tool))

theorem addFunctionTool (ctx : ToolContext) (tool : Json) :
    ctx.Adds (ctx.addFunctionTool tool none)
      ((responsesToolName tool).toList.map fun name => ⟨.function, name, none⟩) := by
  unfold ToolContext.addFunctionTool
  cases found : responsesToolName tool with
  | none => exact refl ctx
  | some name =>
    obtain ⟨text, -, named⟩ := bind_eq_some_iff.mp found
    exact addChatTool ctx ⟨.function, name, none⟩ (isEmpty_trim_of_nonBlank named)

theorem addNamespaced (ctx : ToolContext) (ns : Str) (tool : Json) :
    ctx.Adds (ctx.addFunctionTool tool (some ns))
      ((responsesToolName tool).toList.map fun name => ⟨.namespaced, name, some ns⟩) := by
  unfold ToolContext.addFunctionTool
  cases responsesToolName tool with
  | none => exact refl ctx
  | some name =>
    dsimp only
    rw [← ToolSpec.chatName_namespaced .namespaced]
    refine addChatTool ctx ⟨.namespaced, name, some ns⟩ ?_
    rw [ToolSpec.chatName_namespaced, flattenNamespaceToolName_eq]
    exact isBlank_shortName (by simp)

theorem addCustomTool (ctx : ToolContext) {text name : Str} (named : nonBlank text = some name) :
    ctx.Adds (ctx.addCustomTool name) [⟨.custom, name, none⟩] :=
  addChatTool ctx ⟨.custom, name, none⟩ (isEmpty_trim_of_nonBlank named)

theorem addNamespaceTool (ctx : ToolContext) (tool : Json) :
    ctx.Adds (ctx.addNamespaceTool tool) (namespaceSpecs tool) := by
  unfold ToolContext.addNamespaceTool namespaceSpecs
  cases tool.getStr "name" with
  | none => exact refl ctx
  | some ns =>
    cases ((tool.get "tools").or (tool.get "children")).bind Json.asArr with
    | none => exact refl ctx
    | some children =>
      refine foldl (fun ctx child => ?_) ctx children
      unfold childSpecs
      split_ifs
      · exact addNamespaced ctx ns child
      · exact refl ctx

theorem addResponseTool (ctx : ToolContext) (tool : Json) :
    ctx.Adds (ctx.addResponseTool tool) (toolSpecs tool) := by
  unfold ToolContext.addResponseTool toolSpecs
  cases tool with
  | str text =>
    dsimp only
    cases named : nonBlank text with
    | none => exact refl ctx
    | some name => exact addCustomTool ctx named
  | obj fields =>
    dsimp only
    split_ifs
    · exact addFunctionTool ctx _
    · cases found : responsesToolName (.obj fields) with
      | none => exact refl ctx
      | some name =>
        obtain ⟨text, -, named⟩ := bind_eq_some_iff.mp found
        exact addCustomTool ctx named
    · have solid : (trim toolSearchProxyName).isEmpty = false := by decide
      exact addChatTool ctx ⟨.toolSearch, toolSearchProxyName, none⟩ solid
    · exact addNamespaceTool ctx _
    · exact refl ctx
    · exact refl ctx
  | null => exact refl ctx
  | bool _ => exact refl ctx
  | num _ => exact refl ctx
  | arr _ => exact refl ctx

theorem addTools (ctx : ToolContext) (tools : List Json) :
    ctx.Adds (tools.foldl ToolContext.addResponseTool ctx) (tools.flatMap toolSpecs) :=
  foldl addResponseTool ctx tools

mutual

theorem collect (ctx : ToolContext) : (value : Json) →
    ctx.Adds (ctx.collectToolSearchOutputTools value) ((loadedTools value).flatMap toolSpecs)
  | .arr items => by
    exact collectItems ctx items
  | .obj fields => by
    rw [collectToolSearchOutputTools, loadedTools, List.flatMap_append]
    refine trans ?_ (collectFields _ fields)
    split_ifs
    · exact addTools ctx _
    · exact refl ctx
  | .null => refl ctx
  | .bool _ => refl ctx
  | .num _ => refl ctx
  | .str _ => refl ctx

theorem collectItems (ctx : ToolContext) : (items : List Json) →
    ctx.Adds (collectToolSearchOutputTools.collectItems ctx items)
      ((loadedTools.loadedItems items).flatMap toolSpecs)
  | [] => refl ctx
  | item :: rest => by
    rw [collectToolSearchOutputTools.collectItems, loadedTools.loadedItems, List.flatMap_append]
    exact (collect ctx item).trans (collectItems _ rest)

theorem collectFields (ctx : ToolContext) : (fields : Fields) →
    ctx.Adds (collectToolSearchOutputTools.collectFields ctx fields)
      ((loadedTools.loadedFields fields).flatMap toolSpecs)
  | [] => refl ctx
  | (_, value) :: rest => by
    rw [collectToolSearchOutputTools.collectFields, loadedTools.loadedFields, List.flatMap_append]
    exact (collect ctx value).trans (collectFields _ rest)

end

end ToolContext.Adds

theorem lookup_fromRequest (req : Json) (name : Str) :
    (ToolContext.fromRequest req).lookup name = (registrations req).find? (·.chatName = name) := by
  have declared := ToolContext.Adds.addTools .empty (((req.get "tools").bind Json.asArr).getD [])
  have whole : ToolContext.Adds .empty (ToolContext.fromRequest req) (registrations req) := by
    unfold ToolContext.fromRequest registrations
    rw [List.flatMap_append]
    cases req.get "input" with
    | none =>
      rw [map_none, getD_none, List.flatMap_nil, List.append_nil]
      exact declared
    | some input => exact declared.trans (.collect _ input)
  exact (whole name).trans rfl

end

end LlmGateway
