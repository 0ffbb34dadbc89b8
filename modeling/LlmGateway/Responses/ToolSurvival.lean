import LlmGateway.Lib.Fallible
import LlmGateway.Responses.ToolExport

namespace LlmGateway

open Json Text List ToolSpec ToolContext ShortSha256 ExportedTool

def functionSpec (ns : Option Str) (fields : Fields) : Option ToolSpec :=
  let name := functionToolName fields
  if name.isEmpty then none else some ⟨if ns.isSome then .namespaced else .function, name, ns⟩

/-- The tools that one entry of the tools array is exported for. -/
def exportSpecs (tool : Json) : List ToolSpec :=
  match tool with
  | .str name => if (trim name).isEmpty then [] else [⟨.custom, trim name, none⟩]
  | .obj fields =>
    let toolType := exportedType fields
    if toolType = "web_search".toList then []
    else if toolType = "tool_search".toList then [⟨.toolSearch, toolSearchProxyName, none⟩]
    else if toolType = "namespace".toList then
      match exportedNamespace fields with
      | some (ns, children) => (children.filterMap asObject).filterMap (functionSpec (some ns))
      | none => []
    else if toolType = "function".toList ∨ toolType = [] then (functionSpec none fields).toList
    else if toolType = "custom".toList then
      if (customToolName fields).isEmpty then [] else [⟨.custom, customToolName fields, none⟩]
    else []
  | _ => []

def isTextual : Option Json → Bool
  | none | some .null | some (.str _) => true
  | _ => false

def childWrittenPlainly : Json → Bool
  | .obj fields =>
    if (fields.lookup "type").bind asStr = some "function".toList then isTextual (toolField fields "name")
    else (functionToolName fields).isEmpty
  | _ => true

def namespaceWrittenPlainly (fields : Fields) : Bool :=
  match (fields.lookup "name").bind asStr, ((fields.lookup "tools").or (fields.lookup "children")).bind asArr with
  | some ns, some children => !ns.isEmpty && decide (trim ns = ns) && children.all childWrittenPlainly
  | _, _ => true

/-- The entry has its exact type, a string as its name, at its top only if it is a custom tool, a namespace without
blanks around it and functions as its children. -/
def writtenPlainly : Json → Bool
  | .obj fields =>
    let type := ((fields.lookup "type").bind asStr).getD []
    if type = "function".toList then isTextual (toolField fields "name")
    else if type = "custom".toList then
      isTextual (toolField fields "name") && decide (functionToolName fields = customToolName fields)
    else if type = "namespace".toList then namespaceWrittenPlainly fields
    else if (trim type).isEmpty then (functionToolName fields).isEmpty
    else type = "tool_search".toList ||
      decide (trim type ∉ ["function", "custom", "namespace", "tool_search"].map String.toList)
  | _ => true

theorem responsesToolName_eq {fields : Fields} (textual : isTextual (toolField fields "name")) :
    responsesToolName (.obj fields) = nonBlank (functionToolName fields) := by
  have field : (((Json.obj fields).get "function").bind (Json.get · "name")).or ((Json.obj fields).get "name") =
      toolField fields "name" := by
    unfold toolField
    change ((fields.lookup "function").bind (Json.get · "name")).or (fields.lookup "name") = _
    cases fields.lookup "function" with
    | none => rfl
    | some held => cases held <;> rfl
  rw [responsesToolName, field, functionToolName]
  cases held : toolField fields "name" with
  | none => rfl
  | some name =>
    rw [held] at textual
    cases name with
    | str text =>
      simp only [Option.bind_some, asStr, Option.map_some, Option.getD_some, valueToString, nonBlank, trim_trim]
    | null => rfl
    | _ => cases textual

theorem functionSpec_eq (ns : Option Str) (fields : Fields) : functionSpec ns fields =
    (nonBlank (functionToolName fields)).map fun name =>
      ⟨if ns.isSome then .namespaced else .function, name, ns⟩ := by
  have trimmed : trim (functionToolName fields) = functionToolName fields := trim_trim
  rw [functionSpec, nonBlank, trimmed]
  split_ifs <;> rfl

theorem childSpecs_eq {ns : Str} {child : Json} (plain : childWrittenPlainly child) :
    childSpecs ns child = ((asObject child).bind (functionSpec (some ns))).toList := by
  unfold childSpecs
  cases child with
  | obj fields =>
    unfold childWrittenPlainly at plain
    dsimp only at plain
    by_cases typed : (fields.lookup "type").bind asStr = some "function".toList
    · rw [if_pos typed] at plain
      rw [if_pos (show (Json.obj fields).getStr "type" = _ from typed), responsesToolName_eq plain, asObject,
        Option.bind_some, functionSpec_eq, Option.toList_map]
      rfl
    · rw [if_neg typed] at plain
      rw [if_neg (show ¬(Json.obj fields).getStr "type" = _ from typed), asObject, Option.bind_some, functionSpec,
        if_pos plain]
      rfl
  | _ => rfl

section Entry

variable {fields : Fields} {type : Str}

theorem exportSpecs_function (is : exportedType fields = "function".toList ∨ exportedType fields = []) :
    exportSpecs (.obj fields) = (functionSpec none fields).toList := by
  unfold exportSpecs
  rcases is with is | is <;>
  · simp only [is]
    rfl

theorem exportSpecs_other (other : exportedType fields ∉ ["", "function", "custom", "namespace", "tool_search"].map
    String.toList) : exportSpecs (.obj fields) = [] := by
  simp only [map_cons, map_nil, mem_cons, not_mem_nil, or_false, not_or] at other
  obtain ⟨filled, function, custom, named, search⟩ := other
  unfold exportSpecs
  dsimp only
  rw [if_neg search, if_neg named, if_neg (show ¬(_ ∨ exportedType fields = []) from not_or.mpr ⟨function, filled⟩),
    if_neg custom]
  exact ite_self []

theorem toolSpecs_typed (given : (fields.lookup "type").bind asStr = some type) : toolSpecs (.obj fields) =
    if type = "function".toList then (responsesToolName (.obj fields)).toList.map fun name =>
      ⟨.function, name, none⟩
    else if type = "custom".toList then (responsesToolName (.obj fields)).toList.map fun name =>
      ⟨.custom, name, none⟩
    else if type = "tool_search".toList then [⟨.toolSearch, toolSearchProxyName, none⟩]
    else if type = "namespace".toList then namespaceSpecs (.obj fields)
    else [] := by
  have read : (Json.obj fields).getStr "type" = some type := given
  have is (name : String) : Option.map String.ofList (some type) = some name ↔ type = name.toList := by
    rw [Option.map_some, Option.some_inj, ← String.toList_inj, String.toList_ofList]
  unfold toolSpecs
  simp only [read, is]

theorem exportSpecs_namespace (is : exportedType fields = "namespace".toList) : exportSpecs (.obj fields) =
    match exportedNamespace fields with
    | some (ns, children) => children.flatMap fun child => ((asObject child).bind (functionSpec (some ns))).toList
    | none => [] := by
  unfold exportSpecs
  simp only [is]
  change (match exportedNamespace fields with
    | some (ns, children) => (children.filterMap asObject).filterMap (functionSpec (some ns))
    | none => []) = _
  cases exportedNamespace fields with
  | none => rfl
  | some found =>
    dsimp only
    rw [filterMap_filterMap, filterMap_eq_flatMap_toList]

theorem namespaceSpecs_plain (plain : namespaceWrittenPlainly fields) : namespaceSpecs (.obj fields) =
    match exportedNamespace fields with
    | some (ns, children) => children.flatMap fun child => ((asObject child).bind (functionSpec (some ns))).toList
    | none => [] := by
  change (match (fields.lookup "name").bind asStr,
    ((fields.lookup "tools").or (fields.lookup "children")).bind asArr with
    | some ns, some children => children.flatMap (childSpecs ns)
    | _, _ => []) = _
  unfold exportedNamespace
  unfold namespaceWrittenPlainly at plain
  generalize (fields.lookup "name").bind asStr = name at plain ⊢
  generalize ((fields.lookup "tools").or (fields.lookup "children")).bind asArr = held at plain ⊢
  cases name with
  | none => rfl
  | some ns =>
    cases held with
    | none =>
      rw [Option.bind_some]
      cases nonBlank ns <;> rfl
    | some children =>
      simp only [Bool.and_eq_true, Bool.not_eq_true', decide_eq_true_eq, all_eq_true] at plain
      have solid : nonBlank ns = some ns := nonBlank_eq_some_iff.mpr ⟨plain.1.2, plain.1.1⟩
      rw [Option.bind_some, solid]
      exact flatMap_congr fun child mem => childSpecs_eq (plain.2 child mem)

end Entry

/-- Both traversals read the same tools out of an entry that is written plainly. -/
theorem exportSpecs_eq {tool : Json} (plain : writtenPlainly tool) : exportSpecs tool = toolSpecs tool := by
  cases tool with
  | str name =>
    unfold exportSpecs toolSpecs nonBlank
    dsimp only
    split_ifs <;> rfl
  | obj fields =>
    unfold writtenPlainly at plain
    dsimp only at plain
    cases given : (fields.lookup "type").bind asStr with
    | none =>
      rw [given] at plain
      have unnamed : (functionToolName fields).isEmpty := plain
      have read : (Json.obj fields).getStr "type" = none := given
      rw [exportSpecs_function (.inr (by rw [exportedType, given]; rfl)), functionSpec, if_pos unnamed,
        toolSpecs, read]
      rfl
    | some type =>
      rw [toolSpecs_typed given]
      have trimmed : exportedType fields = trim type := by rw [exportedType, given]; rfl
      rw [given, Option.getD_some] at plain
      split_ifs at plain with function custom named blank
      · subst function
        rw [if_pos rfl, exportSpecs_function (.inl trimmed), responsesToolName_eq plain, functionSpec_eq,
          Option.toList_map]
        rfl
      · subst custom
        rw [Bool.and_eq_true, decide_eq_true_eq] at plain
        have same : trim (customToolName fields) = customToolName fields := trim_trim
        rw [if_neg function, if_pos rfl, responsesToolName_eq plain.1, plain.2, nonBlank, same]
        unfold exportSpecs
        simp only [trimmed]
        change (if (customToolName fields).isEmpty then [] else _) = _
        split_ifs <;> rfl
      · subst named
        rw [exportSpecs_namespace trimmed, if_neg function, if_neg custom, if_neg (by decide), if_pos rfl,
          namespaceSpecs_plain plain]
      · have other : type ≠ "tool_search".toList := by
          rintro rfl
          cases blank
        rw [exportSpecs_function (.inr (trimmed.trans (isEmpty_iff.mp blank))), functionSpec, if_pos plain,
          if_neg function, if_neg custom, if_neg other, if_neg named]
        rfl
      · rw [if_neg function, if_neg custom]
        rcases Bool.or_eq_true_iff.mp plain with search | other
        · rw [of_decide_eq_true search] at trimmed ⊢
          unfold exportSpecs
          simp only [trimmed]
          rfl
        · have other := of_decide_eq_true other
          have search : type ≠ "tool_search".toList := by
            rintro rfl
            exact other (by decide)
          rw [if_neg search, if_neg named]
          refine exportSpecs_other ?_
          rw [trimmed, map_cons, mem_cons, not_or]
          exact ⟨fun empty => blank (isEmpty_iff.mpr empty), other⟩
  | _ => rfl

def toolEntries (req : Json) : List Json := ((req.get "tools").bind asArr).getD []

def declaredTools (req : Json) : List ToolSpec := (toolEntries req).flatMap exportSpecs

/-- The tools that the results of a tool search declare. -/
def searchedTools (req : Json) : List ToolSpec := (((req.get "input").map loadedTools).getD []).flatMap toolSpecs

theorem exportedNamespace_filled {fields : Fields} {pair : Str × List Json}
    (found : exportedNamespace fields = some pair) : some pair.1 ≠ some [] := by
  unfold exportedNamespace at found
  split at found
  next ns children named held =>
    cases found
    obtain ⟨text, -, solid⟩ := Option.bind_eq_some_iff.mp named
    have := nonBlank_ne_nil solid
    intro empty
    cases empty
    cases this
  · cases found

theorem mem_declared_iff {out : List ExportedTool} {s : ToolSpec} {tools : List ToolSpec}
    (same : out.filterMap declared = tools) :
    s ∈ tools ↔ ∃ e ∈ out, e.declared = some s := by
  rw [← same, mem_filterMap]

section

variable [ShortSha256] {ctx : ToolContext} {req : Json} {out : List ExportedTool}

/-- An exported tool has the name of the tool it stands for. -/
structure ExportedTool.Sound (e : ExportedTool) : Prop where
  name : ∀ s, e.declared = some s → e.tool.name = s.chatName
  ns : ∀ s, e.declared = some s → s.ns ≠ some []

theorem functionToolToChat_declared (fields : Fields) (ns : Option Str) (ctx : ToolContext) :
    (functionToolToChat fields ns ctx).bind declared = functionSpec ns fields := by
  unfold functionToolToChat functionSpec
  dsimp only
  split_ifs <;> rfl

theorem functionToolToChat_sound (registered : ctx.Registered) {fields : Fields}
    {ns : Option Str} (filled : ns ≠ some []) {e : ExportedTool}
    (exported : functionToolToChat fields ns ctx = some e) : e.Sound := by
  unfold functionToolToChat at exported
  by_cases empty : (functionToolName fields).isEmpty
  · rw [if_pos empty] at exported
    cases exported
  rw [if_neg empty] at exported
  cases exported
  refine ⟨?_, ?_⟩
  · rintro _ ⟨⟩
    cases ns with
    | none => rfl
    | some ns =>
      have solid : ns.isEmpty = false := by cases ns <;> simp_all
      rw [chatName_namespaced]
      exact chatNameFor_flatten registered solid
  · rintro _ ⟨⟩
    exact filled

theorem toolToChat_declared {tool : Json} (exported : toolToChat tool ctx = .ok out) :
    out.filterMap declared = exportSpecs tool := by
  unfold exportSpecs
  cases tool with
  | str name =>
    cases exported
    dsimp only
    split_ifs <;> rfl
  | obj fields =>
    cases exported
    dsimp only
    split_ifs
    · rfl
    · rfl
    · cases exportedNamespace fields with
      | none => rfl
      | some found =>
        obtain ⟨ns, children⟩ := found
        rw [filterMap_filterMap]
        exact congrArg (List.filterMap · _) (funext fun child => functionToolToChat_declared child (some ns) ctx)
    · rw [← functionToolToChat_declared fields none ctx]
      cases functionToolToChat fields none ctx with
      | none => rfl
      | some e => cases declared : e.declared <;> simp [declared]
    · rfl
    · rfl
    · rfl
  | null => cases exported
  | bool _ => cases exported
  | num _ => cases exported
  | arr _ => cases exported

theorem sound_plain {kind : ToolKind} {name : Str} {tool : ToolCallOut} (named : tool.name = name) :
    ExportedTool.Sound ⟨some ⟨kind, name, none⟩, tool⟩ := by
  refine ⟨?_, ?_⟩
  · rintro _ ⟨⟩
    exact named
  · rintro _ ⟨⟩ impossible
    cases impossible

theorem toolToChat_sound (registered : ctx.Registered) {tool : Json} (exported : toolToChat tool ctx = .ok out) :
    ∀ e ∈ out, e.Sound := by
  cases tool with
  | str name =>
    cases exported
    intro e mem
    split_ifs at mem
    · cases mem
    · rw [mem_singleton.mp mem]
      exact sound_plain rfl
  | obj fields =>
    cases exported
    intro e mem
    dsimp only at mem
    split_ifs at mem
    · rw [mem_singleton.mp mem]
      exact ⟨fun _ impossible => (by cases impossible), fun _ impossible => (by cases impossible)⟩
    · rw [mem_singleton.mp mem]
      exact sound_plain rfl
    · cases found : exportedNamespace fields with
      | none =>
        rw [found] at mem
        cases mem
      | some pair =>
        rw [found] at mem
        obtain ⟨child, -, exported⟩ := mem_filterMap.mp mem
        exact functionToolToChat_sound registered (exportedNamespace_filled found) exported
    · exact functionToolToChat_sound registered (by simp) (Option.mem_toList.mp mem)
    · cases mem
    · rw [mem_singleton.mp mem]
      exact sound_plain rfl
    · cases mem
  | null => cases exported
  | bool _ => cases exported
  | num _ => cases exported
  | arr _ => cases exported

theorem requestToolsToChat_entries (exported : requestToolsToChat (req.get "tools") ctx = .ok out) :
    ∃ results, out = results.flatten ∧
      List.Forall₂ (fun tool result => toolToChat tool ctx = .ok result) (toolEntries req)
        results := by
  unfold toolEntries
  cases held : req.get "tools" with
  | none =>
    rw [held] at exported
    cases exported
    exact ⟨[], rfl, .nil⟩
  | some tools =>
    rw [held] at exported
    cases tools with
    | arr entries =>
      change Except.map List.flatten (entries.mapM fun tool => toolToChat tool ctx) = .ok out at exported
      obtain ⟨results, done, rfl⟩ := Fallible.map_eq_ok.mp exported
      exact ⟨results, rfl, Fallible.mapM_ok done⟩
    | null =>
      cases exported
      exact ⟨[], rfl, .nil⟩
    | bool _ => cases exported
    | num _ => cases exported
    | str _ => cases exported
    | obj _ => cases exported

theorem requestToolsToChat_declared (exported : requestToolsToChat (req.get "tools") ctx = .ok out) :
    out.filterMap declared = declaredTools req := by
  obtain ⟨results, rfl, each⟩ := requestToolsToChat_entries exported
  unfold declaredTools
  generalize toolEntries req = entries at each
  clear exported
  induction each with
  | nil => rfl
  | cons first rest ih =>
    rw [flatten_cons, filterMap_append, flatMap_cons, toolToChat_declared first, ih]

theorem requestToolsToChat_sound (registered : ctx.Registered)
    (exported : requestToolsToChat (req.get "tools") ctx = .ok out) : ∀ e ∈ out, e.Sound := by
  obtain ⟨results, rfl, each⟩ := requestToolsToChat_entries exported
  generalize toolEntries req = entries at each
  clear exported
  induction each with
  | nil =>
    intro e mem
    cases mem
  | cons first rest ih =>
    intro e mem
    rcases mem_append.mp (flatten_cons ▸ mem) with here | later
    · exact toolToChat_sound registered first e here
    · exact ih e later

end

/-- The tools of a request come back from a call as they were declared. -/
structure ToolsSurvive [ShortSha256] (ctx : ToolContext) (out : List ExportedTool) : Prop where
  distinct : ((out.filter fun e => e.declared.isSome).map fun e => e.tool.name).Nodup
  short : ∀ e ∈ out, ∀ s, e.declared = some s → s.ns.isSome → utf8Len e.tool.name ≤ chatToolNameMaxLen
  found : ∀ e ∈ out, ∀ s, e.declared = some s → ctx.lookup e.tool.name = some s
  exported : ∀ name s, ctx.lookup name = some s → ∃ e ∈ out, e.declared.isSome ∧ e.tool.name = name
  back : ∀ name s, ctx.lookup name = some s → ctx.chatNameFor s.name s.ns = name

/-- The names of two tools differ, also where one of them or both are cut. -/
structure ToolSpec.Apart [ShortSha256] (s t : ToolSpec) : Prop where
  full : s.isCut = t.isCut → s.fullName ≠ t.fullName
  left : s.isCut → t.isCut = false → cutName s.fullName ≠ t.fullName
  right : s.isCut = false → t.isCut → s.fullName ≠ cutName t.fullName

/-- What a search has loaded is among the tools, and no two of them have one name. -/
structure ToolsNamed [ShortSha256] (req : Json) : Prop where
  loaded : ∀ s ∈ searchedTools req, ∃ t ∈ declaredTools req, t.chatName = s.chatName
  apart : ∀ s ∈ declaredTools req, ∀ t ∈ declaredTools req, s ≠ t → s.Apart t

def DigestsApart [ShortSha256] (req : Json) : Prop :=
  ∀ s ∈ declaredTools req, ∀ t ∈ declaredTools req, s.isCut → t.isCut →
    hex s.fullName = hex t.fullName → s.fullName = t.fullName

section

variable [ShortSha256] {req : Json} {out : List ExportedTool} {s t : ToolSpec}

theorem ToolSpec.chatName_ne_iff (hexadecimal : ShortSha256.Hexadecimal)
    (digests : s.isCut → t.isCut → hex s.fullName = hex t.fullName →
      s.fullName = t.fullName) : s.chatName ≠ t.chatName ↔ s.Apart t := by
  unfold chatName
  constructor
  · intro names
    refine ⟨fun cut full => ?_, fun cutS cutT full => ?_, fun cutS cutT full => ?_⟩
    · rw [cut, full] at names
      exact names rfl
    · rw [if_pos cutS, if_neg (by simp [cutT])] at names
      exact names full
    · rw [if_neg (by simp [cutS]), if_pos cutT] at names
      exact names full
  · intro apart names
    by_cases cutS : s.isCut = true <;> by_cases cutT : t.isCut
    · rw [if_pos cutS, if_pos cutT] at names
      exact apart.full (cutS.trans cutT.symm) (digests cutS cutT (hex_eq_of_cutName hexadecimal names))
    · rw [if_pos cutS, if_neg cutT] at names
      exact apart.left cutS (Bool.eq_false_iff.mpr cutT) names
    · rw [if_neg cutS, if_pos cutT] at names
      exact apart.right (Bool.eq_false_iff.mpr cutS) cutT names
    · rw [if_neg cutS, if_neg cutT] at names
      exact apart.full ((Bool.eq_false_iff.mpr cutS).trans (Bool.eq_false_iff.mpr cutT).symm) names

theorem ToolSpec.utf8Len_chatName (hexadecimal : ShortSha256.Hexadecimal) (ns : s.ns.isSome) :
    utf8Len s.chatName ≤ chatToolNameMaxLen := by
  have short := utf8Len_shortName hexadecimal s.fullName
  rwa [chatName, isCut, ns, Bool.true_and, ← shortName]

theorem exportedNames_eq (sound : ∀ e ∈ out, e.Sound) :
    ((out.filter fun e => e.declared.isSome).map fun e => e.tool.name) =
      (out.filterMap declared).map chatName := by
  induction out with
  | nil => rfl
  | cons e out ih =>
    have rest := ih fun e mem => sound e (mem_cons_of_mem _ mem)
    cases declared : e.declared with
    | none => simpa [declared] using rest
    | some s => simpa [declared, (sound e mem_cons_self).name s declared] using rest

theorem chatNameFor_eq {ctx : ToolContext} (registered : ctx.Registered) (filled : s.ns ≠ some []) :
    ctx.chatNameFor s.name s.ns = s.chatName := by
  obtain ⟨kind, name, ns⟩ := s
  cases ns with
  | none => rfl
  | some ns =>
    have solid : ns.isEmpty = false := by cases ns <;> simp_all
    rw [chatName_namespaced]
    exact chatNameFor_flatten registered solid

end

def functionEntry (name : String) : Json := .obj [("name", .str name.toList), ("type", .str "function".toList)]

def namespaceEntry (name : String) (children : List Json) : Json :=
  .obj [("name", .str name.toList), ("tools", .arr children), ("type", .str "namespace".toList)]

def toolSearchEntry : Json := .obj [("type", .str "tool_search".toList)]

def toolRequest (tools loaded : List Json) : Json :=
  .obj [("input", .arr [.obj [("tools", .arr loaded), ("type", .str "tool_search_output".toList)]]),
    ("tools", .arr tools)]

end LlmGateway
