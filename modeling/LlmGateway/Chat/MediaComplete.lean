import LlmGateway.Chat.MediaText

namespace LlmGateway

open Json Text List

section Lists

variable {α β : Type*} {items : List α} {left right : α → List β}

theorem flatMap_sublist (each : ∀ item ∈ items, (left item).Sublist (right item)) :
    (items.flatMap left).Sublist (items.flatMap right) := by
  induction items with
  | nil => exact .slnil
  | cons item rest ih =>
    obtain ⟨first, others⟩ := forall_mem_cons.mp each
    exact first.append (ih others)

def Gathers (left right : List β) (all : Bool) : Prop := left.Sublist right ∧ (left = right ↔ all)

theorem Gathers.refl (list : List β) : Gathers list list true := ⟨.refl _, iff_of_true rfl rfl⟩

theorem Gathers.nil (list : List β) : Gathers [] list list.isEmpty := by
  refine ⟨nil_sublist _, ?_⟩
  rw [List.isEmpty_iff]
  exact eq_comm

theorem Gathers.flatMap {all : α → Bool} (each : ∀ item ∈ items, Gathers (left item) (right item) (all item)) :
    Gathers (items.flatMap left) (items.flatMap right) (items.all all) := by
  induction items with
  | nil => exact .refl []
  | cons item rest ih =>
    obtain ⟨⟨first, here⟩, others⟩ := forall_mem_cons.mp each
    obtain ⟨later, there⟩ := ih others
    rw [flatMap_cons, flatMap_cons, all_cons]
    refine ⟨first.append later, ?_⟩
    rw [Bool.and_eq_true, ← here, ← there]
    constructor
    · intro same
      have length := congrArg List.length same
      rw [length_append, length_append] at length
      have short := first.length_le
      have rest := later.length_le
      exact ⟨first.eq_of_length (by omega), later.eq_of_length (by omega)⟩
    · rintro ⟨head, tail⟩
      rw [head, tail]

end Lists

section Positions

variable [FloatText] {levels : Nat} {value : Json}

def nestedWithin : Nat → Json → Bool
  | 0, _ => false
  | levels + 1, value =>
    match value with
    | .arr items => items.all (nestedWithin levels)
    | .obj fields => fields.all fun field => nestedWithin levels field.2
    | .str text => (embedded text).all (nestedWithin levels)
    | _ => true

def objectsIn : Nat → Json → List Json
  | 0, _ => []
  | levels + 1, value =>
    match value with
    | .arr items => items.flatMap (objectsIn levels)
    | .obj fields =>
      match chatMediaPart (.obj fields) with
      | some part => [part]
      | none => fields.flatMap fun field => objectsIn levels field.2
    | .str text => ((embedded text).map (objectsIn levels)).getD []
    | _ => []

def isContent (field : String × Json) : Bool :=
  match field with
  | (key, .arr _) => key = "content"
  | (key, .str _) => key = "content"
  | _ => false

/-- All objects that are media, and among them the data URLs that are taken for pictures on the way. -/
def mediaIn : Nat → Json → List Json
  | 0, _ => []
  | levels + 1, value =>
    match value with
    | .arr items => items.flatMap fun item => if isTextPart item then objectsIn levels item else mediaIn levels item
    | .obj fields =>
      match chatMediaPart (.obj fields) with
      | some part => [part]
      | none => fields.flatMap fun field =>
        if isContent field then mediaIn levels field.2 else objectsIn levels field.2
    | .str text =>
      match wholeStringImageDataUrlToPart text with
      | some part => [part]
      | none => ((embedded text).map (mediaIn levels)).getD []
    | _ => []

/-- No medium is inside a text part, or inside an object that is no medium other than in its content. -/
def searched : Nat → Json → Bool
  | 0, _ => true
  | levels + 1, value =>
    match value with
    | .arr items => items.all fun item =>
      (chatMediaPart item).isSome || if isTextPart item then (objectsIn levels item).isEmpty
        else searched levels item
    | .obj fields => (chatMediaPart (.obj fields)).isSome || fields.all fun field =>
      if isContent field then searched levels field.2 else (objectsIn levels field.2).isEmpty
    | .str text => (wholeStringImageDataUrlToPart text).isSome || (embedded text).all (searched levels)
    | _ => true

theorem objectsIn_sublist (levels : Nat) (value : Json) :
    (objectsIn levels value).Sublist (mediaIn levels value) := by
  induction levels generalizing value with
  | zero => exact .slnil
  | succ levels ih =>
    unfold objectsIn mediaIn
    cases value with
    | arr items =>
      refine flatMap_sublist fun item _ => ?_
      split_ifs
      · exact List.Sublist.refl _
      · exact ih item
    | obj fields =>
      dsimp only
      cases chatMediaPart (.obj fields) with
      | some part => exact List.Sublist.refl _
      | none =>
        refine flatMap_sublist fun field _ => ?_
        split_ifs
        · exact ih field.2
        · exact List.Sublist.refl _
    | str text =>
      dsimp only
      cases whole : wholeStringImageDataUrlToPart text with
      | some part =>
        rw [embedded_of_whole whole]
        exact nil_sublist _
      | none =>
        cases embedded text with
        | none => exact List.Sublist.refl _
        | some inside => exact ih inside
    | _ => exact .slnil

theorem objectsIn_of_media {part : Json} (media : chatMediaPart value = some part) :
    objectsIn (levels + 1) value = [part] := by
  cases value with
  | obj fields => rw [objectsIn, media]
  | _ => cases media

theorem mediaIn_of_media {part : Json} (media : chatMediaPart value = some part) :
    mediaIn (levels + 1) value = [part] := by
  cases value with
  | obj fields => rw [mediaIn, media]
  | _ => cases media

theorem objectsIn_obj {fields : Fields} (plain : chatMediaPart (.obj fields) = none) :
    objectsIn (levels + 1) (.obj fields) = fields.flatMap fun field => objectsIn levels field.2 := by
  rw [objectsIn, plain]

theorem objectsIn_str (text : Str) :
    objectsIn (levels + 1) (.str text) = ((embedded text).map (objectsIn levels)).getD [] := rfl

theorem nestedWithin_arr {items : List Json} (deep : nestedWithin (levels + 1) (.arr items)) :
    ∀ item ∈ items, nestedWithin levels item := all_eq_true.mp deep

theorem nestedWithin_obj {fields : Fields} (deep : nestedWithin (levels + 1) (.obj fields)) :
    ∀ field ∈ fields, nestedWithin levels field.2 := all_eq_true.mp deep

theorem nestedWithin_str {text : Str} {inside : Json} (deep : nestedWithin (levels + 1) (.str text))
    (read : embedded text = some inside) : nestedWithin levels inside := by
  have all : (embedded text).all (nestedWithin levels) := deep
  rw [read] at all
  exact all

def Clean (value : Json) : Prop := ∃ levels, nestedWithin levels value ∧ objectsIn levels value = []

end Positions

section Search

variable {fields : Fields}

theorem isContent_iff {field : String × Json} :
    isContent field ↔ field.1 = "content" ∧ wrappedContent [("content", field.2)] = some field.2 := by
  obtain ⟨key, value⟩ := field
  cases value <;> simp [isContent, wrappedContent]

theorem mem_of_wrappedContent {content : Json} (wrapped : wrappedContent fields = some content) :
    ("content", content) ∈ fields ∧ isContent ("content", content) := by
  unfold wrappedContent at wrapped
  split at wrapped
  · cases wrapped
    exact ⟨mem_of_lookup_eq_some (by assumption), rfl⟩
  · cases wrapped
    exact ⟨mem_of_lookup_eq_some (by assumption), rfl⟩
  · cases wrapped

/-- Keys do not repeat, so what is found in the content is what is found in the one field of that name. -/
theorem wrapped_flatMap {β : Type*} (find : Json → List β)
    (sorted : fields.Pairwise fun left right => left.1 < right.1) :
    ((wrappedContent fields).map find).getD [] =
      fields.flatMap fun field => if isContent field then find field.2 else [] := by
  induction fields with
  | nil => rfl
  | cons field rest ih =>
    obtain ⟨key, value⟩ := field
    obtain ⟨first, others⟩ := pairwise_cons.mp sorted
    rw [flatMap_cons]
    by_cases here : key = "content"
    · subst here
      have none : (rest.flatMap fun field => if isContent field then find field.2 else []) = [] := by
        refine flatMap_eq_nil_iff.mpr fun field mem => if_neg fun content => ?_
        have same := (isContent_iff.mp content).1
        have less := first field mem
        rw [same] at less
        exact lt_irrefl _ less
      rw [none, append_nil]
      cases value <;> rfl
    · have skip : wrappedContent ((key, value) :: rest) = wrappedContent rest := by
        have other : ("content" == key) = false := by simpa using Ne.symm here
        simp [wrappedContent, List.lookup, other]
      have plain : ¬isContent (key, value) := fun content => here (isContent_iff.mp content).1
      rw [skip, ih others, if_neg plain, nil_append]

variable [FloatText] {levels : Nat}

theorem embedded_fits {text : Str} {inside : Json} (read : embedded text = some inside) :
    inside.Fits maxDepth := by
  unfold embedded at read
  split at read
  next parsed =>
    cases read
    exact fits_of_parse parsed
  next parsed =>
    cases read
    exact fits_of_parse parsed
  · cases read

theorem moved_fields (plain : chatMediaPart (.obj fields) = none)
    (sorted : fields.Pairwise fun left right => left.1 < right.1) : moved (levels + 1) (.obj fields) =
      fields.flatMap fun field => if isContent field then moved levels field.2 else [] := by
  rw [moved_obj, plain, ← wrapped_flatMap (moved levels) sorted]
  cases wrappedContent fields <;> rfl

theorem elementOf_gathers {item : Json} (below : nestedWithin levels item)
    (inside : Gathers (moved levels item) (mediaIn levels item) (searched levels item)) :
    Gathers (elementOf levels item).2.media (if isTextPart item then objectsIn levels item else mediaIn levels item)
      ((chatMediaPart item).isSome ||
        if isTextPart item then (objectsIn levels item).isEmpty else searched levels item) := by
  cases levels with
  | zero => cases below
  | succ levels =>
    cases media : chatMediaPart item with
    | some part =>
      rw [objectsIn_of_media media, mediaIn_of_media media, ite_self, elementOf, media]
      exact .refl _
    | none =>
      by_cases part : isTextPart item
      · have empty : (elementOf (levels + 1) item).2.media = [] := by
          rw [elementOf_text media part]
          dsimp only
          split_ifs <;> rfl
        rw [if_pos part, if_pos part, empty]
        exact .nil _
      · rw [if_neg part, if_neg part, elementOf_inside media part]
        exact inside

theorem moved_mediaIn {value : Json} {depth : Nat} (fits : value.Fits depth) (deep : nestedWithin levels value) :
    Gathers (moved levels value) (mediaIn levels value) (searched levels value) := by
  induction levels generalizing value depth with
  | zero => cases deep
  | succ levels ih =>
    cases value with
    | str text =>
      rw [moved_str, mediaIn, searched]
      cases wholeStringImageDataUrlToPart text with
      | some part => exact .refl _
      | none =>
        cases read : embedded text with
        | none => exact .refl _
        | some inside => exact ih (embedded_fits read) (nestedWithin_str deep read)
    | arr items =>
      obtain ⟨inner, rfl, each⟩ := fits_arr_iff.mp fits
      rw [moved_arr, mediaIn, searched]
      refine .flatMap fun item mem => ?_
      have below := nestedWithin_arr deep item mem
      exact elementOf_gathers below (ih (each item mem) below)
    | obj fields =>
      cases media : chatMediaPart (.obj fields) with
      | some part =>
        rw [moved_obj, mediaIn, searched, media]
        exact .refl _
      | none =>
        obtain ⟨inner, rfl, each, sorted⟩ := fits_obj_iff.mp fits
        rw [moved_fields media sorted, mediaIn, searched, media, Option.isSome_none, Bool.false_or]
        refine .flatMap fun field mem => ?_
        split_ifs
        · exact ih (each field mem) (nestedWithin_obj deep field mem)
        · exact .nil _
    | _ =>
      exact .refl _

end Search

section Text

def Piece.source : Piece → Json
  | text content => .str content
  | value json => json

variable [FloatText] {levels : Nat} {value : Json}

theorem clean_of_text {item : Json} (deep : nestedWithin levels item) (none : objectsIn levels item = []) :
    Clean (.str ((item.getStr "text").getD [])) := by
  have blank : Clean (.str []) := ⟨1, rfl, rfl⟩
  cases found : item.getStr "text" with
  | none => exact blank
  | some text =>
    obtain ⟨held, here, same⟩ := Option.bind_eq_some_iff.mp found
    cases held with
    | str other =>
      cases same
      cases item with
      | obj fields =>
        have mem := mem_of_lookup_eq_some (show fields.lookup "text" = some (.str text) from here)
        cases levels with
        | zero => cases deep
        | succ levels =>
          refine ⟨levels, nestedWithin_obj deep _ mem, ?_⟩
          cases media : chatMediaPart (.obj fields) with
          | some part =>
            rw [objectsIn_of_media media] at none
            cases none
          | none =>
            rw [objectsIn_obj media] at none
            exact flatMap_eq_nil_iff.mp none _ mem
      | _ => cases here
    | _ => cases same

theorem clean_pieces (deep : nestedWithin levels value) (none : objectsIn levels value = []) :
    ∀ piece ∈ pieces levels value, Clean piece.source := by
  induction levels generalizing value with
  | zero => cases deep
  | succ levels ih =>
    intro piece mem
    cases value with
    | arr items =>
      obtain ⟨item, inside, held⟩ := mem_flatMap.mp (mem_filter.mp mem).1
      have below := nestedWithin_arr deep item inside
      have empty : objectsIn levels item = [] := by
        exact flatMap_eq_nil_iff.mp none item inside
      unfold piecesOf at held
      split_ifs at held
      · cases mem_singleton.mp held
        exact clean_of_text below empty
      · exact ih below empty piece held
    | null => cases mem
    | _ =>
      cases mem_singleton.mp mem
      exact ⟨levels + 1, deep, none⟩

theorem clean_plainTexts (deep : nestedWithin levels value) (found : searched levels value) :
    ∀ text ∈ plainTexts levels value, Clean (.str text) := by
  induction levels generalizing value with
  | zero => cases deep
  | succ levels ih =>
    intro text mem
    cases value with
    | str content =>
      rw [searched] at found
      unfold plainTexts at mem
      dsimp only at mem
      cases whole : wholeStringImageDataUrlToPart content with
      | some part =>
        rw [whole] at mem
        cases mem
      | none =>
        rw [whole, Option.isSome_none, Bool.false_or] at found
        cases read : embedded content with
        | none =>
          rw [whole, read] at mem
          cases mem_singleton.mp mem
          exact ⟨levels + 1, deep, by rw [objectsIn_str, read]; rfl⟩
        | some inside =>
          rw [whole, read] at mem
          rw [read] at found
          exact ih (nestedWithin_str deep read) found text mem
    | arr items =>
      rw [searched, all_eq_true] at found
      obtain ⟨item, inside, held⟩ := mem_flatMap.mp mem
      have below := nestedWithin_arr deep item inside
      have here := found item inside
      split_ifs at held with media part
      · cases held
      · rw [if_pos part, Bool.or_eq_true, List.isEmpty_iff] at here
        cases mem_singleton.mp (mem_filter.mp held).1
        exact clean_of_text below (here.resolve_left media)
      · rw [if_neg part, Bool.or_eq_true] at here
        exact ih below (here.resolve_left media) text held
    | obj fields =>
      rw [searched, Bool.or_eq_true, all_eq_true] at found
      rw [plainTexts] at mem
      split_ifs at mem with media
      · cases mem
      · obtain ⟨content, wrapped, held⟩ : ∃ content, wrappedContent fields = some content ∧
            text ∈ plainTexts levels content := by
          cases wrapped : wrappedContent fields with
          | none =>
            rw [wrapped] at mem
            cases mem
          | some content =>
            rw [wrapped] at mem
            exact ⟨content, rfl, mem⟩
        obtain ⟨inside, content_field⟩ := mem_of_wrappedContent wrapped
        have here := found.resolve_left media _ inside
        rw [if_pos content_field] at here
        exact ih (nestedWithin_obj deep _ inside) here text held
    | _ => cases mem

def assembledText (value : Json) (media : List Json) : Str :=
  if media.isEmpty then joinLines ((pieces (maxMediaDepth + 1) value).map Piece.render)
  else markedText (plainTexts (maxMediaDepth + 1) value)

def textSources (value : Json) (media : List Json) : List Json :=
  if media.isEmpty then (pieces (maxMediaDepth + 1) value).map Piece.source
  else (plainTexts (maxMediaDepth + 1) value).map .str

theorem media_eq (value : Json) : (splitToolOutput value).media = moved (maxMediaDepth + 1) value := by
  rw [splitToolOutput_eq]
  split_ifs with none
  · exact (List.isEmpty_iff.mp none).symm
  · rfl

theorem text_eq (value : Json) :
    (splitToolOutput value).text = assembledText value (splitToolOutput value).media := by
  rw [media_eq, splitToolOutput_eq, assembledText]
  split_ifs with none
  · exact textOf_eq _ _ (List.isEmpty_iff.mp none)
  · rw [kept_eq]

/-- All media are returned once each, in order, and none is left, exactly when all stand where they are looked for.
-/
theorem extraction_complete_iff {depth : Nat} (fits : value.Fits depth)
    (deep : nestedWithin (maxMediaDepth + 1) value) :
    ((splitToolOutput value).media = mediaIn (maxMediaDepth + 1) value ∧
      (splitToolOutput value).text = assembledText value (splitToolOutput value).media ∧
      ∀ source ∈ textSources value (splitToolOutput value).media, Clean source) ↔
    searched (maxMediaDepth + 1) value := by
  obtain ⟨-, exact⟩ := moved_mediaIn fits deep
  have text := text_eq value
  rw [media_eq] at text ⊢
  rw [exact]
  refine ⟨fun all => all.1, fun found => ⟨found, text, fun source member => ?_⟩⟩
  unfold textSources at member
  split_ifs at member with none
  · obtain ⟨piece, held, rfl⟩ := mem_map.mp member
    have empty : objectsIn (maxMediaDepth + 1) value = [] := by
      have all := objectsIn_sublist (maxMediaDepth + 1) value
      rw [← exact.mpr found, List.isEmpty_iff.mp none] at all
      exact sublist_nil.mp all
    exact clean_pieces deep empty piece held
  · obtain ⟨text, held, rfl⟩ := mem_map.mp member
    exact clean_plainTexts deep found text held

end Text

def nestedImage : Json := .obj [("result", smallImage)]

/-- A picture in an array is found. -/
theorem picture_found : let _ : FloatText := verbatim
    nestedWithin (maxMediaDepth + 1) (.arr [smallImage, helloPart]) ∧
    (splitToolOutput (.arr [smallImage, helloPart])).media =
      mediaIn (maxMediaDepth + 1) (.arr [smallImage, helloPart]) ∧
    (splitToolOutput (.arr [smallImage, helloPart])).text = assembledText (.arr [smallImage, helloPart])
      (splitToolOutput (.arr [smallImage, helloPart])).media ∧
    ∀ source ∈ textSources (.arr [smallImage, helloPart]) (splitToolOutput (.arr [smallImage, helloPart])).media,
      Clean source := by
  intro _
  have image : "data" < "type" := by decide
  have part : "text" < "type" := by decide
  have fits : (Json.arr [smallImage, helloPart]).Fits 2 :=
    ⟨⟨trivial, forall_mem_singleton.mpr image, trivial, forall_mem_nil _, trivial⟩,
      ⟨trivial, forall_mem_singleton.mpr part, trivial, forall_mem_nil _, trivial⟩, trivial⟩
  have deep : nestedWithin (maxMediaDepth + 1) (.arr [smallImage, helloPart]) := by decide +kernel
  exact ⟨deep, (extraction_complete_iff fits deep).mpr (by decide +kernel)⟩

/-- A picture in another field than the content stays in the text. -/
theorem nested_picture_missed : let _ : FloatText := verbatim
    nestedWithin (maxMediaDepth + 1) nestedImage ∧ (chatMediaPart smallImage).isSome ∧
    (mediaIn (maxMediaDepth + 1) nestedImage).length = 1 ∧ (splitToolOutput nestedImage).media.length = 0 ∧
    smallImage.print <:+: (splitToolOutput nestedImage).text := by
  intro _
  refine ⟨by decide +kernel, by decide +kernel, by decide +kernel, by decide +kernel, by decide +kernel⟩

end LlmGateway
