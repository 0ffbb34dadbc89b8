import LlmGateway.Chat.ToolMedia

namespace LlmGateway

open Json Text Stripped

def embedded [FloatText] (text : Str) : Option Json :=
  match parse (trim text) with
  | some (.obj fields) => some (.obj fields)
  | some (.arr items) => some (.arr items)
  | _ => none

def wrappedContent (fields : Fields) : Option Json :=
  match fields.lookup "content" with
  | some (.arr items) => some (.arr items)
  | some (.str text) => some (.str text)
  | _ => none

variable [FloatText] {levels : Nat} {value : Json} {found : Stripped} {text : Str}

section Walk

def moved (levels : Nat) (value : Json) : List Json := (stripAtDepth levels value ⟨[], []⟩).2.media

def kept (levels : Nat) (value : Json) : List Str := (stripAtDepth levels value ⟨[], []⟩).2.texts

def textOf (levels : Nat) (value : Json) : Str := (stripAtDepth levels value ⟨[], []⟩).1

def elementOf (levels : Nat) (item : Json) : List Str × Stripped :=
  match chatMediaPart item with
  | some part => ([], ⟨[part], []⟩)
  | none =>
    if isTextPart item then
      let text := (item.getStr "text").getD []
      if (trim text).isEmpty then ([], ⟨[], []⟩) else ([text], ⟨[], [text]⟩)
    else ([textOf levels item], ⟨moved levels item, kept levels item⟩)

def Stripped.add (found more : Stripped) : Stripped := ⟨found.media ++ more.media, found.texts ++ more.texts⟩

def stripElement (levels : Nat) (parts : List Str × Stripped) (item : Json) : List Str × Stripped :=
  match chatMediaPart item with
  | some part => (parts.1, parts.2.withMedia part)
  | none =>
    if isTextPart item then
      let text := (item.getStr "text").getD []
      if (trim text).isEmpty then parts else (parts.1 ++ [text], parts.2.withText text)
    else
      let inner := stripAtDepth levels item parts.2
      (parts.1 ++ [inner.1], inner.2)

theorem strip_arr (items : List Json) (found : Stripped) : stripAtDepth (levels + 1) (.arr items) found =
    (joinLines ((items.foldl (stripElement levels) ([], found)).1.filter fun part => !(trim part).isEmpty),
      (items.foldl (stripElement levels) ([], found)).2) := by
  rfl

theorem strip_str (text : Str) (found : Stripped) : stripAtDepth (levels + 1) (.str text) found =
    match wholeStringImageDataUrlToPart text with
    | some part => ([], found.withMedia part)
    | none =>
      match embedded text with
      | some inside =>
        let inner := stripAtDepth levels inside found
        if found.media.length < inner.2.media.length then inner else (text, inner.2)
      | none => (text, found.withText text) := by
  rw [stripAtDepth, embedded]
  cases wholeStringImageDataUrlToPart text with
  | some part => rfl
  | none =>
    cases parse (trim text) with
    | none => rfl
    | some inside => cases inside <;> rfl

theorem strip_obj (fields : Fields) (found : Stripped) : stripAtDepth (levels + 1) (.obj fields) found =
    match chatMediaPart (.obj fields) with
    | some part => ([], found.withMedia part)
    | none =>
      match wrappedContent fields with
      | some content =>
        let inner := stripAtDepth levels content found
        if found.media.length < inner.2.media.length then inner else (canonicalJsonString (.obj fields), inner.2)
      | none => (canonicalJsonString (.obj fields), found) := by
  rw [stripAtDepth, wrappedContent]
  cases chatMediaPart (.obj fields) with
  | some part => rfl
  | none =>
    cases fields.lookup "content" with
    | none => rfl
    | some content => cases content <;> rfl

variable {item : Json}

theorem elementOf_text (plain : chatMediaPart item = none) (part : isTextPart item) : elementOf levels item =
    let text := (item.getStr "text").getD []
    if (trim text).isEmpty then ([], ⟨[], []⟩) else ([text], ⟨[], [text]⟩) := by
  rw [elementOf, plain]
  exact if_pos part

theorem elementOf_inside (plain : chatMediaPart item = none) (part : ¬isTextPart item) :
    elementOf levels item = ([textOf levels item], ⟨moved levels item, kept levels item⟩) := by
  rw [elementOf, plain]
  exact if_neg part

theorem foldl_stripElement (additive : ∀ item found, stripAtDepth levels item found =
      (textOf levels item, found.add ⟨moved levels item, kept levels item⟩)) (items : List Json)
    (parts : List Str) (found : Stripped) : items.foldl (stripElement levels) (parts, found) =
      (parts ++ items.flatMap fun item => (elementOf levels item).1,
        found.add ⟨items.flatMap fun item => (elementOf levels item).2.media,
          items.flatMap fun item => (elementOf levels item).2.texts⟩) := by
  induction items generalizing parts found with
  | nil => simp [add]
  | cons item rest ih =>
    have step : stripElement levels (parts, found) item =
        (parts ++ (elementOf levels item).1, found.add (elementOf levels item).2) := by
      unfold stripElement elementOf
      cases chatMediaPart item with
      | some part => simp [add, withMedia]
      | none =>
        dsimp only
        split_ifs
        · simp [add]
        · simp [add, withText]
        · rw [additive]
    rw [List.foldl_cons, step, ih]
    simp [add]

theorem strip_eq (levels : Nat) (value : Json) (found : Stripped) : stripAtDepth levels value found =
    (textOf levels value, found.add ⟨moved levels value, kept levels value⟩) := by
  induction levels generalizing value found with
  | zero => simp [textOf, moved, kept, stripAtDepth, add]
  | succ levels ih =>
    unfold textOf moved kept
    cases value with
    | str text =>
      simp only [strip_str]
      cases wholeStringImageDataUrlToPart text with
      | some part => simp [withMedia, add]
      | none =>
        cases embedded text with
        | none => simp [withText, add]
        | some inside =>
          simp only [ih inside, add, List.length_append, List.nil_append, List.length_nil,
            Nat.lt_add_right_iff_pos]
          split_ifs <;> rfl
    | arr items =>
      simp only [strip_arr, foldl_stripElement ih]
      simp [add]
    | obj fields =>
      simp only [strip_obj]
      cases chatMediaPart (.obj fields) with
      | some part => simp [withMedia, add]
      | none =>
        cases wrappedContent fields with
        | none => simp [add]
        | some content =>
          simp only [ih content, add, List.length_append, List.nil_append, List.length_nil,
            Nat.lt_add_right_iff_pos]
          split_ifs <;> rfl
    | _ => simp [stripAtDepth, add]

end Walk

section Equations

variable (items : List Json)

@[simp] theorem moved_zero : moved 0 value = [] := by simp [moved, stripAtDepth]

@[simp] theorem kept_zero : kept 0 value = [] := by simp [kept, stripAtDepth]

@[simp] theorem textOf_zero : textOf 0 value = [] := by simp [textOf, stripAtDepth]

theorem moved_str : moved (levels + 1) (.str text) =
    match wholeStringImageDataUrlToPart text with
    | some part => [part]
    | none =>
      match embedded text with
      | some inside => moved levels inside
      | none => [] := by
  rw [moved, strip_str]
  cases wholeStringImageDataUrlToPart text with
  | some part => rfl
  | none =>
    cases embedded text with
    | none => rfl
    | some inside =>
      dsimp only
      split_ifs <;> rfl

theorem kept_str : kept (levels + 1) (.str text) =
    match wholeStringImageDataUrlToPart text with
    | some _ => []
    | none =>
      match embedded text with
      | some inside => kept levels inside
      | none => [text] := by
  rw [kept, strip_str]
  cases wholeStringImageDataUrlToPart text with
  | some part => rfl
  | none =>
    cases embedded text with
    | none => rfl
    | some inside =>
      dsimp only
      split_ifs <;> rfl

theorem textOf_str (none : moved (levels + 1) (.str text) = []) : textOf (levels + 1) (.str text) = text := by
  rw [moved_str] at none
  rw [textOf, strip_str]
  cases whole : wholeStringImageDataUrlToPart text with
  | some part =>
    rw [whole] at none
    cases none
  | none =>
    rw [whole] at none
    cases inside : embedded text with
    | none => rfl
    | some value =>
      rw [inside] at none
      dsimp only at none ⊢
      rw [strip_eq, none]
      simp [add]

theorem moved_arr : moved (levels + 1) (.arr items) =
    items.flatMap fun item => (elementOf levels item).2.media := by
  rw [moved, strip_arr, foldl_stripElement (strip_eq levels)]
  rfl

theorem kept_arr : kept (levels + 1) (.arr items) =
    items.flatMap fun item => (elementOf levels item).2.texts := by
  rw [kept, strip_arr, foldl_stripElement (strip_eq levels)]
  rfl

theorem textOf_arr : textOf (levels + 1) (.arr items) =
    joinLines ((items.flatMap fun item => (elementOf levels item).1).filter fun part => !(trim part).isEmpty) := by
  rw [textOf, strip_arr, foldl_stripElement (strip_eq levels)]
  rfl

theorem moved_obj (fields : Fields) : moved (levels + 1) (.obj fields) =
    match chatMediaPart (.obj fields) with
    | some part => [part]
    | none =>
      match wrappedContent fields with
      | some content => moved levels content
      | none => [] := by
  rw [moved, strip_obj]
  cases chatMediaPart (.obj fields) with
  | some part => rfl
  | none =>
    cases wrappedContent fields with
    | none => rfl
    | some content =>
      dsimp only
      split_ifs <;> rfl

theorem kept_obj (fields : Fields) : kept (levels + 1) (.obj fields) =
    match chatMediaPart (.obj fields) with
    | some _ => []
    | none =>
      match wrappedContent fields with
      | some content => kept levels content
      | none => [] := by
  rw [kept, strip_obj]
  cases chatMediaPart (.obj fields) with
  | some part => rfl
  | none =>
    cases wrappedContent fields with
    | none => rfl
    | some content =>
      dsimp only
      split_ifs <;> rfl

theorem textOf_obj {fields : Fields} (none : moved (levels + 1) (.obj fields) = []) :
    textOf (levels + 1) (.obj fields) = canonicalJsonString (.obj fields) := by
  rw [moved_obj] at none
  rw [textOf, strip_obj]
  cases media : chatMediaPart (.obj fields) with
  | some part =>
    rw [media] at none
    cases none
  | none =>
    rw [media] at none
    cases inside : wrappedContent fields with
    | none => rfl
    | some value =>
      rw [inside] at none
      dsimp only at none ⊢
      rw [strip_eq, none]
      simp [add]

def markedText (texts : List Str) : Str := withMovedMarker (joinLines (texts.map clampBase64ish))

theorem splitToolOutput_eq (value : Json) : splitToolOutput value =
    if (moved (maxMediaDepth + 1) value).isEmpty then ⟨textOf (maxMediaDepth + 1) value, []⟩
    else ⟨markedText (kept (maxMediaDepth + 1) value), moved (maxMediaDepth + 1) value⟩ := rfl

end Equations

section Parts

/-- The parts that media are moved as. None of them is a text. -/
inductive MediaPart : Json → Prop
  | image (fields : Fields) : MediaPart (imageUrlPart fields)
  | file (json : Json) : MediaPart (filePartOf json)
  | audio (payload : Json) : MediaPart (inputAudioPart payload)

variable {block part : Json}

omit [FloatText]

theorem mediaPart_image (found : anthropicImagePart block = some part) : MediaPart part := by
  unfold anthropicImagePart at found
  dsimp only at found
  split at found
  · split_ifs at found
    · cases found
      exact .image _
    · cases found
      exact .image _
  · split_ifs at found
    cases found
    exact .image _

theorem mediaPart_imageLike {keys : List String} (found : imageLikePart block keys = some part) :
    MediaPart part := by
  unfold imageLikePart at found
  dsimp only at found
  split at found
  next url _ =>
    by_cases blank : (trim url).isEmpty
    · rw [if_pos blank] at found
      cases found
    · rw [if_neg blank] at found
      cases found
      exact .image _
  · cases found

theorem mediaPart_file (found : filePart block = some part) : MediaPart part := by
  unfold filePart at found
  dsimp only at found
  split at found
  · split_ifs at found
    cases found
    exact .file _
  · split_ifs at found
    cases found
    exact .file _

theorem mediaPart_document (found : documentPart block = some part) : MediaPart part := by
  unfold documentPart at found
  dsimp only at found
  split at found
  · split_ifs at found
    cases found
    exact .file _
  · cases found

theorem mediaPart_audio (found : anthropicAudioPart block = some part) : MediaPart part := by
  unfold anthropicAudioPart at found
  dsimp only at found
  split at found
  · split_ifs at found
    cases found
    exact .audio _
  · cases found

theorem mediaPart_loose (found : looseDataUrlPart block = some part) : MediaPart part := by
  unfold looseDataUrlPart at found
  dsimp only at found
  split at found
  · split_ifs at found
    cases found
    exact .image _
  · cases found

theorem mediaPart_of_chatMediaPart (found : chatMediaPart block = some part) : MediaPart part := by
  unfold chatMediaPart at found
  split at found
  · dsimp only at found
    split_ifs at found
    · exact mediaPart_imageLike found
    · exact mediaPart_image found
    · exact mediaPart_file found
    · exact mediaPart_document found
    · cases found
      exact .audio _
    · exact mediaPart_audio found
    · exact mediaPart_loose found
  · cases found

theorem mediaPart_of_whole (found : wholeStringImageDataUrlToPart text = some part) : MediaPart part := by
  unfold wholeStringImageDataUrlToPart at found
  dsimp only at found
  split_ifs at found
  split at found
  · cases found
  · split_ifs at found
    cases found
    exact .image _

end Parts

theorem mediaPart_of_moved (levels : Nat) (value : Json) : ∀ part ∈ moved levels value, MediaPart part := by
  induction levels generalizing value with
  | zero => simp
  | succ levels ih =>
    intro part mem
    cases value with
    | str text =>
      rw [moved_str] at mem
      split at mem
      next whole =>
        rw [List.mem_singleton.mp mem]
        exact mediaPart_of_whole whole
      · split at mem
        · exact ih _ part mem
        · cases mem
    | arr items =>
      rw [moved_arr, List.mem_flatMap] at mem
      obtain ⟨item, -, inside⟩ := mem
      unfold elementOf at inside
      split at inside
      next media =>
        rw [List.mem_singleton.mp inside]
        exact mediaPart_of_chatMediaPart media
      · dsimp only at inside
        split_ifs at inside
        · cases inside
        · cases inside
        · exact ih item part inside
    | obj fields =>
      rw [moved_obj] at mem
      split at mem
      next media =>
        rw [List.mem_singleton.mp mem]
        exact mediaPart_of_chatMediaPart media
      · split at mem
        · exact ih _ part mem
        · cases mem
    | _ => simp [moved, stripAtDepth] at mem

theorem mediaPart_of_split {value part : Json} (mem : part ∈ (splitToolOutput value).media) : MediaPart part := by
  rw [splitToolOutput_eq] at mem
  split_ifs at mem
  · cases mem
  · exact mediaPart_of_moved _ value part mem

end LlmGateway
