import LlmGateway.Chat.MediaWalk
import LlmGateway.Lib.JsonFields

namespace LlmGateway

open Json Text List Option

section Lines

variable {first : Str} {rest lines more pre : List Str}

theorem joinLines_cons (filled : rest ≠ []) : joinLines (first :: rest) = first ++ '\n' :: joinLines rest := by
  cases rest with
  | nil => exact absurd rfl filled
  | cons next rest => simp [joinLines, List.intercalate]

theorem joinLines_single : joinLines [first] = first := by simp [joinLines, List.intercalate]

theorem joinLines_append (left : lines ≠ []) (right : more ≠ []) :
    joinLines (lines ++ more) = joinLines lines ++ '\n' :: joinLines more := by
  induction lines with
  | nil => exact absurd rfl left
  | cons line others ih =>
    cases others with
    | nil => rw [singleton_append, joinLines_cons right, joinLines_single]
    | cons next others =>
      have long : next :: others ++ more ≠ [] := by simp
      rw [cons_append, joinLines_cons long, ih (cons_ne_nil _ _), joinLines_cons (cons_ne_nil _ _)]
      simp

theorem joinLines_joinLines (filled : lines ≠ []) :
    joinLines (joinLines lines :: more) = joinLines (lines ++ more) := by
  cases more with
  | nil => rw [joinLines_single, append_nil]
  | cons after more => rw [joinLines_cons (cons_ne_nil _ _), joinLines_append filled (cons_ne_nil _ _)]

theorem joinLines_inside (filled : lines ≠ []) :
    joinLines (pre ++ joinLines lines :: more) = joinLines (pre ++ (lines ++ more)) := by
  induction pre with
  | nil => exact joinLines_joinLines filled
  | cons line others ih =>
    have long : others ++ (lines ++ more) ≠ [] := by simp [filled]
    rw [cons_append, cons_append, joinLines_cons (by simp), joinLines_cons long, ih]

theorem infix_joinLines {line : Str} (mem : line ∈ lines) : line <:+: joinLines lines := by
  induction lines with
  | nil => cases mem
  | cons next rest ih =>
    cases rest with
    | nil =>
      cases mem_singleton.mp mem
      simp [joinLines, List.intercalate]
    | cons other rest =>
      rcases mem_cons.mp mem with rfl | later
      · exact (prefix_append _ _).isInfix
      · exact (ih later).trans ((suffix_cons _ _).trans (suffix_append _ _)).isInfix

theorem blank_inside {part text : Str} (inside : part <:+: text) (blank : (trim text).isEmpty) :
    (trim part).isEmpty :=
  isEmpty_trim_iff.mpr fun c mem => isEmpty_trim_iff.mp blank c (inside.subset mem)

end Lines

section Shape

variable {fields others : Fields}

theorem chatMediaPart_frame (same : ∀ key, key ≠ "content" → others.lookup key = fields.lookup key) :
    (chatMediaPart (.obj others)).isSome = (chatMediaPart (.obj fields)).isSome := by
  have get : ∀ key, key ≠ "content" → (Json.obj others).get key = (Json.obj fields).get key := same
  have getStr : ∀ key, key ≠ "content" → (Json.obj others).getStr key = (Json.obj fields).getStr key :=
    fun key other => congrArg (·.bind asStr) (get key other)
  have image : imageLikePart (.obj others) ["image_url", "url", "file_id"] =
      imageLikePart (.obj fields) ["image_url", "url", "file_id"] := by
    simp only [imageLikePart, firstText, get "image_url" (by decide), List.findSome?,
      getStr "image_url" (by decide), getStr "url" (by decide), getStr "file_id" (by decide)]
  have block : anthropicImagePart (.obj others) = anthropicImagePart (.obj fields) := by
    simp only [anthropicImagePart, getOr, get "detail" (by decide), get "source" (by decide),
      get "mimeType" (by decide), get "mime_type" (by decide), getStr "data" (by decide)]
  have file : filePart (.obj others) = filePart (.obj fields) := by
    simp only [filePart, get "file" (by decide), getStr "file_id" (by decide), getStr "file_data" (by decide),
      map_cons, map_nil, get "file_data" (by decide), get "file_id" (by decide), get "filename" (by decide)]
  have document : documentPart (.obj others) = documentPart (.obj fields) := by
    simp only [documentPart, get "source" (by decide), getStr "filename" (by decide)]
  have audio : anthropicAudioPart (.obj others) = anthropicAudioPart (.obj fields) := by
    simp only [anthropicAudioPart, get "source" (by decide), getStr "mimeType" (by decide)]
  have loose : looseDataUrlPart (.obj others) = looseDataUrlPart (.obj fields) := by
    simp only [looseDataUrlPart, getStr "url" (by decide)]
  simp only [chatMediaPart, getStr "type" (by decide), image, block, file, document, audio, loose]
  split_ifs <;> rfl

theorem isTextPart_frame (same : ∀ key, key ≠ "content" → others.lookup key = fields.lookup key) :
    isTextPart (.obj others) = isTextPart (.obj fields) := by
  have type : (Json.obj others).getStr "type" = (Json.obj fields).getStr "type" :=
    congrArg (·.bind asStr) (same "type" (by decide))
  simp only [isTextPart, type]

theorem lower_d {c : Char} (lower : asciiLower c = 'd') : c = 'd' ∨ c = 'D' := by
  rcases asciiLower_cases c with same | ⟨_, _, shifted⟩
  · exact .inl (same ▸ lower)
  · have code : 'd'.toNat = 100 := rfl
    have other : 'D'.toNat = 68 := rfl
    rw [lower, code] at shifted
    exact .inr (Char.toNat_inj.mp (by omega))

variable [FloatText]

theorem embedded_of_whole {text : Str} {part : Json} (whole : wholeStringImageDataUrlToPart text = some part) :
    embedded text = none := by
  have start : ∃ c rest, trim text = c :: rest ∧ (c = 'd' ∨ c = 'D') := by
    unfold wholeStringImageDataUrlToPart at whole
    dsimp only at whole
    split at whole
    · cases whole
    split at whole
    · cases whole
    rename_i before after cut
    split_ifs at whole with header
    have first : "data:image/".toList.isPrefixOf (toAsciiLowercase before) := by
      rw [Bool.and_eq_true] at header
      exact header.1
    obtain ⟨tail, same⟩ := isPrefixOf_iff_prefix.mp first
    cases before with
    | nil => cases same
    | cons c rest =>
      rw [cutAt_eq_append cut]
      exact ⟨c, _, rfl, lower_d (List.cons.inj same).1.symm⟩
  obtain ⟨c, rest, shape, letter⟩ := start
  unfold embedded
  rw [shape]
  cases read : parse (c :: rest) with
  | none => rfl
  | some value =>
    obtain ⟨found, parsed, ends⟩ := bind_eq_some_iff.mp read
    split_ifs at ends
    cases ends
    have number : ∃ number, found.1 = .num number := by
      have solid : skipSpace (c :: rest) = c :: rest := by rcases letter with rfl | rfl <;> rfl
      have marks : c ≠ '"' ∧ c ≠ '[' ∧ c ≠ '{' ∧ c ≠ 'n' ∧ c ≠ 't' ∧ c ≠ 'f' := by
        rcases letter with rfl | rfl <;> decide
      rw [parseValue, solid] at parsed
      dsimp only at parsed
      rw [if_neg marks.1, if_neg marks.2.1, if_neg marks.2.2.1, if_neg marks.2.2.2.1, if_neg marks.2.2.2.2.1,
        if_neg marks.2.2.2.2.2] at parsed
      obtain ⟨number, -, same⟩ := map_eq_some_iff.mp parsed
      exact ⟨number, congrArg Prod.fst same.symm⟩
    obtain ⟨number, same⟩ := number
    rw [same]

end Shape

section Pieces

/-- What a text without media is put together from: the texts of text parts, and other values. -/
inductive Piece
  | text (content : Str)
  | value (json : Json)

def Piece.render : Piece → Str
  | text content => content
  | value (.str content) => content
  | value (.obj fields) => canonicalJsonString (.obj fields)
  | value other => other.print

def Piece.isBlank (piece : Piece) : Bool := (trim piece.render).isEmpty

def piecesOf (inside : Json → List Piece) (item : Json) : List Piece :=
  if isTextPart item then [.text ((item.getStr "text").getD [])] else inside item

def pieces : Nat → Json → List Piece
  | 0, _ => []
  | levels + 1, value =>
    match value with
    | .arr items => (items.flatMap (piecesOf (pieces levels))).filter fun piece => !piece.isBlank
    | .null => []
    | other => [.value other]

theorem pieces_shape (levels : Nat) (value : Json) :
    (∃ piece, pieces levels value = [piece]) ∨ ∀ piece ∈ pieces levels value, piece.isBlank = false := by
  cases levels with
  | zero => exact .inr fun piece mem => nomatch mem
  | succ levels =>
    cases value with
    | arr items =>
      right
      intro piece mem
      simpa using (mem_filter.mp mem).2
    | null => exact .inr fun piece mem => nomatch mem
    | _ => exact .inl ⟨_, rfl⟩

variable [FloatText] {levels : Nat}

/-- A text part, or a string that is no JSON. -/
def Piece.isPlain : Piece → Bool
  | text _ => true
  | value (.str content) => (embedded content).isNone
  | value _ => false

theorem filter_elementOf {item : Json} (none : (elementOf levels item).2.media = [])
    (same : moved levels item = [] → textOf levels item = joinLines ((pieces levels item).map Piece.render)) :
    ((elementOf levels item).1.filter fun part => !(trim part).isEmpty) =
      let filled := (piecesOf (pieces levels) item).filter fun piece => !piece.isBlank
      if filled.isEmpty then [] else [joinLines (filled.map Piece.render)] := by
  cases media : chatMediaPart item with
  | some part =>
    rw [elementOf, media] at none
    cases none
  | none =>
    unfold piecesOf
    by_cases part : isTextPart item
    · rw [elementOf_text media part, if_pos part]
      by_cases blank : (trim ((item.getStr "text").getD [])).isEmpty
      · simp [Piece.isBlank, Piece.render, blank]
      · simp [Piece.isBlank, Piece.render, blank, joinLines_single]
    · rw [elementOf_inside media part] at none ⊢
      rw [if_neg part, same none]
      rcases pieces_shape levels item with ⟨piece, single⟩ | solid
      · rw [single, map_singleton, joinLines_single]
        have same : (trim piece.render).isEmpty = piece.isBlank := rfl
        cases blank : piece.isBlank with
        | true => simp [same, blank]
        | false => simp [same, blank, joinLines_single]
      · have all : ((pieces levels item).filter fun piece => !piece.isBlank) = pieces levels item :=
          filter_eq_self.mpr fun piece mem => by rw [solid piece mem]; rfl
        rw [all]
        cases held : pieces levels item with
        | nil => rfl
        | cons piece rest =>
          have filled : ¬(trim (joinLines ((piece :: rest).map Piece.render))).isEmpty := by
            intro blank
            have inside : piece.render <:+: joinLines ((piece :: rest).map Piece.render) :=
              infix_joinLines (mem_map.mpr ⟨piece, mem_cons_self, rfl⟩)
            have first := solid piece (by rw [held]; exact mem_cons_self)
            rw [Piece.isBlank, blank_inside inside blank] at first
            cases first
          rw [filter_cons_of_pos (by simpa using filled)]
          rfl

theorem joinLines_elements {items : List Json} (none : ∀ item ∈ items, (elementOf levels item).2.media = [])
    (same : ∀ item, moved levels item = [] → textOf levels item = joinLines ((pieces levels item).map Piece.render))
    (pre : List Str) :
    joinLines (pre ++ (items.flatMap fun item => (elementOf levels item).1).filter fun part =>
      !(trim part).isEmpty) =
      joinLines (pre ++ ((items.flatMap (piecesOf (pieces levels))).filter fun piece => !piece.isBlank).map
        Piece.render) := by
  induction items generalizing pre with
  | nil => rfl
  | cons item rest ih =>
    obtain ⟨first, others⟩ := forall_mem_cons.mp none
    rw [flatMap_cons, flatMap_cons, filter_append, filter_append, map_append,
      filter_elementOf first (same item)]
    dsimp only
    split_ifs with empty
    · rw [isEmpty_iff.mp empty]
      exact ih others pre
    · have filled : (((piecesOf (pieces levels) item).filter fun piece => !piece.isBlank).map Piece.render) ≠
          [] := by
        simpa using empty
      rw [singleton_append, joinLines_inside filled, ← append_assoc, ih others, append_assoc]

theorem textOf_eq (levels : Nat) (value : Json) (none : moved levels value = []) :
    textOf levels value = joinLines ((pieces levels value).map Piece.render) := by
  induction levels generalizing value with
  | zero => rw [textOf_zero]; rfl
  | succ levels ih =>
    cases value with
    | str text =>
      rw [textOf_str none]
      exact joinLines_single.symm
    | obj fields =>
      rw [textOf_obj none]
      exact joinLines_single.symm
    | arr items =>
      rw [moved_arr, flatMap_eq_nil_iff] at none
      rw [textOf_arr, pieces]
      exact joinLines_elements none ih []
    | null => simp [textOf, stripAtDepth, pieces, joinLines]
    | _ => simp [textOf, stripAtDepth, pieces, joinLines_single, Piece.render]

end Pieces

section Without

variable [FloatText] {levels : Nat}

/-- What is left of a value without its media, if anything. A text that is JSON is written again in any way that
reads as that. -/
def Without : Nat → Json → Option Json → Prop
  | 0, value, left => left = some value
  | levels + 1, value, left =>
    match value with
    | .str text =>
      match wholeStringImageDataUrlToPart text, embedded text with
      | some _, _ => left = none
      | none, none => left = some (.str text)
      | none, some inside =>
        if (moved levels inside).isEmpty then left = some (.str text)
        else (Without levels inside none ∧ left = none) ∨
          ∃ other again, Without levels inside (some other) ∧ embedded again = some other ∧ left = some (.str again)
    | .arr items => ∃ rest : List (Option Json), List.Forall₂ (fun item left =>
        match chatMediaPart item with
        | some _ => left = none
        | none => if isTextPart item then left = some item else Without levels item left) items rest ∧
        left = some (.arr (rest.filterMap id))
    | .obj fields =>
      match chatMediaPart (.obj fields), wrappedContent fields with
      | some _, _ => left = none
      | none, none => left = some (.obj fields)
      | none, some content =>
        if (moved levels content).isEmpty then left = some (.obj fields)
        else (Without levels content none ∧ left = some (.obj (removeField "content" fields))) ∨
          ∃ other, Without levels content (some other) ∧ left = some (.obj (insertField "content" other fields))
    | other => left = some other

variable {value left : Json}

theorem without_str {text : Str} (removed : Without (levels + 1) (.str text) (some left)) :
    (left = .str text ∧ moved (levels + 1) (.str text) = []) ∨
      ∃ inside other again, Without levels inside (some other) ∧ embedded again = some other ∧
        left = .str again := by
  rw [moved_str]
  unfold Without at removed
  dsimp only at removed
  cases whole : wholeStringImageDataUrlToPart text with
  | some part =>
    rw [whole] at removed
    cases removed
  | none =>
    cases read : embedded text with
    | none =>
      rw [whole, read] at removed
      exact .inl ⟨Option.some.inj removed, rfl⟩
    | some inside =>
      rw [whole, read] at removed
      dsimp only at removed ⊢
      split_ifs at removed with none
      · exact .inl ⟨Option.some.inj removed, isEmpty_iff.mp none⟩
      · rcases removed with ⟨-, gone⟩ | ⟨other, again, inner, reads, same⟩
        · cases gone
        · exact .inr ⟨inside, other, again, inner, reads, Option.some.inj same⟩

theorem without_obj {fields : Fields} (removed : Without (levels + 1) (.obj fields) (some left)) :
    (left = .obj fields ∧ moved (levels + 1) (.obj fields) = []) ∨
      ∃ others, left = .obj others ∧ chatMediaPart (.obj fields) = none ∧
        (∀ key, key ≠ "content" → others.lookup key = fields.lookup key) ∧
        (others.lookup "content" = none ∨
          ∃ content other, Without levels content (some other) ∧ others.lookup "content" = some other) := by
  rw [moved_obj]
  unfold Without at removed
  dsimp only at removed
  cases media : chatMediaPart (.obj fields) with
  | some part =>
    rw [media] at removed
    cases removed
  | none =>
    cases wrapped : wrappedContent fields with
    | none =>
      rw [media, wrapped] at removed
      exact .inl ⟨Option.some.inj removed, rfl⟩
    | some content =>
      rw [media, wrapped] at removed
      dsimp only at removed ⊢
      split_ifs at removed with none
      · exact .inl ⟨Option.some.inj removed, isEmpty_iff.mp none⟩
      · rcases removed with ⟨-, gone⟩ | ⟨other, inner, same⟩
        · exact .inr ⟨_, Option.some.inj gone, rfl, fun key apart => lookup_removeField apart fields,
            .inl (lookup_removeField_self ..)⟩
        · exact .inr ⟨_, Option.some.inj same, rfl, fun key apart => lookup_insertField_ne apart,
            .inr ⟨content, other, inner, lookup_insertField ..⟩⟩

theorem Without.shape (removed : Without levels value (some left)) :
    (chatMediaPart left).isSome = (chatMediaPart value).isSome ∧ isTextPart left = isTextPart value := by
  cases levels with
  | zero =>
    cases removed
    exact ⟨rfl, rfl⟩
  | succ levels =>
    cases value with
    | str text => rcases without_str removed with ⟨rfl, -⟩ | ⟨inside, other, again, -, -, rfl⟩ <;> exact ⟨rfl, rfl⟩
    | arr items =>
      obtain ⟨rest, -, same⟩ := removed
      cases same
      exact ⟨rfl, rfl⟩
    | obj fields =>
      rcases without_obj removed with ⟨rfl, -⟩ | ⟨others, rfl, -, frame, -⟩
      · exact ⟨rfl, rfl⟩
      · exact ⟨chatMediaPart_frame frame, isTextPart_frame frame⟩
    | _ =>
      cases removed
      exact ⟨rfl, rfl⟩

theorem Without.plain (removed : Without levels value (some left)) (plain : chatMediaPart value = none) :
    chatMediaPart left = none := by
  rw [← not_isSome_iff_eq_none, removed.shape.1, plain]
  exact Bool.false_ne_true

theorem element_cases {items : List Json} {rest : List (Option Json)}
    (each : List.Forall₂ (fun item left =>
      match chatMediaPart item with
      | some _ => left = none
      | none => if isTextPart item then left = some item else Without levels item left) items rest)
    (mem : left ∈ rest.filterMap id) : ∃ item ∈ items, chatMediaPart item = none ∧
      (isTextPart item ∧ left = item ∨ ¬isTextPart item ∧ Without levels item (some left)) := by
  induction each with
  | nil => cases mem
  | @cons item other items rest step _ ih =>
    have step_cases : other = some left → chatMediaPart item = none ∧
        (isTextPart item ∧ left = item ∨ ¬isTextPart item ∧ Without levels item (some left)) := by
      rintro rfl
      split at step
      · cases step
      · split_ifs at step with part
        · exact ⟨by assumption, .inl ⟨part, Option.some.inj step⟩⟩
        · exact ⟨by assumption, .inr ⟨part, step⟩⟩
    rw [mem_filterMap] at mem ih
    obtain ⟨found, inside, same⟩ := mem
    rcases mem_cons.mp inside with rfl | later
    · exact ⟨item, mem_cons_self, step_cases same⟩
    · obtain ⟨item', held, facts⟩ := ih ⟨found, later, same⟩
      exact ⟨item', mem_cons_of_mem _ held, facts⟩

theorem Without.moved_eq_nil (removed : Without levels value (some left)) : moved levels left = [] := by
  induction levels generalizing value left with
  | zero => exact moved_zero
  | succ levels ih =>
    cases value with
    | str text =>
      rcases without_str removed with ⟨rfl, none⟩ | ⟨inside, other, again, inner, reads, rfl⟩
      · exact none
      · rw [moved_str]
        cases whole : wholeStringImageDataUrlToPart again with
        | some part =>
          rw [embedded_of_whole whole] at reads
          cases reads
        | none =>
          rw [reads]
          exact ih inner
    | arr items =>
      obtain ⟨rest, each, same⟩ := removed
      cases same
      rw [moved_arr, flatMap_eq_nil_iff]
      intro left mem
      obtain ⟨item, -, plain, ⟨part, rfl⟩ | ⟨part, inner⟩⟩ := element_cases each mem
      · rw [elementOf_text plain part]
        dsimp only
        split_ifs <;> rfl
      · rw [elementOf_inside (inner.plain plain) (inner.shape.2 ▸ part)]
        exact ih inner
    | obj fields =>
      have media := removed.plain
      rcases without_obj removed with ⟨rfl, none⟩ | ⟨others, rfl, plain, -, gone | ⟨content, other, inner, held⟩⟩
      · exact none
      · rw [moved_obj, media plain, wrappedContent, gone]
      · rw [moved_obj, media plain, wrappedContent, held]
        have none := ih inner
        cases other with
        | arr items => exact none
        | str text => exact none
        | _ => rfl
    | _ =>
      cases removed
      simp [moved, stripAtDepth]

theorem Without.kept_none (removed : Without levels value none) : kept levels value = [] := by
  induction levels generalizing value with
  | zero => cases removed
  | succ levels ih =>
    cases value with
    | str text =>
      rw [kept_str]
      unfold Without at removed
      dsimp only at removed
      cases whole : wholeStringImageDataUrlToPart text with
      | some part => rfl
      | none =>
        rw [whole] at removed
        cases read : embedded text with
        | none =>
          rw [read] at removed
          cases removed
        | some inside =>
          rw [read] at removed
          dsimp only at removed
          split_ifs at removed
          rcases removed with ⟨inner, -⟩ | ⟨_, _, -, -, same⟩
          · exact ih inner
          · cases same
    | arr items =>
      obtain ⟨_, -, same⟩ := removed
      cases same
    | obj fields =>
      rw [kept_obj]
      unfold Without at removed
      dsimp only at removed
      cases media : chatMediaPart (.obj fields) with
      | some part => rfl
      | none =>
        rw [media] at removed
        cases wrapped : wrappedContent fields with
        | none => rfl
        | some content =>
          rw [wrapped] at removed
          dsimp only at removed
          split_ifs at removed
          rcases removed with ⟨-, same⟩ | ⟨_, -, same⟩ <;> cases same
    | _ => cases removed

theorem embedded_blank {text : Str} (blank : (trim text).isEmpty) : embedded text = none := by
  rw [embedded, isEmpty_iff.mp blank]
  rfl

theorem Piece.filled_of_json {text : Str} {inside : Json} (reads : embedded text = some inside) :
    (Piece.value (.str text)).isBlank = false := by
  cases blank : (Piece.value (.str text)).isBlank with
  | false => rfl
  | true =>
    cases (embedded_blank blank).symm.trans reads

omit [FloatText] in
theorem Piece.filled_obj {fields : Fields} : (Piece.value (.obj fields)).isBlank = false := by
  rw [Piece.isBlank, ← Bool.not_eq_true, isEmpty_trim_iff]
  exact fun blank => absurd (blank '{' mem_cons_self) (by decide)

/-- If what is left is text parts and strings only, these are the texts that the walk gathers. -/
theorem Without.kept_some (removed : Without levels value (some left))
    (plain : ∀ piece ∈ pieces levels left, piece.isBlank = false → piece.isPlain) :
    ((kept levels value).filter fun text => !(trim text).isEmpty) =
      ((pieces levels left).filter fun piece => !piece.isBlank).map Piece.render := by
  induction levels generalizing value left with
  | zero => rw [kept_zero]; rfl
  | succ levels ih =>
    cases value with
    | str text =>
      rcases without_str removed with ⟨rfl, none⟩ | ⟨inside, other, again, inner, reads, rfl⟩
      · rw [moved_str] at none
        rw [kept_str]
        cases whole : wholeStringImageDataUrlToPart text with
        | some part =>
          rw [whole] at none
          cases none
        | none =>
          cases read : embedded text with
          | none =>
            by_cases blank : (trim text).isEmpty
            · simp [pieces, Piece.isBlank, Piece.render, blank]
            · simp [pieces, Piece.isBlank, Piece.render, blank]
          | some inside =>
            have isPlain := plain _ mem_cons_self (Piece.filled_of_json read)
            rw [Piece.isPlain, read] at isPlain
            cases isPlain
      · have isPlain := plain _ mem_cons_self (Piece.filled_of_json reads)
        rw [Piece.isPlain, reads] at isPlain
        cases isPlain
    | arr items =>
      obtain ⟨rest, each, same⟩ := removed
      cases same
      rw [kept_arr, pieces, List.filter_filter]
      simp only [Bool.and_self]
      replace plain : ∀ piece ∈ (rest.filterMap id).flatMap (piecesOf (pieces levels)), piece.isBlank = false →
          piece.isPlain := fun piece mem filled => plain piece (mem_filter.mpr ⟨mem, by rw [filled]; rfl⟩) filled
      induction each with
      | nil => rfl
      | @cons item other items rest step _ next =>
        have tail := next fun piece mem => plain piece (by
          cases other with
          | none => exact mem
          | some left => exact mem_append_right _ mem)
        rw [flatMap_cons, filter_append, tail]
        split at step
        next media =>
          cases step
          rw [elementOf, media]
          rfl
        next media =>
          split_ifs at step with part
          · cases step
            rw [elementOf_text media part, filterMap_cons_some (f := id) rfl, flatMap_cons, filter_append,
              map_append, piecesOf, if_pos part]
            congr 1
            by_cases blank : (trim ((item.getStr "text").getD [])).isEmpty
            · simp [Piece.isBlank, Piece.render, blank]
            · simp [Piece.isBlank, Piece.render, blank]
          · rw [elementOf_inside media part]
            cases other with
            | none =>
              rw [step.kept_none]
              rfl
            | some left =>
              rw [filterMap_cons_some (f := id) rfl, flatMap_cons, piecesOf, if_neg (step.shape.2 ▸ part)] at plain
              rw [filterMap_cons_some (f := id) rfl, flatMap_cons, filter_append, map_append, piecesOf,
                if_neg (step.shape.2 ▸ part)]
              exact congrArg (· ++ _) (ih step fun piece mem => plain piece (mem_append_left _ mem))
    | obj fields =>
      obtain ⟨others, rfl⟩ : ∃ others, left = .obj others := by
        rcases without_obj removed with ⟨rfl, -⟩ | ⟨others, rfl, -⟩ <;> exact ⟨_, rfl⟩
      cases plain _ mem_cons_self Piece.filled_obj
    | null =>
      cases removed
      simp [kept, stripAtDepth, pieces]
    | _ =>
      cases removed
      simp [kept, stripAtDepth, pieces, Piece.isPlain] at plain ⊢
      exact plain

theorem Without.pieces_filled (removed : Without levels value (some left)) (media : moved levels value ≠ []) :
    ∀ piece ∈ pieces levels left, piece.isBlank = false := by
  intro piece mem
  cases levels with
  | zero => cases mem
  | succ levels =>
    cases value with
    | str text =>
      rcases without_str removed with ⟨-, none⟩ | ⟨inside, other, again, inner, reads, rfl⟩
      · exact absurd none media
      · cases mem_singleton.mp mem
        exact Piece.filled_of_json reads
    | arr items =>
      obtain ⟨rest, -, same⟩ := removed
      cases same
      simpa using (mem_filter.mp mem).2
    | obj fields =>
      rcases without_obj removed with ⟨rfl, -⟩ | ⟨others, rfl, -⟩ <;>
      · cases mem_singleton.mp mem
        exact Piece.filled_obj
    | _ => simp [moved, stripAtDepth] at media

end Without

section Remainder

theorem infix_markedText {texts : List Str} {text : Str} (mem : text ∈ texts)
    (whole : clampBase64ish text = text) (filled : (trim text).isEmpty = false) : text <:+: markedText texts := by
  have inside : text <:+: joinLines (texts.map clampBase64ish) := by
    refine infix_joinLines (mem_map.mpr ⟨text, mem, whole⟩)
  unfold markedText withMovedMarker
  split_ifs with blank
  · rw [blank_inside inside blank] at filled
    cases filled
  · exact inside.trans (prefix_append _ _).isInfix

variable [FloatText] {levels : Nat} {value : Json}

/-- The strings and text parts of a value, inside its arrays, its contents and its texts that are JSON. -/
def plainTexts : Nat → Json → List Str
  | 0, _ => []
  | levels + 1, value =>
    match value with
    | .str text =>
      match wholeStringImageDataUrlToPart text, embedded text with
      | some _, _ => []
      | none, some inside => plainTexts levels inside
      | none, none => [text]
    | .arr items => items.flatMap fun item =>
      if (chatMediaPart item).isSome then []
      else if isTextPart item then [(item.getStr "text").getD []].filter fun text => !(trim text).isEmpty
      else plainTexts levels item
    | .obj fields =>
      if (chatMediaPart (.obj fields)).isSome then [] else ((wrappedContent fields).map (plainTexts levels)).getD []
    | _ => []

theorem kept_eq (levels : Nat) (value : Json) : kept levels value = plainTexts levels value := by
  induction levels generalizing value with
  | zero => exact kept_zero
  | succ levels ih =>
    cases value with
    | str text =>
      rw [kept_str]
      unfold plainTexts
      dsimp only
      cases wholeStringImageDataUrlToPart text with
      | some part => rfl
      | none =>
        cases embedded text with
        | none => rfl
        | some inside => exact ih inside
    | arr items =>
      rw [kept_arr]
      refine congrArg (items.flatMap ·) (funext fun item => ?_)
      cases plain : chatMediaPart item with
      | some part => rw [elementOf, plain]; rfl
      | none =>
        by_cases part : isTextPart item
        · rw [elementOf_text plain part]
          by_cases blank : (trim ((item.getStr "text").getD [])).isEmpty
          · simp [part, blank]
          · simp [part, blank]
        · rw [elementOf_inside plain part]
          simp [part, ih item]
    | obj fields =>
      rw [kept_obj]
      unfold plainTexts
      dsimp only
      cases chatMediaPart (.obj fields) with
      | some part => rfl
      | none =>
        cases wrappedContent fields with
        | none => rfl
        | some content => exact ih content
    | _ => simp [kept, stripAtDepth, plainTexts]

/-- The texts stand in `text` one by one and in order, payloads cut out, with only blank ones between them. -/
def StandIn (texts : List Str) (text : Str) : Prop :=
  ∃ lines : List Str, (lines.filter fun line => !(trim line).isEmpty) = texts ∧ text = markedText lines

omit [FloatText] in
theorem StandIn.inside {texts : List Str} {text piece : Str} (stand : StandIn texts text) (mem : piece ∈ texts)
    (whole : clampBase64ish piece = piece) : piece <:+: text := by
  obtain ⟨lines, rfl, rfl⟩ := stand
  obtain ⟨held, filled⟩ := mem_filter.mp mem
  exact infix_markedText held whole (by simpa using filled)

end Remainder

def smallImage : Json := .obj [("data", .str ['x']), ("type", .str "image".toList)]

def helloPart : Json := .obj [("text", .str "hello".toList), ("type", .str "text".toList)]

def statusObject : Json := .obj [("status", .str "ok".toList)]

end LlmGateway
