import LlmGateway.Responses.ToolOrder

namespace LlmGateway

open Json Text List MessageOut InputItem ShortSha256

section AfterRun

variable {α β : Type*} {p : α → Bool}

def afterRun (p : α → Bool) : Nat → List α → Option α
  | _, [] => none
  | 0, x :: rest => if p x then rest.find? fun y => !p y else afterRun p 0 rest
  | number + 1, x :: rest => if p x then afterRun p number rest else afterRun p (number + 1) rest

theorem afterRun_skip {x : α} (other : p x = false) (number : Nat) (rest : List α) :
    afterRun p number (x :: rest) = afterRun p number rest := by
  cases number with
  | zero => rw [afterRun, if_neg (by simp [other])]
  | succ number => rw [afterRun, if_neg (by simp [other])]

theorem afterRun_append {before rest : List α} {x : α} (here : p x) :
    afterRun p (before.countP p) (before ++ x :: rest) = rest.find? fun y => !p y := by
  induction before with
  | nil => rw [countP_nil, nil_append, afterRun, if_pos here]
  | cons y before ih =>
    rw [cons_append]
    cases other : p y with
    | true => rw [countP_cons_of_pos other, afterRun, if_pos other, ih]
    | false => rw [countP_cons_of_neg (by simp [other]), afterRun_skip other, ih]

theorem find_behind {run rest : List α} {next : α} (only : ∀ x ∈ run, p x) (other : p next = false) :
    (run ++ next :: rest).find? (fun x => !p x) = some next := by
  have none : run.find? (fun x => !p x) = none := List.find?_eq_none.mpr fun x mem => by simp [only x mem]
  rw [List.find?_append, none, Option.none_or, List.find?_cons, other]
  rfl

theorem afterRun_map (f : β → α) (number : Nat) (xs : List β) :
    afterRun p number (xs.map f) = (afterRun (p ∘ f) number xs).map f := by
  induction xs generalizing number with
  | nil => rfl
  | cons x xs ih =>
    rw [map_cons]
    cases here : p (f x) with
    | true =>
      cases number with
      | zero =>
        rw [afterRun, if_pos here, afterRun, Function.comp_apply, if_pos here]
        exact List.find?_map
      | succ number => rw [afterRun, if_pos here, afterRun, Function.comp_apply, if_pos here, ih]
    | false =>
      have other : (p ∘ f) x = false := here
      rw [afterRun_skip here, afterRun_skip other, ih]

end AfterRun

def MessageOut.face (message : MessageOut) : Str × Option Json := (message.role, message.content)

def isToolFace (face : Str × Option Json) : Bool := face.1 = toolRole

def MediaPlaced (messages : List MessageOut) (number : Nat) (callId : Str) (media : List Json) : Prop :=
  ∃ user ∈ afterRun isTool number messages, user.role = userRole ∧
    ∃ front back, user.content = some (.arr (front ++ textPart (mediaLabel callId) :: (media ++ back)))

theorem mediaPlaced_iff_face {messages : List MessageOut} {number : Nat} {callId : Str} {media : List Json} :
    MediaPlaced messages number callId media ↔ ∃ front back,
      afterRun isToolFace number (messages.map face) =
        some (userRole, some (.arr (front ++ textPart (mediaLabel callId) :: (media ++ back)))) := by
  have same : isToolFace ∘ face = isTool := rfl
  simp only [afterRun_map, same, Option.map_eq_some_iff]
  constructor
  · rintro ⟨user, found, role, front, back, content⟩
    exact ⟨front, back, user, found, Prod.ext role content⟩
  · rintro ⟨front, back, user, found, same⟩
    exact ⟨user, found, congrArg Prod.fst same, front, back, congrArg Prod.snd same⟩

def Labels (parts : List Json) : Prop := ∀ callId, textPart (mediaLabel callId) ∈ parts → callId ≠ []

theorem Labels.append {parts more : List Json} (labels : Labels parts) (rest : Labels more) :
    Labels (parts ++ more) :=
  fun callId mem => (mem_append.mp mem).elim (labels callId) (rest callId)

theorem textPart_inj {text other : Str} : textPart text = textPart other ↔ text = other := by
  simp [textPart]

theorem mediaLabel_inj {callId other : Str} : mediaLabel callId = mediaLabel other ↔ callId = other := by
  unfold mediaLabel
  rw [append_cancel_right_eq, append_cancel_left_eq]

theorem labels_labelled {media : List Json} (typed : ∀ part ∈ media, MediaPart part) (callId : Str) :
    Labels (labelled callId media) := by
  intro other mem
  have inside (mem : textPart (mediaLabel other) ∈ media) : other ≠ [] := by
    generalize named : textPart (mediaLabel other) = part at mem
    cases typed part mem with
    | image fields => simp [textPart, imageUrlPart] at named
    | file json => simp [textPart, filePartOf] at named
    | audio payload => simp [textPart, inputAudioPart] at named
  unfold labelled at mem
  split_ifs at mem with empty blank
  · cases mem
  · exact inside mem
  · rcases mem_append.mp mem with label | mem
    · rw [mem_singleton, textPart_inj, mediaLabel_inj] at label
      rw [label]
      simpa using blank
    · exact inside mem

namespace Draft

variable {draft : Draft} {item : InputItem}

def faces (draft : Draft) : List (Str × Option Json) := draft.messages.map face

def mediaFace (draft : Draft) : Str × Option Json := (userRole, some (.arr draft.media))

theorem face_flush (waiting : draft.media ≠ []) : draft.flush.map face = draft.faces ++ [draft.mediaFace] := by
  rw [flush, flushPendingMedia, if_neg (by simpa using waiting), map_append]
  rfl

theorem face_flush_appends (draft : Draft) : ∃ more, draft.flush.map face = draft.faces ++ more := by
  by_cases none : draft.media = []
  · refine ⟨[], ?_⟩
    rw [flush, none, append_nil]
    rfl
  · exact ⟨[draft.mediaFace], face_flush none⟩

theorem face_appendToolCall (messages : List MessageOut) (tool : ToolCallOut) :
    ∃ more, (appendToolCallToLastAssistant messages tool).map face = messages.map face ++ more := by
  rcases appendToolCall_cases messages tool with ⟨before, last, rfl, -, joined⟩ | ⟨-, opened⟩
  · refine ⟨[], ?_⟩
    rw [joined, map_append, append_nil, map_append]
    rfl
  · exact ⟨[(assistantRole, none)], by rw [opened, map_append]; rfl⟩

theorem faces_take_flushed (draft : Draft) (flushes : item.isCall ∨ item.isBoundary) :
    ∃ more, (draft.take item).faces = draft.flush.map face ++ more := by
  cases item with
  | call tool embedded => exact face_appendToolCall draft.flush tool
  | webSearch tool results embedded =>
    obtain ⟨more, same⟩ := face_appendToolCall draft.flush tool
    refine ⟨more ++ [(toolMessage tool.id (.str results)).face], ?_⟩
    rw [← append_assoc, ← same, faces, take, push, map_append]
    rfl
  | boundary role content => exact ⟨[(plainMessage role content).face], by rw [faces, take, map_append]; rfl⟩
  | _ => simp [isCall, isBoundary] at flushes

theorem faces_take_appends (draft : Draft) (item : InputItem) :
    ∃ more, (draft.take item).faces = draft.faces ++ more := by
  have flushed {item : InputItem} (flushes : item.isCall ∨ item.isBoundary) :
      ∃ more, (draft.take item).faces = draft.faces ++ more := by
    obtain ⟨media, same⟩ := draft.face_flush_appends
    obtain ⟨more, whole⟩ := draft.faces_take_flushed flushes
    exact ⟨media ++ more, by rw [whole, same, append_assoc]⟩
  cases item with
  | reasoning text => exact ⟨[], (append_nil _).symm⟩
  | skipped => exact ⟨[], (append_nil _).symm⟩
  | output callId content media => exact ⟨_, map_append⟩
  | assistant content embedded => exact ⟨_, map_append⟩
  | call tool embedded => exact flushed (.inl rfl)
  | webSearch tool results embedded => exact flushed (.inl rfl)
  | boundary role content => exact flushed (.inr rfl)

theorem faces_run_appends (items : List InputItem) (draft : Draft) :
    ∃ more, (items.foldl take draft).flush.map face = draft.faces ++ more := by
  induction items generalizing draft with
  | nil => exact draft.face_flush_appends
  | cons item items ih =>
    obtain ⟨here, same⟩ := draft.faces_take_appends item
    obtain ⟨later, whole⟩ := ih (draft.take item)
    exact ⟨here ++ later, by rw [foldl_cons, whole, same, append_assoc]⟩

theorem countP_flush (draft : Draft) :
    (draft.flush.map face).countP isToolFace = draft.faces.countP isToolFace := by
  by_cases none : draft.media = []
  · rw [flush, none]
    rfl
  · have other : isToolFace draft.mediaFace = false := rfl
    rw [face_flush none, countP_append, countP_singleton, other]
    rfl

theorem countP_callTool (draft : Draft) (tool : ToolCallOut) :
    (draft.callTool tool).faces.countP isToolFace = draft.faces.countP isToolFace := by
  rw [← countP_flush draft, faces, callTool]
  rcases appendToolCall_cases draft.flush tool with ⟨before, last, whole, -, joined⟩ | ⟨-, opened⟩
  · rw [joined, whole, map_append, map_append]
    rfl
  · rw [opened, map_append, countP_append]
    rfl

theorem countP_take (proper : item.Proper) :
    (draft.take item).faces.countP isToolFace =
      draft.faces.countP isToolFace + [item].countP givesTool := by
  cases item with
  | reasoning text => rfl
  | skipped => rfl
  | call tool embedded => exact countP_callTool draft tool
  | webSearch tool results embedded =>
    rw [← countP_callTool draft tool, faces, take, push, map_append, countP_append]
    rfl
  | output callId content media =>
    rw [faces, take, map_append, countP_append]
    rfl
  | assistant content embedded =>
    rw [faces, take, push, map_append, countP_append]
    rfl
  | boundary role content =>
    have other : isToolFace (plainMessage role content).face = false := decide_eq_false proper
    rw [← countP_flush draft, faces, take, map_append, countP_append, map_singleton, countP_singleton,
      other]
    rfl

theorem countP_run {items : List InputItem} (proper : ∀ item ∈ items, item.Proper) :
    (items.foldl take draft).faces.countP isToolFace =
      draft.faces.countP isToolFace + items.countP givesTool := by
  induction items using List.reverseRecOn with
  | nil => rfl
  | append_singleton items item ih =>
    have before := ih fun other mem => proper other (mem_append_left _ mem)
    rw [foldl_concat, countP_take (proper item (by simp)), before, countP_append, Nat.add_assoc]

theorem labels_take (proper : item.Proper) (labels : Labels draft.media) :
    Labels (draft.take item).media := by
  have none : Labels [] := fun callId mem => nomatch mem
  cases item with
  | output callId content media => exact labels.append (labels_labelled proper callId)
  | reasoning text => exact labels
  | skipped => exact labels
  | assistant content embedded => exact labels
  | call tool embedded => exact none
  | webSearch tool results embedded => exact none
  | boundary role content => exact none

theorem labels_run {items : List InputItem} (proper : ∀ item ∈ items, item.Proper) (labels : Labels draft.media) :
    Labels (items.foldl take draft).media := by
  induction items using List.reverseRecOn with
  | nil => exact labels
  | append_singleton items item ih =>
    rw [foldl_concat]
    exact labels_take (proper item (by simp)) (ih fun other mem => proper other (mem_append_left _ mem))

end Draft

def InputItem.speaks (item : InputItem) : Bool := item.isCall || item.isMessage

def mediaPassed (items : List InputItem) : Bool := (items.find? InputItem.speaks).any InputItem.isAssistant

def Draft.Behind (draft : Draft) (passed : Bool) (faces : List (Str × Option Json)) : Prop :=
  ∃ tools next rest, faces = draft.faces ++ (tools ++ next :: rest) ∧ (∀ face ∈ tools, isToolFace face) ∧
    if passed then next.1 = assistantRole
    else ∃ more, next = (userRole, some (.arr (draft.media ++ more))) ∧ Labels (draft.media ++ more)

theorem Draft.behind_run {items : List InputItem} (proper : ∀ item ∈ items, item.Proper) {draft : Draft}
    (waiting : draft.media ≠ []) (labels : Labels draft.media) :
    draft.Behind (mediaPassed items) ((items.foldl Draft.take draft).flush.map face) := by
  induction items generalizing draft with
  | nil =>
    exact ⟨[], draft.mediaFace, [], face_flush waiting, by simp, [], by simp [mediaFace], by simpa using labels⟩
  | cons item items ih =>
    have later : ∀ other ∈ items, other.Proper := fun other mem => proper other (mem_cons_of_mem _ mem)
    have quiet (silent : item.speaks = false) : mediaPassed (item :: items) = mediaPassed items := by
      rw [mediaPassed, List.find?_cons, silent]
      rfl
    have flushed (flushes : item.isCall ∨ item.isBoundary) (other : mediaPassed (item :: items) = false) :
        draft.Behind (mediaPassed (item :: items)) (((item :: items).foldl Draft.take draft).flush.map face) := by
      obtain ⟨more, here⟩ := draft.faces_take_flushed flushes
      obtain ⟨rest, whole⟩ := faces_run_appends items (draft.take item)
      rw [face_flush waiting] at here
      rw [foldl_cons, whole, here, other]
      exact ⟨[], draft.mediaFace, more ++ rest, by simp, by simp, [], by simp [mediaFace], by simpa using labels⟩
    cases item with
    | reasoning text =>
      exact ih later waiting labels
    | skipped =>
      rw [quiet rfl]
      exact ih later waiting labels
    | output callId content media =>
      have still : (draft.take (.output callId content media)).media ≠ [] := by simp [take, waiting]
      have added := labels.append (labels_labelled (proper _ mem_cons_self) callId)
      obtain ⟨tools, next, rest, whole, only, behind⟩ := ih later still added
      refine ⟨(toolMessage callId content).face :: tools, next, rest, ?_, ?_, ?_⟩
      · rw [foldl_cons, whole, faces, take, map_append]
        simp [faces]
      · exact forall_mem_cons.mpr ⟨rfl, only⟩
      · rw [quiet rfl]
        cases passed : mediaPassed items with
        | true =>
          rw [passed] at behind
          exact behind
        | false =>
          rw [passed] at behind
          obtain ⟨more, same, named⟩ := behind
          rw [take, append_assoc] at same named
          exact ⟨labelled callId media ++ more, same, named⟩
    | assistant content embedded =>
      obtain ⟨rest, whole⟩ := faces_run_appends items (draft.take (.assistant content embedded))
      refine ⟨[], (plainMessage assistantRole content).face, rest, ?_, by simp, rfl⟩
      rw [foldl_cons, whole, faces, take, push, map_append]
      simp [faces]
    | call tool embedded => exact flushed (.inl rfl) rfl
    | webSearch tool results embedded => exact flushed (.inl rfl) rfl
    | boundary role content => exact flushed (.inr rfl) rfl

/-- The media of an output are where they belong unless a message of the assistant passes them. -/
theorem Draft.mediaPlaced_iff {earlier later : List InputItem} {callId : Str} {content : Json} {media : List Json}
    (proper : ∀ item ∈ earlier ++ .output callId content media :: later, item.Proper) {draft : Draft}
    (start : draft.media = []) (none : draft.faces.countP isToolFace = 0) (some : media ≠ [])
    {messages : List MessageOut}
    (whole : messages.map face =
      ((earlier ++ .output callId content media :: later).foldl Draft.take draft).flush.map face) :
    MediaPlaced messages (earlier.countP givesTool) callId media ↔
      callId ≠ [] ∧ mediaPassed later = false := by
  have before : ∀ item ∈ earlier, item.Proper := fun item mem => proper item (mem_append_left _ mem)
  have after : ∀ item ∈ later, item.Proper := fun item mem => proper item (by simp [mem])
  have typed : (InputItem.output callId content media).Proper := proper _ (by simp)
  have labels : Labels (earlier.foldl take draft).media := labels_run before (start ▸ fun _ mem => nomatch mem)
  have still : ((earlier.foldl take draft).take (.output callId content media)).media ≠ [] := by
    simp [take, labelled, some]
  have counted : (earlier.foldl take draft).faces.countP isToolFace = earlier.countP givesTool := by
    rw [countP_run before, none, Nat.zero_add]
  obtain ⟨tools, next, rest, same, only, behind⟩ :=
    behind_run after still (labels.append (labels_labelled typed callId))
  have split : messages.map face =
      (earlier.foldl take draft).faces ++ (toolMessage callId content).face :: (tools ++ next :: rest) := by
    rw [whole, foldl_append, foldl_cons, same, faces, take, map_append]
    simp [faces]
  have found (other : isToolFace next = false) :
      afterRun isToolFace (earlier.countP givesTool) (messages.map face) = next := by
    rw [split, ← counted, afterRun_append rfl, find_behind only other]
  rw [mediaPlaced_iff_face]
  cases passed : mediaPassed later with
  | true =>
    rw [passed, if_pos rfl] at behind
    rw [found (by rw [isToolFace, behind]; decide)]
    refine iff_of_false ?_ (by simp)
    rintro ⟨front, back, user⟩
    have role : next.1 = userRole := congrArg Prod.fst (Option.some.inj user)
    rw [behind] at role
    cases role
  | false =>
    rw [passed, if_neg Bool.false_ne_true] at behind
    obtain ⟨more, rfl, named⟩ := behind
    rw [found rfl]
    constructor
    · rintro ⟨front, back, user⟩
      have parts := Json.arr.inj (Option.some.inj (congrArg Prod.snd (Option.some.inj user)))
      exact ⟨named callId (by rw [parts]; simp), rfl⟩
    · rintro ⟨filled, -⟩
      refine ⟨(earlier.foldl take draft).media, more, ?_⟩
      simp [take, labelled, some, filled]

section Request

variable [FloatText] [ShortSha256]

/-- The media of an output are behind its run of tool messages, with their label, exactly when the call has an id
and no message of the assistant comes before the next boundary. -/
theorem media_placed_iff {req : Json} {ctx : ToolContext} {given : List Json} {messages : List MessageOut}
    (found : rawPresent (req.get "input") = some (.arr given))
    (converted : requestMessagesToChat req ctx = .ok messages) :
    ∃ items, given.mapM (read ctx) = .ok items ∧
      ∀ earlier callId content media later, items = earlier ++ .output callId content media :: later → media ≠ [] →
        (MediaPlaced messages (earlier.countP givesTool) callId media ↔
          callId ≠ [] ∧ mediaPassed later = false) := by
  obtain ⟨items, read, rfl⟩ := requestMessages_of_array found converted
  refine ⟨items, read, ?_⟩
  rintro earlier callId content media later rfl some
  let start : Conversion := ⟨systemMessages req, none, []⟩
  have quiet : start.bare.faces.countP isToolFace = 0 := by
    rw [Draft.faces, Conversion.bare, map_map, countP_map, countP_eq_zero]
    intro message member tool
    have other := (systemMessages_others req message member).2.1
    exact Bool.false_ne_true (other.symm.trans tool)
  refine Draft.mediaPlaced_iff (proper_of_mapM read) (rfl : start.bare.media = []) quiet some ?_
  rw [← Conversion.bare_run, ← Conversion.bare_finish, map_map]
  rfl

end Request

def pictureOutput (id : String) : Json :=
  .obj [("call_id", .str id.toList),
    ("output", .arr
      [.obj [("image_url", .str "https://example.com/a.png".toList), ("type", .str "input_image".toList)]]),
    ("type", .str "function_call_output".toList)]

def assistantItem (text : String) : Json :=
  .obj [("content", .str text.toList), ("role", .str assistantRole), ("type", .str "message".toList)]

def callWithMedia : List InputItem → Bool
  | .call _ _ :: .output callId _ media :: _ => !callId.isEmpty && !media.isEmpty
  | _ => false

theorem exists_of_callWithMedia {items : List InputItem} (shaped : callWithMedia items) :
    ∃ tool embedded callId content media later, items =
      .call tool embedded :: .output callId content media :: later ∧
      callId ≠ [] ∧ media ≠ [] := by
  unfold callWithMedia at shaped
  split at shaped
  · rw [Bool.and_eq_true, Bool.not_eq_true', Bool.not_eq_true', isEmpty_eq_false_iff,
      isEmpty_eq_false_iff] at shaped
    exact ⟨_, _, _, _, _, _, rfl, shaped⟩
  · cases shaped

def pictureThenAnswer : List Json := [functionCallItem "a", pictureOutput "a", assistantItem "Here it is."]

/-- The picture comes after the next message of the assistant. -/
theorem picture_passed : ∃ earlier callId content media later messages,
    pictureThenAnswer.mapM (@read verbatim blank noTools) =
        .ok (earlier ++ .output callId content media :: later) ∧ callId ≠ [] ∧ media ≠ [] ∧
      @requestMessagesToChat verbatim blank (arrayRequest pictureThenAnswer) noTools = .ok messages ∧
      ¬ MediaPlaced messages (earlier.countP givesTool) callId media := by
  have shaped : (pictureThenAnswer.mapM (@read verbatim blank noTools)).toOption.any
      callWithMedia := by decide +kernel
  have passed : (@requestMessagesToChat verbatim blank (arrayRequest pictureThenAnswer) noTools).toOption.any
      (fun messages => (afterRun isTool 0 messages).all fun message => decide (message.role ≠ userRole)) =
        true := by decide +kernel
  obtain ⟨items, read, shaped⟩ := Fallible.exists_of_any shaped
  obtain ⟨tool, embedded, callId, content, media, later, rfl, named, some⟩ := exists_of_callWithMedia shaped
  obtain ⟨messages, converted, passed⟩ := Fallible.exists_of_any passed
  refine ⟨[.call tool embedded], callId, content, media, later, messages, read, named, some, converted, ?_⟩
  rintro ⟨user, found, role, -⟩
  have first : afterRun isTool 0 messages = .some user := found
  rw [first, Option.all_some] at passed
  exact of_decide_eq_true passed role

def pictureLast : List Json := [functionCallItem "a", pictureOutput "a"]

theorem picture_placed : ∃ earlier callId content media later messages,
    pictureLast.mapM (@read verbatim blank noTools) =
        .ok (earlier ++ .output callId content media :: later) ∧ media ≠ [] ∧
      @requestMessagesToChat verbatim blank (arrayRequest pictureLast) noTools = .ok messages ∧
      MediaPlaced messages (earlier.countP givesTool) callId media := by
  have shaped : (pictureLast.mapM (@read verbatim blank noTools)).toOption.any
      (fun items => callWithMedia items && !mediaPassed (items.drop 2)) := by decide +kernel
  have accepted : (@requestMessagesToChat verbatim blank (arrayRequest pictureLast) noTools).isOk := by
    decide +kernel
  obtain ⟨messages, converted⟩ := Fallible.exists_of_isOk accepted
  obtain ⟨items, read, each⟩ := @media_placed_iff verbatim blank _ _ pictureLast _ rfl converted
  rw [read, Except.toOption, Option.any_some, Bool.and_eq_true, Bool.not_eq_true'] at shaped
  obtain ⟨tool, embedded, callId, content, media, later, rfl, named, some⟩ := exists_of_callWithMedia shaped.1
  exact ⟨[.call tool embedded], callId, content, media, later, messages, read, some, converted,
    (each [.call tool embedded] callId content media later rfl some).mpr ⟨named, shaped.2⟩⟩

end LlmGateway
