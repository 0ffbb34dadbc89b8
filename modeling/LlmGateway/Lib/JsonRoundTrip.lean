import LlmGateway.Lib.JsonText

namespace Json

open List Fits

variable {c d : Char} {text rest : Str} {depth : Nat} {fields : Fields}

/-- The text does not go on with a character that a number could have. -/
def NumberEnd (text : Str) : Prop := ∀ c ∈ text.head?, isNumberChar c = false

theorem isNumberChar_of_isDigit (digit : c.isDigit) : isNumberChar c := by
  simp [isNumberChar, digit]

theorem isSpace_of_isNumberChar (number : isNumberChar c) : isSpace c = false := by
  rw [Bool.eq_false_iff]
  intro space
  simp only [isSpace, Bool.or_eq_true, beq_iff_eq] at space
  rcases space with ((rfl | rfl) | rfl) | rfl <;> cases number

theorem JsonNumber.numberChars {number : JsonNumber} (fits : (num number).Fits depth) :
    ∀ c ∈ number.print, isNumberChar c := by
  cases number with
  | int value =>
    intro c mem
    have signed : c = '-' ∨ c ∈ Nat.toDigits 10 value.natAbs := by
      unfold JsonNumber.print at mem
      dsimp only at mem
      split_ifs at mem with negative
      · exact mem_cons.mp mem
      · exact .inr mem
    rcases signed with rfl | digit
    · rfl
    · exact isNumberChar_of_isDigit (Nat.isDigit_of_mem_toDigits (by decide) (by decide) digit)
  | float text =>
    have literal : isFloatLiteral text := fits
    simp only [isFloatLiteral, Bool.and_eq_true, all_eq_true] at literal
    exact literal.1

theorem JsonNumber.print_ne_nil {number : JsonNumber} (fits : (num number).Fits depth) :
    number.print ≠ [] := by
  cases number with
  | int value =>
    unfold JsonNumber.print
    dsimp only
    split_ifs
    · exact cons_ne_nil _ _
    · exact Nat.toDigits_ne_nil
  | float text =>
    rintro rfl
    cases fits

/-- A value starts with a character that neither ends a list nor is space. -/
theorem print_head {v : Json} (fits : v.Fits depth) :
    ∃ c tail, v.print = c :: tail ∧ isSpace c = false ∧ c ≠ ']' := by
  cases v with
  | null => exact ⟨'n', "ull".toList, rfl, rfl, by decide⟩
  | bool value =>
    cases value with
    | false => exact ⟨'f', "alse".toList, rfl, rfl, by decide⟩
    | true => exact ⟨'t', "rue".toList, rfl, rfl, by decide⟩
  | num number =>
    obtain ⟨c, tail, printed⟩ := exists_cons_of_ne_nil (JsonNumber.print_ne_nil fits)
    have first := JsonNumber.numberChars fits c (printed ▸ mem_cons_self)
    refine ⟨c, tail, printed, ?_, ?_⟩
    · exact isSpace_of_isNumberChar first
    · rintro rfl
      cases first
  | str text => exact ⟨'"', _, rfl, rfl, by decide⟩
  | arr items => exact ⟨'[', _, rfl, rfl, by decide⟩
  | obj fields => exact ⟨'{', _, rfl, rfl, by decide⟩

theorem insertField_last {key : String} {value : Json} {held : Fields}
    (last : ∀ field ∈ held, field.1 < key) : insertField key value held = held ++ [(key, value)] := by
  induction held with
  | nil => rfl
  | cons field held ih =>
    have before := last field mem_cons_self
    have later := ih fun other mem => last other (mem_cons_of_mem _ mem)
    simp only [insertField, if_neg (lt_asymm before), if_neg (ne_of_gt before), later, cons_append]

theorem foldl_insertField {held : Fields}
    (sorted : (held ++ fields).Pairwise fun left right => left.1 < right.1) :
    fields.foldl (fun held field => insertField field.1 field.2 held) held = held ++ fields := by
  induction fields generalizing held with
  | nil => simp
  | cons field fields ih =>
    have last : ∀ other ∈ held, other.1 < field.1 := by
      intro other mem
      exact (pairwise_append.mp sorted).2.2 other mem field mem_cons_self
    have appended : held ++ field :: fields = (held ++ [field]) ++ fields := by simp
    rw [foldl_cons, insertField_last last]
    rw [appended] at sorted ⊢
    exact ih sorted

theorem ofFields_sorted (sorted : fields.Pairwise fun left right => left.1 < right.1) :
    ofFields fields = .obj fields :=
  congrArg Json.obj (foldl_insertField ((nil_append _).symm ▸ sorted))

theorem fitsFields_sorted (fits : fitsFields fields depth) :
    fields.Pairwise fun left right => left.1 < right.1 := by
  induction fields with
  | nil => exact List.Pairwise.nil
  | cons field fields ih => exact List.Pairwise.cons fits.2.1 (ih fits.2.2)

theorem ne_of_isNumberChar (number : isNumberChar c) (other : isNumberChar d = false) : c ≠ d := by
  rintro rfl
  cases other.symm.trans number

theorem numberEnd_of (mark : isNumberChar c = false) : NumberEnd (c :: rest) := by
  intro d mem
  rw [← Option.some.inj mem]
  exact mark

theorem takeWhile_numberEnd (ends : NumberEnd text) : text.takeWhile isNumberChar = [] := by
  cases text with
  | nil => rfl
  | cons c rest => exact takeWhile_cons_of_neg (by simp [ends c rfl])

theorem dropWhile_numberEnd (ends : NumberEnd text) : text.dropWhile isNumberChar = text := by
  cases text with
  | nil => rfl
  | cons c rest => exact dropWhile_cons_of_neg (by simp [ends c rfl])

theorem printItems_cons (item : Json) (items : List Json) :
    ∃ tail, print.printItems (item :: items) = item.print ++ tail := by
  cases items with
  | nil => exact ⟨[], (append_nil _).symm⟩
  | cons next items => exact ⟨_, rfl⟩

theorem printFields_cons (field : String × Json) (fields : Fields) :
    ∃ tail, print.printFields (field :: fields) = '"' :: tail := by
  cases fields with
  | nil => exact ⟨_, rfl⟩
  | cons next fields => exact ⟨_, rfl⟩

theorem scan_printString :
    (expect '"' (printString text ++ rest)).bind (scanString .plain) = some (text, rest) := by
  rw [printString, cons_append, append_assoc, singleton_append, expect_self rfl, Option.bind_some,
    scanString_printed]

section RoundTrip

variable [FloatText] {fuel depth : Nat}

theorem rereadFields_keys {fields again : Fields} (read : reread.rereadFields fields = some again) :
    again.map Prod.fst = fields.map Prod.fst := by
  induction fields generalizing again with
  | nil =>
    cases read
    rfl
  | cons field fields ih =>
    obtain ⟨value, -, others⟩ := Option.bind_eq_some_iff.mp read
    obtain ⟨tail, found, rfl⟩ := Option.map_eq_some_iff.mp others
    simp [ih found]

theorem rereadFields_sorted {fields again : Fields} (fits : fitsFields fields depth)
    (read : reread.rereadFields fields = some again) : again.Pairwise fun left right => left.1 < right.1 := by
  have sorted : (fields.map Prod.fst).Pairwise (· < ·) := pairwise_map.mpr (fitsFields_sorted fits)
  rw [← rereadFields_keys read] at sorted
  exact pairwise_map.mp sorted

theorem parseValue_quote :
    parseValue (fuel + 1) depth ('"' :: rest) =
      (scanString .plain rest).map fun found => (.str found.1, found.2) := by
  rfl

theorem parseValue_bracket (inside : expect ']' rest = none) :
    parseValue (fuel + 1) (depth + 1) ('[' :: rest) =
      (parseItems fuel depth rest).map fun found => (.arr found.1, found.2) := by
  have skip : skipSpace ('[' :: rest) = '[' :: rest := rfl
  simp [parseValue, skip, inside]

theorem parseValue_brace (inside : expect '}' rest = none) :
    parseValue (fuel + 1) (depth + 1) ('{' :: rest) =
      (parseFields fuel depth rest).map fun found => (ofFields found.1, found.2) := by
  have skip : skipSpace ('{' :: rest) = '{' :: rest := rfl
  simp [parseValue, skip, inside]

theorem parseValue_number (first : isNumberChar c) :
    parseValue (fuel + 1) depth (c :: rest) =
      (readNumber ((c :: rest).takeWhile isNumberChar)).map fun number =>
        (.num number, (c :: rest).dropWhile isNumberChar) := by
  have solid : isSpace c = false := isSpace_of_isNumberChar first
  have skip : skipSpace (c :: rest) = c :: rest := dropWhile_cons_of_neg (by simp [solid])
  have quote : c ≠ '"' := ne_of_isNumberChar first (by decide)
  have bracket : c ≠ '[' := ne_of_isNumberChar first (by decide)
  have brace : c ≠ '{' := ne_of_isNumberChar first (by decide)
  have null : c ≠ 'n' := ne_of_isNumberChar first (by decide)
  have true : c ≠ 't' := ne_of_isNumberChar first (by decide)
  have false : c ≠ 'f' := ne_of_isNumberChar first (by decide)
  simp [parseValue, skip, if_neg quote, if_neg bracket, if_neg brace, if_neg null, if_neg true, if_neg false]

theorem parseValue_printNumber {number : JsonNumber} (fits : (num number).Fits depth) (ends : NumberEnd rest) :
    parseValue (fuel + 1) depth (number.print ++ rest) =
      (readNumber number.print).map fun again => (.num again, rest) := by
  have chars := JsonNumber.numberChars fits
  have taken : (number.print ++ rest).takeWhile isNumberChar = number.print := by
    rw [takeWhile_append_of_pos chars, takeWhile_numberEnd ends, append_nil]
  have dropped : (number.print ++ rest).dropWhile isNumberChar = rest := by
    rw [dropWhile_append_of_pos chars, dropWhile_numberEnd ends]
  obtain ⟨c, tail, printed⟩ := exists_cons_of_ne_nil (JsonNumber.print_ne_nil fits)
  have first := chars c (printed ▸ mem_cons_self)
  rw [printed, cons_append] at taken dropped ⊢
  rw [parseValue_number first, taken, dropped]

mutual

/-- The text of a value is read as the value that its numbers make, in front of anything that ends a number. -/
theorem parseValue_print {fuel depth : Nat} {rest : Str} : (v : Json) → v.Fits depth →
    2 * v.print.length ≤ fuel → NumberEnd rest →
    parseValue (fuel + 1) depth (v.print ++ rest) = v.reread.map fun again => (again, rest)
  | null, fits, enough, ends => rfl
  | bool value, fits, enough, ends => by
    cases value <;> rfl
  | num (.int value), fits, enough, ends =>
    (parseValue_printNumber fits ends).trans (by rw [readNumber_int fits.1 fits.2]; rfl)
  | num (.float text), fits, enough, ends => by
    refine (parseValue_printNumber fits ends).trans ?_
    rw [JsonNumber.print, readNumber_float fits, reread, Option.map_map, Option.map_map]
    rfl
  | str text, fits, enough, ends => by
    rw [print, printString, cons_append, append_assoc, parseValue_quote, singleton_append,
      scanString_printed]
    rfl
  | arr [], fits, enough, ends => by
    cases depth with
    | zero => exact fits.elim
    | succ depth => rfl
  | arr (item :: items), fits, enough, ends => by
    obtain ⟨fuel, rfl⟩ :=
      Nat.exists_eq_add_of_le' (show 1 ≤ fuel by simp only [print, length_cons] at enough; omega)
    cases depth with
    | zero => exact fits.elim
    | succ depth =>
      have inside : expect ']' (print.printItems (item :: items) ++ ']' :: rest) = none := by
        obtain ⟨tail, items⟩ := printItems_cons item items
        obtain ⟨c, text, printed, solid, other⟩ := print_head fits.1
        rw [items, printed]
        exact expect_other solid other
      rw [print, cons_append, append_assoc, singleton_append, parseValue_bracket inside,
        parseItems_print item items fits (by simp only [print, length_cons, length_append] at enough; omega),
        reread, Option.map_map, Option.map_map]
      rfl
  | obj [], fits, enough, ends => by
    cases depth with
    | zero => exact fits.elim
    | succ depth => rfl
  | obj (field :: fields), fits, enough, ends => by
    obtain ⟨fuel, rfl⟩ :=
      Nat.exists_eq_add_of_le' (show 1 ≤ fuel by simp only [print, length_cons] at enough; omega)
    cases depth with
    | zero => exact fits.elim
    | succ depth =>
      have inside : expect '}' (print.printFields (field :: fields) ++ '}' :: rest) = none := by
        obtain ⟨tail, printed⟩ := printFields_cons field fields
        rw [printed]
        exact expect_other rfl (by decide)
      rw [print, cons_append, append_assoc, singleton_append, parseValue_brace inside,
        parseFields_print field fields fits
          (by simp [print] at enough; omega), reread]
      cases read : reread.rereadFields (field :: fields) with
      | none => rfl
      | some again => simp [ofFields_sorted (rereadFields_sorted fits read)]

theorem parseItems_print {fuel depth : Nat} {rest : Str} : (item : Json) → (items : List Json) →
    fitsItems (item :: items) depth → 2 * (print.printItems (item :: items)).length + 1 ≤ fuel →
    parseItems (fuel + 1) depth (print.printItems (item :: items) ++ ']' :: rest) =
      (reread.rereadItems (item :: items)).map fun again => (again, rest)
  | item, [], fits, enough => by
    obtain ⟨fuel, rfl⟩ := Nat.exists_eq_add_of_le' (show 1 ≤ fuel by omega)
    rw [print.printItems] at enough
    have value : parseValue (fuel + 1) depth (item.print ++ ']' :: rest) =
        item.reread.map fun again => (again, ']' :: rest) :=
      parseValue_print item fits.1 (by omega) (numberEnd_of rfl)
    rw [print.printItems, parseItems, value, reread.rereadItems, reread.rereadItems]
    cases item.reread with
    | none => rfl
    | some again => simp [expect_other, expect_self, isSpace]
  | item, next :: items, fits, enough => by
    obtain ⟨fuel, rfl⟩ := Nat.exists_eq_add_of_le' (show 1 ≤ fuel by omega)
    simp only [print.printItems, length_append, length_cons] at enough
    have others : parseItems (fuel + 1) depth (print.printItems (next :: items) ++ ']' :: rest) =
        (reread.rereadItems (next :: items)).map fun again => (again, rest) :=
      parseItems_print next items fits.2 (by omega)
    rw [print.printItems, append_assoc, cons_append, parseItems, reread.rereadItems]
    generalize print.printItems (next :: items) ++ ']' :: rest = tail at others
    have value : parseValue (fuel + 1) depth (item.print ++ ',' :: tail) =
        item.reread.map fun again => (again, ',' :: tail) :=
      parseValue_print item fits.1 (by omega) (numberEnd_of rfl)
    rw [value]
    cases item.reread with
    | none => rfl
    | some again =>
      simp only [Option.map_some, Option.bind_some, expect_self (c := ',') rfl, others, Option.map_map]
      rfl

theorem parseFields_print {fuel depth : Nat} {rest : Str} : (field : String × Json) →
    (fields : Fields) →
    fitsFields (field :: fields) depth → 2 * (print.printFields (field :: fields)).length + 1 ≤ fuel →
    parseFields (fuel + 1) depth (print.printFields (field :: fields) ++ '}' :: rest) =
      (reread.rereadFields (field :: fields)).map fun again => (again, rest)
  | (key, value), [], fits, enough => by
    obtain ⟨fuel, rfl⟩ := Nat.exists_eq_add_of_le' (show 1 ≤ fuel by omega)
    simp only [print.printFields, length_append, length_cons] at enough
    have name : (expect '"' (printString key.toList ++ ':' :: (value.print ++ '}' :: rest))).bind
        (scanString .plain) =
        some (key.toList, ':' :: (value.print ++ '}' :: rest)) := scan_printString
    have held : parseValue (fuel + 1) depth (value.print ++ '}' :: rest) =
        value.reread.map fun again => (again, '}' :: rest) :=
      parseValue_print value fits.1 (by omega) (numberEnd_of rfl)
    rw [print.printFields, append_assoc, cons_append, parseFields, name, Option.bind_some,
      expect_self rfl, Option.bind_some, held, reread.rereadFields, reread.rereadFields]
    cases value.reread with
    | none => rfl
    | some again => simp [expect_other, expect_self, isSpace]
  | (key, value), next :: fields, fits, enough => by
    obtain ⟨fuel, rfl⟩ := Nat.exists_eq_add_of_le' (show 1 ≤ fuel by omega)
    simp only [print.printFields, length_append, length_cons] at enough
    have others : parseFields (fuel + 1) depth (print.printFields (next :: fields) ++ '}' :: rest) =
        (reread.rereadFields (next :: fields)).map fun again => (again, rest) :=
      parseFields_print next fields fits.2.2 (by omega)
    rw [print.printFields, append_assoc, cons_append, append_assoc, cons_append, parseFields,
      reread.rereadFields]
    generalize print.printFields (next :: fields) ++ '}' :: rest = tail at others
    have name : (expect '"' (printString key.toList ++ ':' :: (value.print ++ ',' :: tail))).bind
        (scanString .plain) =
        some (key.toList, ':' :: (value.print ++ ',' :: tail)) := scan_printString
    have held : parseValue (fuel + 1) depth (value.print ++ ',' :: tail) =
        value.reread.map fun again => (again, ',' :: tail) :=
      parseValue_print value fits.1 (by omega) (numberEnd_of rfl)
    rw [name, Option.bind_some, expect_self rfl, Option.bind_some, held]
    cases value.reread with
    | none => rfl
    | some again =>
      simp only [Option.map_some, Option.bind_some, expect_self (c := ',') rfl, others, Option.map_map,
        String.ofList_toList]
      rfl

end

/-- A printed value is read back, with its floats as they are read. -/
theorem parse_print {v : Json} (fits : v.Fits maxDepth) : parse v.print = v.reread := by
  have ends : NumberEnd [] := fun c mem => by cases mem
  have read : parseValue (2 * v.print.length + 2) maxDepth v.print = v.reread.map fun again => (again, []) := by
    have front : parseValue (2 * v.print.length + 2) maxDepth (v.print ++ []) =
        v.reread.map fun again => (again, []) :=
      parseValue_print v fits (by omega) ends
    rwa [append_nil] at front
  rw [parse, read]
  cases v.reread with
  | none => rfl
  | some again => rfl

theorem fits_of_readNumber {number : JsonNumber} (read : readNumber text = some number) :
    (num number).Fits depth := by
  have float : ∀ {found}, (FloatText.read text).map JsonNumber.float = some found → (num found).Fits depth := by
    intro found read
    obtain ⟨written, literal, rfl⟩ := Option.map_eq_some_iff.mp read
    exact FloatText.literal literal
  unfold readNumber at read
  dsimp only at read
  split_ifs at read with whole plain small range fraction
  · cases read
    simp only [Fits]
    omega
  · exact float read
  · cases read
    simp only [Fits]
    omega
  · exact float read
  · exact float read

end RoundTrip

variable {depth : Nat} {fields : Fields} {value : Json} {key : String}

theorem fitsFields_iff :
    fitsFields fields depth ↔
      (∀ field ∈ fields, field.2.Fits depth) ∧ fields.Pairwise fun left right => left.1 < right.1 := by
  induction fields with
  | nil => simp [fitsFields]
  | cons field fields ih =>
    simp only [fitsFields, ih, forall_mem_cons, pairwise_cons]
    tauto

theorem fitsItems_iff {items : List Json} :
    fitsItems items depth ↔ ∀ item ∈ items, item.Fits depth := by
  induction items with
  | nil => simp [fitsItems]
  | cons item items ih => simp [fitsItems, ih]

theorem fits_arr_iff {items : List Json} :
    (arr items).Fits depth ↔ ∃ inner, depth = inner + 1 ∧ ∀ item ∈ items, item.Fits inner := by
  cases depth with
  | zero => simp [Fits]
  | succ depth => simp [Fits, fitsItems_iff]

theorem fits_obj_iff : (obj fields).Fits depth ↔
    ∃ inner, depth = inner + 1 ∧ (∀ field ∈ fields, field.2.Fits inner) ∧
      fields.Pairwise fun left right => left.1 < right.1 := by
  cases depth with
  | zero => simp [Fits]
  | succ depth => simp [Fits, fitsFields_iff]

theorem mem_insertField {field : String × Json} (mem : field ∈ insertField key value fields) :
    field = (key, value) ∨ field ∈ fields := by
  induction fields with
  | nil => exact .inl (mem_singleton.mp mem)
  | cons other fields ih =>
    unfold insertField at mem
    split_ifs at mem with before same
    · exact mem_cons.mp mem
    · rcases mem_cons.mp mem with new | old
      · exact .inl new
      · exact .inr (mem_cons_of_mem _ old)
    · rcases mem_cons.mp mem with first | later
      · exact .inr (first ▸ mem_cons_self)
      · rcases ih later with new | old
        · exact .inl new
        · exact .inr (mem_cons_of_mem _ old)

theorem insertField_sorted (sorted : fields.Pairwise fun left right => left.1 < right.1) :
    (insertField key value fields).Pairwise fun left right => left.1 < right.1 := by
  induction fields with
  | nil => exact pairwise_singleton _ _
  | cons other fields ih =>
    obtain ⟨first, others⟩ := pairwise_cons.mp sorted
    unfold insertField
    split_ifs with before same
    · refine List.Pairwise.cons ?_ sorted
      intro field mem
      rcases mem_cons.mp mem with rfl | later
      · exact before
      · exact lt_trans before (first field later)
    · refine List.Pairwise.cons ?_ others
      intro field mem
      exact same ▸ first field mem
    · refine List.Pairwise.cons ?_ (ih others)
      intro field mem
      rcases mem_insertField mem with rfl | old
      · exact lt_of_le_of_ne (not_lt.mp before) (Ne.symm same)
      · exact first field old

theorem insertField_fits (fits : fitsFields fields depth) (new : value.Fits depth) :
    fitsFields (insertField key value fields) depth := by
  obtain ⟨values, sorted⟩ := fitsFields_iff.mp fits
  refine fitsFields_iff.mpr ⟨?_, insertField_sorted sorted⟩
  intro field mem
  rcases mem_insertField mem with rfl | old
  · exact new
  · exact values field old

theorem ofFields_fits (values : ∀ field ∈ fields, field.2.Fits depth) :
    (ofFields fields).Fits (depth + 1) := by
  have folded : ∀ held, fitsFields held depth →
      fitsFields (fields.foldl (fun held field => insertField field.1 field.2 held) held) depth := by
    induction fields with
    | nil => exact fun held fits => fits
    | cons field fields ih =>
      intro held fits
      exact ih (fun other mem => values other (mem_cons_of_mem _ mem)) _
        (insertField_fits fits (values field mem_cons_self))
  exact folded [] trivial

theorem literal_eq {word : Str} {v : Json} (read : literal word value text = some (v, rest)) : v = value := by
  unfold literal at read
  split_ifs at read
  cases read
  rfl

section Sound

variable [FloatText]

/-- What is read at each level fits, by induction on the fuel. -/
theorem parse_fits (fuel : Nat) : ∀ depth text,
    (∀ {v rest}, parseValue fuel depth text = some (v, rest) → v.Fits depth) ∧
      (∀ {items rest}, parseItems fuel depth text = some (items, rest) → ∀ item ∈ items, Fits item depth) ∧
      (∀ {fields rest}, parseFields fuel depth text = some (fields, rest) →
        ∀ field ∈ fields, Fits field.2 depth) := by
  induction fuel with
  | zero =>
    intro depth text
    refine ⟨fun read => ?_, fun read => ?_, fun read => ?_⟩
    · cases read
    · cases read
    · cases read
  | succ fuel ih =>
    intro depth text
    refine ⟨fun {v rest} read => ?_, fun {items rest} read => ?_, fun {fields rest} read => ?_⟩
    · unfold parseValue at read
      split at read
      · cases read
      split_ifs at read with quote bracket brace null true false
      · obtain ⟨found, -, same⟩ := Option.map_eq_some_iff.mp read
        cases same
        trivial
      · split at read
        · cases read
        · cases read
          trivial
        · obtain ⟨found, inside, same⟩ := Option.map_eq_some_iff.mp read
          cases same
          exact fitsItems_iff.mpr ((ih _ _).2.1 inside)
      · split at read
        · cases read
        · cases read
          trivial
        · obtain ⟨found, inside, same⟩ := Option.map_eq_some_iff.mp read
          cases same
          exact ofFields_fits ((ih _ _).2.2 inside)
      · exact literal_eq read ▸ trivial
      · exact literal_eq read ▸ trivial
      · exact literal_eq read ▸ trivial
      · obtain ⟨number, found, same⟩ := Option.map_eq_some_iff.mp read
        cases same
        exact fits_of_readNumber found
    · obtain ⟨item, first, others⟩ := Option.bind_eq_some_iff.mp read
      have head := (ih depth text).1 first
      split at others
      · obtain ⟨tail, found, same⟩ := Option.map_eq_some_iff.mp others
        cases same
        exact forall_mem_cons.mpr ⟨head, (ih _ _).2.1 found⟩
      · obtain ⟨tail, -, same⟩ := Option.map_eq_some_iff.mp others
        cases same
        exact forall_mem_singleton.mpr head
    · obtain ⟨key, -, others⟩ := Option.bind_eq_some_iff.mp read
      obtain ⟨value, found, others⟩ := Option.bind_eq_some_iff.mp others
      obtain ⟨start, -, found⟩ := Option.bind_eq_some_iff.mp found
      have head := (ih depth start).1 found
      split at others
      · obtain ⟨tail, found, same⟩ := Option.map_eq_some_iff.mp others
        cases same
        exact forall_mem_cons.mpr ⟨head, (ih _ _).2.2 found⟩
      · obtain ⟨tail, -, same⟩ := Option.map_eq_some_iff.mp others
        cases same
        exact forall_mem_singleton.mpr head

theorem fits_of_parse {v : Json} (read : parse text = some v) : v.Fits maxDepth := by
  obtain ⟨found, first, whole⟩ := Option.bind_eq_some_iff.mp read
  split_ifs at whole
  cases whole
  exact (parse_fits _ _ _).1 first

end Sound

/-- A reader that keeps the text of every float. -/
@[reducible] def verbatim : FloatText where
  read text := if isFloatLiteral text then some text else none
  literal {text written} read := by
    split_ifs at read with float
    cases read
    exact float

mutual

theorem reread_verbatim {depth : Nat} : (v : Json) → v.Fits depth → @reread verbatim v = some v
  | null, _ => rfl
  | bool _, _ => rfl
  | num (.int _), _ => rfl
  | num (.float text), fits => by
    have kept : verbatim.read text = some text := if_pos fits
    simp [reread, kept]
  | str _, _ => rfl
  | arr items, fits => by
    cases depth with
    | zero => exact fits.elim
    | succ depth => simp [reread, rereadItems_verbatim items fits]
  | obj fields, fits => by
    cases depth with
    | zero => exact fits.elim
    | succ depth => simp [reread, rereadFields_verbatim fields fits]

theorem rereadItems_verbatim {depth : Nat} : (items : List Json) → fitsItems items depth →
    @reread.rereadItems verbatim items = some items
  | [], _ => rfl
  | item :: items, fits => by
    simp [reread.rereadItems, reread_verbatim item fits.1, rereadItems_verbatim items fits.2]

theorem rereadFields_verbatim {depth : Nat} : (fields : Fields) → fitsFields fields depth →
    @reread.rereadFields verbatim fields = some fields
  | [], _ => rfl
  | (key, value) :: fields, fits => by
    simp [reread.rereadFields, reread_verbatim value fits.1, rereadFields_verbatim fields fits.2.2]

end

/-- No number is written with a fraction or an exponent. -/
def wholeNumbers : Json → Bool
  | num (.float _) => false
  | arr items => wholeItems items
  | obj fields => wholeFields fields
  | _ => true
where
  wholeItems : List Json → Bool
    | [] => true
    | item :: items => wholeNumbers item && wholeItems items
  wholeFields : Fields → Bool
    | [] => true
    | (_, value) :: fields => wholeNumbers value && wholeFields fields

mutual

theorem reread_whole [FloatText] : (v : Json) → v.wholeNumbers → v.reread = some v
  | null, _ => rfl
  | bool _, _ => rfl
  | num (.int _), _ => rfl
  | str _, _ => rfl
  | arr items, whole => by
    rw [reread, rereadItems_whole items whole, Option.map_some]
  | obj fields, whole => by
    rw [wholeNumbers] at whole
    rw [reread, rereadFields_whole fields whole, Option.map_some]

theorem rereadItems_whole [FloatText] : (items : List Json) → wholeNumbers.wholeItems items →
    reread.rereadItems items = some items
  | [], _ => rfl
  | item :: items, whole => by
    rw [wholeNumbers.wholeItems, Bool.and_eq_true] at whole
    rw [reread.rereadItems, reread_whole item whole.1, rereadItems_whole items whole.2]
    rfl

theorem rereadFields_whole [FloatText] : (fields : Fields) → wholeNumbers.wholeFields fields →
    reread.rereadFields fields = some fields
  | [], _ => rfl
  | (key, value) :: fields, whole => by
    rw [wholeNumbers.wholeFields, Bool.and_eq_true] at whole
    rw [reread.rereadFields, reread_whole value whole.1, rereadFields_whole fields whole.2]
    rfl

end

/-- Different values have different texts. -/
theorem print_injective {v w : Json} (left : v.Fits maxDepth) (right : w.Fits maxDepth) (same : v.print = w.print) :
    v = w := by
  have read := @parse_print verbatim _ left
  rw [same, @parse_print verbatim _ right, reread_verbatim v left, reread_verbatim w right] at read
  exact (Option.some.inj read).symm

end Json
