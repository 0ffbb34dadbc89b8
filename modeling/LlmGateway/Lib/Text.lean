import Mathlib.Algebra.GroupWithZero.Nat
import Mathlib.Data.List.TakeWhile

/-- A text as the sequence of its characters. -/
abbrev Str := List Char

instance (priority := 1100) {p : Char → Prop} [DecidablePred p] (text : Str) : Decidable (∀ c ∈ text, p c) :=
  List.decidableBAll p text

instance : LawfulBEq Str := List.instLawfulBEq

namespace Text

open List Option

variable {pattern before after : Str}

/-- The characters with the Unicode property `White_Space`. -/
def isWhitespace (c : Char) : Bool :=
  let n := c.toNat
  (9 ≤ n && n ≤ 13) || n == 0x20 || n == 0x85 || n == 0xa0 || n == 0x1680 || (0x2000 ≤ n && n ≤ 0x200a) ||
    n == 0x2028 || n == 0x2029 || n == 0x202f || n == 0x205f || n == 0x3000

def trimStart (text : Str) : Str := text.dropWhile isWhitespace

def trim (text : Str) : Str :=
  ((text.dropWhile isWhitespace).reverse.dropWhile isWhitespace).reverse

def asciiLower (c : Char) : Char := if 'A' ≤ c ∧ c ≤ 'Z' then Char.ofNat (c.toNat + 32) else c

def toAsciiLowercase (text : Str) : Str := text.map asciiLower

def eqIgnoreAsciiCase (left right : Str) : Bool := toAsciiLowercase left == toAsciiLowercase right

/-- The length in bytes of the UTF-8 encoding. -/
def utf8Len (text : Str) : Nat := (text.map Char.utf8Size).sum

def hexValue (c : Char) : Option Nat :=
  let n := c.toNat
  if 48 ≤ n && n ≤ 57 then some (n - 48)
  else if 65 ≤ n && n ≤ 70 then some (n - 55)
  else if 97 ≤ n && n ≤ 102 then some (n - 87)
  else none

/-- What stands before and after the first occurrence of the pattern. -/
def cutAt (pattern : Str) : Str → Option (Str × Str)
  | [] => if pattern.isEmpty then some ([], []) else none
  | c :: rest =>
    if pattern.isPrefixOf (c :: rest) then some ([], (c :: rest).drop pattern.length)
    else (cutAt pattern rest).map fun pieces => (c :: pieces.1, pieces.2)

/-- The trimmed text, unless it is blank. -/
def nonBlank (text : Str) : Option Str :=
  let trimmed := trim text
  if trimmed.isEmpty then none else some trimmed

/-- Every placeholder `{0}` is replaced, from left to right. -/
def fill (value : Str) : Str → Str
  | '{' :: '0' :: '}' :: rest => value ++ fill value rest
  | c :: rest => c :: fill value rest
  | [] => []

variable {text left right piece : Str} {c sep : Char}

theorem trim_sublist : (trim text).Sublist text := by
  have front := dropWhile_sublist isWhitespace (l := text)
  have back := dropWhile_sublist isWhitespace (l := (text.dropWhile isWhitespace).reverse)
  exact (reverse_sublist.mp (by simpa [trim] using back)).trans front

theorem dropWhile_eq_self {p : Char → Bool} (first : ∀ c ∈ text.head?, p c = false) : text.dropWhile p = text := by
  cases text with
  | nil => rfl
  | cons c rest => exact dropWhile_cons_of_neg (by simp [first c rfl])

theorem head_dropWhile {p : Char → Bool} : ∀ c ∈ (text.dropWhile p).head?, p c = false := by
  induction text with
  | nil =>
    intro c mem
    cases mem
  | cons d rest ih =>
    by_cases dropped : p d
    · rwa [dropWhile_cons_of_pos dropped]
    · intro c mem
      rw [dropWhile_cons_of_neg dropped] at mem
      cases mem
      exact Bool.eq_false_iff.mpr dropped

/-- A text without whitespace at its ends is not changed. -/
theorem trim_eq_self (first : ∀ c ∈ text.head?, isWhitespace c = false)
    (last : ∀ c ∈ text.getLast?, isWhitespace c = false) : trim text = text := by
  rw [trim, dropWhile_eq_self first, dropWhile_eq_self (List.head?_reverse ▸ last), reverse_reverse]

theorem trim_bracketed {first last : Char} (opening : isWhitespace first = false)
    (closing : isWhitespace last = false) :
    trim (first :: (text ++ [last])) = first :: (text ++ [last]) := by
  refine trim_eq_self ?_ ?_
  · intro c mem
    exact Option.some.inj mem ▸ opening
  · intro c mem
    rw [← cons_append, List.getLast?_concat] at mem
    exact Option.some.inj mem ▸ closing

theorem trim_trim : trim (trim text) = trim text := by
  refine trim_eq_self ?_ ?_
  · intro c mem
    have shorter : trim text <+: text.dropWhile isWhitespace := by
      have suffix := dropWhile_suffix isWhitespace (l := (text.dropWhile isWhitespace).reverse)
      rwa [← reverse_prefix, reverse_reverse] at suffix
    obtain ⟨tail, whole⟩ := shorter
    have head : c ∈ (text.dropWhile isWhitespace).head? := by
      rw [← whole, List.head?_append, mem_def.mp mem]
      rfl
    exact head_dropWhile c head
  · intro c mem
    rw [trim, List.getLast?_reverse] at mem
    exact head_dropWhile c mem

theorem isEmpty_trim_iff : (trim text).isEmpty ↔ ∀ c ∈ text, isWhitespace c := by
  rw [List.isEmpty_iff, trim, reverse_eq_nil_iff, dropWhile_eq_nil_iff]
  constructor
  · intro blank
    cases left : text.dropWhile isWhitespace with
    | nil => exact dropWhile_eq_nil_iff.mp left
    | cons c rest =>
      have space := blank c (by simp [left])
      have solid := head_dropWhile c (mem_def.mpr (congrArg List.head? left))
      cases solid.symm.trans space
  · intro blank c mem
    rw [dropWhile_eq_nil_iff.mpr blank] at mem
    cases mem

theorem nonBlank_eq_some_iff : nonBlank text = some piece ↔ trim text = piece ∧ piece.isEmpty = false := by
  unfold nonBlank
  dsimp only
  split_ifs with blank
  · refine iff_of_false (by simp) ?_
    rintro ⟨rfl, filled⟩
    cases filled.symm.trans blank
  · rw [Option.some.injEq]
    refine ⟨fun same => ⟨same, same ▸ Bool.eq_false_iff.mpr blank⟩, fun found => found.1⟩

theorem nonBlank_ne_nil (found : nonBlank text = some piece) : piece.isEmpty = false :=
  (nonBlank_eq_some_iff.mp found).2

theorem nonBlank_nonBlank (found : nonBlank text = some piece) : nonBlank piece = some piece := by
  obtain ⟨rfl, filled⟩ := nonBlank_eq_some_iff.mp found
  exact nonBlank_eq_some_iff.mpr ⟨trim_trim, filled⟩

theorem cutAt_eq_append (found : cutAt pattern text = some (before, after)) :
    text = before ++ (pattern ++ after) := by
  induction text generalizing before with
  | nil =>
    unfold cutAt at found
    split_ifs at found with empty
    cases found
    rw [List.isEmpty_iff.mp empty]
    rfl
  | cons c rest ih =>
    unfold cutAt at found
    split_ifs at found with here
    · cases found
      obtain ⟨tail, whole⟩ := isPrefixOf_iff_prefix.mp here
      rw [← whole, drop_left, nil_append]
    · obtain ⟨pieces, later, same⟩ := map_eq_some_iff.mp found
      cases same
      rw [cons_append, ← ih later]

theorem isSome_cutAt : (cutAt pattern (before ++ (pattern ++ after))).isSome := by
  induction before with
  | nil =>
    cases whole : pattern ++ after with
    | nil => simp [cutAt, (append_eq_nil_iff.mp whole).1]
    | cons c rest =>
      have starts : pattern.isPrefixOf (c :: rest) := isPrefixOf_iff_prefix.mpr ⟨after, whole⟩
      simp [cutAt, starts]
  | cons c rest ih =>
    rw [cons_append, cutAt]
    split_ifs
    · rfl
    · rw [isSome_map, ih]

theorem not_prefix_of_cutAt_eq_none (absent : cutAt pattern text = none) (i : Nat) :
    ¬ pattern <+: text.drop i := by
  rintro ⟨after, found⟩
  have hit : (cutAt pattern (text.take i ++ (pattern ++ after))).isSome := isSome_cutAt
  rw [found, take_append_drop, absent] at hit
  cases hit

/-- Where no occurrence starts, the search may skip ahead. -/
theorem cutAt_skip {n : Nat} (within : n ≤ text.length) (absent : ∀ i < n, ¬ pattern <+: text.drop i) :
    cutAt pattern text = (cutAt pattern (text.drop n)).map fun pieces => (text.take n ++ pieces.1, pieces.2) := by
  induction n generalizing text with
  | zero => simp
  | succ n ih =>
    cases text with
    | nil => simp at within
    | cons c rest =>
      have here : pattern.isPrefixOf (c :: rest) = false := by
        rw [Bool.eq_false_iff, Ne, isPrefixOf_iff_prefix]
        exact absent 0 (Nat.succ_pos n)
      have later := ih (Nat.le_of_succ_le_succ within) fun i lower => absent (i + 1) (Nat.succ_lt_succ lower)
      rw [cutAt, here, if_neg Bool.false_ne_true, later, Option.map_map, drop_succ_cons, take_succ_cons]
      rfl

theorem cutAt_prefix : cutAt pattern (pattern ++ after) = some ([], after) := by
  cases whole : pattern ++ after with
  | nil =>
    obtain ⟨rfl, rfl⟩ := append_eq_nil_iff.mp whole
    rfl
  | cons c rest =>
    have starts : pattern.isPrefixOf (c :: rest) := isPrefixOf_iff_prefix.mpr ⟨after, whole⟩
    rw [cutAt, if_pos starts, ← whole, drop_left]

theorem cutAt_first (found : cutAt pattern text = some (before, after)) {i : Nat} (earlier : i < before.length) :
    ¬ pattern <+: text.drop i := by
  induction text generalizing before i with
  | nil =>
    unfold cutAt at found
    split_ifs at found
    cases found
    cases earlier
  | cons c rest ih =>
    unfold cutAt at found
    split_ifs at found with here
    · cases found
      cases earlier
    · obtain ⟨pieces, later, same⟩ := map_eq_some_iff.mp found
      cases same
      cases i with
      | zero => exact fun starts => here ( isPrefixOf_iff_prefix.mpr starts)
      | succ i => exact ih later (Nat.lt_of_succ_lt_succ earlier)

/-- The cut is at the first occurrence. -/
theorem cutAt_eq_some_iff :
    cutAt pattern text = some (before, after) ↔
      text = before ++ (pattern ++ after) ∧ ∀ i < before.length, ¬ pattern <+: text.drop i := by
  constructor
  · intro found
    exact ⟨cutAt_eq_append found, fun i earlier => cutAt_first found earlier⟩
  · rintro ⟨rfl, first⟩
    rw [cutAt_skip (by simp) first, drop_left, take_left, cutAt_prefix, map_some, append_nil]

/-- An occurrence is found whatever follows. -/
theorem cutAt_append (found : cutAt pattern text = some (before, after)) (more : Str) :
    cutAt pattern (text ++ more) = some (before, after ++ more) := by
  obtain ⟨whole, first⟩ := cutAt_eq_some_iff.mp found
  refine cutAt_eq_some_iff.mpr ⟨by rw [whole]; simp only [append_assoc], ?_⟩
  intro i earlier starts
  have short : pattern.length ≤ (text.drop i).length := by
    rw [whole, length_drop]
    simp only [length_append]
    omega
  have within : i ≤ text.length := by
    rw [whole]
    simp only [length_append]
    omega
  rw [drop_append_of_le_length within] at starts
  exact first i earlier (prefix_of_prefix_length_le starts (prefix_append _ _) short)

theorem toAsciiLowercase_append :
    toAsciiLowercase (left ++ right) = toAsciiLowercase left ++ toAsciiLowercase right :=
  map_append

@[simp] theorem length_toAsciiLowercase : (toAsciiLowercase text).length = text.length := length_map ..

theorem eqIgnoreAsciiCase_iff : eqIgnoreAsciiCase left right ↔ toAsciiLowercase left = toAsciiLowercase right := by
  simp [eqIgnoreAsciiCase]

@[simp] theorem utf8Len_nil : utf8Len [] = 0 := rfl

@[simp] theorem utf8Len_cons : utf8Len (c :: text) = c.utf8Size + utf8Len text := rfl

@[simp] theorem utf8Len_append : utf8Len (left ++ right) = utf8Len left + utf8Len right := by
  simp [utf8Len]

/-- A character is its own lower case, unless it is one of the letters `A` to `Z`. -/
theorem asciiLower_cases (c : Char) :
    asciiLower c = c ∨ (65 ≤ c.toNat ∧ c.toNat ≤ 90 ∧ (asciiLower c).toNat = c.toNat + 32) := by
  unfold asciiLower
  split_ifs with upper
  · have high : c.toNat ≤ 90 := UInt32.le_iff_toNat_le.mp upper.2
    refine .inr ⟨UInt32.le_iff_toNat_le.mp upper.1, high, ?_⟩
    rw [Char.ofNat, dif_pos (Or.inl (by omega))]
    rfl
  · exact .inl rfl

/-- Only letters change, so the equals sign is neither made nor lost. -/
theorem asciiLower_eq_equals : asciiLower c = '=' ↔ c = '=' := by
  have code : '='.toNat = 61 := rfl
  rcases asciiLower_cases c with same | ⟨low, high, shifted⟩
  · rw [same]
  · constructor
    · intro same
      rw [same] at shifted
      omega
    · rintro rfl
      omega

theorem isWhitespace_asciiLower (c : Char) : isWhitespace (asciiLower c) = isWhitespace c := by
  rcases asciiLower_cases c with same | ⟨low, high, shifted⟩
  · rw [same]
  · simp only [isWhitespace, shifted]
    grind

theorem asciiLower_asciiLower (c : Char) : asciiLower (asciiLower c) = asciiLower c := by
  rcases asciiLower_cases c with same | ⟨low, high, shifted⟩
  · rw [same, same]
  · rcases asciiLower_cases (asciiLower c) with same | ⟨_, bound, _⟩
    · exact same
    · omega

theorem trim_toAsciiLowercase : trim (toAsciiLowercase text) = toAsciiLowercase (trim text) := by
  have same : isWhitespace ∘ asciiLower = isWhitespace := funext isWhitespace_asciiLower
  simp only [trim, toAsciiLowercase, dropWhile_map, ← map_reverse, same]

theorem equals_mem_toAsciiLowercase : '=' ∈ toAsciiLowercase text ↔ '=' ∈ text := by
  simp [toAsciiLowercase, asciiLower_eq_equals]

theorem splitOn_sublist (mem : piece ∈ text.splitOn sep) : piece.Sublist text := by
  induction text generalizing piece with
  | nil => simp_all
  | cons first rest ih =>
    simp only [List.splitOn, splitOnP_cons_eq_if_modifyHead] at mem ih
    split at mem
    · rcases mem_cons.mp mem with rfl | later
      · exact nil_sublist _
      · exact (ih later).cons first
    · cases pieces : rest.splitOnP (· == sep) with
      | nil => exact absurd pieces (splitOnP_ne_nil _ _)
      | cons head tail =>
        rw [pieces] at mem ih
        rcases mem_cons.mp mem with rfl | later
        · exact (ih mem_cons_self).cons_cons first
        · exact (ih (mem_cons_of_mem _ later)).cons first

/-- Where no brace opens, nothing is replaced. -/
theorem fill_append_of_notMem {value : Str} (closed : '{' ∉ left) :
    fill value (left ++ right) = left ++ fill value right := by
  induction left with
  | nil => rfl
  | cons first rest ih =>
    have different : first ≠ '{' := fun same => closed (same ▸ mem_cons_self)
    rw [cons_append, fill, ih (fun mem => closed (mem_cons_of_mem _ mem)), cons_append]
    intro _ same
    exact absurd same different

/-- A placeholder does not reach across a character that is none of its own. -/
theorem fill_append_cons {value : Str} (zero : c ≠ '0') (close : c ≠ '}') :
    fill value (left ++ c :: right) = fill value left ++ fill value (c :: right) := by
  fun_induction fill value left with
  | case1 rest ih => simp [fill, ih]
  | case2 first rest placeholder ih =>
    rw [cons_append, fill, ih, cons_append]
    intro tail same reaches
    rcases rest with _ | ⟨second, _ | ⟨third, rest⟩⟩
    · exact zero (List.cons.inj reaches).1
    · exact close (List.cons.inj (List.cons.inj reaches).2).1
    · obtain ⟨rfl, later⟩ := List.cons.inj reaches
      obtain ⟨rfl, -⟩ := List.cons.inj later
      exact placeholder rest same rfl
  | case3 => rfl

end Text
