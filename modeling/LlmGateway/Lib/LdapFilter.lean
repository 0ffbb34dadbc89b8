import LlmGateway.Lib.Text
import Mathlib.Algebra.Order.BigOperators.Group.List
import Mathlib.Algebra.Order.Group.Nat

namespace LdapFilter

open List UInt8

open Text (hexValue)

universe u v w

/-- The characters that stand for themselves in an assertion value. -/
def isNormal (c : Char) : Bool := !(c == '\x00' || c == '(' || c == ')' || c == '*' || c == '\\')

def utf8 (text : Str) : List UInt8 := text.flatMap String.utf8EncodeChar

/-- The octets of an encoded assertion value. -/
def decode : Str → Option (List UInt8)
  | '\\' :: high :: low :: rest =>
    match hexValue high, hexValue low with
    | some h, some l => (decode rest).map (ofNat (16 * h + l) :: ·)
    | _, _ => none
  | c :: rest => if isNormal c then (decode rest).map (String.utf8EncodeChar c ++ ·) else none
  | [] => some []

/-- The same with the placeholder `{0}`, which is left open. -/
def decodeTemplate : Str → Option (List (Option UInt8))
  | '{' :: '0' :: '}' :: rest => (decodeTemplate rest).map (none :: ·)
  | '\\' :: high :: low :: rest =>
    match hexValue high, hexValue low with
    | some h, some l => (decodeTemplate rest).map (some (ofNat (16 * h + l)) :: ·)
    | _, _ => none
  | c :: rest => if isNormal c then (decodeTemplate rest).map ((String.utf8EncodeChar c).map some ++ ·) else none
  | [] => some []

/-- The open places of a template filled with one value. -/
def plug (value : List UInt8) (parts : List (Option UInt8)) : List UInt8 :=
  parts.flatMap fun
    | none => value
    | some octet => [octet]

/-- An assertion value as it is written, with the octets it stands for. -/
structure Value where
  text : Str
  octets : List UInt8
  decoded : decode text = some octets

structure Template where
  text : Str
  parts : List (Option UInt8)
  decoded : decodeTemplate text = some parts

inductive FilterType
  | equal
  | approx
  | greaterOrEqual
  | lessOrEqual
  | extensible
deriving DecidableEq

/-- What a filter type puts before its equals sign. -/
def FilterType.mark : FilterType → Str
  | .equal => []
  | .approx => ['~']
  | .greaterOrEqual => ['>']
  | .lessOrEqual => ['<']
  | .extensible => [':']

def isAttrChar (c : Char) : Bool := c.isAlphanum || c == '-' || c == ';' || c == '.'

/-- The left side of an item: an attribute description, for an extensible match
with the rule it names. -/
@[ext] structure Left where
  text : Str
  type : FilterType
  nonempty : text ≠ []
  chars : ∀ c ∈ text, isAttrChar c ∨ type = .extensible ∧ c = ':'

/-- A comparison with one value. A substring filter has a value after each star; `attr=*` is the presence test. -/
@[ext] structure Item (V : Type u) where
  left : Left
  value : V
  stars : List V
  onlyEqual : stars ≠ [] → left.type = .equal

mutual

/-- The filters of RFC 4515, with values of any kind. -/
inductive FilterTree (V : Type u)
  | and (list : FilterTrees V)
  | or (list : FilterTrees V)
  | not (filter : FilterTree V)
  | item (item : Item V)

inductive FilterTrees (V : Type u)
  | single (filter : FilterTree V)
  | cons (filter : FilterTree V) (rest : FilterTrees V)

end

variable {V : Type u} {W : Type v} {X : Type w}

def Item.map (f : V → W) (item : Item V) : Item W where
  left := item.left
  value := f item.value
  stars := item.stars.map f
  onlyEqual present := item.onlyEqual fun none => present (by rw [none]; rfl)

mutual

def FilterTree.map (f : V → W) : FilterTree V → FilterTree W
  | .and list => .and (list.map f)
  | .or list => .or (list.map f)
  | .not filter => .not (filter.map f)
  | .item item => .item (item.map f)

def FilterTrees.map (f : V → W) : FilterTrees V → FilterTrees W
  | .single filter => .single (filter.map f)
  | .cons filter rest => .cons (filter.map f) (rest.map f)

end

mutual

def FilterTree.values : FilterTree V → List V
  | .and list => list.values
  | .or list => list.values
  | .not filter => filter.values
  | .item item => item.value :: item.stars

def FilterTrees.values : FilterTrees V → List V
  | .single filter => filter.values
  | .cons filter rest => filter.values ++ rest.values

end

def Item.render (text : V → Str) (item : Item V) : Str :=
  item.left.text ++ item.left.type.mark ++ '=' :: (text item.value ++ item.stars.flatMap fun v => '*' :: text v)

mutual

def FilterTree.render (text : V → Str) : FilterTree V → Str
  | .and list => '(' :: '&' :: (list.render text ++ [')'])
  | .or list => '(' :: '|' :: (list.render text ++ [')'])
  | .not filter => '(' :: '!' :: (filter.render text ++ [')'])
  | .item item => '(' :: (item.render text ++ [')'])

def FilterTrees.render (text : V → Str) : FilterTrees V → Str
  | .single filter => filter.render text
  | .cons filter rest => filter.render text ++ rest.render text

end

/-- A text is written for a tree when it encodes every value of it. -/
def Parses (text : Str) (tree : FilterTree (List UInt8)) : Prop :=
  ∃ written : FilterTree Value, written.render Value.text = text ∧ written.map Value.octets = tree

/-- The text parses to this tree and to no other. -/
def ReadsAs (text : Str) (tree : FilterTree (List UInt8)) : Prop :=
  Parses text tree ∧ ∀ other, Parses text other → other = tree

section Values

variable {text rest first second : Str} {octets value : List UInt8} {parts : List (Option UInt8)} {c : Char}

@[simp] theorem decode_nil : decode [] = some [] := rfl

theorem decode_normal (normal : isNormal c) :
    decode (c :: rest) = (decode rest).map (String.utf8EncodeChar c ++ ·) := by
  rw [decode, if_pos normal]
  rintro high low tail rfl
  exact absurd normal (by decide)

theorem decode_append_normal (rest : Str) (normal : ∀ c ∈ text, isNormal c) :
    decode (text ++ rest) = (decode rest).map (utf8 text ++ ·) := by
  induction text with
  | nil => simp [utf8]
  | cons first tail ih =>
    rw [cons_append, decode_normal (normal first mem_cons_self),
      ih fun c mem => normal c (mem_cons_of_mem _ mem), Option.map_map]
    simp [utf8, Function.comp_def]

/-- An encoding is at least as long as its value, and as long only when it escapes nothing. -/
theorem decode_size (decoded : decode text = some octets) :
    octets.length ≤ Text.utf8Len text ∧
      (octets.length = Text.utf8Len text → (∀ c ∈ text, isNormal c) ∧ octets = utf8 text) := by
  fun_induction decode text generalizing octets with
  | case1 high low rest h l _ _ ih =>
    obtain ⟨tail, found, rfl⟩ := Option.map_eq_some_iff.mp decoded
    have shorter := (ih found).1
    have positive := Char.utf8Size_pos high
    have escape : '\\'.utf8Size = 1 := rfl
    simp only [Text.utf8Len_cons, length_cons]
    omega
  | case2 => cases decoded
  | case3 c rest escape normal ih =>
    obtain ⟨tail, found, rfl⟩ := Option.map_eq_some_iff.mp decoded
    obtain ⟨shorter, exact⟩ := ih found
    rw [Text.utf8Len_cons, length_append, String.length_utf8EncodeChar]
    refine ⟨by omega, fun same => ?_⟩
    obtain ⟨plain, rfl⟩ := exact (by omega)
    exact ⟨forall_mem_cons.mpr ⟨normal, plain⟩, rfl⟩
  | case4 => cases decoded
  | case5 =>
    cases decoded
    exact ⟨Nat.le_refl _, fun _ => ⟨forall_mem_nil _, rfl⟩⟩

/-- A byte below 128 comes from the character with that number only. -/
theorem toNat_of_mem_utf8EncodeChar {octet : UInt8} (mem : octet ∈ String.utf8EncodeChar c)
    (ascii : octet.toNat < 128) : octet.toNat = c.toNat := by
  unfold String.utf8EncodeChar at mem
  simp only at mem
  split at mem
  · rw [mem_singleton.mp mem, toNat_ofNat']
    exact Nat.mod_eq_of_lt (by omega)
  · -- the bytes of a longer encoding have their highest bit set
    exfalso
    split at mem
    · simp only [mem_cons, not_mem_nil, or_false] at mem
      rcases mem with rfl | rfl <;> rw [toNat_ofNat'] at ascii <;> omega
    · split at mem
      · simp only [mem_cons, not_mem_nil, or_false] at mem
        rcases mem with rfl | rfl | rfl <;> rw [toNat_ofNat'] at ascii <;> omega
      · simp only [mem_cons, not_mem_nil, or_false] at mem
        rcases mem with rfl | rfl | rfl | rfl <;> rw [toNat_ofNat'] at ascii <;> omega

theorem isNormal_eq_false : isNormal c = false ↔ c = '\x00' ∨ c = '(' ∨ c = ')' ∨ c = '*' ∨ c = '\\' := by
  simp only [isNormal, Bool.not_eq_false', Bool.or_eq_true, beq_iff_eq, or_assoc]

/-- Equal octets: a text that needs no escapes stands for no special character. -/
theorem normal_of_utf8_eq (normal : ∀ c ∈ first, isNormal c) (same : utf8 second = utf8 first) :
    ∀ c ∈ second, isNormal c := by
  intro c mem
  refine Bool.not_eq_false _ ▸ fun special => ?_
  have ascii : c.toNat < 128 ∧ ofNat c.toNat ∈ String.utf8EncodeChar c := by
    rcases isNormal_eq_false.mp special with rfl | rfl | rfl | rfl | rfl <;> decide
  have inside : ofNat c.toNat ∈ utf8 first := same ▸ mem_flatMap.mpr ⟨c, mem, ascii.2⟩
  obtain ⟨other, known, encoded⟩ := mem_flatMap.mp inside
  have number : (ofNat c.toNat).toNat = c.toNat := by
    exact Nat.mod_eq_of_lt (by omega)
  have equal := toNat_of_mem_utf8EncodeChar encoded (by rw [number]; exact ascii.1)
  rw [number] at equal
  rw [Char.toNat_inj.mp equal, normal other known] at special
  cases special

/-- A filled template decodes to its filled parts. `encoded` stands for `value` in front of any text. -/
theorem decode_fill {encoded : Str} (escaped : ∀ rest, decode (encoded ++ rest) = (decode rest).map (value ++ ·))
    (decoded : decodeTemplate text = some parts) : decode (Text.fill encoded text) = some (plug value parts) := by
  fun_induction decodeTemplate text generalizing parts with
  | case1 rest ih =>
    obtain ⟨tail, found, rfl⟩ := Option.map_eq_some_iff.mp decoded
    rw [Text.fill, escaped, ih found]
    rfl
  | case2 high low rest h l lower upper ih =>
    obtain ⟨tail, found, rfl⟩ := Option.map_eq_some_iff.mp decoded
    have closed : '{' ∉ ['\\', high, low] := by
      have digits : hexValue '{' = none := by decide
      simp only [mem_cons, not_mem_nil, or_false, not_or]
      refine ⟨by decide, ?_, ?_⟩
      · rintro rfl
        cases digits.symm.trans upper
      · rintro rfl
        cases digits.symm.trans lower
    have kept : Text.fill encoded ('\\' :: high :: low :: rest) = '\\' :: high :: low :: Text.fill encoded rest :=
      Text.fill_append_of_notMem closed
    rw [kept, decode]
    simp only [upper, lower, ih found]
    rfl
  | case3 => cases decoded
  | case4 c rest placeholder escape normal ih =>
    obtain ⟨tail, found, rfl⟩ := Option.map_eq_some_iff.mp decoded
    rw [Text.fill, decode_normal normal, ih found]
    · simp [plug, flatMap_append, flatMap_map]
    · exact placeholder
  | case5 => cases decoded
  | case6 =>
    cases decoded
    rfl

end Values

section Trees

variable {text : V → Str} {f : V → W} {g : W → X}

mutual

theorem FilterTree.map_map : ∀ tree : FilterTree V, (tree.map f).map g = tree.map (g ∘ f)
  | .and list => congrArg FilterTree.and list.map_map
  | .or list => congrArg FilterTree.or list.map_map
  | .not filter => congrArg FilterTree.not filter.map_map
  | .item _ => congrArg FilterTree.item (Item.ext rfl rfl (map_map ..))

theorem FilterTrees.map_map : ∀ list : FilterTrees V, (list.map f).map g = list.map (g ∘ f)
  | .single filter => congrArg FilterTrees.single filter.map_map
  | .cons filter rest => congr (congrArg FilterTrees.cons filter.map_map) rest.map_map

end

theorem Item.render_append (item : Item V) (rest : Str) : item.render text ++ rest =
    (item.left.text ++ item.left.type.mark) ++ '=' ::
      ((text item.value ++ item.stars.flatMap fun v => '*' :: text v) ++ rest) := by
  simp [render]

theorem Item.render_map {text : W → Str} (item : Item V) : (item.map f).render text = item.render (text ∘ f) := by
  simp [render, map, flatMap_map]

mutual

theorem FilterTree.render_map {text : W → Str} :
    ∀ tree : FilterTree V, (tree.map f).render text = tree.render (text ∘ f)
  | .and list | .or list => by rw [FilterTree.map, FilterTree.render, FilterTree.render, list.render_map]
  | .not filter => by rw [FilterTree.map, FilterTree.render, FilterTree.render, filter.render_map]
  | .item item => by rw [FilterTree.map, FilterTree.render, FilterTree.render, item.render_map]

theorem FilterTrees.render_map {text : W → Str} :
    ∀ list : FilterTrees V, (list.map f).render text = list.render (text ∘ f)
  | .single filter => by rw [FilterTrees.map, FilterTrees.render, FilterTrees.render, filter.render_map]
  | .cons filter rest => by
    rw [FilterTrees.map, FilterTrees.render, FilterTrees.render, filter.render_map, rest.render_map]

end

/-- What a left side is made of, with the mark of its filter type. -/
def isLeftChar (c : Char) : Bool := isAttrChar c || c == ':' || c == '~' || c == '<' || c == '>'

theorem Left.isLeftChar_of_mem (left : Left) {c : Char} (mem : c ∈ left.text ++ left.type.mark) :
    isLeftChar c := by
  rcases mem_append.mp mem with inText | inMark
  · rcases left.chars c inText with attr | ⟨-, rfl⟩
    · simp [isLeftChar, attr]
    · decide
  · cases kind : left.type <;> simp [kind, FilterType.mark] at inMark <;> subst inMark <;> decide

theorem Left.notMem (left : Left) {c : Char} (other : isLeftChar c = false) : c ∉ left.text ++ left.type.mark := by
  intro mem
  rw [left.isLeftChar_of_mem mem] at other
  cases other

section Fill

variable {encoded : Str}

theorem fill_values (value : V) (stars : List V) (rest : Str) :
    Text.fill encoded (text value ++ stars.flatMap (fun v => '*' :: text v) ++ ')' :: rest) =
      Text.fill encoded (text value) ++ stars.flatMap (fun v => '*' :: Text.fill encoded (text v)) ++
        ')' :: Text.fill encoded rest := by
  rw [append_assoc, append_assoc]
  induction stars generalizing value with
  | nil =>
    rw [flatMap_nil, nil_append, Text.fill_append_cons (by decide) (by decide)]
    rfl
  | cons next stars ih =>
    rw [flatMap_cons, cons_append, cons_append, Text.fill_append_cons (by decide) (by decide),
      append_assoc, ← singleton_append, Text.fill_append_of_notMem (by decide), ih]
    simp

theorem Item.fill_render (item : Item V) (rest : Str) :
    Text.fill encoded (item.render text ++ ')' :: rest) =
      item.render (fun v => Text.fill encoded (text v)) ++ ')' :: Text.fill encoded rest := by
  have equals : ∀ body, Text.fill encoded ('=' :: body) = '=' :: Text.fill encoded body := fun _ => rfl
  rw [item.render_append, Text.fill_append_of_notMem (item.left.notMem (by decide)), equals,
    fill_values, item.render_append]

theorem fill_parens (opened : Str) {inner filled rest : Str} (closed : '{' ∉ opened)
    (within : Text.fill encoded (inner ++ ')' :: rest) = filled ++ Text.fill encoded (')' :: rest)) :
    Text.fill encoded (opened ++ (inner ++ [')']) ++ rest) =
      opened ++ (filled ++ [')']) ++ Text.fill encoded rest := by
  have bracket : Text.fill encoded (')' :: rest) = ')' :: Text.fill encoded rest := rfl
  rw [bracket] at within
  rw [append_assoc, Text.fill_append_of_notMem closed]
  simp [within]

mutual

/-- A placeholder can stand in values only, so filling a text fills the values. -/
theorem FilterTree.fill_render : ∀ (tree : FilterTree V) (rest : Str),
    Text.fill encoded (tree.render text ++ rest) =
      tree.render (fun v => Text.fill encoded (text v)) ++ Text.fill encoded rest
  | .and list, rest => fill_parens ['(', '&'] (by decide) (list.fill_render (')' :: rest))
  | .or list, rest => fill_parens ['(', '|'] (by decide) (list.fill_render (')' :: rest))
  | .not filter, rest => fill_parens ['(', '!'] (by decide) (filter.fill_render (')' :: rest))
  | .item item, rest => fill_parens ['('] (by decide) (item.fill_render rest)

theorem FilterTrees.fill_render : ∀ (list : FilterTrees V) (rest : Str),
    Text.fill encoded (list.render text ++ rest) =
      list.render (fun v => Text.fill encoded (text v)) ++ Text.fill encoded rest
  | .single filter, rest => filter.fill_render rest
  | .cons filter others, rest => by
    rw [FilterTrees.render, FilterTrees.render, append_assoc, filter.fill_render, others.fill_render, append_assoc]

end

/-- A template whose placeholders receive an encoded value parses to the tree with
that value in their places. -/
theorem parses_fill {value : List UInt8}
    (escaped : ∀ rest, decode (encoded ++ rest) = (decode rest).map (value ++ ·)) (template : FilterTree Template) :
    Parses (Text.fill encoded (template.render Template.text)) (template.map fun t => plug value t.parts) := by
  let filled (t : Template) : Value := ⟨Text.fill encoded t.text, plug value t.parts, decode_fill escaped t.decoded⟩
  refine ⟨template.map filled, ?_, template.map_map⟩
  have whole : Text.fill encoded (template.render Template.text ++ []) = _ := template.fill_render []
  rw [append_nil, Text.fill, append_nil] at whole
  rw [whole, template.render_map]
  rfl

end Fill

section Unique

theorem split_at_first {c : Char} {left right tail rest : Str} (fresh : c ∉ left) (other : c ∉ right)
    (same : left ++ c :: tail = right ++ c :: rest) : left = right ∧ tail = rest := by
  induction left generalizing right with
  | nil =>
    cases right with
    | nil => exact ⟨rfl, (List.cons.inj same).2⟩
    | cons d right => exact absurd ((List.cons.inj same).1 ▸ mem_cons_self) other
  | cons d left ih =>
    cases right with
    | nil => exact absurd ((List.cons.inj same).1 ▸ mem_cons_self) fresh
    | cons e right =>
      obtain ⟨rfl, later⟩ := List.cons.inj same
      obtain ⟨rfl, rfl⟩ := ih (fun mem => fresh (mem_cons_of_mem _ mem))
        (fun mem => other (mem_cons_of_mem _ mem)) later
      exact ⟨rfl, rfl⟩

/-- The filter type, read off the character before the equals sign. -/
def FilterType.ofLast (c : Char) : FilterType :=
  if c = '~' then .approx else if c = '>' then .greaterOrEqual else if c = '<' then .lessOrEqual
  else if c = ':' then .extensible else .equal

theorem FilterType.ofLast_of_isAttrChar {c : Char} (attr : isAttrChar c) : FilterType.ofLast c = .equal := by
  have differs : ∀ d, isAttrChar d = false → c ≠ d := by
    rintro d other rfl
    rw [attr] at other
    cases other
  simp [ofLast, differs '~' (by decide), differs '>' (by decide), differs '<' (by decide), differs ':' (by decide)]

theorem Left.type_eq_ofLast (left : Left) :
    (left.text ++ left.type.mark).getLast?.map FilterType.ofLast = some left.type := by
  cases kind : left.type with
  | equal =>
    have found := List.getLast?_eq_some_getLast left.nonempty
    have attr : isAttrChar (left.text.getLast left.nonempty) := by
      rcases left.chars _ (getLast_mem left.nonempty) with attr | ⟨other, -⟩
      · exact attr
      · rw [kind] at other
        cases other
    rw [FilterType.mark, append_nil, found, Option.map_some, FilterType.ofLast_of_isAttrChar attr]
  | _ => simp [FilterType.mark, FilterType.ofLast]

theorem Left.eq_of_written {left right : Left}
    (same : left.text ++ left.type.mark = right.text ++ right.type.mark) :
    left = right := by
  have types : left.type = right.type := by
    have found := left.type_eq_ofLast
    rw [same, right.type_eq_ofLast] at found
    exact (Option.some.inj found).symm
  rw [types] at same
  exact Left.ext (append_cancel_right same) types

/-- Values as they are written contain neither of the characters that end them. -/
def Closed (text : V → Str) : Prop := ∀ v, '*' ∉ text v ∧ ')' ∉ text v

theorem values_inj (closed : Closed text) {value other : V} {stars others : List V}
    (same : text value ++ stars.flatMap (fun v => '*' :: text v) = text other ++ others.flatMap fun v =>
      '*' :: text v) :
    text value = text other ∧ stars.map text = others.map text := by
  induction stars generalizing value other others with
  | nil =>
    cases others with
    | nil => simpa using same
    | cons next others =>
      have inside : '*' ∈ text value := by
        rw [flatMap_nil, append_nil] at same
        simp [same]
      exact absurd inside (closed value).1
  | cons star stars ih =>
    cases others with
    | nil =>
      have inside : '*' ∈ text other := by
        rw [flatMap_nil, append_nil] at same
        simp [← same]
      exact absurd inside (closed other).1
    | cons next others =>
      obtain ⟨first, later⟩ := split_at_first (closed value).1 (closed other).1 same
      obtain ⟨second, rest⟩ := ih later
      exact ⟨first, by simp [second, rest]⟩

theorem Item.render_inj (closed : Closed text) {item other : Item V} {tail rest : Str}
    (same : item.render text ++ ')' :: tail = other.render text ++ ')' :: rest) :
    item.map text = other.map text ∧ tail = rest := by
  have bodyClosed : ∀ (value : V) (stars : List V), ')' ∉ text value ++ stars.flatMap fun v => '*' :: text v := by
    intro value stars
    simp only [mem_append, mem_flatMap, mem_cons, not_or, not_exists, not_and]
    exact ⟨(closed value).2, fun v _ => ⟨by decide, (closed v).2⟩⟩
  rw [item.render_append, other.render_append] at same
  have fresh : isLeftChar '=' = false := by decide
  obtain ⟨lefts, bodies⟩ := split_at_first (item.left.notMem fresh) (other.left.notMem fresh) same
  obtain ⟨body, tails⟩ := split_at_first (bodyClosed _ _) (bodyClosed _ _) bodies
  obtain ⟨value, stars⟩ := values_inj closed body
  exact ⟨Item.ext (Left.eq_of_written lefts) value stars, tails⟩

theorem Item.render_head (text : V → Str) (item : Item V) :
    ∃ c rest, item.render text = c :: rest ∧ isLeftChar c := by
  obtain ⟨c, rest, written⟩ := exists_cons_of_ne_nil item.left.nonempty
  refine ⟨c, rest ++ item.left.type.mark ++ '=' ::
    (text item.value ++ item.stars.flatMap fun v => '*' :: text v), by simp [render, written], ?_⟩
  exact item.left.isLeftChar_of_mem (mem_append_left _ (written ▸ mem_cons_self))

theorem FilterTree.render_head (text : V → Str) (tree : FilterTree V) : ∃ rest, tree.render text = '(' :: rest := by
  cases tree <;> exact ⟨_, rfl⟩

theorem FilterTrees.render_head (text : V → Str) (list : FilterTrees V) :
    ∃ rest, list.render text = '(' :: rest := by
  cases list with
  | single filter => exact filter.render_head text
  | cons filter others =>
    obtain ⟨rest, written⟩ := filter.render_head text
    exact ⟨rest ++ others.render text, by rw [FilterTrees.render, written]; rfl⟩

mutual

/-- The written tree can be read in one way only, whatever follows it. -/
theorem FilterTree.render_inj (closed : Closed text) : ∀ (tree other : FilterTree V) {tail rest : Str},
    tree.render text ++ tail = other.render text ++ rest → tree.map text = other.map text ∧ tail = rest
  | .and list, .and others, tail, rest, same => by
    simp only [FilterTree.render, cons_append, append_assoc, nil_append, List.cons.injEq, true_and] at same
    obtain ⟨lists, tails⟩ := FilterTrees.render_inj closed list others same
    exact ⟨congrArg FilterTree.and lists, tails⟩
  | .or list, .or others, tail, rest, same => by
    simp only [FilterTree.render, cons_append, append_assoc, nil_append, List.cons.injEq, true_and] at same
    obtain ⟨lists, tails⟩ := FilterTrees.render_inj closed list others same
    exact ⟨congrArg FilterTree.or lists, tails⟩
  | .not filter, .not other, tail, rest, same => by
    simp only [FilterTree.render, cons_append, append_assoc, nil_append, List.cons.injEq, true_and] at same
    obtain ⟨filters, tails⟩ := FilterTree.render_inj closed filter other same
    exact ⟨congrArg FilterTree.not filters, (List.cons.inj tails).2⟩
  | .item item, .item other, tail, rest, same => by
    simp only [FilterTree.render, cons_append, append_assoc, nil_append, List.cons.injEq, true_and] at same
    obtain ⟨items, tails⟩ := Item.render_inj closed same
    exact ⟨congrArg FilterTree.item items, tails⟩
  | .and _, .or _, _, _, same | .and _, .not _, _, _, same | .or _, .and _, _, _, same | .or _, .not _, _, _, same
  | .not _, .and _, _, _, same | .not _, .or _, _, _, same => by
    simp [FilterTree.render] at same
  | .and _, .item item, _, _, same | .or _, .item item, _, _, same | .not _, .item item, _, _, same => by
    obtain ⟨c, rest, written, left⟩ := item.render_head text
    simp [FilterTree.render, written] at same
    exact absurd left (same.1 ▸ by decide)
  | .item item, .and _, _, _, same | .item item, .or _, _, _, same | .item item, .not _, _, _, same => by
    obtain ⟨c, rest, written, left⟩ := item.render_head text
    simp [FilterTree.render, written] at same
    exact absurd left (same.1 ▸ by decide)

theorem FilterTrees.render_inj (closed : Closed text) : ∀ (list other : FilterTrees V) {tail rest : Str},
    list.render text ++ ')' :: tail = other.render text ++ ')' :: rest →
      list.map text = other.map text ∧ tail = rest
  | .single filter, .single other, tail, rest, same => by
    obtain ⟨filters, tails⟩ := FilterTree.render_inj closed filter other same
    exact ⟨congrArg FilterTrees.single filters, (List.cons.inj tails).2⟩
  | .cons filter list, .cons other others, tail, rest, same => by
    simp only [FilterTrees.render, append_assoc] at same
    obtain ⟨filters, later⟩ := FilterTree.render_inj closed filter other same
    obtain ⟨lists, tails⟩ := FilterTrees.render_inj closed list others later
    exact ⟨by rw [FilterTrees.map, FilterTrees.map, filters, lists], tails⟩
  | .single filter, .cons other others, tail, rest, same => by
    simp only [FilterTrees.render, append_assoc] at same
    obtain ⟨-, later⟩ := FilterTree.render_inj closed filter other same
    obtain ⟨_, written⟩ := others.render_head text
    simp [written] at later
  | .cons filter list, .single other, tail, rest, same => by
    simp only [FilterTrees.render, append_assoc] at same
    obtain ⟨-, later⟩ := FilterTree.render_inj closed filter other same
    obtain ⟨_, written⟩ := list.render_head text
    simp [written] at later

end

/-- Only normal characters and hexadecimal digits follow in a value, after backslashes. -/
theorem ne_of_decode {written : Str} {octets : List UInt8} (decoded : decode written = some octets) {c : Char}
    (special : isNormal c = false) (digit : hexValue c = none) (escape : c ≠ '\\') : c ∉ written := by
  fun_induction decode written generalizing octets with
  | case1 high low rest h l lower upper ih =>
    obtain ⟨tail, found, rfl⟩ := Option.map_eq_some_iff.mp decoded
    simp only [mem_cons, not_or]
    refine ⟨escape, ?_, ?_, ih found⟩
    · rintro rfl
      cases digit.symm.trans upper
    · rintro rfl
      cases digit.symm.trans lower
  | case2 => cases decoded
  | case3 d rest _ normal ih =>
    obtain ⟨tail, found, rfl⟩ := Option.map_eq_some_iff.mp decoded
    rw [mem_cons, not_or]
    refine ⟨?_, ih found⟩
    rintro rfl
    cases special.symm.trans normal
  | case4 => cases decoded
  | case5 => exact not_mem_nil

theorem Value.closed : Closed Value.text := fun value =>
  ⟨ne_of_decode value.decoded (by decide) (by decide) (by decide),
    ne_of_decode value.decoded (by decide) (by decide) (by decide)⟩

/-- A text is read as one tree at most. -/
theorem Parses.unique {written : Str} {tree other : FilterTree (List UInt8)} (first : Parses written tree)
    (second : Parses written other) : tree = other := by
  obtain ⟨left, rfl, rfl⟩ := first
  obtain ⟨right, same, rfl⟩ := second
  have texts := (FilterTree.render_inj Value.closed left right (by rw [same] : _ ++ [] = _ ++ [])).1
  have octets : Value.octets = (fun text => (decode text).getD []) ∘ Value.text := by
    funext value
    simp [value.decoded]
  rw [octets, ← FilterTree.map_map, ← FilterTree.map_map, texts]

theorem readsAs_iff_parses {written : Str} {tree : FilterTree (List UInt8)} :
    ReadsAs written tree ↔ Parses written tree :=
  ⟨And.left, fun parsed => ⟨parsed, fun _ other => other.unique parsed⟩⟩

end Unique

section Plain

mutual

theorem FilterTree.values_map : ∀ tree : FilterTree V, (tree.map f).values = tree.values.map f
  | .and list => list.values_map
  | .or list => list.values_map
  | .not filter => filter.values_map
  | .item _ => rfl

theorem FilterTrees.values_map : ∀ list : FilterTrees V, (list.map f).values = list.values.map f
  | .single filter => filter.values_map
  | .cons filter rest => by
    rw [FilterTrees.map, FilterTrees.values, filter.values_map, rest.values_map, FilterTrees.values, map_append]

end

/-- The size of the text in its values, and of all the rest. -/
theorem Item.size_render (text : V → Str) (item : Item V) : Text.utf8Len (item.render text) =
    Text.utf8Len (item.render fun _ => []) +
      ((item.value :: item.stars).map fun v => Text.utf8Len (text v)).sum := by
  have stars : ∀ list : List V, Text.utf8Len (list.flatMap fun v => '*' :: text v) =
      Text.utf8Len (list.flatMap fun _ => ['*']) + (list.map fun v => Text.utf8Len (text v)).sum := by
    intro list
    induction list with
    | nil => rfl
    | cons v list ih =>
      simp only [flatMap_cons, Text.utf8Len_append, Text.utf8Len_cons, Text.utf8Len_nil, ih, map_cons, sum_cons]
      omega
  simp only [render, Text.utf8Len_append, Text.utf8Len_cons, Text.utf8Len_nil, stars, map_cons, sum_cons]
  omega

mutual

theorem FilterTree.size_render : ∀ tree : FilterTree V, Text.utf8Len (tree.render text) =
    Text.utf8Len (tree.render fun _ => []) + (tree.values.map fun v => Text.utf8Len (text v)).sum
  | .and list | .or list => by
    simp only [FilterTree.render, FilterTree.values, Text.utf8Len_cons, Text.utf8Len_append, list.size_render]
    omega
  | .not filter => by
    simp only [FilterTree.render, FilterTree.values, Text.utf8Len_cons, Text.utf8Len_append, filter.size_render]
    omega
  | .item item => by
    simp only [FilterTree.render, FilterTree.values, Text.utf8Len_cons, Text.utf8Len_append, item.size_render text]
    omega

theorem FilterTrees.size_render : ∀ list : FilterTrees V, Text.utf8Len (list.render text) =
    Text.utf8Len (list.render fun _ => []) + (list.values.map fun v => Text.utf8Len (text v)).sum
  | .single filter => filter.size_render
  | .cons filter rest => by
    simp only [FilterTrees.render, FilterTrees.values, Text.utf8Len_append, filter.size_render, rest.size_render,
      map_append, sum_append]
    omega

end

theorem eq_of_sum_le {list : List V} {small large : V → Nat} (below : ∀ v, small v ≤ large v)
    (total : (list.map large).sum ≤ (list.map small).sum) : ∀ v ∈ list, small v = large v := by
  induction list with
  | nil => exact forall_mem_nil _
  | cons v list ih =>
    have others : (list.map small).sum ≤ (list.map large).sum := sum_le_sum fun v _ => below v
    have first := below v
    simp only [map_cons, sum_cons] at total
    exact forall_mem_cons.mpr ⟨by omega, ih (by omega)⟩

theorem length_utf8 (text : Str) : (utf8 text).length = Text.utf8Len text := by
  induction text with
  | nil => rfl
  | cons c text ih => simpa [utf8] using ih

mutual

theorem FilterTree.map_congr {f' : V → W} : ∀ {tree : FilterTree V}, (∀ v ∈ tree.values, f v = f' v) →
    tree.map f = tree.map f'
  | .and list, same => congrArg FilterTree.and (FilterTrees.map_congr same)
  | .or list, same => congrArg FilterTree.or (FilterTrees.map_congr same)
  | .not filter, same => congrArg FilterTree.not (FilterTree.map_congr same)
  | .item item, same => by
    obtain ⟨value, stars⟩ := forall_mem_cons.mp same
    exact congrArg FilterTree.item (Item.ext rfl value (map_congr_left stars))

theorem FilterTrees.map_congr {f' : V → W} : ∀ {list : FilterTrees V}, (∀ v ∈ list.values, f v = f' v) →
    list.map f = list.map f'
  | .single filter, same => congrArg FilterTrees.single (FilterTree.map_congr same)
  | .cons filter rest, same => by
    obtain ⟨first, later⟩ := forall_mem_append.mp same
    rw [FilterTrees.map, FilterTrees.map, FilterTree.map_congr first, FilterTrees.map_congr later]

end

/-- A text without special characters as the value it stands for. -/
def Value.plain (text : Str) : Value :=
  if normal : ∀ c ∈ text, isNormal c = true then
    ⟨text, utf8 text, by simpa using decode_append_normal [] normal⟩
  else ⟨[], [], rfl⟩

theorem Value.plain_text {text : Str} (normal : ∀ c ∈ text, isNormal c) : (Value.plain text).text = text := by
  rw [plain, dif_pos normal]

theorem Value.plain_octets {text : Str} (normal : ∀ c ∈ text, isNormal c) :
    (Value.plain text).octets = utf8 text := by
  rw [plain, dif_pos normal]

/-- Text put into a filter stands for itself exactly when it has no character that has to be escaped. -/
theorem parses_plain_iff (tree : FilterTree Str) :
    Parses (tree.render id) (tree.map utf8) ↔ ∀ text ∈ tree.values, ∀ c ∈ text, isNormal c := by
  constructor
  · rintro ⟨written, rendered, decoded⟩ text mem
    have values : written.values.map Value.octets = tree.values.map utf8 := by
      rw [← FilterTree.values_map, decoded, FilterTree.values_map]
    have frames : written.render (fun _ => []) = tree.render fun _ => [] := by
      have shapes := congrArg (FilterTree.render fun _ => []) decoded
      rwa [FilterTree.render_map, FilterTree.render_map] at shapes
    have sizes := congrArg Text.utf8Len rendered
    rw [written.size_render, tree.size_render, frames] at sizes
    have lengths := congrArg (fun list => (list.map List.length).sum) values
    simp only [map_map, Function.comp_def, length_utf8] at lengths
    -- the two texts are equally long, so no value is longer than what it stands for
    have unescaped : ∀ value ∈ written.values, value.octets.length = Text.utf8Len value.text :=
      eq_of_sum_le (fun value => (decode_size value.decoded).1) (by simp [id] at sizes; omega)
    have inside : utf8 text ∈ written.values.map Value.octets := values ▸ mem_map_of_mem mem
    obtain ⟨value, known, same⟩ := mem_map.mp inside
    obtain ⟨normal, exact⟩ := (decode_size value.decoded).2 (unescaped value known)
    exact normal_of_utf8_eq normal (same.symm.trans exact)
  · intro normal
    refine ⟨tree.map Value.plain, ?_, ?_⟩
    · have texts : (tree.map Value.plain).map Value.text = tree.map id := by
        rw [FilterTree.map_map]
        exact FilterTree.map_congr fun text mem => Value.plain_text (normal text mem)
      calc (tree.map Value.plain).render Value.text
        _ = ((tree.map Value.plain).map Value.text).render id := by
          rw [(tree.map Value.plain).render_map]
          rfl
        _ = (tree.map id).render id := by rw [texts]
        _ = tree.render id := tree.render_map
    · rw [FilterTree.map_map]
      exact FilterTree.map_congr fun text mem => Value.plain_octets (normal text mem)

end Plain

end Trees

end LdapFilter
