import LlmGateway.Lib.Json
import LlmGateway.Lib.Text
import Mathlib.Data.String.Basic

namespace Json

def isSpace (c : Char) : Bool := c == ' ' || c == '\n' || c == '\t' || c == '\r'

def skipSpace (text : Str) : Str := text.dropWhile isSpace

/-- The text after the next character, when that is the one given. -/
def expect (c : Char) (text : Str) : Option Str :=
  match skipSpace text with
  | [] => none
  | d :: rest => if d = c then some rest else none

def isNumberChar (c : Char) : Bool := c.isDigit || c == '-' || c == '+' || c == '.' || c == 'e' || c == 'E'

def isDigits (text : Str) : Bool := !text.isEmpty && text.all Char.isDigit

/-- A whole number has no superfluous zero in front. -/
def isWhole (text : Str) : Bool := isDigits text && (text.head? != some '0' || text == ['0'])

def dropSign (signs : Str) : Str → Str
  | c :: rest => if c ∈ signs then rest else c :: rest
  | [] => []

/-- A whole number with a fraction or an exponent. -/
def isFraction (text : Str) : Bool :=
  let mantissa := text.takeWhile fun c => c != 'e' && c != 'E'
  let exponent := text.dropWhile fun c => c != 'e' && c != 'E'
  let fraction := mantissa.dropWhile (· != '.')
  isWhole (mantissa.takeWhile (· != '.')) && (fraction.isEmpty || isDigits fraction.tail) &&
    (exponent.isEmpty || isDigits (dropSign ['-', '+'] exponent.tail)) && !(fraction.isEmpty && exponent.isEmpty)

def isFloatLiteral (text : Str) : Bool :=
  text.all isNumberChar && isFraction (dropSign ['-'] text)

end Json

/-- How a number that is no integer of 64 bits is written back as a float, if it is in range. -/
class FloatText where
  read : Str → Option Str
  literal : ∀ {text written : Str}, read text = some written → Json.isFloatLiteral written

namespace Json

section Parser

variable [FloatText]

def readNumber (text : Str) : Option JsonNumber :=
  let digits := dropSign ['-'] text
  let float := (FloatText.read text).map JsonNumber.float
  if isWhole digits then
    let value := Nat.ofDigitChars 10 digits 0
    if text.head? ≠ some '-' then (if value < 2 ^ 64 then some (.int value) else float)
    else if 0 < value ∧ value ≤ 2 ^ 63 then some (.int (-value)) else float
  else if isFraction digits then float
  else none

/-- Where the reader of a string literal stands. -/
inductive Scan
  | plain
  | escape (high : Option Nat)
  | hex (left : Nat) (value : Nat) (high : Option Nat)
  | low (high : Nat)

def escaped (c : Char) : Option Char :=
  if c = '"' ∨ c = '\\' ∨ c = '/' then some c
  else if c = 'b' then some '\x08'
  else if c = 'f' then some '\x0c'
  else if c = 'n' then some '\n'
  else if c = 'r' then some '\r'
  else if c = 't' then some '\t'
  else none

/-- Four digits have been read; two of them in a row may make up one character. -/
def Scan.unit (value : Nat) : Option Nat → Option (Str × Option Scan)
  | none =>
    if 0xd800 ≤ value ∧ value ≤ 0xdbff then some ([], some (.low value))
    else if 0xdc00 ≤ value ∧ value ≤ 0xdfff then none
    else some ([Char.ofNat value], some .plain)
  | some high =>
    if 0xdc00 ≤ value ∧ value ≤ 0xdfff then
      some ([Char.ofNat (0x10000 + 0x400 * (high - 0xd800) + (value - 0xdc00))], some .plain)
    else none

/-- The characters that one more character adds, and the next place unless the literal ends. -/
def Scan.step : Scan → Char → Option (Str × Option Scan)
  | plain, c =>
    if c = '"' then some ([], none)
    else if c = '\\' then some ([], some (.escape none))
    else if c.toNat < 0x20 then none
    else some ([c], some .plain)
  | escape high, c =>
    if c = 'u' then some ([], some (.hex 3 0 high))
    else if high.isSome then none
    else (escaped c).map fun d => ([d], some .plain)
  | hex left value high, c =>
    match Text.hexValue c, left with
    | none, _ => none
    | some digit, left + 1 => some ([], some (.hex left (16 * value + digit) high))
    | some digit, 0 => Scan.unit (16 * value + digit) high
  | low high, c => if c = '\\' then some ([], some (.escape (some high))) else none

/-- A string literal after its opening quote. -/
def scanString : Scan → Str → Option (Str × Str)
  | _, [] => none
  | scan, c :: rest =>
    match scan.step c with
    | none => none
    | some (out, none) => some (out, rest)
    | some (out, some next) => (scanString next rest).map fun found => (out ++ found.1, found.2)

def literal (word : Str) (value : Json) (text : Str) : Option (Json × Str) :=
  if word.isPrefixOf text then some (value, text.drop word.length) else none

/-- Of two fields with one key the later counts. -/
def ofFields (fields : Fields) : Json :=
  .obj (fields.foldl (fun held field => insertField field.1 field.2 held) [])

mutual

/-- A value at the start of a text. Every call uses fuel, and there are at most two calls for one character. -/
def parseValue : Nat → Nat → Str → Option (Json × Str)
  | 0, _, _ => none
  | fuel + 1, depth, text =>
    match skipSpace text with
    | [] => none
    | c :: rest =>
      if c = '"' then (scanString .plain rest).map fun found => (.str found.1, found.2)
      else if c = '[' then
        match depth, expect ']' rest with
        | 0, _ => none
        | _ + 1, some rest => some (.arr [], rest)
        | depth + 1, none => (parseItems fuel depth rest).map fun found => (.arr found.1, found.2)
      else if c = '{' then
        match depth, expect '}' rest with
        | 0, _ => none
        | _ + 1, some rest => some (.obj [], rest)
        | depth + 1, none => (parseFields fuel depth rest).map fun found => (ofFields found.1, found.2)
      else if c = 'n' then literal "ull".toList .null rest
      else if c = 't' then literal "rue".toList (.bool true) rest
      else if c = 'f' then literal "alse".toList (.bool false) rest
      else
        (readNumber ((c :: rest).takeWhile isNumberChar)).map fun number =>
          (.num number, (c :: rest).dropWhile isNumberChar)

def parseItems : Nat → Nat → Str → Option (List Json × Str)
  | 0, _, _ => none
  | fuel + 1, depth, text =>
    (parseValue fuel depth text).bind fun item =>
      match expect ',' item.2 with
      | some rest => (parseItems fuel depth rest).map fun items => (item.1 :: items.1, items.2)
      | none => (expect ']' item.2).map fun rest => ([item.1], rest)

def parseFields : Nat → Nat → Str → Option (Fields × Str)
  | 0, _, _ => none
  | fuel + 1, depth, text =>
    ((expect '"' text).bind (scanString .plain)).bind fun key =>
      ((expect ':' key.2).bind (parseValue fuel depth)).bind fun value =>
        match expect ',' value.2 with
        | some rest =>
          (parseFields fuel depth rest).map fun fields => ((String.ofList key.1, value.1) :: fields.1, fields.2)
        | none => (expect '}' value.2).map fun rest => ([(String.ofList key.1, value.1)], rest)

end

def maxDepth : Nat := 127

/-- The value that a text is. -/
def parse (text : Str) : Option Json :=
  (parseValue (2 * text.length + 2) maxDepth text).bind fun found =>
    if (skipSpace found.2).isEmpty then some found.1 else none

/-- The value whose text is read once more. Only floats can come out different, or unreadable. -/
def reread : Json → Option Json
  | num (.float text) => (FloatText.read text).map fun written => num (.float written)
  | arr items => (rereadItems items).map arr
  | obj fields => (rereadFields fields).map obj
  | other => some other
where
  rereadItems : List Json → Option (List Json)
    | [] => some []
    | item :: rest => item.reread.bind fun item => (rereadItems rest).map (item :: ·)
  rereadFields : Fields → Option Fields
    | [] => some []
    | (key, value) :: rest => value.reread.bind fun value => (rereadFields rest).map ((key, value) :: ·)

end Parser

/-- A value as a reader makes it: integers of 64 bits, sorted fields, and at most `depth` levels. -/
def Fits : Json → Nat → Prop
  | num (.int value), _ => -2 ^ 63 ≤ value ∧ value < 2 ^ 64
  | num (.float text), _ => isFloatLiteral text
  | arr _, 0 => False
  | arr items, depth + 1 => fitsItems items depth
  | obj _, 0 => False
  | obj fields, depth + 1 => fitsFields fields depth
  | _, _ => True
where
  fitsItems : List Json → Nat → Prop
    | [], _ => True
    | item :: rest, depth => item.Fits depth ∧ fitsItems rest depth
  fitsFields : Fields → Nat → Prop
    | [], _ => True
    | (key, value) :: rest, depth => value.Fits depth ∧ (∀ field ∈ rest, key < field.1) ∧ fitsFields rest depth

variable {c d : Char} {text rest : Str}

theorem expect_self (solid : isSpace c = false) : expect c (c :: rest) = some rest := by
  simp [expect, skipSpace, solid]

theorem expect_other (solid : isSpace d = false) (other : d ≠ c) : expect c (d :: rest) = none := by
  simp [expect, skipSpace, solid, other]

variable {scan next : Scan} {out : Str}

theorem scanString_step (step : scan.step c = some (out, some next)) :
    scanString scan (c :: rest) = (scanString next rest).map fun found => (out ++ found.1, found.2) := by
  simp [scanString, step]

theorem scanString_escaped (mark : c ≠ 'u') (meaning : escaped c = some d) :
    scanString .plain ('\\' :: c :: rest) = (scanString .plain rest).map fun found => (d :: found.1, found.2) := by
  have opened : Scan.step .plain '\\' = some ([], some (.escape none)) := rfl
  have closed : Scan.step (.escape none) c = some ([d], some .plain) := by
    simp [Scan.step, if_neg mark, meaning]
  rw [scanString_step opened, scanString_step closed]
  simp [Function.comp_def]

theorem hexValue_digitChar {n : Nat} (small : n < 16) : Text.hexValue (Nat.digitChar n) = some n := by
  revert n
  decide

theorem scanString_hex {left value n : Nat} (small : n < 16) :
    scanString (.hex (left + 1) value none) (Nat.digitChar n :: rest) =
      scanString (.hex left (16 * value + n) none) rest := by
  have step : Scan.step (.hex (left + 1) value none) (Nat.digitChar n) =
      some ([], some (.hex left (16 * value + n) none)) := by
    simp [Scan.step, hexValue_digitChar small]
  rw [scanString_step step]
  simp

theorem scanString_unit {value n : Nat} (small : n < 16) (plain : 16 * value + n < 0xd800) :
    scanString (.hex 0 value none) (Nat.digitChar n :: rest) =
      (scanString .plain rest).map fun found => (Char.ofNat (16 * value + n) :: found.1, found.2) := by
  have step : Scan.step (.hex 0 value none) (Nat.digitChar n) =
      some ([Char.ofNat (16 * value + n)], some .plain) := by
    have notHigh : ¬ (0xd800 ≤ 16 * value + n ∧ 16 * value + n ≤ 0xdbff) := by omega
    have notLow : ¬ (0xdc00 ≤ 16 * value + n ∧ 16 * value + n ≤ 0xdfff) := by omega
    simp [Scan.step, hexValue_digitChar small, Scan.unit, if_neg notHigh, if_neg notLow]
  rw [scanString_step step]
  simp

theorem scanString_control (control : c.toNat < 0x20) :
    scanString .plain ('\\' :: 'u' :: '0' :: '0' :: Nat.digitChar (c.toNat / 16) ::
      Nat.digitChar (c.toNat % 16) :: rest) =
      (scanString .plain rest).map fun found => (c :: found.1, found.2) := by
  have opened : Scan.step .plain '\\' = some ([], some (.escape none)) := rfl
  have unicode : Scan.step (.escape none) 'u' = some ([], some (.hex 3 0 none)) := rfl
  have zero : '0' = Nat.digitChar 0 := rfl
  have value : 16 * (16 * (16 * (16 * 0 + 0) + 0) + c.toNat / 16) + c.toNat % 16 = c.toNat := by omega
  rw [scanString_step opened, scanString_step unicode, zero, scanString_hex (by omega), scanString_hex (by omega),
    scanString_hex (by omega), scanString_unit (by omega) (by omega), value, Char.ofNat_toNat]
  simp [Function.comp_def]

/-- Whatever a character is written as, it is read as that character. -/
theorem scanString_escapeChar :
    scanString .plain (escapeChar c ++ rest) = (scanString .plain rest).map fun found =>
      (c :: found.1, found.2) := by
  unfold escapeChar
  split_ifs with quote slash newline carriage tab back feed control
  · subst quote
    exact scanString_escaped (by decide) rfl
  · subst slash
    exact scanString_escaped (by decide) rfl
  · subst newline
    exact scanString_escaped (by decide) rfl
  · subst carriage
    exact scanString_escaped (by decide) rfl
  · subst tab
    exact scanString_escaped (by decide) rfl
  · subst back
    exact scanString_escaped (by decide) rfl
  · subst feed
    exact scanString_escaped (by decide) rfl
  · exact scanString_control control
  · have step : Scan.step .plain c = some ([c], some .plain) := by
      simp [Scan.step, if_neg quote, if_neg slash, if_neg control]
    rw [List.singleton_append, scanString_step step]
    rfl

theorem scanString_printed : scanString .plain (text.flatMap escapeChar ++ '"' :: rest) = some (text, rest) := by
  induction text with
  | nil => rfl
  | cons c text ih =>
    rw [List.flatMap_cons, List.append_assoc, scanString_escapeChar, ih]
    rfl

theorem ne_of_isDigit (digit : c.isDigit) (other : d.isDigit = false) : c ≠ d := by
  rintro rfl
  cases other.symm.trans digit

theorem isDigits_toDigits (n : Nat) : isDigits (Nat.toDigits 10 n) := by
  have digits : (Nat.toDigits 10 n).all Char.isDigit :=
    List.all_eq_true.mpr fun c mem => Nat.isDigit_of_mem_toDigits (by decide) (by decide) mem
  simp [isDigits, digits, Nat.toDigits_ne_nil]

theorem head_toDigits {n : Nat} (positive : 0 < n) : (Nat.toDigits 10 n).head? ≠ some '0' := by
  induction n using Nat.strong_induction_on with
  | _ n ih =>
    by_cases small : n < 10
    · rw [Nat.toDigits_of_lt_base small, List.head?_cons]
      intro zero
      have := (Nat.digitChar_eq_zero).mp (Option.some.inj zero)
      omega
    · have front := ih (n / 10) (by omega) (by omega)
      rw [Nat.toDigits_of_base_le (by decide) (by omega), List.head?_append_of_ne_nil _ Nat.toDigits_ne_nil]
      exact front

theorem isWhole_toDigits (n : Nat) : isWhole (Nat.toDigits 10 n) := by
  rcases Nat.eq_zero_or_pos n with rfl | positive
  · rfl
  · simp [isWhole, isDigits_toDigits, head_toDigits positive]

theorem head_ne_of_isDigits (digits : isDigits text) (other : d.isDigit = false) : text.head? ≠ some d := by
  intro head
  have digit : d.isDigit := by
    simp only [isDigits, Bool.and_eq_true, List.all_eq_true] at digits
    exact digits.2 d (List.mem_of_head? head)
  exact ne_of_isDigit digit other rfl

theorem dropSign_of_head {signs : Str} (unsigned : ∀ sign ∈ signs, text.head? ≠ some sign) :
    dropSign signs text = text := by
  cases text with
  | nil => rfl
  | cons c rest => exact if_neg fun sign => unsigned c sign rfl

theorem readNumber_int [FloatText] {value : Int} (low : -2 ^ 63 ≤ value) (high : value < 2 ^ 64) :
    readNumber (JsonNumber.int value).print = some (.int value) := by
  by_cases negative : value < 0
  · have printed : (JsonNumber.int value).print = '-' :: Nat.toDigits 10 value.natAbs := if_pos negative
    have unsigned : dropSign ['-'] ('-' :: Nat.toDigits 10 value.natAbs) = Nat.toDigits 10 value.natAbs := rfl
    have range : 0 < value.natAbs ∧ value.natAbs ≤ 2 ^ 63 := by omega
    have back : -(value.natAbs : Int) = value := by omega
    simp only [printed, readNumber, unsigned, isWhole_toDigits, Nat.ofDigitChars_ten_toDigits,
      List.head?_cons, ne_eq, not_true_eq_false, if_true, if_false, if_pos range, back]
  · have printed : (JsonNumber.int value).print = Nat.toDigits 10 value.natAbs := if_neg negative
    have plain : (Nat.toDigits 10 value.natAbs).head? ≠ some '-' :=
      head_ne_of_isDigits (isDigits_toDigits _) (by decide)
    have unsigned : dropSign ['-'] (Nat.toDigits 10 value.natAbs) = Nat.toDigits 10 value.natAbs :=
      dropSign_of_head fun sign mem => List.mem_singleton.mp mem ▸ plain
    have range : value.natAbs < 2 ^ 64 := by omega
    have back : (value.natAbs : Int) = value := by omega
    simp only [printed, readNumber, unsigned, isWhole_toDigits, Nat.ofDigitChars_ten_toDigits, if_pos plain,
      if_true, if_pos range, back]

theorem isWhole_eq_false (fraction : isFraction text) : isWhole text = false := by
  rw [Bool.eq_false_iff]
  intro whole
  have digits : ∀ c ∈ text, c.isDigit := by
    simp only [isWhole, isDigits, Bool.and_eq_true, List.all_eq_true] at whole
    exact whole.1.2
  have noExponent : ∀ c ∈ text, (c != 'e' && c != 'E') := by
    intro c mem
    have lower := ne_of_isDigit (digits c mem) (d := 'e') (by decide)
    have upper := ne_of_isDigit (digits c mem) (d := 'E') (by decide)
    simp [lower, upper]
  have noPoint : ∀ c ∈ text.takeWhile (fun c => c != 'e' && c != 'E'), (c != '.') := by
    intro c mem
    have point := ne_of_isDigit (digits c ((List.takeWhile_sublist _).mem mem)) (d := '.') (by decide)
    simp [point]
  rw [isFraction, List.dropWhile_eq_nil_iff.mpr noExponent, List.dropWhile_eq_nil_iff.mpr noPoint] at fraction
  simp at fraction

theorem readNumber_float [FloatText] (float : isFloatLiteral text) :
    readNumber text = (FloatText.read text).map JsonNumber.float := by
  have fraction : isFraction (dropSign ['-'] text) := by
    simp only [isFloatLiteral, Bool.and_eq_true] at float
    exact float.2
  simp [readNumber, isWhole_eq_false fraction, fraction]

end Json
