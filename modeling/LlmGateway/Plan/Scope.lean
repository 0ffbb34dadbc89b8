import LlmGateway.Lib.Json
import LlmGateway.Lib.Text

namespace LlmGateway

def maxModelPatternLen : Nat := 128
def maxModelPatterns : Nat := 32

/-- The models a plan is for. Without an allowed pattern all models are allowed
that are not denied. -/
structure ModelScope where
  allow : List Str
  deny : List Str
  deriving DecidableEq

def asciiLowerByte (byte : UInt8) : UInt8 := if 65 ≤ byte ∧ byte ≤ 90 then byte + 32 else byte

/-- `strip_suffix('*')`. -/
def stripStar (pattern : Str) : Option Str :=
  if pattern.getLast? = some '*' then some pattern.dropLast else none

def modelMatchesPattern (pattern model : Str) : Bool :=
  match stripStar pattern with
  | some front =>
    let wanted := front.flatMap String.utf8EncodeChar
    let bytes := model.flatMap String.utf8EncodeChar
    decide (wanted.length ≤ bytes.length) &&
      (bytes.take wanted.length).map asciiLowerByte == wanted.map asciiLowerByte
  | none => Text.eqIgnoreAsciiCase pattern model

namespace ModelScope

def matchesModel (scope : ModelScope) (model : Str) : Bool :=
  if scope.deny.any (modelMatchesPattern · model) then false
  else scope.allow.isEmpty || scope.allow.any (modelMatchesPattern · model)

def specificity (scope : ModelScope) : Nat :=
  if (scope.allow ++ scope.deny).all (fun p => p.getLast? != some '*') then 2 else 1

end ModelScope

def scopeSpecificity (scope : Option ModelScope) : Nat := scope.elim 0 ModelScope.specificity

def isPatternChar (c : Char) : Bool :=
  c.isAlphanum || ['*', '.', '_', '+', ':', '-', '/'].contains c

def validateModelPattern (pattern : Str) : Except Str Unit :=
  let text (before after : String) := before.toList ++ pattern ++ after.toList
  if pattern.isEmpty then .error "empty model pattern".toList
  else if maxModelPatternLen < Text.utf8Len pattern then
    .error ("model pattern too long (>".toList ++ Nat.toDigits 10 maxModelPatternLen ++ " chars)".toList)
  else if !pattern.all isPatternChar then
    .error (text "invalid character in model pattern '"
      "' (allowed: letters digits . _ + : - / and trailing *)")
  else match pattern.count '*' with
    | 0 => .ok ()
    | 1 =>
      if pattern.getLast? = some '*' ∧ pattern ≠ ['*'] then .ok ()
      else if pattern = ['*'] then .error "bare '*' matches every model; omit model_scope instead".toList
      else .error (text "model pattern '" "' only supports trailing '*' (prefix match, same as routing rules)")
    | n => .error (text "model pattern '" "' must contain at most one '*' (got " ++ Nat.toDigits 10 n ++ [')'])

/-- The patterns of one list, in lower case. -/
def parsePatterns (key : String) : List Json → Except Str (List Str)
  | [] => .ok []
  | item :: rest =>
    match item.asStr with
    | none => .error ("model_scope.".toList ++ key.toList ++ " entries must be strings, got: ".toList ++ item.print)
    | some text =>
      match validateModelPattern text with
      | .error reason => .error ("model_scope.".toList ++ key.toList ++ ": ".toList ++ reason)
      | .ok _ => (parsePatterns key rest).map (Text.toAsciiLowercase text :: ·)

def parseList (fields : Json.Fields) (key : String) : Except Str (List Str) :=
  match fields.lookup key with
  | none | some .null => .ok []
  | some (.arr items) => parsePatterns key items
  | some other =>
    .error ("model_scope.".toList ++ key.toList ++ " must be an array of strings, got: ".toList ++ other.print)

def parseModelScope (value : Option Json) : Except Str (Option ModelScope) :=
  match value with
  | none | some .null => .ok none
  | some (.obj fields) =>
    match fields.find? fun field => field.1 ≠ "allow" ∧ field.1 ≠ "deny" with
    | some (key, _) =>
      .error ("unknown model_scope field '".toList ++ key.toList ++ "' (expected 'allow'/'deny'; typo?)".toList)
    | none => do
      let allow ← parseList fields "allow"
      let deny ← parseList fields "deny"
      if maxModelPatterns < allow.length + deny.length then
        .error ("model_scope allows at most ".toList ++ Nat.toDigits 10 maxModelPatterns ++
          " patterns in total".toList)
      else if allow.any deny.contains then
        .error ("model_scope: identical pattern in both 'allow' and 'deny' ".toList ++
          "(deny wins, so the allow entry can never match)".toList)
      else if allow.isEmpty && deny.isEmpty then .ok none
      else .ok (some ⟨allow, deny⟩)
  | some other =>
    .error ("model_scope must be an object with optional 'allow'/'deny' arrays, got: ".toList ++ other.print)

end LlmGateway
