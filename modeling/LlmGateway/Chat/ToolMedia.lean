import LlmGateway.Chat.Canonical

namespace LlmGateway

open Json Text

def wholeDataUrlMinBytes : Nat := 8 * 1024

def base64ishMinBytes : Nat := 16 * 1024

def mediaMovedMarker : Str := "[gateway: tool result media moved to the following user message]".toList

def mediaLabel (callId : Str) : Str := "[gateway: media output of tool call ".toList ++ callId ++ [']']

def imageUrlPart (fields : Fields) : Json :=
  .obj [("image_url", .obj fields), ("type", .str "image_url".toList)]

/-- A long text that is one image as a data URL. -/
def wholeStringImageDataUrlToPart (text : Str) : Option Json :=
  let trimmed := trim text
  if utf8Len trimmed < wholeDataUrlMinBytes then none
  else
    match cutAt [','] trimmed with
    | none => none
    | some (before, _) =>
      let header := toAsciiLowercase before
      if "data:image/".toList.isPrefixOf header && ";base64".toList.isSuffixOf header then
        some (imageUrlPart [("url", .str trimmed)])
      else none

def isBase64Char (c : Char) : Bool := c.isAlphanum || c == '+' || c == '/' || c == '='

def looksLikeBase64Payload (value : Str) : Bool := base64ishMinBytes ≤ utf8Len value && value.all isBase64Char

def clampBase64ish (text : Str) : Str :=
  let trimmed := trim text
  if looksLikeBase64Payload trimmed || ("data:".toList.isPrefixOf trimmed && base64ishMinBytes ≤ utf8Len trimmed &&
      (cutAt ";base64,".toList trimmed).isSome) then
    "[gateway: ".toList ++ Nat.toDigits 10 (utf8Len trimmed) ++ " bytes of base64 media payload omitted]".toList
  else text

def withMovedMarker (text : Str) : Str :=
  if (trim text).isEmpty then mediaMovedMarker else text ++ '\n' :: mediaMovedMarker

def firstText (json : Json) (keys : List String) : Option Str :=
  keys.findSome? fun key => (json.getStr key).filter fun text => !(trim text).isEmpty

def imageLikePart (json : Json) (keys : List String) : Option Json :=
  let given :=
    match json.get "image_url" with
    | some (.str url) => if (trim url).isEmpty then [] else [("url", Json.str url)]
    | some (.obj fields) => ["detail", "url"].filterMap fun key => (fields.lookup key).map (key, ·)
    | _ => []
  let imageUrl :=
    if (given.lookup "url").isSome then given
    else
      match firstText json keys with
      | some url => insertField "url" (.str url) given
      | none => given
  match (imageUrl.lookup "url").bind Json.asStr with
  | some url => if (trim url).isEmpty then none else some (imageUrlPart imageUrl)
  | none => none

def dataUrl (mime data : Str) : Str :=
  if "data:".toList.isPrefixOf data then data else "data:".toList ++ mime ++ ";base64,".toList ++ data

def getOr (json : Json) (key other : String) : Option Json := (json.get key).or (json.get other)

def anthropicImagePart (json : Json) : Option Json :=
  let detail := ((json.get "detail").map fun value => ("detail", value)).toList
  let image := fun url => imageUrlPart (insertField "url" (.str url) detail)
  match json.get "source" with
  | some (.obj fields) =>
    let source := Json.obj fields
    let mime := ((getOr source "media_type" "mime_type").bind Json.asStr).getD "image/png".toList
    if source.getStr "type" = some "base64".toList then
      let data := (source.getStr "data").getD []
      if data.isEmpty then none else some (image (dataUrl mime data))
    else if source.getStr "type" = some "url".toList then
      let url := (source.getStr "url").getD []
      if (trim url).isEmpty then none else some (image url)
    else none
  | _ =>
    let mime := ((getOr json "mimeType" "mime_type").bind Json.asStr).getD "image/png".toList
    let data := (json.getStr "data").getD []
    if data.isEmpty then none else some (image (dataUrl mime data))

def filePartOf (file : Json) : Json := .obj [("file", file), ("type", .str "file".toList)]

def filePart (json : Json) : Option Json :=
  match json.get "file" with
  | some (.obj fields) =>
    let file := Json.obj fields
    if (file.get "file_id").isSome || (file.get "file_data").isSome then some (filePartOf file) else none
  | _ =>
    let given := fun key => (json.getStr key).any fun text => !(trim text).isEmpty
    if given "file_id" || given "file_data" then
      some (filePartOf (.record (["file_data", "file_id", "filename"].map fun key => (key, json.get key))))
    else none

def documentPart (json : Json) : Option Json :=
  match json.get "source" with
  | some (.obj fields) =>
    let source := Json.obj fields
    let mediaType := (source.getStr "media_type").getD "application/pdf".toList
    let data := (source.getStr "data").getD []
    let filename := (json.getStr "filename").getD "document".toList
    if source.getStr "type" = some "base64".toList && !data.isEmpty then
      some (filePartOf (.obj [("file_data", .str ("data:".toList ++ mediaType ++ ";base64,".toList ++ data)),
        ("filename", .str filename)]))
    else none
  | _ => none

def audioFormat (raw : Str) : Str :=
  let base := trim ((toAsciiLowercase raw).takeWhile (· != ';'))
  if "audio/".toList.isPrefixOf base then base.drop 6 else base

def inputAudioPart (payload : Json) : Json := .obj [("input_audio", payload), ("type", .str "input_audio".toList)]

def anthropicAudioPart (json : Json) : Option Json :=
  match json.get "source" with
  | some (.obj fields) =>
    let source := Json.obj fields
    let data := (source.getStr "data").getD []
    let mime := ((getOr source "media_type" "mime_type").bind Json.asStr).or (json.getStr "mimeType")
    let format := (mime.map audioFormat).getD "wav".toList
    if source.getStr "type" = some "base64".toList && !data.isEmpty then
      some (inputAudioPart (.obj [("data", .str data), ("format", .str format)]))
    else none
  | _ => none

def looseDataUrlPart (json : Json) : Option Json :=
  match json.getStr "url" with
  | some url =>
    let trimmed := trim url
    if wholeDataUrlMinBytes ≤ utf8Len trimmed && "data:".toList.isPrefixOf trimmed then
      some (imageUrlPart [("url", .str trimmed)])
    else none
  | none => none

def partPayload (json : Json) (fields : Fields) (key : String) : Json :=
  (json.get key).getD (.obj (removeField "type" fields))

/-- A block of any protocol as a media part of a chat message, when it is one. -/
def chatMediaPart (block : Json) : Option Json :=
  match block with
  | .obj fields =>
    let type := String.ofList (trim ((block.getStr "type").getD []))
    if type = "input_image" ∨ type = "image_url" then imageLikePart block ["image_url", "url", "file_id"]
    else if type = "image" then anthropicImagePart block
    else if type = "input_file" ∨ type = "file" then filePart block
    else if type = "document" then documentPart block
    else if type = "input_audio" then some (inputAudioPart (partPayload block fields "input_audio"))
    else if type = "audio" then anthropicAudioPart block
    else looseDataUrlPart block
  | _ => none

/-- The media parts that were taken out so far, and the texts that were left. -/
structure Stripped where
  media : List Json
  texts : List Str

def Stripped.withMedia (found : Stripped) (part : Json) : Stripped := { found with media := found.media ++ [part] }

def Stripped.withText (found : Stripped) (text : Str) : Stripped := { found with texts := found.texts ++ [text] }

def joinLines (parts : List Str) : Str := ['\n'].intercalate parts

def isTextPart (json : Json) : Bool :=
  json.getStr "type" = some "text".toList || json.getStr "type" = some "output_text".toList ||
    json.getStr "type" = some "input_text".toList

/-- The text of a value without its media. The number counts the levels down that are still looked into. -/
def stripAtDepth [FloatText] : Nat → Json → Stripped → Str × Stripped
  | 0, _, found => ([], found)
  | levels + 1, value, found =>
    match value with
    | .str text =>
      match wholeStringImageDataUrlToPart text with
      | some part => ([], found.withMedia part)
      | none =>
        match parse (trim text) with
        | some (.obj fields) =>
          let inner := stripAtDepth levels (.obj fields) found
          if found.media.length < inner.2.media.length then inner else (text, inner.2)
        | some (.arr items) =>
          let inner := stripAtDepth levels (.arr items) found
          if found.media.length < inner.2.media.length then inner else (text, inner.2)
        | _ => (text, found.withText text)
    | .arr items =>
      let parts := items.foldl (fun (parts, found) item =>
        match chatMediaPart item with
        | some part => (parts, found.withMedia part)
        | none =>
          if isTextPart item then
            let text := (item.getStr "text").getD []
            if (trim text).isEmpty then (parts, found) else (parts ++ [text], found.withText text)
          else
            let inner := stripAtDepth levels item found
            (parts ++ [inner.1], inner.2)) (([] : List Str), found)
      (joinLines (parts.1.filter fun part => !(trim part).isEmpty), parts.2)
    | .obj fields =>
      match chatMediaPart (.obj fields) with
      | some part => ([], found.withMedia part)
      | none =>
        let wrapped := match fields.lookup "content" with
          | some (.arr items) => some (stripAtDepth levels (.arr items) found)
          | some (.str text) => some (stripAtDepth levels (.str text) found)
          | _ => none
        match wrapped with
        | some inner =>
          if found.media.length < inner.2.media.length then inner else (canonicalJsonString (.obj fields), inner.2)
        | none => (canonicalJsonString (.obj fields), found)
    | .null => ([], found)
    | other => (other.print, found)

def maxMediaDepth : Nat := 32

structure ToolMediaSplit where
  text : Str
  media : List Json

def splitToolOutput [FloatText] (output : Json) : ToolMediaSplit :=
  let stripped := stripAtDepth (maxMediaDepth + 1) output ⟨[], []⟩
  if stripped.2.media.isEmpty then ⟨stripped.1, []⟩
  else ⟨withMovedMarker (joinLines (stripped.2.texts.map clampBase64ish)), stripped.2.media⟩

end LlmGateway
