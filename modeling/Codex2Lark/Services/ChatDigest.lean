import Mathlib.Data.List.Sort
import Mathlib.Data.Prod.Lex
import Mathlib.Data.String.Basic
import Codex2Lark.Core.JsonText
import Codex2Lark.Im.TaskHandler
import Codex2Lark.Lib.Markup

/-!
`chat_digest`: the raw messages of a chat with their thread replies, flattened into
dated entries and written as the XML of a document. The list of messages is what
`lark-cli` printed, read back as JSON.
-/

namespace Codex2Lark

open IMMentionTaskHandler (strip firstOccurrences isTruthy)
open Lib.Markup (htmlEscape)

/-- What the digest calls in `str`, `re`, `html`, `json` and `datetime`. `τ` holds the
floats; NaN may stand anywhere in their order, for it has no local date. The zone of the
request is fixed. -/
structure DigestLibrary (δ τ : Type) where
  /-- `str(value)` of a value that is no string. -/
  str : Json → String
  lower : String → String
  isdigit : String → Bool
  unescape : String → String
  /-- `_RESOURCE_TAG.sub("", _IMAGE_MARKER.sub("", value))`. -/
  dropMarkers : String → String
  /-- `_IMAGE_KEY.findall`. -/
  findImageKeys : String → List String
  /-- `_RESOURCE_NAME.findall`. -/
  findResourceNames : String → List String
  /-- `_FILE_NAME_KEYS` in the order in which the set is walked. -/
  fileNameKeys : List String
  /-- The error of `json.loads` that is no `JSONDecodeError`: too many digits in an
  integer, too deep a nesting. -/
  interpreterLimit : String → Option PyError
  /-- `float(value)`. -/
  float : Json → Except PyError τ
  tenBillion : τ
  thousandth : τ → τ
  zero : τ
  /-- `datetime.fromisoformat`; none is its `ValueError`. -/
  fromisoformat : String → Option δ
  hasZone : δ → Bool
  replaceZone : δ → δ
  timestamp : δ → τ
  /-- `datetime.fromtimestamp(timestamp, tz=UTC).astimezone(zone)` as `strftime` writes
  its date and its time. -/
  localTime : τ → Except PyError (String × String)

structure ChatEntry (τ : Type) where
  messageId : String
  createTime : String
  timestamp : Option τ
  sender : String
  text : String
  imageKeys : List String
  fileNames : List String
  messageType : String
  threadReply : Bool
deriving DecidableEq, Inhabited

/-- A decoded object. -/
abbrev JsonObject := List (String × Json)

namespace ChatDigest

/-- The keys under which content nests, apart from the locales. -/
def nestingKeys : List String :=
  ["content", "elements", "children", "items", "messages", "message_list"]

def localeKeys : List String := ["zh_cn", "en_us"]

/-- `isinstance(value, str) and value`. -/
def nonEmptyText : Option Json → Option String
  | some (.str text) => if text = "" then none else some text
  | _ => none

/-- `str(value) if value is not None else ""`, with a missing key for a `None`. -/
def shown {δ τ : Type} (library : DigestLibrary δ τ) : Option Json → String
  | none | some .null => ""
  | some (.str text) => text
  | some value => library.str value

section Collect

variable {δ τ : Type} (library : DigestLibrary δ τ)

/-- What was collected under the keys, in the order of the keys. -/
def under (collected : List (String × List String)) (keys : List String) : List String :=
  keys.flatMap fun key => ((collected.find? fun item => item.1 = key).map Prod.snd).getD []

/-- `_decoded_content`. -/
def decodedContent : Json → Except PyError Json
  | .str text =>
      match library.interpreterLimit text with
      | some error => .error error
      | none =>
          match Json.loads text with
          | .ok value => .ok value
          | .error _ => .ok (.str text)
  | value => .ok value

mutual

/-- `_collect_text`. -/
def collectText : Json → List String
  | .str value =>
      let cleaned := strip (library.dropMarkers value)
      if cleaned = "" ∨ cleaned.startsWith "img_" ∨ cleaned.startsWith "file_" then []
      else [cleaned]
  | .arr items => collectTextItems items
  | .obj fields =>
      ["title", "text"].filterMap (fun key => nonEmptyText (Json.field? fields key)) ++
        under (collectTextFields fields) (nestingKeys ++ localeKeys)
  | _ => []

def collectTextItems : List Json → List String
  | [] => []
  | child :: rest => collectText child ++ collectTextItems rest

def collectTextFields : List (String × Json) → List (String × List String)
  | [] => []
  | (key, child) :: rest => (key, collectText child) :: collectTextFields rest

end

mutual

/-- `_collect_image_keys`. -/
def collectImageKeys : Json → List String
  | .str value => firstOccurrences (library.findImageKeys value)
  | .arr items => firstOccurrences (collectImageKeysItems items)
  | .obj fields => firstOccurrences (collectImageKeysFields fields)
  | _ => []

def collectImageKeysItems : List Json → List String
  | [] => []
  | child :: rest => collectImageKeys child ++ collectImageKeysItems rest

def collectImageKeysFields : List (String × Json) → List String
  | [] => []
  | (key, child) :: rest =>
      (if key = "image_key" ∨ key = "img_key" then
          match child with
          | .str value => library.findImageKeys value
          | _ => []
        else if (nestingKeys ++ localeKeys).contains key then collectImageKeys child
        else []) ++
        collectImageKeysFields rest

end

mutual

/-- `_collect_file_names`. -/
def collectFileNames : Json → List String
  | .str value => firstOccurrences ((library.findResourceNames value).map library.unescape)
  | .arr items => firstOccurrences (collectFileNamesItems items)
  | .obj fields =>
      let own :=
        if (Json.field? fields "file_key").isSome ∨ (Json.field? fields "file_token").isSome then
          (library.fileNameKeys.filterMap fun key => nonEmptyText (Json.field? fields key)).take 1
        else []
      firstOccurrences
        (own ++ under (collectFileNamesFields fields) (nestingKeys ++ localeKeys))
  | _ => []

def collectFileNamesItems : List Json → List String
  | [] => []
  | child :: rest => collectFileNames child ++ collectFileNamesItems rest

def collectFileNamesFields : List (String × Json) → List (String × List String)
  | [] => []
  | (key, child) :: rest => (key, collectFileNames child) :: collectFileNamesFields rest

end

/-- `value.replace("Z", "+00:00")`. -/
def replaceZulu (value : String) : String :=
  String.ofList (value.toList.flatMap fun c => if c = 'Z' then "+00:00".toList else [c])

/-- A number of seconds, or of milliseconds where it is too large for seconds. -/
def numberTimestamp [LinearOrder τ] (value : Json) : Except PyError (Option τ) := do
  let number ← library.float value
  .ok (some (if library.tenBillion < number then library.thousandth number else number))

/-- `_timestamp`; a missing key is a `None`. -/
def timestamp [LinearOrder τ] : Option Json → Except PyError (Option τ)
  | some (.str value) =>
      if library.isdigit value then numberTimestamp library (.str value)
      else
        .ok ((library.fromisoformat (replaceZulu (strip value))).map fun moment =>
          library.timestamp (if library.hasZone moment then moment else library.replaceZone moment))
  -- `True` and `False` are integers.
  | some (.int n) => numberTimestamp library (.int n)
  | some (.float number) => numberTimestamp library (.float number)
  | some (.bool b) => numberTimestamp library (.bool b)
  | _ => .ok none

end Collect

section Normalize

variable {δ τ : Type} (library : DigestLibrary δ τ)

/-- `_sender_name`. -/
def senderName (message : JsonObject) : String :=
  match Json.field? message "sender" with
  | some (.obj sender) =>
      (["name", "sender_name", "id", "sender_id"].findSome? fun key =>
        nonEmptyText (Json.field? sender key)).getD "系统"
  | _ => "系统"

/-- One line for each name, or one for an unknown name. -/
def notDownloaded (label : String) (fileNames : List String) : String :=
  "\n".intercalate ((if fileNames.isEmpty then ["文件名未知"] else fileNames).map fun name =>
    label ++ ": " ++ name ++ " (未下载)")

/-- `_normal_text`. -/
def normalText (messageType : String) (decoded : Json) (fileNames : List String) : String :=
  if messageType = "file" then notDownloaded "文件" fileNames
  else if messageType = "audio" then notDownloaded "音频" fileNames
  else if messageType = "video" then notDownloaded "视频" fileNames
  else if messageType = "media" then notDownloaded "媒体" fileNames
  else if messageType = "sticker" then "贴纸消息 (未下载)"
  else
    let collected := "\n".intercalate
      (((collectText library decoded).map strip).filter fun part => part ≠ "")
    let text :=
      if fileNames.isEmpty then collected
      else
        let fileLines := fileNames.map fun name => "文件: " ++ name ++ " (未下载)"
        "\n".intercalate (if collected = "" then fileLines else collected :: fileLines)
    if text ≠ "" then text
    else if messageType = "image" then "图片"
    else if messageType = "interactive" then "交互卡片 (未展开)"
    else if messageType = "system" then "系统消息"
    else (if messageType = "" then "未知" else messageType) ++ " 消息"

def messageId (message : JsonObject) : String := shown library (Json.field? message "message_id")

variable [LinearOrder τ]

/-- `_normalize_message`. -/
def normalizeMessage (message : JsonObject) (threadReply : Bool) :
    Except PyError (ChatEntry τ) := do
  let decoded ← decodedContent library ((Json.field? message "content").getD (.str ""))
  let typeValue := Json.field? message "msg_type"
  let messageType :=
    library.lower (if isTruthy typeValue then shown library typeValue else "unknown")
  let fileNames := collectFileNames library decoded
  let imageKeys :=
    if ["image", "post", "merge_forward"].contains messageType then collectImageKeys library decoded
    else []
  let deleted := decide (Json.field? message "deleted" = some (.bool true))
  let text := if deleted then "消息已撤回" else normalText library messageType decoded fileNames
  let createTimeValue := Json.field? message "create_time"
  let moment ← timestamp library createTimeValue
  .ok { messageId := messageId library message
        createTime := shown library createTimeValue
        timestamp := moment
        sender := senderName message
        text := text
        imageKeys := if deleted then [] else imageKeys
        fileNames := fileNames
        messageType := messageType
        threadReply := threadReply }

mutual

/-- `append` of one raw message: its entry, and then its replies. -/
def append (threadReply : Bool) : Json → Except PyError (List (ChatEntry τ))
  | .obj fields => do
      let entry ← normalizeMessage library fields threadReply
      let replies ← appendReplies fields
      .ok (entry :: replies)
  | _ => .ok []

/-- What `append` does under the key `thread_replies`, the first field of that name. -/
def appendReplies : List (String × Json) → Except PyError (List (ChatEntry τ))
  | [] => .ok []
  | (key, .arr replies) :: rest =>
      if key = "thread_replies" then appendAll true replies else appendReplies rest
  | (key, _) :: rest => if key = "thread_replies" then .ok [] else appendReplies rest

def appendAll (threadReply : Bool) : List Json → Except PyError (List (ChatEntry τ))
  | [] => .ok []
  | raw :: rest => do
      let first ← append threadReply raw
      let later ← appendAll threadReply rest
      .ok (first ++ later)

end

/-- The key of an entry: its id, or one made up from the count of entries without an id. -/
def entryKey (anonymous : Nat) (entry : ChatEntry τ) : String :=
  if entry.messageId = "" then "anonymous-" ++ toString anonymous else entry.messageId

/-- The count of entries without an id, and `unique.setdefault(key, entry)`. -/
def setdefaultEntry (state : Nat × List (String × ChatEntry τ)) (entry : ChatEntry τ) :
    Nat × List (String × ChatEntry τ) :=
  let anonymous := if entry.messageId = "" then state.1 + 1 else state.1
  let key := entryKey anonymous entry
  (anonymous,
    if state.2.any fun item => item.1 = key then state.2 else state.2 ++ [(key, entry)])

def uniqueEntries (entries : List (ChatEntry τ)) : List (ChatEntry τ) :=
  (entries.foldl setdefaultEntry (0, [])).2.map Prod.snd

/-- The key of the sort. -/
def sortKey (pair : ChatEntry τ × Nat) : Bool ×ₗ τ ×ₗ String ×ₗ Nat :=
  toLex (pair.1.timestamp.isNone, toLex (pair.1.timestamp.getD library.zero,
    toLex (if pair.1.timestamp.isNone then "" else pair.1.messageId, pair.2)))

/-- `_flatten_messages`. -/
def flattenMessages (messages : List Json) : Except PyError (List (ChatEntry τ)) := do
  let entries ← appendAll library false messages
  let indexed := (uniqueEntries entries).zipIdx
  .ok ((indexed.insertionSort fun a b => sortKey library a ≤ sortKey library b).map Prod.fst)

end Normalize

section Render

variable {δ τ : Type} (library : DigestLibrary δ τ)

/-- The characters at which `str.splitlines` breaks. -/
def isLineBreak (c : Char) : Bool :=
  let n := c.toNat
  (10 ≤ n && n ≤ 13) || (28 ≤ n && n ≤ 30) || n = 133 || n = 8232 || n = 8233

/-- `str.splitlines`, with the line that is being read. -/
def splitLines (line : List Char) : List Char → List (List Char)
  | [] => if line = [] then [] else [line]
  | '\r' :: '\n' :: rest => line :: splitLines [] rest
  | c :: rest =>
      if isLineBreak c then line :: splitLines [] rest else splitLines (line ++ [c]) rest

/-- `entry.text.splitlines() or [entry.text]`. -/
def textLines (text : String) : List String :=
  let lines := (splitLines [] text.toList).map String.ofList
  if lines.isEmpty then [text] else lines

/-- `_render_time`. -/
def renderTime (entry : ChatEntry τ) : Except PyError (String × String) :=
  match entry.timestamp with
  | none => .ok ("日期未知", if entry.createTime = "" then "时间未知" else entry.createTime)
  | some moment => library.localTime moment

/-- The part of one image: its file, or the note that it could not be read. -/
def imagePart (imagePaths : String → String → Option String) (entry : ChatEntry τ)
    (timeLabel imageKey : String) : String :=
  match imagePaths entry.messageId imageKey with
  | none => "<p>图片无法读取: " ++ htmlEscape imageKey ++ "</p>"
  | some path =>
      "<img path=\"" ++ htmlEscape path ++ "\" caption=\"" ++
        htmlEscape (entry.sender ++ " · " ++ timeLabel) ++ "\"/>"

/-- The parts of one entry after its heading. -/
def entryParts (imagePaths : String → String → Option String) (entry : ChatEntry τ)
    (timeLabel : String) : List String :=
  ["<blockquote>",
    "<p><b>" ++ htmlEscape timeLabel ++ " · " ++ htmlEscape entry.sender ++
      (if entry.threadReply then " · 话题回复" else "") ++ "</b></p>"] ++
    (textLines entry.text).map (fun line => "<p>" ++ htmlEscape line ++ "</p>") ++
    ["</blockquote>"] ++ entry.imageKeys.map (imagePart imagePaths entry timeLabel) ++ ["<hr/>"]

/-- The loop over the entries, under the date of the last heading. -/
def renderEntries (imagePaths : String → String → Option String) :
    Option String → List (ChatEntry τ) → Except PyError (List String)
  | _, [] => .ok []
  | activeDate, entry :: rest => do
      let (dateLabel, timeLabel) ← renderTime library entry
      let heading :=
        if some dateLabel = activeDate then [] else ["<h2>" ++ htmlEscape dateLabel ++ "</h2>"]
      let later ← renderEntries imagePaths (some dateLabel) rest
      .ok (heading ++ entryParts imagePaths entry timeLabel ++ later)

/-- The parts before the entries. -/
def openingParts (chatName start stop : String) (count : Nat) : List String :=
  ["<title>" ++ htmlEscape chatName ++ "</title>",
    "<callout background-color=\"light-blue\" border-color=\"blue\">",
    "<p><b>群聊:</b> " ++ htmlEscape chatName ++ "</p>",
    "<p><b>时间范围:</b> " ++ htmlEscape start ++ " 至 " ++ htmlEscape stop ++ "</p>",
    "<p><b>消息数量:</b> " ++ toString count ++ "</p>",
    "</callout>",
    "<h1>群聊记录</h1>"]

/-- `_render_digest_xml`. -/
def renderDigestXml (imagePaths : String → String → Option String)
    (chatName start stop : String) (entries : List (ChatEntry τ)) : Except PyError String :=
  let opening := openingParts chatName start stop entries.length
  if entries.isEmpty then
    .ok ("".intercalate (opening ++ ["<p>该时间范围内没有消息。</p>"]))
  else do
    let rendered ← renderEntries library imagePaths none entries
    .ok ("".intercalate (opening ++ rendered))

end Render

end ChatDigest

end Codex2Lark
