import Codex2Lark.Core.DocumentModels
import Codex2Lark.Im.TaskHandler
import Codex2Lark.Runtime.Tools

/-!
The write targets of the document and whiteboard tools: `runtime/targets.py`,
`capabilities/docs/tools.py` and `capabilities/artifacts/tools.py` with the request
models of `core/models.py`. The Feishu service and the text functions of the standard
library are parameters.
-/

namespace Codex2Lark

/-- `unicodedata.normalize("NFKC", ·)`, `str.casefold`, the hexadecimal SHA-256 digest of
the encoded text, and `str` of a decoded value. -/
structure TextLibrary where
  nfkc : String → String
  casefold : String → String
  sha256 : String → String
  str : Json → String

inductive Identity where
  | user
  | bot
deriving DecidableEq, Repr

/-- The constructor refuses a reference with both fields or with none. -/
inductive ResourceRef where
  | url (value : String)
  | token (value : String)
deriving DecidableEq, Repr

/-- Unicode white space, which pydantic strips from every text field. -/
def isWhiteSpace (c : Char) : Bool :=
  let n := c.toNat
  (9 ≤ n && n ≤ 13) || n = 32 || n = 133 || n = 160 || n = 5760 || (8192 ≤ n && n ≤ 8202) ||
    n = 8232 || n = 8233 || n = 8239 || n = 8287 || n = 12288

/-- `str_strip_whitespace`. -/
def stripField (text : String) : String :=
  String.ofList (((text.toList.dropWhile isWhiteSpace).reverse.dropWhile isWhiteSpace).reverse)

namespace ResourceRef

/-- `value`; the assertion fails for an empty URL. -/
def value : ResourceRef → Except PyError String
  | .url value => if value = "" then .error (.other "AssertionError" "") else .ok value
  | .token value => .ok value

/-- `_resource`: the prefix is looked at before the field is stripped. -/
def ofText (text : String) : ResourceRef :=
  if "https://".toList.isPrefixOf text.toList then .url (stripField text) else .token (stripField text)

end ResourceRef

/-! ### `runtime/targets.py` -/

namespace WriteTargets

/-- `str.split()`. -/
def splitWords (text : String) : List String :=
  (text.toList.splitOnP IMMentionTaskHandler.isSpace).filterMap fun word =>
    if word.isEmpty then none else some (String.ofList word)

/-- `WriteScopeTarget` with the check of `__post_init__`. -/
def writeScopeTarget (resourceType resourceId : String) (expectedRevision : Option String := none) :
    Except PyError WriteScopeTarget :=
  if resourceType = "" ∨ resourceId = "" then
    .error (.valueError "write scope target identity is required")
  else .ok ⟨resourceType, resourceId, expectedRevision⟩

def logicalReservation (lib : TextLibrary) (resourceType value : String) :
    Except PyError WriteScopeTarget :=
  if resourceType = "" ∨ IMMentionTaskHandler.strip value = "" then
    .error (.valueError "logical reservation identity is required")
  else
    let normalized := lib.casefold (" ".intercalate (splitWords (lib.nfkc value)))
    let digest := lib.sha256 (resourceType ++ String.ofList [Char.ofNat 0] ++ normalized)
    writeScopeTarget resourceType ("logical:" ++ digest)

def exactTarget (resourceType : String) (parts : List String) : Except PyError WriteScopeTarget :=
  if resourceType = "" ∨ parts.isEmpty ∨ parts.any fun item => IMMentionTaskHandler.strip item = "" then
    .error (.valueError "exact write target identity is required")
  else writeScopeTarget resourceType (":".intercalate parts)

end WriteTargets

/-! ### Fields of the request models -/

namespace RequestModel

/-- A text field with its bounds; `none` is a `ValidationError`. -/
def text (arguments : List (String × Json)) (name : String) (minLength maxLength : Nat) :
    Option String :=
  match Json.field? arguments name with
  | some (.str value) =>
      let value := stripField value
      if minLength ≤ value.length ∧ value.length ≤ maxLength then some value else none
  | _ => none

/-- A nullable text field. -/
def optionalText (arguments : List (String × Json)) (name : String) (minLength maxLength : Nat) :
    Option (Option String) :=
  match Json.field? arguments name with
  | none | some .null => some none
  | some (.str _) => (text arguments name minLength maxLength).map some
  | _ => none

/-- The text that a tool turns into a `ResourceRef`; anything else becomes `None`. -/
def resource (arguments : List (String × Json)) (name : String) : Option ResourceRef :=
  match Json.field? arguments name with
  | some (.str value) => if value = "" then none else some (.ofText value)
  | _ => none

/-- A list of texts of bounded length. -/
def texts (arguments : List (String × Json)) (name : String) (maxItems : Nat) :
    Option (List String) :=
  match Json.field? arguments name with
  | some (.arr items) =>
      if items.length ≤ maxItems then
        items.mapM fun item => match item with
          | .str value => some (stripField value)
          | _ => none
      else none
  | _ => none

/-- A boolean field in pydantic's lax mode. -/
def boolean (arguments : List (String × Json)) (name : String) : Option Bool :=
  match Json.field? arguments name with
  | some (.bool value) => some value
  | some (.int 0) => some false
  | some (.int 1) => some true
  | some (.float shown) =>
      if shown = "1.0" then some true else if shown = "0.0" then some false else none
  | some (.str value) =>
      let value := value.toLower
      if ["1", "t", "true", "y", "yes", "on"].contains value then some true
      else if ["0", "f", "false", "n", "no", "off"].contains value then some false
      else none
  | _ => none

/-- A boolean field with a default. -/
def booleanOr (arguments : List (String × Json)) (name : String) (default : Bool) : Option Bool :=
  match Json.field? arguments name with
  | none => some default
  | some _ => boolean arguments name

/-- `extra="forbid"`. -/
def onlyKeys (arguments : List (String × Json)) (fields : List String) : Bool :=
  arguments.all fun entry => fields.contains entry.1

/-- `set(arguments) == set(properties)`. -/
def sameKeys (arguments : List (String × Json)) (properties : List String) : Bool :=
  onlyKeys arguments properties &&
    properties.all fun name => (Json.field? arguments name).isSome

end RequestModel

/-- What a tool raises when its request model refuses the arguments; the text is
pydantic's. -/
def validationError : PyError := .other "ValidationError" ""

/-! ### `feishu.docs.edit` -/

inductive EditCommand where
  | append
  | overwrite
  | strReplace
  | blockInsertAfter
  | blockReplace
  | blockDelete
deriving DecidableEq, Repr

def EditCommand.ofValue? : String → Option EditCommand
  | "append" => some .append
  | "overwrite" => some .overwrite
  | "str_replace" => some .strReplace
  | "block_insert_after" => some .blockInsertAfter
  | "block_replace" => some .blockReplace
  | "block_delete" => some .blockDelete
  | _ => none

structure EditOperation where
  command : EditCommand
  content : Option String
  pattern : Option String
  blockId : Option String
deriving DecidableEq, Repr

/-- `validate_command_fields`. -/
def EditOperation.isValid (operation : EditOperation) : Bool :=
  !(operation.command ≠ .blockDelete && operation.content.isNone) &&
    !([EditCommand.blockInsertAfter, .blockReplace, .blockDelete].contains operation.command &&
      operation.blockId.isNone) &&
    !(operation.command = .strReplace && operation.pattern.isNone) &&
    !(operation.command = .blockDelete && operation.content.isSome)

/-- The document of an edit; the request refuses both references and none. -/
inductive EditTarget where
  | resource (ref : ResourceRef)
  | title (documentTitle : String)
deriving DecidableEq, Repr

structure EditDocumentRequest where
  target : EditTarget
  operation : EditOperation
  changeSummary : String
  requiredText : List String
  identity : Identity
deriving DecidableEq, Repr

structure SearchDocumentsRequest where
  title : String
  identity : Identity
deriving DecidableEq, Repr

/-- The format is XML and the detail level full. -/
structure InspectDocumentRequest where
  resource : ResourceRef
  identity : Identity
deriving DecidableEq, Repr

/-- The awaited answers of the live service. -/
structure DocumentService where
  search : SearchDocumentsRequest → Except PyError (List (String × Json))
  inspect : InspectDocumentRequest → Except PyError (List (String × Json))

structure EditDocumentTool where
  service : DocumentService
  identity : Identity
  lib : TextLibrary

namespace EditDocumentTool

def properties : List String :=
  ["resource", "document_title", "command", "content_xml", "pattern", "block_id",
    "change_summary", "required_text"]

def operation (arguments : List (String × Json)) : Option EditOperation := do
  let command ← match Json.field? arguments "command" with
    | some (.str command) => EditCommand.ofValue? command
    | _ => none
  let content ← RequestModel.optionalText arguments "content_xml" 0 8000000
  let pattern ← RequestModel.optionalText arguments "pattern" 0 1000000
  let blockId ← RequestModel.optionalText arguments "block_id" 0 1024
  let operation : EditOperation := ⟨command, content, pattern, blockId⟩
  if operation.isValid then some operation else none

/-- `_request`. -/
def request (tool : EditDocumentTool) (arguments : List (String × Json)) :
    Option EditDocumentRequest := do
  let title ← RequestModel.optionalText arguments "document_title" 1 800
  let target ← match RequestModel.resource arguments "resource", title with
    | some ref, none => some (EditTarget.resource ref)
    | none, some title => some (EditTarget.title title)
    | _, _ => none
  let operation ← operation arguments
  let changeSummary ← RequestModel.text arguments "change_summary" 1 1000
  let requiredText ← RequestModel.texts arguments "required_text" 100
  some ⟨target, operation, changeSummary, requiredText, tool.identity⟩

def validate (tool : EditDocumentTool) (arguments : List (String × Json)) : Option PyError :=
  if !RequestModel.sameKeys arguments properties then
    some (.valueError "tool arguments must exactly match the strict schema")
  else if (tool.request arguments).isNone then some (.valueError (validationError.text))
  else none

/-- The first of the three identifiers that the inspection names. -/
def canonicalId (live : List (String × Json)) : Option String :=
  ["document_id", "doc_token", "token"].findSome? fun field =>
    match Json.field? live field with
    | some (.str value) => if value = "" then none else some value
    | _ => none

/-- `value.rstrip("/").rsplit("/", 1)[-1]`. -/
def lastSegment (value : String) : String :=
  let trimmed := (value.toList.reverse.dropWhile (· = '/'))
  String.ofList (trimmed.takeWhile (· ≠ '/')).reverse

/-- `_live_target`. -/
def liveTarget (tool : EditDocumentTool) (resource : ResourceRef) :
    Except PyError WriteScopeTarget := do
  let inspected ← tool.service.inspect ⟨resource, tool.identity⟩
  let canonical ← match Json.field? inspected "resource" with
    | some (.obj live) =>
        match canonicalId live with
        | some canonical => .ok canonical
        | none => resource.value.map lastSegment
    | _ => resource.value.map lastSegment
  let revision := match Json.field? inspected "revision" with
    | none | some .null => none
    | some revision => some (tool.lib.str revision)
  WriteTargets.writeScopeTarget "docx" canonical revision

/-- The one match of a title search, as a reference. -/
def titleReference (found : List (String × Json)) : Except PyError ResourceRef :=
  match Json.field? found "matches" with
  | some (.arr [.obj found]) =>
      let reference := if IMMentionTaskHandler.isTruthy (Json.field? found "url") then
        Json.field? found "url" else Json.field? found "token"
      match reference with
      | some (.str reference) =>
          if reference = "" then .error (.valueError "resolved document has no usable reference")
          else .ok (.ofText reference)
      | _ => .error (.valueError "resolved document has no usable reference")
  | _ => .error (.valueError "document title did not resolve to exactly one live target")

def resolveDelegationTarget (tool : EditDocumentTool) (declaration : List (String × Json)) :
    Except PyError WriteScopeTarget :=
  match Json.field? declaration "resource" with
  | some (.str resource) =>
      if resource = "" then .error (.valueError "document delegation target requires resource")
      else tool.liveTarget (.ofText resource)
  | _ => .error (.valueError "document delegation target requires resource")

/-- The reference of the edited document. -/
def reference (tool : EditDocumentTool) (request : EditDocumentRequest) :
    Except PyError ResourceRef :=
  match request.target with
  | .resource ref => .ok ref
  | .title title => do titleReference (← tool.service.search ⟨title, tool.identity⟩)

def resolveWriteTarget (tool : EditDocumentTool) (arguments : List (String × Json)) :
    Except PyError WriteScopeTarget :=
  match tool.request arguments with
  | none => .error validationError
  | some request => do tool.liveTarget (← tool.reference request)

end EditDocumentTool

/-! ### `feishu.whiteboard.render` -/

def DiagramFormat.ofValue? : String → Option DiagramFormat
  | "mermaid" => some .mermaid
  | "plantuml" => some .plantuml
  | "svg" => some .svg
  | _ => none

/-- What `validate_target` requires of each mode. -/
inductive WhiteboardMode where
  | create (document : ResourceRef)
  | update (whiteboardToken : String)
deriving DecidableEq, Repr

structure WhiteboardRenderRequest where
  mode : WhiteboardMode
  format : DiagramFormat
  source : String
  anchorBlockId : Option String
  overwrite : Bool
  identity : Identity
deriving DecidableEq, Repr

structure RenderWhiteboardTool where
  identity : Identity
  lib : TextLibrary

namespace RenderWhiteboardTool

def properties : List String :=
  ["mode", "format", "source", "document", "whiteboard_token", "anchor_block_id", "overwrite"]

/-- `_request`; an `identity` among the arguments is replaced. -/
def request (tool : RenderWhiteboardTool) (arguments : List (String × Json)) :
    Option WhiteboardRenderRequest := do
  guard (RequestModel.onlyKeys arguments ("identity" :: properties))
  let whiteboardToken ← RequestModel.optionalText arguments "whiteboard_token" 0 1024
  let mode ← match Json.field? arguments "mode", RequestModel.resource arguments "document" with
    | some (.str "create"), some document => some (WhiteboardMode.create document)
    | some (.str "update"), _ =>
        whiteboardToken.bind fun token => if token = "" then none else some (.update token)
    | _, _ => none
  let format ← match Json.field? arguments "format" with
    | some (.str format) => DiagramFormat.ofValue? format
    | _ => none
  let source ← RequestModel.text arguments "source" 1 4000000
  let anchorBlockId ← RequestModel.optionalText arguments "anchor_block_id" 0 1024
  let overwrite ← RequestModel.booleanOr arguments "overwrite" true
  some ⟨mode, format, source, anchorBlockId, overwrite, tool.identity⟩

def validate (tool : RenderWhiteboardTool) (arguments : List (String × Json)) : Option PyError :=
  if !RequestModel.sameKeys arguments properties then
    some (.valueError "tool arguments must exactly match the strict schema")
  else if (tool.request arguments).isNone then some (.valueError (validationError.text))
  else none

def resolveDelegationTarget (tool : RenderWhiteboardTool) (declaration : List (String × Json)) :
    Except PyError WriteScopeTarget :=
  match Json.field? declaration "resource" with
  | some (.str resource) =>
      if resource = "" then
        .error (.valueError "delegated artifact write requires a resource target")
      else if resource.toList.contains '#' then
        WriteTargets.logicalReservation tool.lib "whiteboard-create" resource
      else WriteTargets.exactTarget "whiteboard" [resource]
  | _ => .error (.valueError "delegated artifact write requires a resource target")

/-- The document reference and the anchor of a created whiteboard. -/
def binding (document anchor : String) : String := document ++ "#" ++ anchor

/-- `anchor_block_id or 'document-end'`. -/
def anchor (request : WhiteboardRenderRequest) : String :=
  match request.anchorBlockId with
  | some "" | none => "document-end"
  | some anchor => anchor

def resolveWriteTarget (tool : RenderWhiteboardTool) (arguments : List (String × Json)) :
    Except PyError WriteScopeTarget :=
  match tool.request arguments with
  | none => .error validationError
  | some request =>
      match request.mode with
      | .update token => WriteTargets.exactTarget "whiteboard" [token]
      | .create document => do
          WriteTargets.logicalReservation tool.lib "whiteboard-create"
            (binding (← document.value) (anchor request))

end RenderWhiteboardTool

/-! ### The lock keys of one live document -/

/-- What a lock row is found by, besides the tenant. -/
def WriteScopeTarget.key (target : WriteScopeTarget) : String × String :=
  (target.resourceType, target.resourceId)

/-- A live document with the references, by URL or by token, that stand for it. -/
structure LiveDocument where
  id : String
  nonempty : id ≠ ""
  denotes : ResourceRef → Prop

/-- Inspecting a reference of the document returns the document's own identifier. -/
def EditDocumentTool.InspectsOwnId (tool : EditDocumentTool) (doc : LiveDocument) : Prop :=
  ∀ ref, doc.denotes ref → ∀ inspected, tool.service.inspect ⟨ref, tool.identity⟩ = .ok inspected →
    ∃ live, Json.field? inspected "resource" = some (.obj live) ∧
      Json.field? live "document_id" = some (.str doc.id)

/-- An accepted edit, by reference or by title, of the document. -/
def EditDocumentTool.Edits (tool : EditDocumentTool) (doc : LiveDocument)
    (arguments : List (String × Json)) : Prop :=
  tool.validate arguments = none ∧ ∃ request ref, tool.request arguments = some request ∧
    tool.reference request = .ok ref ∧ doc.denotes ref

/-- An accepted creation of a whiteboard inside the document. -/
def RenderWhiteboardTool.CreatesIn (tool : RenderWhiteboardTool) (doc : LiveDocument)
    (arguments : List (String × Json)) : Prop :=
  tool.validate arguments = none ∧ ∃ request ref, tool.request arguments = some request ∧
    request.mode = .create ref ∧ doc.denotes ref

/-- A declaration of the document. -/
def DeclaresDocument (doc : LiveDocument) (declaration : List (String × Json)) : Prop :=
  ∃ text, Json.field? declaration "resource" = some (.str text) ∧ doc.denotes (.ofText text)

namespace WriteTargets

theorem writeScopeTarget_ok {resourceType resourceId : String} {revision : Option String}
    {target : WriteScopeTarget} (hok : writeScopeTarget resourceType resourceId revision = .ok target) :
    target.key = (resourceType, resourceId) := by
  unfold writeScopeTarget at hok
  split at hok
  · cases hok
  · cases hok
    rfl

theorem logicalReservation_ok {lib : TextLibrary} {resourceType value : String}
    {target : WriteScopeTarget} (hok : logicalReservation lib resourceType value = .ok target) :
    target.resourceType = resourceType := by
  unfold logicalReservation at hok
  split at hok
  · cases hok
  · exact congrArg Prod.fst (writeScopeTarget_ok hok)

end WriteTargets

/-- The lock key of a live document is its own identifier. -/
theorem EditDocumentTool.liveTarget_key {tool : EditDocumentTool} {doc : LiveDocument}
    (hown : tool.InspectsOwnId doc) {ref : ResourceRef} (hdenotes : doc.denotes ref)
    {target : WriteScopeTarget} (hok : tool.liveTarget ref = .ok target) :
    target.key = ("docx", doc.id) := by
  unfold liveTarget at hok
  obtain ⟨inspected, hinspect, hok⟩ := PyError.bind_eq_ok.mp hok
  obtain ⟨live, hresource, hid⟩ := hown ref hdenotes inspected hinspect
  have hcanonical : canonicalId live = some doc.id := by
    simp [canonicalId, hid, doc.nonempty]
  rw [hresource] at hok
  dsimp only at hok
  rw [hcanonical] at hok
  exact WriteTargets.writeScopeTarget_ok hok

theorem EditDocumentTool.resolveWriteTarget_key {tool : EditDocumentTool} {doc : LiveDocument}
    (hown : tool.InspectsOwnId doc) {arguments : List (String × Json)}
    (hedits : tool.Edits doc arguments) {target : WriteScopeTarget}
    (hok : tool.resolveWriteTarget arguments = .ok target) : target.key = ("docx", doc.id) := by
  obtain ⟨_, request, ref, hrequest, href, hdenotes⟩ := hedits
  unfold resolveWriteTarget at hok
  rw [hrequest] at hok
  dsimp only at hok
  rw [href] at hok
  exact liveTarget_key hown hdenotes hok

theorem EditDocumentTool.resolveDelegationTarget_key {tool : EditDocumentTool} {doc : LiveDocument}
    (hown : tool.InspectsOwnId doc) {declaration : List (String × Json)}
    (hdeclares : DeclaresDocument doc declaration) {target : WriteScopeTarget}
    (hok : tool.resolveDelegationTarget declaration = .ok target) :
    target.key = ("docx", doc.id) := by
  obtain ⟨text, htext, hdenotes⟩ := hdeclares
  unfold resolveDelegationTarget at hok
  rw [htext] at hok
  dsimp only at hok
  split at hok
  · cases hok
  · exact liveTarget_key hown hdenotes hok

namespace RenderWhiteboardTool

/-- A creation reserves its document reference with its anchor. -/
theorem resolveWriteTarget_create {tool : RenderWhiteboardTool} {arguments : List (String × Json)}
    {request : WhiteboardRenderRequest} {ref : ResourceRef} {document : String}
    (hrequest : tool.request arguments = some request) (hmode : request.mode = .create ref)
    (hvalue : ref.value = .ok document) : tool.resolveWriteTarget arguments =
      WriteTargets.logicalReservation tool.lib "whiteboard-create"
        (binding document (anchor request)) := by
  unfold resolveWriteTarget
  rw [hrequest]
  dsimp only
  rw [hmode]
  dsimp only
  rw [hvalue]
  dsimp only [bind, Except.bind]

theorem resolveDelegationTarget_binding (tool : RenderWhiteboardTool)
    {declaration : List (String × Json)} {document anchor : String}
    (hresource : Json.field? declaration "resource" = some (.str (binding document anchor))) :
    tool.resolveDelegationTarget declaration =
      WriteTargets.logicalReservation tool.lib "whiteboard-create" (binding document anchor) := by
  have hchars : (binding document anchor).toList = document.toList ++ '#' :: anchor.toList := by
    simp [binding]
  have hsharp : (binding document anchor).toList.contains '#' = true := by
    rw [hchars]
    simp
  have hnonempty : binding document anchor ≠ "" := by
    intro hempty
    rw [hempty] at hchars
    simp at hchars
  unfold resolveDelegationTarget
  rw [hresource]
  dsimp only
  rw [if_neg hnonempty, if_pos hsharp]

end RenderWhiteboardTool

/-- Edits and declarations of one document share the lock of the document; a whiteboard
created in it has the reservation of its reference and anchor. -/
theorem write_targets_of_document (doc : LiveDocument) :
    (∀ tool : EditDocumentTool, tool.InspectsOwnId doc → ∀ arguments target,
      tool.Edits doc arguments → tool.resolveWriteTarget arguments = .ok target →
        target.key = ("docx", doc.id)) ∧
    (∀ tool : EditDocumentTool, tool.InspectsOwnId doc → ∀ declaration target,
      DeclaresDocument doc declaration → tool.resolveDelegationTarget declaration = .ok target →
        target.key = ("docx", doc.id)) ∧
    ∀ (tool : RenderWhiteboardTool) arguments request ref document target,
      tool.validate arguments = none → tool.request arguments = some request →
      request.mode = .create ref → doc.denotes ref → ref.value = .ok document →
      tool.resolveWriteTarget arguments = .ok target →
        target.resourceType = "whiteboard-create" ∧
        (∀ arguments' request' ref', tool.request arguments' = some request' →
          request'.mode = .create ref' → ref'.value = .ok document →
          RenderWhiteboardTool.anchor request' = RenderWhiteboardTool.anchor request →
            tool.resolveWriteTarget arguments' = .ok target) ∧
        ∀ declaration, Json.field? declaration "resource" =
            some (.str (RenderWhiteboardTool.binding document (RenderWhiteboardTool.anchor request))) →
          tool.resolveDelegationTarget declaration = .ok target := by
  refine ⟨fun tool hown _ _ hedits hok => tool.resolveWriteTarget_key hown hedits hok,
    fun tool hown _ _ hdeclares hok => tool.resolveDelegationTarget_key hown hdeclares hok, ?_⟩
  intro tool arguments request ref document target _ hrequest hmode _ hvalue hok
  rw [RenderWhiteboardTool.resolveWriteTarget_create hrequest hmode hvalue] at hok
  refine ⟨WriteTargets.logicalReservation_ok hok, ?_, ?_⟩
  · intro arguments' request' ref' hrequest' hmode' hvalue' hanchor
    rw [RenderWhiteboardTool.resolveWriteTarget_create hrequest' hmode' hvalue', hanchor]
    exact hok
  · intro declaration hresource
    rw [tool.resolveDelegationTarget_binding hresource]
    exact hok

/-- The targets of one document: those that its writes resolve to, and those that its
declarations resolve to. -/
inductive TargetOf (edit : EditDocumentTool) (render : RenderWhiteboardTool) (doc : LiveDocument) :
    WriteScopeTarget → Prop
  | edited {target : WriteScopeTarget} (arguments : List (String × Json))
      (hedits : edit.Edits doc arguments) (hok : edit.resolveWriteTarget arguments = .ok target) :
      TargetOf edit render doc target
  | rendered {target : WriteScopeTarget} (arguments : List (String × Json))
      (hcreates : render.CreatesIn doc arguments)
      (hok : render.resolveWriteTarget arguments = .ok target) : TargetOf edit render doc target
  | declaredEdit {target : WriteScopeTarget} (declaration : List (String × Json))
      (hdeclares : DeclaresDocument doc declaration)
      (hok : edit.resolveDelegationTarget declaration = .ok target) : TargetOf edit render doc target
  | declaredRender {target : WriteScopeTarget} (declaration : List (String × Json))
      (hdeclares : DeclaresDocument doc declaration)
      (hok : render.resolveDelegationTarget declaration = .ok target) :
      TargetOf edit render doc target

section Examples

/-- The library on lower-case ASCII and on the one text that is hashed below. -/
private def asciiLibrary : TextLibrary where
  nfkc text := text
  casefold text := text
  sha256 _ := "c4b9d39eff6cb0bdaf82ec02ed46930cf27122965524052cff4f3a931ad78afc"
  str value := Json.dumps {} value

private def liveHandbook : LiveDocument where
  id := "doxcn1"
  nonempty := by decide
  denotes ref := ref = .token "doxcn1" ∨ ref = .url "https://example.feishu.cn/docx/doxcn1"

private def editTool : EditDocumentTool where
  service :=
    { search _ := .ok [("matches", .arr [.obj [("url", .str "https://example.feishu.cn/docx/doxcn1")]])]
      inspect _ := .ok [("resource", .obj [("document_id", .str "doxcn1")]), ("revision", .int 7)] }
  identity := .user
  lib := asciiLibrary

private def renderTool : RenderWhiteboardTool where
  identity := .user
  lib := asciiLibrary

private def appendTo (resource title : Json) : List (String × Json) :=
  [("resource", resource), ("document_title", title), ("command", .str "append"),
    ("content_xml", .str "<p>Body</p>"), ("pattern", .null), ("block_id", .null),
    ("change_summary", .str "append a paragraph"), ("required_text", .arr [.str "Body"])]

private def drawIn (document : String) : List (String × Json) :=
  [("mode", .str "create"), ("format", .str "mermaid"), ("source", .str "graph TD; A-->B"),
    ("document", .str document), ("whiteboard_token", .null), ("anchor_block_id", .null),
    ("overwrite", .bool true)]

private theorem editTool_own : editTool.InspectsOwnId liveHandbook := by
  intro ref _ inspected hok
  cases hok
  exact ⟨_, rfl, rfl⟩

private theorem drawIn_request : ∃ request, renderTool.request (drawIn "doxcn1") = some request ∧
    request.mode = .create (.token "doxcn1") ∧
    RenderWhiteboardTool.anchor request = "document-end" := ⟨_, rfl, by decide, rfl⟩

private def reserved : WriteScopeTarget :=
  ⟨"whiteboard-create",
    "logical:c4b9d39eff6cb0bdaf82ec02ed46930cf27122965524052cff4f3a931ad78afc", none⟩

/-- An edit by title, a declaration by URL and a whiteboard of one document. -/
theorem write_targets_of_handbook :
    (∀ target, editTool.resolveWriteTarget (appendTo .null (.str "Handbook")) = .ok target →
      target.key = ("docx", "doxcn1")) ∧
    (∀ target, editTool.resolveDelegationTarget
        [("resource", .str "https://example.feishu.cn/docx/doxcn1")] = .ok target →
      target.key = ("docx", "doxcn1")) ∧
    renderTool.resolveWriteTarget (drawIn "doxcn1") = .ok reserved ∧
    renderTool.resolveDelegationTarget [("resource", .str "doxcn1#document-end")] = .ok reserved := by
  obtain ⟨hedit, hdeclare, hrender⟩ := write_targets_of_document liveHandbook
  obtain ⟨request, hrequest, hmode, hanchor⟩ := drawIn_request
  have hreserved : renderTool.resolveWriteTarget (drawIn "doxcn1") = .ok reserved := by decide +kernel
  obtain ⟨_, _, hdeclared⟩ := hrender renderTool _ request _ "doxcn1" reserved (by decide +kernel)
    hrequest hmode (.inl rfl) rfl hreserved
  refine ⟨fun target hok => hedit editTool editTool_own _ target ⟨by decide +kernel, ?_⟩ hok,
    fun target hok => hdeclare editTool editTool_own _ target ⟨_, rfl, .inr (by decide +kernel)⟩ hok,
    hreserved, hdeclared _ ?_⟩
  · exact ⟨_, .url "https://example.feishu.cn/docx/doxcn1", rfl, by decide +kernel, .inr rfl⟩
  · rw [hanchor]
    rfl

/-- The edit locks the document, the whiteboard its reservation. -/
theorem edit_and_whiteboard_lock_differently :
    editTool.InspectsOwnId liveHandbook ∧ ¬ ∀ a b, TargetOf editTool renderTool liveHandbook a →
      TargetOf editTool renderTool liveHandbook b → a.key = b.key := by
  refine ⟨editTool_own, fun hagree => ?_⟩
  have hedited : TargetOf editTool renderTool liveHandbook ⟨"docx", "doxcn1", some "7"⟩ :=
    .edited (appendTo (.str "doxcn1") .null)
      ⟨by decide +kernel, _, .token "doxcn1", rfl, by decide +kernel, .inl rfl⟩ (by decide +kernel)
  obtain ⟨request, hrequest, hmode, _⟩ := drawIn_request
  have hrendered : TargetOf editTool renderTool liveHandbook reserved :=
    .rendered (drawIn "doxcn1") ⟨by decide +kernel, request, _, hrequest, hmode, .inl rfl⟩
      (by decide +kernel)
  have hsame := hagree _ _ hedited hrendered
  revert hsame
  decide

end Examples

end Codex2Lark
