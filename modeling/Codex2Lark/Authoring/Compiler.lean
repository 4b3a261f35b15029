import Mathlib.Data.String.Basic
import Codex2Lark.Core.DocumentModels
import Codex2Lark.Im.TaskHandler
import Codex2Lark.Lib.Sorted
import Codex2Lark.Lib.XmlDocument
import Mathlib.Data.List.Infix

/-!
`authoring/compiler.py`: the rendering of a document specification as Feishu XML, and the
check of content before it is sent.
-/

namespace Codex2Lark.Compiler

open Lib.Markup (htmlEscape)
open Lib.Xml (Node)

/-- `Codex2LarkError`, with its category as the text of the enumeration. -/
structure Codex2LarkError where
  category : String
  message : String
  details : List (String × List String) := []
deriving DecidableEq, Repr

def supportedTags : List String :=
  ["a", "b", "blockquote", "bookmark", "br", "button", "callout", "checkbox", "cite", "code",
    "col", "colgroup", "column", "del", "em", "figure", "grid", "h1", "h2", "h3", "h4", "h5",
    "h6", "h7", "h8", "h9", "hr", "img", "latex", "li", "ol", "p", "pre", "sheet", "source",
    "span", "sub-page-list", "table", "tbody", "td", "th", "thead", "time", "title", "tr", "u",
    "ul", "whiteboard"]

/-- The element around a fragment. -/
def fragment (content : String) : String :=
  "<codex2lark-fragment>" ++ content ++ "</codex2lark-fragment>"

/-- The names below the root, each once, that are not supported. -/
def unsupportedTags : Node → List String
  | .text _ => []
  | .element _ _ children =>
      Lib.Sorted.sorted (((Lib.Xml.tagsAll children).map String.ofList).filter fun tag =>
        !supportedTags.contains tag).dedup

/-- `content.lower()` as far as the two declarations look. Beyond ASCII, `lower` makes letters of
ASCII of the Kelvin sign, a `k`, and of a dotted capital I, an `i` with a combining dot after
it: neither completes a declaration. -/
def lowered (content : String) : List Char := content.toList.map Char.toLower

/-- `preflight_content`; `str(exc)` of a `ParseError` is a parameter. -/
def preflightContent (parseReason : String → String) (content : String)
    (format : DocumentFormat) : Except Codex2LarkError Unit :=
  if IMMentionTaskHandler.strip content = "" then
    .error { category := "validation_error", message := "document content cannot be empty" }
  else if format = .markdown then .ok ()
  else if "<!doctype".toList <:+: lowered content ∨ "<!entity".toList <:+: lowered content then
    .error { category := "validation_error"
             message := "DOCTYPE and ENTITY declarations are not allowed in Feishu XML" }
  else
    match Lib.Xml.document (fragment content).toList with
    | none =>
        .error { category := "validation_error", message := "invalid Feishu XML"
                 details := [("reason", [parseReason content])] }
    | some root =>
        if unsupportedTags root ≠ [] then
          .error { category := "validation_error"
                   message := "Feishu XML contains unsupported tags"
                   details := [("tags", unsupportedTags root)] }
        else .ok ()

/-! ### Rendering -/

def joinText (parts : List String) : String := "".intercalate parts

/-- `whiteboard_xml`. -/
def whiteboardXml (format : DiagramFormat) (source : String) : String :=
  "<whiteboard type=\"" ++ format.value ++ "\">" ++ htmlEscape source ++ "</whiteboard>"

/-- `_attributes`. -/
def attributesText (values : List (String × Option String)) : String :=
  joinText (values.filterMap fun named =>
    named.2.map fun value => " " ++ named.1 ++ "=\"" ++ htmlEscape value ++ "\"")

/-- `content.replace("\n", "<br/>")`. -/
def replaceNewlines (content : String) : String :=
  String.ofList (content.toList.flatMap fun c => if c = '\n' then "<br/>".toList else [c])

/-- `_render_span`. -/
def renderSpan (span : RichTextSpan) : String :=
  let content := replaceNewlines (htmlEscape span.text.1)
  if span.formula then "<latex>" ++ content ++ "</latex>"
  else
    let content :=
      if span.textColor.isSome ∨ span.backgroundColor.isSome then
        "<span" ++ attributesText [("text-color", span.textColor.map NamedColor.value),
          ("background-color", span.backgroundColor.map NamedColor.value)] ++ ">" ++ content ++
          "</span>"
      else content
    let content := if span.inlineCode then "<code>" ++ content ++ "</code>" else content
    let content := if span.underline then "<u>" ++ content ++ "</u>" else content
    let content := if span.strike then "<del>" ++ content ++ "</del>" else content
    let content := if span.emphasis then "<em>" ++ content ++ "</em>" else content
    let content := if span.bold then "<b>" ++ content ++ "</b>" else content
    match span.link with
    | some link => "<a href=\"" ++ htmlEscape link.1 ++ "\">" ++ content ++ "</a>"
    | none => content

/-- `_render_rich_text`. -/
def renderRichText (content : List RichTextSpan) : String := joinText (content.map renderSpan)

/-- `_render_cell`. -/
def renderCell (tag : String) (cell : TableCell) : String :=
  "<" ++ tag ++ attributesText
    [("background-color", cell.backgroundColor.map NamedColor.value),
      ("vertical-align", some cell.verticalAlign.value),
      ("colspan", if 1 < cell.colspan then some (toString cell.colspan) else none),
      ("rowspan", if 1 < cell.rowspan then some (toString cell.rowspan) else none)] ++ ">" ++
    renderRichText cell.content.1 ++ "</" ++ tag ++ ">"

def renderRow (row : List TableCell) : List String :=
  ["<tr>"] ++ row.map (renderCell "td") ++ ["</tr>"]

/-- `_render_table`. -/
def renderTable (block : TableBlock) : String :=
  joinText (["<table>"] ++
    (if block.columnWidths.1 = [] then []
      else ["<colgroup>"] ++
        block.columnWidths.1.map (fun width => "<col width=\"" ++ toString width ++ "\"/>") ++
        ["</colgroup>"]) ++
    (if block.headers.1 = [] then []
      else ["<thead><tr>"] ++ block.headers.1.map (renderCell "th") ++ ["</tr></thead>"]) ++
    ["<tbody>"] ++ block.rows.1.flatMap renderRow ++ ["</tbody></table>"])

/-! The branches of `_render_block`. -/

def renderHeading (block : HeadingBlock) : String :=
  "<h" ++ toString block.level ++ " align=\"" ++ block.align.value ++ "\">" ++
    renderRichText block.content.1 ++ "</h" ++ toString block.level ++ ">"

def renderParagraph (block : ParagraphBlock) : String :=
  "<p align=\"" ++ block.align.value ++ "\">" ++ renderRichText block.content.1 ++ "</p>"

def renderList (block : ListBlock) : String :=
  let tag := if block.type = .bulletList then "ul" else "ol"
  let items := joinText (block.items.1.map fun item => "<li>" ++ renderRichText item ++ "</li>")
  "<" ++ tag ++ ">" ++ items ++ "</" ++ tag ++ ">"

def renderCheckbox (block : CheckboxBlock) : String :=
  let done := if block.done then "true" else "false"
  "<checkbox done=\"" ++ done ++ "\">" ++ renderRichText block.content.1 ++ "</checkbox>"

def renderQuote (block : QuoteBlock) : String :=
  "<blockquote><p>" ++ renderRichText block.content.1 ++ "</p></blockquote>"

def renderCallout (block : CalloutBlock) : String :=
  let attributes := attributesText [("emoji", some block.emoji.1),
    ("background-color", some block.backgroundColor.value),
    ("border-color", some block.borderColor.value),
    ("text-color", block.textColor.map NamedColor.value)]
  "<callout" ++ attributes ++ "><p>" ++ renderRichText block.content.1 ++ "</p></callout>"

def renderCode (block : CodeBlock) : String :=
  let attributes := attributesText [("lang", some block.language.1),
    ("caption", block.caption.map Subtype.val)]
  "<pre" ++ attributes ++ "><code>" ++ htmlEscape block.code.1 ++ "</code></pre>"

def renderImage (block : ImageBlock) : String :=
  let attributes := attributesText [("href", some block.url.1),
    ("caption", block.caption.map Subtype.val), ("name", block.name.map Subtype.val),
    ("width", block.width.map fun width => toString width.1),
    ("height", block.height.map fun height => toString height.1)]
  "<img" ++ attributes ++ "/>"

def renderBookmark (block : BookmarkBlock) : String :=
  let attributes := attributesText [("name", some block.name.1), ("href", some block.url.1)]
  "<bookmark" ++ attributes ++ "></bookmark>"

def renderSheet (block : SheetBlock) : String :=
  match block.token with
  | none => "<sheet type=\"blank\"></sheet>"
  | some token =>
      let attributes := attributesText [("token", some token.1),
        ("sheet-id", block.sheetId.map Subtype.val)]
      "<sheet" ++ attributes ++ "></sheet>"

/-- `_render_block`. -/
def renderBlock : DocumentBlock → String
  | .heading block => renderHeading block
  | .paragraph block => renderParagraph block
  | .list block => renderList block
  | .checkbox block => renderCheckbox block
  | .quote block => renderQuote block
  | .callout block => renderCallout block
  | .code block => renderCode block
  | .divider => "<hr/>"
  | .table block => renderTable block
  | .image block => renderImage block
  | .bookmark block => renderBookmark block
  | .whiteboard block => whiteboardXml block.format block.source.1
  | .sheet block => renderSheet block

/-- The text that `compile_document` checks. -/
def renderDocument (document : DocumentSpec) : String :=
  "\n".intercalate
    (("<title>" ++ htmlEscape document.title.1 ++ "</title>") ::
      document.blocks.1.map renderBlock)

/-- `compile_document`. -/
def compileDocument (parseReason : String → String) (document : DocumentSpec) :
    Except Codex2LarkError String := do
  let content := renderDocument document
  preflightContent parseReason content .xml
  .ok content

end Codex2Lark.Compiler
