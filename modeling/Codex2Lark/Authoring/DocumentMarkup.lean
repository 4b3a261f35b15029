import Codex2Lark.Authoring.Compiler
import Codex2Lark.Core.JsonText

/-!
The elements that a document specification asks for, as a tree. The compiler writes the tree
of the document, whatever its texts are.
-/

namespace Codex2Lark.Compiler

open Lib.Markup (escape escapeChar htmlEscape)
open Lib.Xml (Node write writeAll writeAttributes)

/-- An element with the attributes that have a value. -/
def element (name : String) (attributes : List (String × Option String))
    (children : List Node) : Node :=
  .element name.toList
    (attributes.filterMap fun named => named.2.map fun value => (named.1.toList, value.toList))
    children

def textNode (text : String) : Node := .text text.toList

/-- The characters of a text, with a `br` for each newline. -/
def lineNodes (text : String) : List Node :=
  text.toList.map fun c => if c = '\n' then element "br" [] [] else .text [c]

def wrapIf (on : Bool) (name : String) (attributes : List (String × Option String))
    (content : List Node) : List Node :=
  if on then [element name attributes content] else content

/-- The elements of a span, from the link inwards. -/
def spanNodes (span : RichTextSpan) : List Node :=
  if span.formula then [element "latex" [] (lineNodes span.text.1)]
  else
    wrapIf span.link.isSome "a" [("href", span.link.map Subtype.val)] <|
    wrapIf span.bold "b" [] <|
    wrapIf span.emphasis "em" [] <|
    wrapIf span.strike "del" [] <|
    wrapIf span.underline "u" [] <|
    wrapIf span.inlineCode "code" [] <|
    wrapIf (span.textColor.isSome || span.backgroundColor.isSome) "span"
      [("text-color", span.textColor.map NamedColor.value),
        ("background-color", span.backgroundColor.map NamedColor.value)] <|
    lineNodes span.text.1

def richNodes (content : List RichTextSpan) : List Node := content.flatMap spanNodes

def cellNode (tag : String) (cell : TableCell) : Node :=
  element tag
    [("background-color", cell.backgroundColor.map NamedColor.value),
      ("vertical-align", some cell.verticalAlign.value),
      ("colspan", if 1 < cell.colspan then some (toString cell.colspan) else none),
      ("rowspan", if 1 < cell.rowspan then some (toString cell.rowspan) else none)]
    (richNodes cell.content.1)

/-- The columns and the head of a table, where it has them, and its body. -/
def tableNode (block : TableBlock) : Node :=
  element "table" [] <|
    (if block.columnWidths.1 = [] then []
      else [element "colgroup" [] (block.columnWidths.1.map fun width =>
        element "col" [("width", some (toString width))] [])]) ++
    (if block.headers.1 = [] then []
      else [element "thead" [] [element "tr" [] (block.headers.1.map (cellNode "th"))]]) ++
    [element "tbody" [] (block.rows.1.map fun row => element "tr" [] (row.map (cellNode "td")))]

def headingNode (block : HeadingBlock) : Node :=
  element ("h" ++ toString block.level) [("align", some block.align.value)]
    (richNodes block.content.1)

def paragraphNode (block : ParagraphBlock) : Node :=
  element "p" [("align", some block.align.value)] (richNodes block.content.1)

def listNode (block : ListBlock) : Node :=
  element (if block.type = .bulletList then "ul" else "ol") []
    (block.items.1.map fun item => element "li" [] (richNodes item))

def checkboxNode (block : CheckboxBlock) : Node :=
  element "checkbox" [("done", some (if block.done then "true" else "false"))]
    (richNodes block.content.1)

def quoteNode (block : QuoteBlock) : Node :=
  element "blockquote" [] [element "p" [] (richNodes block.content.1)]

def calloutNode (block : CalloutBlock) : Node :=
  element "callout" [("emoji", some block.emoji.1),
    ("background-color", some block.backgroundColor.value),
    ("border-color", some block.borderColor.value),
    ("text-color", block.textColor.map NamedColor.value)]
    [element "p" [] (richNodes block.content.1)]

def codeNode (block : CodeBlock) : Node :=
  element "pre" [("lang", some block.language.1), ("caption", block.caption.map Subtype.val)]
    [element "code" [] [textNode block.code.1]]

def imageNode (block : ImageBlock) : Node :=
  element "img" [("href", some block.url.1), ("caption", block.caption.map Subtype.val),
    ("name", block.name.map Subtype.val),
    ("width", block.width.map fun width => toString width.1),
    ("height", block.height.map fun height => toString height.1)] []

def bookmarkNode (block : BookmarkBlock) : Node :=
  element "bookmark" [("name", some block.name.1), ("href", some block.url.1)] []

def whiteboardNode (block : WhiteboardBlock) : Node :=
  element "whiteboard" [("type", some block.format.value)] [textNode block.source.1]

/-- A sheet by its token, or a blank one. -/
def sheetNode (block : SheetBlock) : Node :=
  element "sheet"
    (match block.token with
      | none => [("type", some "blank")]
      | some token => [("token", some token.1), ("sheet-id", block.sheetId.map Subtype.val)]) []

/-- The element of a block. -/
def blockNode : DocumentBlock → Node
  | .heading block => headingNode block
  | .paragraph block => paragraphNode block
  | .list block => listNode block
  | .checkbox block => checkboxNode block
  | .quote block => quoteNode block
  | .callout block => calloutNode block
  | .code block => codeNode block
  | .divider => element "hr" [] []
  | .table block => tableNode block
  | .image block => imageNode block
  | .bookmark block => bookmarkNode block
  | .whiteboard block => whiteboardNode block
  | .sheet block => sheetNode block

def titleNode (title : String) : Node := element "title" [] [textNode title]

/-- The elements of a document, in order. -/
def documentNodes (document : DocumentSpec) : List Node :=
  titleNode document.title.1 :: document.blocks.1.map blockNode

/-! ### What the compiler writes -/

/-- The elements that are written as one tag. -/
def isVoid (name : List Char) : Bool :=
  ["br".toList, "hr".toList, "col".toList, "img".toList].contains name

/-- The text is that of the nodes. -/
def Writes (text : String) (nodes : List Node) : Prop := text.toList = writeAll isVoid nodes

theorem writeAll_append (nodes others : List Node) :
    writeAll isVoid (nodes ++ others) = writeAll isVoid nodes ++ writeAll isVoid others := by
  induction nodes with
  | nil => rfl
  | cons node nodes ih => simp [writeAll, ih]

theorem writeAll_flatMap {α : Type} (items : List α) (nodes : α → List Node) :
    writeAll isVoid (items.flatMap nodes) = items.flatMap fun item => writeAll isVoid (nodes item) := by
  induction items with
  | nil => rfl
  | cons item items ih => rw [List.flatMap_cons, writeAll_append, ih, List.flatMap_cons]

theorem writes_nil : Writes "" [] := rfl

theorem Writes.of_eq {text other : String} {nodes : List Node} (htext : Writes text nodes)
    (hsame : other = text) : Writes other nodes := hsame ▸ htext

theorem Writes.append {text other : String} {nodes others : List Node} (htext : Writes text nodes)
    (hother : Writes other others) : Writes (text ++ other) (nodes ++ others) := by
  rw [Writes, String.toList_append, htext, hother, writeAll_append]

theorem writes_joined {α : Type} {items : List α} {part : α → String} {nodes : α → List Node}
    (hitems : ∀ item ∈ items, Writes (part item) (nodes item)) :
    Writes (joinText (items.map part)) (items.flatMap nodes) := by
  rw [Writes, joinText, Lib.Markup.joined_toList, writeAll_flatMap, List.flatMap_map]
  exact List.flatMap_congr hitems

theorem writes_text (text : String) : Writes (htmlEscape text) [textNode text] := by
  simp [Writes, textNode, writeAll, write]

theorem attributesText_toList (values : List (String × Option String)) :
    (attributesText values).toList = writeAttributes
      (values.filterMap fun named => named.2.map fun value => (named.1.toList, value.toList)) := by
  rw [attributesText, joinText, Lib.Markup.joined_toList]
  induction values with
  | nil => rfl
  | cons named values ih =>
      obtain ⟨name, value⟩ := named
      cases value with
      | none => simpa using ih
      | some value =>
          simp [writeAttributes, Lib.Xml.writeAttribute] at ih ⊢
          exact ih

/-- An element between its tags. -/
theorem Writes.element {text content : String} {nodes : List Node}
    (hcontent : Writes content nodes) (name : String) (attributes : List (String × Option String))
    (hvoid : isVoid name.toList = false)
    (htext : text = "<" ++ name ++ attributesText attributes ++ ">" ++ content ++ "</" ++ name ++
      ">") : Writes text [element name attributes nodes] := by
  rw [htext]
  simp [Writes, Compiler.element, writeAll, write, hvoid, attributesText_toList,
    show content.toList = writeAll isVoid nodes from hcontent]

/-- An element that is one tag. -/
theorem writes_void {text : String} (name : String) (attributes : List (String × Option String))
    (hvoid : isVoid name.toList = true)
    (htext : text = "<" ++ name ++ attributesText attributes ++ "/>") :
    Writes text [element name attributes []] := by
  rw [htext]
  simp [Writes, element, writeAll, write, hvoid, attributesText_toList]

theorem writes_lines (text : String) :
    Writes (replaceNewlines (htmlEscape text)) (lineNodes text) := by
  have hbreak : write isVoid (element "br" [] []) = "<br/>".toList := by decide
  have hchar : ∀ c : Char, (escapeChar c).flatMap
      (fun c => if c = '\n' then "<br/>".toList else [c]) =
      write isVoid (if c = '\n' then element "br" [] [] else .text [c]) := by
    intro c
    by_cases hc : c = '\n'
    · subst hc
      rw [if_pos rfl, hbreak]
      rfl
    · have hplain : ∀ d ∈ escapeChar c, d ≠ '\n' := by
        unfold escapeChar
        split_ifs <;> simp [hc]
      have hself : (escapeChar c).flatMap (fun c => if c = '\n' then "<br/>".toList else [c]) =
          (escapeChar c).flatMap fun c => [c] :=
        List.flatMap_congr fun d hd => if_neg (hplain d hd)
      rw [hself, if_neg hc]
      simp [write, escape]
  have hnodes : ∀ chars : List Char,
      writeAll isVoid (chars.map fun c => if c = '\n' then element "br" [] [] else .text [c]) =
        chars.flatMap fun c => write isVoid (if c = '\n' then element "br" [] [] else .text [c]) := by
    intro chars
    induction chars with
    | nil => rfl
    | cons c chars ih => rw [List.map_cons, writeAll, ih, List.flatMap_cons]
  rw [Writes, lineNodes, hnodes, replaceNewlines, String.toList_ofList,
    Lib.Markup.htmlEscape_toList, escape, List.flatMap_assoc]
  exact List.flatMap_congr fun c _ => hchar c

/-! ### Spans -/

/-- Two texts of the same characters. -/
theorem same_text {text other : String} (h : text.toList = other.toList) : text = other :=
  String.toList_inj.mp h

theorem Writes.wrapIf {text content : String} {nodes : List Node}
    (hcontent : Writes content nodes) (on : Bool) (name : String)
    (attributes : List (String × Option String)) (hvoid : isVoid name.toList = false)
    (htext : text = if on = true then
        "<" ++ name ++ attributesText attributes ++ ">" ++ content ++ "</" ++ name ++ ">"
      else content) : Writes text (wrapIf on name attributes nodes) := by
  cases on with
  | true => exact hcontent.element name attributes hvoid htext
  | false =>
      rw [htext]
      exact hcontent

/-- A style of a span, with a tag of its own. -/
theorem Writes.style {content : String} {nodes : List Node} (hcontent : Writes content nodes)
    (on : Bool) (name : String) {opening closing : String} (hvoid : isVoid name.toList = false)
    (hopening : opening = "<" ++ name ++ ">") (hclosing : closing = "</" ++ name ++ ">") :
    Writes (if on = true then opening ++ content ++ closing else content)
      (Compiler.wrapIf on name [] nodes) := by
  refine hcontent.wrapIf on name [] hvoid ?_
  have hnone : attributesText [] = "" := rfl
  rw [hopening, hclosing, hnone]
  simp only [String.append_assoc, String.append_empty]

theorem writes_span (span : RichTextSpan) : Writes (renderSpan span) (spanNodes span) := by
  have hlines := writes_lines span.text.1
  unfold renderSpan spanNodes
  by_cases hformula : span.formula = true
  · rw [if_pos hformula, if_pos hformula]
    exact hlines.style true "latex" (by decide) rfl rfl
  · rw [if_neg hformula, if_neg hformula]
    have hcolors : Writes
        (if span.textColor.isSome = true ∨ span.backgroundColor.isSome = true then
          "<span" ++ attributesText [("text-color", span.textColor.map NamedColor.value),
            ("background-color", span.backgroundColor.map NamedColor.value)] ++ ">" ++
            replaceNewlines (htmlEscape span.text.1) ++ "</span>"
        else replaceNewlines (htmlEscape span.text.1)) _ :=
      hlines.wrapIf (span.textColor.isSome || span.backgroundColor.isSome) "span"
        [("text-color", span.textColor.map NamedColor.value),
          ("background-color", span.backgroundColor.map NamedColor.value)] (by decide) (by
          simp only [Bool.or_eq_true]
          split
          · exact same_text (by simp)
          · rfl)
    have hcode := hcolors.style span.inlineCode "code" (by decide) rfl rfl
    have hunderline := hcode.style span.underline "u" (by decide) rfl rfl
    have hstrike := hunderline.style span.strike "del" (by decide) rfl rfl
    have hemphasis := hstrike.style span.emphasis "em" (by decide) rfl rfl
    have hbold := hemphasis.style span.bold "b" (by decide) rfl rfl
    cases hlink : span.link with
    | none => exact hbold
    | some link =>
        exact hbold.element "a" [("href", some link.1)] (by decide) (same_text (by
          simp [attributesText_toList, writeAttributes, Lib.Xml.writeAttribute]))

theorem writes_rich (content : List RichTextSpan) :
    Writes (renderRichText content) (richNodes content) :=
  writes_joined fun span _ => writes_span span

/-! ### Tables -/

theorem joinText_append (parts others : List String) :
    joinText (parts ++ others) = joinText parts ++ joinText others :=
  same_text (by
    simp only [joinText, String.toList_append, Lib.Markup.joined_toList, List.flatMap_append])

theorem joinText_singleton (part : String) : joinText [part] = part :=
  same_text (by simp [joinText])

theorem writes_nodes {α : Type} {items : List α} {part : α → String} {node : α → Node}
    (hitems : ∀ item ∈ items, Writes (part item) [node item]) :
    Writes (joinText (items.map part)) (items.map node) := by
  rw [List.map_eq_flatMap (f := node)]
  exact writes_joined hitems

theorem writes_cell (cell : TableCell) (tag : String) (hvoid : isVoid tag.toList = false) :
    Writes (renderCell tag cell) [cellNode tag cell] :=
  (writes_rich cell.content.1).element tag _ hvoid rfl

theorem writes_row (row : List TableCell) :
    Writes (joinText (renderRow row)) [element "tr" [] (row.map (cellNode "td"))] := by
  have hcells : Writes (joinText (row.map (renderCell "td"))) (row.map (cellNode "td")) :=
    writes_nodes fun cell _ => writes_cell cell "td" (by decide)
  have htext : joinText (renderRow row) =
      "<tr>" ++ joinText (row.map (renderCell "td")) ++ "</tr>" := by
    rw [renderRow, joinText_append, joinText_append, joinText_singleton, joinText_singleton]
  rw [htext]
  exact hcells.style true "tr" (by decide) rfl rfl

theorem escape_plain {cs : List Char} (hplain : ∀ c ∈ cs, escapeChar c = [c]) : escape cs = cs := by
  calc escape cs = cs.flatMap fun c => [c] := List.flatMap_congr hplain
    _ = cs := List.flatMap_singleton' cs

theorem escapeChar_digit {c : Char} (hdigit : c.isDigit = true) : escapeChar c = [c] := by
  have hne : ∀ d : Char, d.isDigit = false → c ≠ d := by
    rintro d hd rfl
    rw [hdigit] at hd
    cases hd
  simp [escapeChar, hne '&' rfl, hne '<' rfl, hne '>' rfl, hne '"' rfl, hne (Char.ofNat 39) rfl]

/-- A number needs no escape. -/
theorem htmlEscape_int (n : Int) : htmlEscape (toString n) = toString n := by
  refine same_text ?_
  rw [Lib.Markup.htmlEscape_toList]
  refine escape_plain fun c hc => ?_
  rw [Json.int_toList] at hc
  have hdigits : ∀ m : Nat, c ∈ Nat.toDigits 10 m → escapeChar c = [c] := fun m hm =>
    escapeChar_digit (Nat.isDigit_of_mem_toDigits (by decide) (by decide) hm)
  split at hc
  · exact hdigits _ hc
  · rcases List.mem_cons.mp hc with rfl | hc
    · rfl
    · exact hdigits _ hc

theorem writes_column (width : Int) :
    Writes ("<col width=\"" ++ toString width ++ "\"/>")
      [element "col" [("width", some (toString width))] []] := by
  refine writes_void "col" _ (by decide) (same_text ?_)
  have hwidth := congrArg String.toList (htmlEscape_int width)
  rw [Lib.Markup.htmlEscape_toList] at hwidth
  simp only [String.toList_append, attributesText_toList, writeAttributes,
    Lib.Xml.writeAttribute, List.filterMap_cons, List.filterMap_nil, Option.map_some,
    List.flatMap_cons, List.flatMap_nil, hwidth]
  simp

theorem writes_table (block : TableBlock) : Writes (renderTable block) [tableNode block] := by
  have hcolumns : Writes
      (joinText (if block.columnWidths.1 = [] then []
        else ["<colgroup>"] ++
          block.columnWidths.1.map (fun width => "<col width=\"" ++ toString width ++ "\"/>") ++
          ["</colgroup>"]))
      (if block.columnWidths.1 = [] then []
        else [element "colgroup" [] (block.columnWidths.1.map fun width =>
          element "col" [("width", some (toString width))] [])]) := by
    split
    · exact writes_nil
    · rw [joinText_append, joinText_append, joinText_singleton, joinText_singleton]
      exact (writes_nodes fun width _ => writes_column width).style true "colgroup" (by decide)
        rfl rfl
  have hhead : Writes
      (joinText (if block.headers.1 = [] then []
        else ["<thead><tr>"] ++ block.headers.1.map (renderCell "th") ++ ["</tr></thead>"]))
      (if block.headers.1 = [] then []
        else [element "thead" [] [element "tr" [] (block.headers.1.map (cellNode "th"))]]) := by
    split
    · exact writes_nil
    · have hcells : Writes (joinText (block.headers.1.map (renderCell "th")))
          (block.headers.1.map (cellNode "th")) :=
        writes_nodes fun cell _ => writes_cell cell "th" (by decide)
      have hrow := (hcells.style true "tr" (by decide) rfl rfl).style true "thead" (by decide)
        rfl rfl
      refine hrow.of_eq ?_
      rw [joinText_append, joinText_append, joinText_singleton, joinText_singleton]
      exact same_text (by simp)
  have hbody : Writes ("<tbody>" ++ joinText (block.rows.1.flatMap renderRow) ++ "</tbody>")
      [element "tbody" [] (block.rows.1.map fun row => element "tr" [] (row.map (cellNode "td")))] := by
    have hrows : Writes (joinText (block.rows.1.map fun row => joinText (renderRow row)))
        (block.rows.1.map fun row => element "tr" [] (row.map (cellNode "td"))) :=
      writes_nodes fun row _ => writes_row row
    have htext : joinText (block.rows.1.flatMap renderRow) =
        joinText (block.rows.1.map fun row => joinText (renderRow row)) := by
      refine same_text ?_
      simp only [joinText, Lib.Markup.joined_toList, List.flatMap_assoc, List.flatMap_map]
    rw [htext]
    exact hrows.style true "tbody" (by decide) rfl rfl
  have hall := ((hcolumns.append hhead).append hbody).style true "table" (by decide) rfl rfl
  refine hall.of_eq ?_
  rw [renderTable, joinText_append, joinText_append, joinText_append, joinText_append,
    joinText_append, joinText_singleton, joinText_singleton, joinText_singleton]
  exact same_text (by simp)

/-! ### Blocks -/

theorem attributesText_plain (name : String) {value : String} (hvalue : htmlEscape value = value) :
    attributesText [(name, some value)] = " " ++ name ++ "=\"" ++ value ++ "\"" := by
  have hparts : attributesText [(name, some value)] =
      joinText [" " ++ name ++ "=\"" ++ htmlEscape value ++ "\""] := rfl
  rw [hparts, joinText_singleton, hvalue]

theorem htmlEscape_plain {value : String} (hplain : ∀ c ∈ value.toList, escapeChar c = [c]) :
    htmlEscape value = value :=
  same_text ((Lib.Markup.htmlEscape_toList value).trans (escape_plain hplain))

/-- A text that is known. -/
theorem htmlEscape_literal {value : String}
    (hall : (value.toList.all fun c => decide (escapeChar c = [c])) = true) :
    htmlEscape value = value :=
  htmlEscape_plain fun c hc => of_decide_eq_true (List.all_eq_true.mp hall c hc)

theorem htmlEscape_align (align : Alignment) : htmlEscape align.value = align.value := by
  refine htmlEscape_literal ?_
  cases align <;> decide

theorem htmlEscape_format (format : DiagramFormat) : htmlEscape format.value = format.value := by
  refine htmlEscape_literal ?_
  cases format <;> decide

theorem isVoid_heading {level : Nat} (hlevel : level ≤ 9) :
    isVoid ("h" ++ toString level).toList = false := by
  have hall : ∀ level < 10, isVoid ("h" ++ toString level).toList = false := by
    decide +kernel
  exact hall level (by omega)

theorem writes_heading (block : HeadingBlock) :
    Writes (renderHeading block) [headingNode block] := by
  refine (writes_rich block.content.1).element _ _ (isVoid_heading block.levelRange.2) ?_
  unfold renderHeading
  rw [attributesText_plain "align" (htmlEscape_align block.align)]
  exact same_text (by simp)

theorem writes_paragraph (block : ParagraphBlock) :
    Writes (renderParagraph block) [paragraphNode block] := by
  refine (writes_rich block.content.1).element "p" _ (by decide) ?_
  unfold renderParagraph
  rw [attributesText_plain "align" (htmlEscape_align block.align)]
  exact same_text (by simp)

theorem writes_list (block : ListBlock) : Writes (renderList block) [listNode block] := by
  have hitems : Writes
      (joinText (block.items.1.map fun item => "<li>" ++ renderRichText item ++ "</li>"))
      (block.items.1.map fun item => element "li" [] (richNodes item)) :=
    writes_nodes fun item _ => (writes_rich item).style true "li" (by decide) rfl rfl
  refine hitems.element _ [] ?_ ?_
  · split <;> decide
  · unfold renderList
    exact same_text (by simp [attributesText, joinText])

theorem writes_checkbox (block : CheckboxBlock) :
    Writes (renderCheckbox block) [checkboxNode block] := by
  have hdone : htmlEscape (if block.done then "true" else "false") =
      if block.done then "true" else "false" := by
    refine htmlEscape_literal ?_
    cases block.done <;> decide
  refine (writes_rich block.content.1).element "checkbox" _ (by decide) ?_
  rw [attributesText_plain "done" hdone]
  unfold renderCheckbox
  exact same_text (by simp)

theorem writes_quote (block : QuoteBlock) : Writes (renderQuote block) [quoteNode block] := by
  have hinside := (writes_rich block.content.1).style true "p" (by decide) rfl rfl
  have hquote := hinside.style true "blockquote" (by decide) rfl rfl
  unfold renderQuote
  exact hquote.of_eq (same_text (by simp))

theorem writes_callout (block : CalloutBlock) :
    Writes (renderCallout block) [calloutNode block] := by
  have hinside := (writes_rich block.content.1).style true "p" (by decide) rfl rfl
  exact hinside.element "callout" _ (by decide) (same_text (by simp [renderCallout]))

theorem writes_code (block : CodeBlock) : Writes (renderCode block) [codeNode block] := by
  have hinside := (writes_text block.code.1).style true "code" (by decide) rfl rfl
  exact hinside.element "pre" _ (by decide) (same_text (by simp [renderCode]))

theorem writes_image (block : ImageBlock) : Writes (renderImage block) [imageNode block] :=
  writes_void "img" _ (by decide) (same_text (by simp [renderImage]))

theorem writes_bookmark (block : BookmarkBlock) :
    Writes (renderBookmark block) [bookmarkNode block] :=
  writes_nil.element "bookmark" _ (by decide) (same_text (by simp [renderBookmark]))

theorem writes_whiteboard (block : WhiteboardBlock) :
    Writes (whiteboardXml block.format block.source.1) [whiteboardNode block] := by
  refine (writes_text block.source.1).element "whiteboard" _ (by decide) ?_
  rw [attributesText_plain "type" (htmlEscape_format block.format)]
  unfold whiteboardXml
  exact same_text (by simp)

theorem writes_sheet (block : SheetBlock) : Writes (renderSheet block) [sheetNode block] := by
  refine writes_nil.element "sheet" _ (by decide) ?_
  rw [renderSheet]
  cases block.token with
  | none =>
      rw [attributesText_plain "type" (htmlEscape_literal (by decide))]
      exact same_text (by simp)
  | some token => exact same_text (by simp)

theorem writes_divider : Writes "<hr/>" [element "hr" [] []] := by
  refine writes_void "hr" [] (by decide) ?_
  exact same_text (by simp [attributesText, joinText])

/-- Every block is written as its element. -/
theorem writes_block (block : DocumentBlock) : Writes (renderBlock block) [blockNode block] := by
  cases block with
  | heading block => exact writes_heading block
  | paragraph block => exact writes_paragraph block
  | list block => exact writes_list block
  | checkbox block => exact writes_checkbox block
  | quote block => exact writes_quote block
  | callout block => exact writes_callout block
  | code block => exact writes_code block
  | divider => exact writes_divider
  | table block => exact writes_table block
  | image block => exact writes_image block
  | bookmark block => exact writes_bookmark block
  | whiteboard block => exact writes_whiteboard block
  | sheet block => exact writes_sheet block

theorem writes_title (title : String) :
    Writes ("<title>" ++ htmlEscape title ++ "</title>") [titleNode title] :=
  (writes_text title).style true "title" (by decide) rfl rfl

/-- Parts on lines of their own, for nodes apart from each other. -/
theorem writes_separated {α : Type} (items : List α) (part : α → String) (node : α → Node)
    (hitems : ∀ item ∈ items, Writes (part item) [node item]) :
    Writes ("\n".intercalate (items.map part)) ((items.map node).intersperse (.text ['\n'])) := by
  have hline : Writes "\n" [.text ['\n']] := by
    simp [Writes, writeAll, write, escape, escapeChar]
  induction items with
  | nil => exact writes_nil
  | cons item rest ih =>
      obtain ⟨hitem, hrest⟩ := List.forall_mem_cons.mp hitems
      cases rest with
      | nil =>
          rw [List.map_singleton, String.intercalate_singleton]
          exact hitem
      | cons next rest =>
          rw [List.map_cons, List.map_cons, String.intercalate_cons_cons]
          exact (hitem.append hline).append (ih hrest)

/-- The content of a document is its title and its blocks, a line each. -/
theorem writes_document (document : DocumentSpec) :
    Writes (renderDocument document)
      ((documentNodes document).intersperse (.text ['\n'])) := by
  have hlines := writes_separated (none :: document.blocks.1.map some)
    (fun item => item.elim ("<title>" ++ htmlEscape document.title.1 ++ "</title>") renderBlock)
    (fun item => item.elim (titleNode document.title.1) blockNode) (by
      intro item _
      cases item with
      | none => exact writes_title document.title.1
      | some block => exact writes_block block)
  simpa [renderDocument, documentNodes, List.map_map, Function.comp_def] using hlines

end Codex2Lark.Compiler
