import Codex2Lark.Core.Errors
import Mathlib.Algebra.GroupWithZero.Nat

/-!
The document models of `core/models.py` that the compiler reads. A bound that pydantic checks is a
field or a subtype; the strings are those after `str_strip_whitespace`.
-/

namespace Codex2Lark

/-- `str = Field(min_length=low, max_length=high)`. -/
abbrev BoundedText (low high : Nat) : Type :=
  { text : String // low ≤ text.length ∧ text.length ≤ high }

/-- `list[...] = Field(min_length=low, max_length=high)`. -/
abbrev BoundedList (α : Type) (low high : Nat) : Type :=
  { items : List α // low ≤ items.length ∧ items.length ≤ high }

inductive DiagramFormat where
  | mermaid
  | plantuml
  | svg
deriving DecidableEq, Repr

inductive Alignment where
  | left
  | center
  | right
deriving DecidableEq, Repr

inductive NamedColor where
  | red
  | orange
  | yellow
  | green
  | blue
  | purple
  | gray
  | lightRed
  | lightOrange
  | lightYellow
  | lightGreen
  | lightBlue
  | lightPurple
  | lightGray
  | mediumGray
deriving DecidableEq, Repr

inductive VerticalAlign where
  | top
  | middle
  | bottom
deriving DecidableEq, Repr

inductive DocumentFormat where
  | xml
  | markdown
deriving DecidableEq, Repr

def DiagramFormat.value : DiagramFormat → String
  | .mermaid => "mermaid"
  | .plantuml => "plantuml"
  | .svg => "svg"

def Alignment.value : Alignment → String
  | .left => "left"
  | .center => "center"
  | .right => "right"

def NamedColor.value : NamedColor → String
  | .red => "red"
  | .orange => "orange"
  | .yellow => "yellow"
  | .green => "green"
  | .blue => "blue"
  | .purple => "purple"
  | .gray => "gray"
  | .lightRed => "light-red"
  | .lightOrange => "light-orange"
  | .lightYellow => "light-yellow"
  | .lightGreen => "light-green"
  | .lightBlue => "light-blue"
  | .lightPurple => "light-purple"
  | .lightGray => "light-gray"
  | .mediumGray => "medium-gray"

def VerticalAlign.value : VerticalAlign → String
  | .top => "top"
  | .middle => "middle"
  | .bottom => "bottom"

def isHttps (url : String) : Bool := url.startsWith "https://"

/-- The fields of a span before `validate_span`. -/
structure SpanFields where
  text : BoundedText 1 100000
  bold : Bool := false
  emphasis : Bool := false
  strike : Bool := false
  underline : Bool := false
  inlineCode : Bool := false
  formula : Bool := false
  link : Option (BoundedText 0 4096) := none
  textColor : Option NamedColor := none
  backgroundColor : Option NamedColor := none
deriving DecidableEq, Repr

def SpanFields.styled (span : SpanFields) : Bool :=
  span.bold || span.emphasis || span.strike || span.underline || span.inlineCode ||
    span.link.isSome || span.textColor.isSome || span.backgroundColor.isSome

def SpanFields.validateSpan (span : SpanFields) : Except PyError Unit :=
  if span.link.any fun link => !isHttps link.1 then
    .error (.valueError "rich-text links must use HTTPS")
  else if span.formula && span.styled then
    .error (.valueError "formula spans cannot also use text styles or links")
  else .ok ()

structure RichTextSpan extends SpanFields where
  valid : toSpanFields.validateSpan = .ok ()

structure TableCell where
  content : BoundedList RichTextSpan 0 100
  backgroundColor : Option NamedColor := none
  verticalAlign : VerticalAlign := .top
  colspan : Nat := 1
  rowspan : Nat := 1
  colspanRange : 1 ≤ colspan ∧ colspan ≤ 50 := by decide
  rowspanRange : 1 ≤ rowspan ∧ rowspan ≤ 1000 := by decide

/-- The fields of a table before `validate_table_shape`. -/
structure TableFields where
  headers : BoundedList TableCell 0 50
  rows : BoundedList (List TableCell) 1 1000
  columnWidths : BoundedList Int 0 50

/-- `sum(cell.colspan for cell in row)`. -/
def rowWidth (row : List TableCell) : Nat := (row.map TableCell.colspan).sum

namespace TableFields

def logicalWidths (table : TableFields) : List Nat :=
  let widths := table.rows.1.map rowWidth
  if table.headers.1 ≠ [] then widths ++ [rowWidth table.headers.1] else widths

def validateTableShape (table : TableFields) : Except PyError Unit :=
  if table.logicalWidths.dedup.length ≠ 1 then
    .error (.valueError "all table rows must have the same logical width")
  else
    let width := table.logicalWidths.headD 0
    if table.columnWidths.1 ≠ [] ∧ table.columnWidths.1.length ≠ width then
      .error (.valueError "column_widths must match the table's logical width")
    else .ok ()

end TableFields

structure TableBlock extends TableFields where
  shape : toTableFields.validateTableShape = .ok ()

/-! ### Blocks -/

structure HeadingBlock where
  level : Nat
  content : BoundedList RichTextSpan 1 100
  align : Alignment := .left
  levelRange : 1 ≤ level ∧ level ≤ 9

structure ParagraphBlock where
  content : BoundedList RichTextSpan 1 200
  align : Alignment := .left

inductive ListType where
  | bulletList
  | orderedList
deriving DecidableEq, Repr

structure ListBlock where
  type : ListType
  items : BoundedList (List RichTextSpan) 1 200

structure CheckboxBlock where
  content : BoundedList RichTextSpan 1 100
  done : Bool := false

structure QuoteBlock where
  content : BoundedList RichTextSpan 1 100

structure CalloutBlock where
  content : BoundedList RichTextSpan 1 100
  emoji : BoundedText 1 8 := ⟨"💡", by decide⟩
  backgroundColor : NamedColor := .lightYellow
  borderColor : NamedColor := .yellow
  textColor : Option NamedColor := none

structure CodeBlock where
  code : BoundedText 1 1000000
  language : BoundedText 1 50 := ⟨"text", by decide⟩
  caption : Option (BoundedText 0 500) := none

structure ImageBlock where
  url : BoundedText 0 4096
  caption : Option (BoundedText 0 500) := none
  name : Option (BoundedText 0 500) := none
  width : Option { pixels : Nat // 1 ≤ pixels ∧ pixels ≤ 10000 } := none
  height : Option { pixels : Nat // 1 ≤ pixels ∧ pixels ≤ 10000 } := none
  /-- `validate_url`. -/
  https : isHttps url.1 = true

structure BookmarkBlock where
  name : BoundedText 1 500
  url : BoundedText 0 4096
  https : isHttps url.1 = true

structure WhiteboardBlock where
  format : DiagramFormat
  source : BoundedText 1 4000000

structure SheetBlock where
  token : Option (BoundedText 0 1024) := none
  sheetId : Option (BoundedText 0 1024) := none
  /-- `validate_resource`. -/
  together : token.isSome = sheetId.isSome

inductive DocumentBlock where
  | heading (block : HeadingBlock)
  | paragraph (block : ParagraphBlock)
  | list (block : ListBlock)
  | checkbox (block : CheckboxBlock)
  | quote (block : QuoteBlock)
  | callout (block : CalloutBlock)
  | code (block : CodeBlock)
  | divider
  | table (block : TableBlock)
  | image (block : ImageBlock)
  | bookmark (block : BookmarkBlock)
  | whiteboard (block : WhiteboardBlock)
  | sheet (block : SheetBlock)

structure DocumentSpec where
  title : BoundedText 1 800
  blocks : BoundedList DocumentBlock 1 2000

end Codex2Lark
