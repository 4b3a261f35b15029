import Mathlib.Data.List.Dedup
import Codex2Lark.Authoring.DocumentMarkup

/-!
The compiled document read back. Every text of the specification stands escaped in character
data or in the value of an attribute, so that the elements that are read are those that the
blocks and the spans ask for.
-/

namespace Codex2Lark.Compiler

open Lib.Xml (Node LegalAll NoDeclaration isChar isName tagsAll write writeAll legalAll_iff
  mem_tagsAll)

/-- The text has XML's characters only. -/
def IsXmlText (text : String) : Prop := ∀ c ∈ text.toList, isChar c = true

/-! ### The texts of a specification -/

def spanTexts (span : RichTextSpan) : List String :=
  span.text.1 :: (span.link.map Subtype.val).toList

def richTexts (content : List RichTextSpan) : List String := content.flatMap spanTexts

def cellTexts (cell : TableCell) : List String := richTexts cell.content.1

def blockTexts : DocumentBlock → List String
  | .heading block => richTexts block.content.1
  | .paragraph block => richTexts block.content.1
  | .list block => block.items.1.flatMap richTexts
  | .checkbox block => richTexts block.content.1
  | .quote block => richTexts block.content.1
  | .callout block => block.emoji.1 :: richTexts block.content.1
  | .code block => [block.code.1, block.language.1] ++ (block.caption.map Subtype.val).toList
  | .divider => []
  | .table block => block.headers.1.flatMap cellTexts ++ block.rows.1.flatten.flatMap cellTexts
  | .image block =>
      block.url.1 :: (block.caption.map Subtype.val).toList ++ (block.name.map Subtype.val).toList
  | .bookmark block => [block.name.1, block.url.1]
  | .whiteboard block => [block.source.1]
  | .sheet block =>
      (block.token.map Subtype.val).toList ++ (block.sheetId.map Subtype.val).toList

def documentTexts (document : DocumentSpec) : List String :=
  document.title.1 :: document.blocks.1.flatMap blockTexts

/-! ### Nodes that can be published -/

/-- The nodes can be written, and their elements are supported. -/
structure Publishable (nodes : List Node) : Prop where
  legal : LegalAll isVoid nodes
  supported : ∀ tag ∈ tagsAll nodes, String.ofList tag ∈ supportedTags

/-- A value of an attribute, where there is one. -/
def LegalValue (value : Option String) : Prop := ∀ text ∈ value, IsXmlText text

/-- The name is a supported one. -/
def goodTag (name : String) : Bool := isName name.toList && supportedTags.contains name

/-- The names of attributes are names, and different ones. -/
def goodNames (names : List String) : Bool :=
  decide (names.map String.toList).Nodup &&
    names.all fun name => isName name.toList && decide (name.toList ≠ "xmlns".toList)

theorem publishable_iff {nodes : List Node} :
    Publishable nodes ↔ ∀ node ∈ nodes, Publishable [node] := by
  constructor
  · intro hnodes node hnode
    refine ⟨⟨legalAll_iff.mp hnodes.legal node hnode, trivial⟩, fun tag htag => ?_⟩
    refine hnodes.supported tag (mem_tagsAll.mpr ⟨node, hnode, ?_⟩)
    simpa [tagsAll] using htag
  · intro hnodes
    refine ⟨legalAll_iff.mpr fun node hnode => (hnodes node hnode).legal.1, fun tag htag => ?_⟩
    obtain ⟨node, hnode, hmem⟩ := mem_tagsAll.mp htag
    exact (hnodes node hnode).supported tag (by simpa [tagsAll] using hmem)

theorem publishable_nil : Publishable [] := ⟨trivial, nofun⟩

theorem Publishable.append {nodes others : List Node} (hnodes : Publishable nodes)
    (hothers : Publishable others) : Publishable (nodes ++ others) := by
  refine publishable_iff.mpr fun node hnode => ?_
  rcases List.mem_append.mp hnode with hnode | hnode
  · exact publishable_iff.mp hnodes node hnode
  · exact publishable_iff.mp hothers node hnode

theorem publishable_flatMap {α : Type} {items : List α} {nodes : α → List Node}
    (hitems : ∀ item ∈ items, Publishable (nodes item)) : Publishable (items.flatMap nodes) := by
  refine publishable_iff.mpr fun node hnode => ?_
  obtain ⟨item, hitem, hmem⟩ := List.mem_flatMap.mp hnode
  exact publishable_iff.mp (hitems item hitem) node hmem

theorem publishable_map {α : Type} {items : List α} {node : α → Node}
    (hitems : ∀ item ∈ items, Publishable [node item]) : Publishable (items.map node) := by
  refine publishable_iff.mpr fun other hother => ?_
  obtain ⟨item, hitem, rfl⟩ := List.mem_map.mp hother
  exact hitems item hitem

theorem publishable_chars {chars : List Char} (hchars : ∀ c ∈ chars, isChar c = true) :
    Publishable [.text chars] := ⟨⟨hchars, trivial⟩, nofun⟩

theorem publishable_text {text : String} (htext : IsXmlText text) :
    Publishable [textNode text] := publishable_chars htext

theorem attributeNames_sublist (attributes : List (String × Option String)) :
    ((attributes.filterMap (fun named =>
      named.2.map fun value => (named.1.toList, value.toList))).map Prod.fst).Sublist
      ((attributes.map Prod.fst).map String.toList) := by
  induction attributes with
  | nil => exact List.Sublist.refl _
  | cons named rest ih =>
      obtain ⟨key, value⟩ := named
      cases value with
      | none => exact ih.cons _
      | some value => exact ih.cons_cons _

theorem publishable_element {nodes : List Node} (hnodes : Publishable nodes) {name : String}
    {attributes : List (String × Option String)} (hname : goodTag name = true)
    (hnames : goodNames (attributes.map Prod.fst) = true)
    (hvalues : ∀ named ∈ attributes, LegalValue named.2)
    (hvoid : isVoid name.toList = true → nodes = []) :
    Publishable [element name attributes nodes] := by
  have hname : isName name.toList = true ∧ name ∈ supportedTags := by
    simpa [goodTag] using hname
  have hnames : ((attributes.map Prod.fst).map String.toList).Nodup ∧
      ∀ other ∈ attributes.map Prod.fst,
        isName other.toList = true ∧ other.toList ≠ "xmlns".toList := by
    obtain ⟨hnodup, hall⟩ := Bool.and_eq_true_iff.mp hnames
    refine ⟨of_decide_eq_true hnodup, fun other hother => ?_⟩
    obtain ⟨hother, hreserved⟩ := Bool.and_eq_true_iff.mp (List.all_eq_true.mp hall other hother)
    exact ⟨hother, of_decide_eq_true hreserved⟩
  have hwritten : ∀ written ∈ attributes.filterMap (fun named =>
      named.2.map fun value => (named.1.toList, value.toList)),
      ∃ named ∈ attributes, ∃ value ∈ named.2, (named.1.toList, value.toList) = written := by
    intro written hmem
    obtain ⟨named, hnamed, hsome⟩ := List.mem_filterMap.mp hmem
    obtain ⟨value, hvalue, rfl⟩ := Option.map_eq_some_iff.mp hsome
    exact ⟨named, hnamed, value, hvalue, rfl⟩
  have hnodup := (attributeNames_sublist attributes).nodup hnames.1
  refine ⟨⟨⟨⟨hname.1, hnodup, ?_, ?_⟩, hvoid, hnodes.legal⟩, trivial⟩, ?_⟩
  · intro written hmem
    obtain ⟨named, hnamed, value, -, rfl⟩ := hwritten written hmem
    exact hnames.2 named.1 (List.mem_map_of_mem hnamed)
  · intro written hmem
    obtain ⟨named, hnamed, value, hvalue, rfl⟩ := hwritten written hmem
    exact hvalues named hnamed value hvalue
  · intro tag htag
    have htag : tag = name.toList ∨ tag ∈ tagsAll nodes := by
      simpa [tagsAll, Node.tags, Compiler.element] using htag
    rcases htag with rfl | htag
    · rw [String.ofList_toList]
      exact hname.2
    · exact hnodes.supported tag htag

/-- An element of a good name, with good attributes, around publishable nodes. -/
theorem Publishable.element {nodes : List Node} (hnodes : Publishable nodes) (name : String)
    {attributes : List (String × Option String)} (names : List String)
    (hattributes : attributes.map Prod.fst = names)
    (hvalues : ∀ named ∈ attributes, LegalValue named.2)
    (hgood : (goodTag name && goodNames names && !isVoid name.toList) = true) :
    Publishable [Compiler.element name attributes nodes] := by
  have hgood : (goodTag name = true ∧ goodNames names = true) ∧ isVoid name.toList = false := by
    simpa using hgood
  refine publishable_element hnodes hgood.1.1 (hattributes ▸ hgood.1.2) hvalues fun h => ?_
  exact absurd (hgood.2.symm.trans h) (by decide)

theorem publishable_void (name : String) {attributes : List (String × Option String)}
    (names : List String) (hattributes : attributes.map Prod.fst = names)
    (hvalues : ∀ named ∈ attributes, LegalValue named.2)
    (hgood : (goodTag name && goodNames names) = true) :
    Publishable [element name attributes []] := by
  have hgood : goodTag name = true ∧ goodNames names = true := by simpa using hgood
  exact publishable_element publishable_nil hgood.1 (hattributes ▸ hgood.2) hvalues fun _ => rfl

/-- An element without attributes. -/
theorem Publishable.plain {nodes : List Node} (hnodes : Publishable nodes) (name : String)
    (hgood : (goodTag name && goodNames [] && !isVoid name.toList) = true) :
    Publishable [Compiler.element name [] nodes] :=
  hnodes.element name [] rfl nofun hgood

/-! ### Values -/

theorem legalValue_none : LegalValue none := nofun

theorem legalValue_some {text : String} (htext : IsXmlText text) : LegalValue (some text) := by
  rintro other ⟨⟩
  exact htext

theorem legalValue_map {α : Type} {value : Option α} {shown : α → String}
    (hshown : ∀ item ∈ value, IsXmlText (shown item)) : LegalValue (value.map shown) := by
  intro text htext
  obtain ⟨item, hitem, rfl⟩ := Option.map_eq_some_iff.mp htext
  exact hshown item hitem

/-- A text that is known. -/
theorem isXmlText_literal {text : String} (hall : text.toList.all isChar = true) :
    IsXmlText text := List.all_eq_true.mp hall

theorem isXmlText_color (color : NamedColor) : IsXmlText color.value := by
  refine isXmlText_literal ?_
  cases color <;> decide

theorem isXmlText_align (align : Alignment) : IsXmlText align.value := by
  refine isXmlText_literal ?_
  cases align <;> decide

theorem isXmlText_vertical (align : VerticalAlign) : IsXmlText align.value := by
  refine isXmlText_literal ?_
  cases align <;> decide

theorem isXmlText_format (format : DiagramFormat) : IsXmlText format.value := by
  refine isXmlText_literal ?_
  cases format <;> decide

theorem isChar_digit {c : Char} (hdigit : c.isDigit = true) : isChar c = true := by
  have hrange : 48 ≤ c.toNat ∧ c.toNat ≤ 57 := by
    have h : 48 ≤ c.val ∧ c.val ≤ 57 := by simpa [Char.isDigit] using hdigit
    exact ⟨UInt32.le_iff_toNat_le.mp h.1, UInt32.le_iff_toNat_le.mp h.2⟩
  simp only [isChar, Bool.or_eq_true, Bool.and_eq_true, decide_eq_true_eq]
  omega

theorem isXmlText_int (n : Int) : IsXmlText (toString n) := by
  intro c hc
  rw [Json.int_toList] at hc
  have hdigits : ∀ m : Nat, c ∈ Nat.toDigits 10 m → isChar c = true := fun m hm =>
    isChar_digit (Nat.isDigit_of_mem_toDigits (by decide) (by decide) hm)
  split at hc
  · exact hdigits _ hc
  · rcases List.mem_cons.mp hc with rfl | hc
    · rfl
    · exact hdigits _ hc

theorem isXmlText_nat (n : Nat) : IsXmlText (toString n) := isXmlText_int n

/-! ### Spans and tables -/

theorem publishable_lines {text : String} (htext : IsXmlText text) :
    Publishable (lineNodes text) := by
  refine publishable_iff.mpr fun node hnode => ?_
  obtain ⟨c, hc, rfl⟩ := List.mem_map.mp hnode
  split
  · exact publishable_void "br" [] rfl nofun (by decide)
  · exact publishable_chars (by simpa using htext c hc)

theorem Publishable.wrapIf {nodes : List Node} (hnodes : Publishable nodes) (on : Bool)
    (name : String) {attributes : List (String × Option String)} (names : List String)
    (hattributes : attributes.map Prod.fst = names)
    (hvalues : ∀ named ∈ attributes, LegalValue named.2)
    (hgood : (goodTag name && goodNames names && !isVoid name.toList) = true) :
    Publishable (Compiler.wrapIf on name attributes nodes) := by
  cases on with
  | true => exact hnodes.element name names hattributes hvalues hgood
  | false => exact hnodes

theorem publishable_span {span : RichTextSpan} (htexts : ∀ text ∈ spanTexts span, IsXmlText text) :
    Publishable (spanNodes span) := by
  have hlines := publishable_lines (htexts span.text.1 List.mem_cons_self)
  have hlink : LegalValue (span.link.map Subtype.val) := fun text htext =>
    htexts text (List.mem_cons_of_mem _ (Option.mem_toList.mpr htext))
  have hcolor : ∀ color : Option NamedColor, LegalValue (color.map NamedColor.value) := fun color =>
    legalValue_map fun item _ => isXmlText_color item
  unfold spanNodes
  split
  · exact hlines.plain "latex" (by decide)
  · refine Publishable.wrapIf ?_ _ "a" ["href"] rfl ?_ (by decide)
    · refine Publishable.wrapIf ?_ _ "b" [] rfl nofun (by decide)
      refine Publishable.wrapIf ?_ _ "em" [] rfl nofun (by decide)
      refine Publishable.wrapIf ?_ _ "del" [] rfl nofun (by decide)
      refine Publishable.wrapIf ?_ _ "u" [] rfl nofun (by decide)
      refine Publishable.wrapIf ?_ _ "code" [] rfl nofun (by decide)
      refine hlines.wrapIf _ "span" ["text-color", "background-color"] rfl ?_ (by decide)
      simp [hcolor]
    · simpa using hlink

theorem publishable_rich {content : List RichTextSpan}
    (htexts : ∀ text ∈ richTexts content, IsXmlText text) : Publishable (richNodes content) :=
  publishable_flatMap fun span hspan => publishable_span fun text htext =>
    htexts text (List.mem_flatMap.mpr ⟨span, hspan, htext⟩)

theorem publishable_cell {cell : TableCell} {tag : String}
    (htexts : ∀ text ∈ cellTexts cell, IsXmlText text)
    (hgood : (goodTag tag && goodNames ["background-color", "vertical-align", "colspan", "rowspan"] &&
      !isVoid tag.toList) = true) : Publishable [cellNode tag cell] := by
  refine (publishable_rich htexts).element tag _ rfl ?_ hgood
  have hcolor : LegalValue (cell.backgroundColor.map NamedColor.value) :=
    legalValue_map fun item _ => isXmlText_color item
  have halign := legalValue_some (isXmlText_vertical cell.verticalAlign)
  have hspan : ∀ span : Nat, LegalValue (if 1 < span then some (toString span) else none) := by
    intro span
    split
    · exact legalValue_some (isXmlText_nat span)
    · exact legalValue_none
  intro named hnamed
  simp only [List.mem_cons, List.not_mem_nil, or_false] at hnamed
  rcases hnamed with rfl | rfl | rfl | rfl
  · exact hcolor
  · exact halign
  · exact hspan cell.colspan
  · exact hspan cell.rowspan

theorem publishable_table {block : TableBlock}
    (htexts : ∀ text ∈ blockTexts (.table block), IsXmlText text) :
    Publishable [tableNode block] := by
  have hheaders : ∀ cell ∈ block.headers.1, ∀ text ∈ cellTexts cell, IsXmlText text :=
    fun cell hcell text htext => htexts text
      (List.mem_append_left _ (List.mem_flatMap.mpr ⟨cell, hcell, htext⟩))
  have hrows : ∀ row ∈ block.rows.1, ∀ cell ∈ row, ∀ text ∈ cellTexts cell, IsXmlText text :=
    fun row hrow cell hcell text htext => htexts text
      (List.mem_append_right _ (List.mem_flatMap.mpr
        ⟨cell, List.mem_flatten.mpr ⟨row, hrow, hcell⟩, htext⟩))
  have hcolumns : Publishable (if block.columnWidths.1 = [] then []
      else [element "colgroup" [] (block.columnWidths.1.map fun width =>
        element "col" [("width", some (toString width))] [])]) := by
    split
    · exact publishable_nil
    · refine (publishable_map fun width _ => ?_).plain "colgroup" (by decide)
      refine publishable_void "col" ["width"] rfl ?_ (by decide)
      simpa using legalValue_some (isXmlText_int width)
  have hhead : Publishable (if block.headers.1 = [] then []
      else [element "thead" [] [element "tr" [] (block.headers.1.map (cellNode "th"))]]) := by
    split
    · exact publishable_nil
    · have hcells : Publishable (block.headers.1.map (cellNode "th")) :=
        publishable_map fun cell hcell => publishable_cell (hheaders cell hcell) (by decide)
      exact (hcells.plain "tr" (by decide)).plain "thead" (by decide)
  have hbody : Publishable (block.rows.1.map fun row =>
      element "tr" [] (row.map (cellNode "td"))) := by
    refine publishable_map fun row hrow => ?_
    have hcells : Publishable (row.map (cellNode "td")) :=
      publishable_map fun cell hcell => publishable_cell (hrows row hrow cell hcell) (by decide)
    exact hcells.plain "tr" (by decide)
  exact ((hcolumns.append hhead).append (hbody.plain "tbody" (by decide))).plain "table" (by decide)

/-! ### Blocks -/

theorem goodTag_heading {level : Nat} (hlow : 1 ≤ level) (hhigh : level ≤ 9) :
    (goodTag ("h" ++ toString level) && goodNames ["align"] &&
      !isVoid ("h" ++ toString level).toList) = true := by
  have hall : ∀ rest < 9, (goodTag ("h" ++ toString (rest + 1)) && goodNames ["align"] &&
      !isVoid ("h" ++ toString (rest + 1)).toList) = true := by
    decide +kernel
  obtain ⟨rest, rfl⟩ := Nat.exists_eq_add_of_le' hlow
  exact hall rest (by omega)

/-- Every block of legal texts has a publishable element. -/
theorem publishable_block {block : DocumentBlock}
    (htexts : ∀ text ∈ blockTexts block, IsXmlText text) : Publishable [blockNode block] := by
  cases block with
  | heading block =>
      refine (publishable_rich htexts).element _ ["align"] rfl ?_
        (goodTag_heading block.levelRange.1 block.levelRange.2)
      simpa using legalValue_some (isXmlText_align block.align)
  | paragraph block =>
      refine (publishable_rich htexts).element "p" ["align"] rfl ?_ (by decide)
      simpa using legalValue_some (isXmlText_align block.align)
  | list block =>
      have hitems : Publishable (block.items.1.map fun item => element "li" [] (richNodes item)) :=
        publishable_map fun item hitem => (publishable_rich fun text htext =>
          htexts text (List.mem_flatMap.mpr ⟨item, hitem, htext⟩)).plain "li" (by decide)
      refine hitems.plain _ ?_
      split <;> decide
  | checkbox block =>
      refine (publishable_rich htexts).element "checkbox" ["done"] rfl ?_ (by decide)
      have hdone : IsXmlText (if block.done then "true" else "false") := by
        refine isXmlText_literal ?_
        cases block.done <;> decide
      simpa using legalValue_some hdone
  | quote block =>
      exact ((publishable_rich htexts).plain "p" (by decide)).plain "blockquote" (by decide)
  | callout block =>
      obtain ⟨hemoji, hrich⟩ := List.forall_mem_cons.mp htexts
      refine ((publishable_rich hrich).plain "p" (by decide)).element "callout"
        ["emoji", "background-color", "border-color", "text-color"] rfl ?_ (by decide)
      have hcolor : LegalValue (block.textColor.map NamedColor.value) :=
        legalValue_map fun item _ => isXmlText_color item
      simp [legalValue_some, hemoji, isXmlText_color, hcolor]
  | code block =>
      have hcode : IsXmlText block.code.1 := htexts _ (by simp [blockTexts])
      have hlanguage : IsXmlText block.language.1 := htexts _ (by simp [blockTexts])
      have hcaption : LegalValue (block.caption.map Subtype.val) := fun text htext =>
        htexts text (List.mem_append_right _ (Option.mem_toList.mpr htext))
      refine ((publishable_text hcode).plain "code" (by decide)).element "pre"
        ["lang", "caption"] rfl ?_ (by decide)
      exact List.forall_mem_cons.mpr ⟨legalValue_some hlanguage,
        List.forall_mem_singleton.mpr hcaption⟩
  | divider => exact publishable_void "hr" [] rfl nofun (by decide)
  | table block => exact publishable_table htexts
  | image block =>
      have hurl : IsXmlText block.url.1 := htexts _ (by simp [blockTexts])
      have hcaption : LegalValue (block.caption.map Subtype.val) := fun text htext =>
        htexts text (List.mem_append_left _
          (List.mem_cons_of_mem _ (Option.mem_toList.mpr htext)))
      have hname : LegalValue (block.name.map Subtype.val) := fun text htext =>
        htexts text (List.mem_append_right _ (Option.mem_toList.mpr htext))
      have hwidth : LegalValue (block.width.map fun width => toString width.1) :=
        legalValue_map fun item _ => isXmlText_nat item.1
      have hheight : LegalValue (block.height.map fun height => toString height.1) :=
        legalValue_map fun item _ => isXmlText_nat item.1
      refine publishable_void "img" ["href", "caption", "name", "width", "height"] rfl ?_ (by decide)
      intro named hnamed
      simp only [List.mem_cons, List.not_mem_nil, or_false] at hnamed
      rcases hnamed with rfl | rfl | rfl | rfl | rfl
      · exact legalValue_some hurl
      · exact hcaption
      · exact hname
      · exact hwidth
      · exact hheight
  | bookmark block =>
      have hname : IsXmlText block.name.1 := htexts _ (by simp [blockTexts])
      have hurl : IsXmlText block.url.1 := htexts _ (by simp [blockTexts])
      refine publishable_nil.element "bookmark" ["name", "href"] rfl ?_ (by decide)
      simp [legalValue_some, hname, hurl]
  | whiteboard block =>
      have hsource : IsXmlText block.source.1 := htexts _ (by simp [blockTexts])
      refine (publishable_text hsource).element "whiteboard" ["type"] rfl ?_ (by decide)
      simpa using legalValue_some (isXmlText_format block.format)
  | sheet block =>
      have htoken : LegalValue (block.token.map Subtype.val) := fun text htext =>
        htexts text (List.mem_append_left _ (Option.mem_toList.mpr htext))
      have hsheet : LegalValue (block.sheetId.map Subtype.val) := fun text htext =>
        htexts text (List.mem_append_right _ (Option.mem_toList.mpr htext))
      simp only [blockNode, sheetNode]
      cases hvalue : block.token with
      | none =>
          have hblank : IsXmlText "blank" := isXmlText_literal (by decide)
          refine publishable_nil.element "sheet" ["type"] rfl ?_ (by decide)
          simpa using legalValue_some hblank
      | some token =>
          rw [hvalue] at htoken
          refine publishable_nil.element "sheet" ["token", "sheet-id"] rfl ?_ (by decide)
          exact List.forall_mem_cons.mpr ⟨htoken, List.forall_mem_singleton.mpr hsheet⟩

theorem publishable_document {document : DocumentSpec}
    (htexts : ∀ text ∈ documentTexts document, IsXmlText text) :
    Publishable (documentNodes document) := by
  obtain ⟨htitle, hblocks⟩ := List.forall_mem_cons.mp htexts
  have htitle : Publishable [titleNode document.title.1] :=
    (publishable_text htitle).plain "title" (by decide)
  exact htitle.append (publishable_map fun block hblock => publishable_block fun text htext =>
    hblocks text (List.mem_flatMap.mpr ⟨block, hblock, htext⟩))

theorem Publishable.separated {nodes : List Node} (hnodes : Publishable nodes) :
    Publishable (nodes.intersperse (.text ['\n'])) := by
  have hline : Publishable [.text ['\n']] := publishable_chars
    (List.all_eq_true.mp (by decide))
  induction nodes with
  | nil => exact publishable_nil
  | cons node rest ih =>
      have hfirst : Publishable [node] := publishable_iff.mp hnodes node List.mem_cons_self
      have hothers : Publishable rest := publishable_iff.mpr fun other hother =>
        publishable_iff.mp hnodes other (List.mem_cons_of_mem _ hother)
      cases rest with
      | nil => exact hfirst
      | cons next rest =>
          rw [List.intersperse_cons_cons]
          exact hfirst.append (hline.append (ih hothers))

/-! ### The whole document -/

/-- The root that a fragment is parsed in. -/
def fragmentNode (nodes : List Node) : Node :=
  .element "codex2lark-fragment".toList [] (nodes.intersperse (.text ['\n']))

theorem Publishable.fragment {nodes : List Node} (hnodes : Publishable nodes) :
    (fragmentNode nodes).Legal isVoid := by
  refine ⟨⟨by decide, List.nodup_nil, nofun, nofun⟩, ?_, hnodes.separated.legal⟩
  exact fun h => absurd h (by decide)

theorem writes_fragment {content : String} {nodes : List Node}
    (hcontent : Writes content (nodes.intersperse (.text ['\n']))) :
    (fragment content).toList = write isVoid (fragmentNode nodes) := by
  have hvoid : isVoid "codex2lark-fragment".toList = false := by decide
  have hchars : content.toList = writeAll isVoid (nodes.intersperse (.text ['\n'])) := hcontent
  have hopen : "<codex2lark-fragment>".toList =
      '<' :: ("codex2lark-fragment".toList ++ ['>']) := rfl
  have hclose : "</codex2lark-fragment>".toList =
      '<' :: '/' :: ("codex2lark-fragment".toList ++ ['>']) := rfl
  unfold fragment fragmentNode
  rw [String.toList_append, String.toList_append, hchars, hopen, hclose]
  generalize "codex2lark-fragment".toList = name at hvoid ⊢
  simp [write, hvoid, Lib.Xml.writeAttributes]

/-- The content of a fragment of elements, as it is read. -/
theorem document_fragment {content : String} {nodes : List Node} (hnodes : Publishable nodes)
    (helements : ∀ node ∈ nodes, node.isText = false)
    (hcontent : Writes content (nodes.intersperse (.text ['\n']))) :
    Lib.Xml.document (fragment content).toList =
      some (fragmentNode (nodes.map Node.normal)) := by
  rw [writes_fragment hcontent]
  have hread := Lib.Xml.document_write hnodes.fragment
  have hnormal : (fragmentNode nodes).normal = fragmentNode (nodes.map Node.normal) :=
    Lib.Xml.normal_separated (by decide) helements
  exact hread.trans (congrArg some hnormal)

theorem documentNodes_elements (document : DocumentSpec) :
    ∀ node ∈ documentNodes document, node.isText = false := by
  intro node hnode
  rcases List.mem_cons.mp hnode with rfl | hnode
  · rfl
  · obtain ⟨block, -, rfl⟩ := List.mem_map.mp hnode
    cases block <;> rfl

/-! ### The check before the document is sent -/

theorem strip_ne_empty {content : String} {rest : List Char}
    (hcontent : content.toList = '<' :: rest) : IMMentionTaskHandler.strip content ≠ "" := by
  have hspace : IMMentionTaskHandler.isSpace '<' = false := by decide
  have hdrop : content.toList.dropWhile IMMentionTaskHandler.isSpace = '<' :: rest := by
    rw [hcontent, List.dropWhile_cons_of_neg (by simp [hspace])]
  intro hempty
  have hnil : (('<' :: rest).reverse.dropWhile IMMentionTaskHandler.isSpace).reverse = [] := by
    have h := congrArg String.toList hempty
    rwa [IMMentionTaskHandler.strip, String.toList_ofList, hdrop] at h
  have hall := List.dropWhile_eq_nil_iff.mp (List.reverse_eq_nil_iff.mp hnil) '<' (by simp)
  rw [hspace] at hall
  cases hall

theorem toLower_eq {c d : Char} (hlower : c.toLower = d) (hd : d.val.toNat < 97) : c = d := by
  unfold Char.toLower at hlower
  split at hlower
  · rename_i hupper
    have hlow : 65 ≤ c.val.toNat := UInt32.le_iff_toNat_le.mp hupper.1
    have hhigh : c.val.toNat ≤ 90 := UInt32.le_iff_toNat_le.mp hupper.2
    have hvalue : (c.val + ('a'.val - 'A'.val)).toNat = d.val.toNat :=
      congrArg (fun c : Char => c.val.toNat) hlower
    have hsum : (c.val + ('a'.val - 'A'.val)).toNat = c.val.toNat + 32 := by
      rw [UInt32.toNat_add]
      have h32 : ('a'.val - 'A'.val).toNat = 32 := by decide
      rw [h32]
      omega
    omega
  · exact hlower

theorem noDeclaration_lowered {cs : List Char} (hcs : NoDeclaration cs) :
    NoDeclaration (cs.map Char.toLower) := by
  induction cs with
  | nil => exact hcs
  | cons c cs ih =>
      have hparts : ¬ "<!".toList <+: c :: cs ∧ NoDeclaration cs := by
        simpa only [NoDeclaration, List.infix_cons_iff, not_or] using hcs
      have hstart : ¬ "<!".toList <+: c.toLower :: cs.map Char.toLower := by
        intro h
        obtain ⟨hfirst, hrest⟩ := List.cons_prefix_cons.mp h
        obtain rfl : c = '<' := toLower_eq hfirst.symm (by decide)
        cases cs with
        | nil => exact absurd hrest (by decide)
        | cons d cs =>
            obtain rfl : d = '!' := toLower_eq (List.cons_prefix_cons.mp hrest).1.symm (by decide)
            exact hparts.1 ⟨cs, rfl⟩
      rw [NoDeclaration, List.map_cons, List.infix_cons_iff, not_or]
      exact ⟨hstart, ih hparts.2⟩

theorem unsupportedTags_fragment {nodes : List Node} (hnodes : Publishable nodes) :
    unsupportedTags (fragmentNode (nodes.map Node.normal)) = [] := by
  have hnormal : (nodes.map Node.normal).flatMap Node.tags = nodes.flatMap Node.tags := by
    rw [List.flatMap_map]
    exact List.flatMap_congr fun node _ => Lib.Xml.tags_normal node
  have htags : ∀ others : List Node,
      tagsAll (others.intersperse (.text ['\n'])) = others.flatMap Node.tags := by
    intro others
    induction others with
    | nil => rfl
    | cons node rest ih =>
        cases rest with
        | nil => simp [tagsAll]
        | cons next rest =>
            rw [List.intersperse_cons_cons, tagsAll, tagsAll, ih]
            simp [Node.tags]
  have hnone : ((tagsAll ((nodes.map Node.normal).intersperse (.text ['\n']))).map
      String.ofList).filter (fun tag => !supportedTags.contains tag) = [] := by
    rw [htags, hnormal, List.filter_eq_nil_iff]
    intro tag htag
    obtain ⟨chars, hchars, rfl⟩ := List.mem_map.mp htag
    obtain ⟨node, hnode, hmem⟩ := List.mem_flatMap.mp hchars
    have hsupported := hnodes.supported chars (mem_tagsAll.mpr ⟨node, hnode, hmem⟩)
    simpa using hsupported
  calc unsupportedTags (fragmentNode (nodes.map Node.normal)) =
        Lib.Sorted.sorted (((tagsAll ((nodes.map Node.normal).intersperse (.text ['\n']))).map
          String.ofList).filter fun tag => !supportedTags.contains tag).dedup := rfl
    _ = [] := by
        rw [hnone, List.dedup_nil]
        exact List.mergeSort_nil

/-- Content that publishable elements write passes the check. -/
theorem preflightContent_ok {content : String} {nodes : List Node} {node : Node}
    (hnodes : Publishable (node :: nodes))
    (helements : ∀ other ∈ node :: nodes, other.isText = false)
    (hcontent : Writes content ((node :: nodes).intersperse (.text ['\n'])))
    (parseReason : String → String) : preflightContent parseReason content .xml = .ok () := by
  have hread := document_fragment hnodes helements hcontent
  have hchars : content.toList =
      writeAll isVoid ((node :: nodes).intersperse (.text ['\n'])) := hcontent
  obtain ⟨rest, hrest⟩ : ∃ rest, content.toList = '<' :: rest := by
    have hfirst := helements node List.mem_cons_self
    cases node with
    | text chars => simp [Node.isText] at hfirst
    | element name attributes children =>
        rw [hchars]
        cases nodes with
        | nil => exact ⟨_, rfl⟩
        | cons next nodes => exact ⟨_, rfl⟩
  have hplain : NoDeclaration content.toList := by
    have h := Lib.Xml.noDeclaration_writeAll _ hnodes.separated.legal []
    rw [List.append_nil, ← hchars] at h
    exact h.mpr (by unfold NoDeclaration; decide)
  have hlowered := noDeclaration_lowered hplain
  have hdeclared : ¬ ("<!doctype".toList <:+: lowered content ∨
      "<!entity".toList <:+: lowered content) := by
    rintro (h | h)
    · exact hlowered (List.IsInfix.trans ⟨[], "doctype".toList, rfl⟩ h)
    · exact hlowered (List.IsInfix.trans ⟨[], "entity".toList, rfl⟩ h)
  have htags := unsupportedTags_fragment hnodes
  unfold preflightContent
  rw [if_neg (strip_ne_empty hrest), if_neg (by decide), if_neg hdeclared, hread]
  simp only [htags, ne_eq, not_true, if_false]

/-- A specification of legal texts compiles, and its content is read as the title and one element for
each block, in order, with the elements and the texts that the specification gives them. -/
theorem compile_document_reads_back (parseReason : String → String) (document : DocumentSpec)
    (htexts : ∀ text ∈ documentTexts document, IsXmlText text) :
    ∃ content, compileDocument parseReason document = .ok content ∧
      Lib.Xml.document (fragment content).toList =
        some (fragmentNode ((titleNode document.title.1 ::
          document.blocks.1.map blockNode).map Node.normal)) := by
  have hnodes := publishable_document htexts
  have helements := documentNodes_elements document
  have hcontent := writes_document document
  refine ⟨renderDocument document, ?_, document_fragment hnodes helements hcontent⟩
  rw [compileDocument, preflightContent_ok hnodes helements hcontent parseReason]
  rfl

/-- A title with markup of its own, and a paragraph of a bold span on two lines. -/
private def markedDocument : DocumentSpec where
  title := ⟨"R&D </title>", by decide⟩
  blocks := ⟨[.paragraph { content :=
    ⟨[{ text := ⟨"a < b\nc", by decide⟩, bold := true, valid := rfl }], by decide⟩ }], by decide⟩

theorem marked_document_reads_back :
    ∃ content, compileDocument id markedDocument = .ok content ∧
      Lib.Xml.document (fragment content).toList =
        some (fragmentNode ((titleNode "R&D </title>" ::
          markedDocument.blocks.1.map blockNode).map Node.normal)) :=
  compile_document_reads_back id markedDocument (by
    have hall : ((documentTexts markedDocument).all fun text => text.toList.all isChar) = true := by
      decide
    exact fun text htext => isXmlText_literal (List.all_eq_true.mp hall text htext))

end Codex2Lark.Compiler
