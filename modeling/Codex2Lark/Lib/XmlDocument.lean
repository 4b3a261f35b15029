import Codex2Lark.Lib.XmlWriter

/-!
A whole document, written and read back: texts that stand beside each other are one text, and
the line ends of the input are normalised before anything else is read.
-/

namespace Codex2Lark.Lib.Xml

open Markup (escape escapeChar)

/-! ### Joined texts -/

mutual

/-- The node with its texts joined, as a reader of its text finds them. -/
def Node.joined : Node → Node
  | .text chars => .text chars
  | .element name attributes children => .element name attributes (join children)

def join : List Node → List Node
  | [] => []
  | node :: rest => addNode node.joined (join rest)

end

variable {void : List Char → Bool}

theorem writeAll_addNode (node : Node) (nodes : List Node) :
    writeAll void (addNode node nodes) = write void node ++ writeAll void nodes := by
  unfold addNode
  split
  · rfl
  · rename_i chars more rest _
    simp only [writeAll, write]
    rw [← List.append_assoc]
    exact congrArg (· ++ writeAll void rest) List.flatMap_append
  · rfl

mutual

theorem write_joined (node : Node) : write void node.joined = write void node := by
  match node with
  | .text chars => rfl
  | .element name attributes children =>
      rw [Node.joined, write, write, writeAll_join children]

theorem writeAll_join (nodes : List Node) : writeAll void (join nodes) = writeAll void nodes := by
  match nodes with
  | [] => rfl
  | node :: rest =>
      rw [join, writeAll_addNode, write_joined node, writeAll_join rest, writeAll]

end

theorem legalAll_addNode {node : Node} {nodes : List Node} (hnode : node.Legal void)
    (hnodes : LegalAll void nodes) : LegalAll void (addNode node nodes) := by
  unfold addNode
  split
  · exact hnodes
  · refine ⟨?_, hnodes.2⟩
    intro c hc
    exact (List.mem_append.mp hc).elim (hnode c) (hnodes.1 c)
  · exact ⟨hnode, hnodes⟩

theorem joinedAll_addNode {node : Node} {nodes : List Node}
    (hnode : node.isText = true ∨ node.Joined) (hnodes : JoinedAll nodes) :
    JoinedAll (addNode node nodes) := by
  unfold addNode
  split
  · exact hnodes
  · rename_i chars more rest hchars
    refine ⟨?_, hnodes.2.1, hnodes.2.2⟩
    exact fun h => hnodes.1 (List.append_eq_nil_iff.mp h).2
  · rename_i hempty hbeside
    cases node with
    | text chars =>
        refine ⟨fun h => hempty (congrArg Node.text h), ?_, hnodes⟩
        rintro - next hnext
        cases next with
        | text more =>
            obtain ⟨rest, hrest⟩ : ∃ rest, nodes = .text more :: rest := by
              cases nodes with
              | nil => cases hnext
              | cons first rest =>
                  cases hnext
                  exact ⟨rest, rfl⟩
            exact (hbeside chars more rest rfl hrest).elim
        | element name attributes children => rfl
    | element name attributes children =>
        exact ⟨hnode.resolve_left (by simp [Node.isText]), nofun, hnodes⟩

mutual

theorem legal_joined (node : Node) (hlegal : node.Legal void) : node.joined.Legal void := by
  match node with
  | .text chars => exact hlegal
  | .element name attributes children =>
      obtain ⟨htag, hvoid, hchildren⟩ := hlegal
      refine ⟨htag, ?_, legalAll_join children hchildren⟩
      intro hname
      rw [hvoid hname]
      rfl

theorem legalAll_join (nodes : List Node) (hlegal : LegalAll void nodes) :
    LegalAll void (join nodes) := by
  match nodes with
  | [] => trivial
  | node :: rest =>
      exact legalAll_addNode (legal_joined node hlegal.1) (legalAll_join rest hlegal.2)

end

mutual

theorem joined_joined (node : Node) : node.joined.isText = true ∨ node.joined.Joined := by
  match node with
  | .text chars => exact .inl rfl
  | .element name attributes children => exact .inr (joinedAll_join children)

theorem joinedAll_join (nodes : List Node) : JoinedAll (join nodes) := by
  match nodes with
  | [] => trivial
  | node :: rest => exact joinedAll_addNode (joined_joined node) (joinedAll_join rest)

end

/-! ### Line ends -/

theorem lineEnds_cons {c : Char} {cs : List Char} (h : c = '\r' → cs.head? ≠ some '\n') :
    lineEnds (c :: cs) = (if c = '\r' then '\n' else c) :: lineEnds cs := by
  cases cs with
  | nil => rw [lineEnds]; exact nofun
  | cons d rest =>
      rw [lineEnds]
      rintro tail hc htail
      exact h hc (by rw [htail]; rfl)

theorem lineEnds_append {cs rest : List Char} (hrest : rest.head? ≠ some '\n') :
    lineEnds (cs ++ rest) = lineEnds cs ++ lineEnds rest := by
  induction cs using lineEnds.induct with
  | case1 cs ih => simp only [List.cons_append, lineEnds, ih]
  | case2 c cs hcs ih =>
      have hhead : c = '\r' → cs.head? ≠ some '\n' := by
        rintro rfl h
        obtain ⟨tail, rfl⟩ := List.head?_eq_some_iff.mp h
        exact hcs tail rfl rfl
      have hboth : c = '\r' → (cs ++ rest).head? ≠ some '\n' := by
        intro hc
        cases cs with
        | nil => exact hrest
        | cons d tail => exact hhead hc
      rw [List.cons_append, lineEnds_cons hboth, lineEnds_cons hhead, ih, List.cons_append]
  | case3 => rfl

theorem lineEnds_plain {cs : List Char} (hcs : '\r' ∉ cs) (rest : List Char) :
    lineEnds (cs ++ rest) = cs ++ lineEnds rest := by
  induction cs with
  | nil => rfl
  | cons c cs ih =>
      have hc : c ≠ '\r' := fun h => hcs (h ▸ List.mem_cons_self)
      rw [List.cons_append, lineEnds_cons fun h => absurd h hc, if_neg hc,
        ih fun h => hcs (List.mem_cons_of_mem _ h), List.cons_append]

theorem return_not_mem_escapeChar {c : Char} (hc : c ≠ '\r') : '\r' ∉ escapeChar c := by
  unfold escapeChar
  split_ifs <;> simp [Ne.symm hc]

theorem escape_head_newline {cs : List Char} (h : (escape cs).head? = some '\n') :
    cs.head? = some '\n' := by
  cases cs with
  | nil => cases h
  | cons c cs =>
      have hcons : escape (c :: cs) = escapeChar c ++ escape cs := rfl
      rw [hcons] at h
      unfold escapeChar at h
      split_ifs at h <;> first | exact h | cases h

theorem lineEnds_escape (cs : List Char) : lineEnds (escape cs) = escape (lineEnds cs) := by
  induction cs using lineEnds.induct with
  | case1 cs ih =>
      have hescape : escape ('\r' :: '\n' :: cs) = '\r' :: '\n' :: escape cs := rfl
      rw [hescape, lineEnds, lineEnds, ih]
      rfl
  | case2 c cs hcs ih =>
      have hhead : c = '\r' → cs.head? ≠ some '\n' := by
        rintro rfl h
        obtain ⟨tail, rfl⟩ := List.head?_eq_some_iff.mp h
        exact hcs tail rfl rfl
      have hcons : escape (c :: cs) = escapeChar c ++ escape cs := rfl
      rw [lineEnds_cons hhead, hcons]
      by_cases hc : c = '\r'
      · have hreturn : escapeChar c = ['\r'] := by rw [hc]; rfl
        rw [hreturn, List.singleton_append,
          lineEnds_cons fun _ h => hhead hc (escape_head_newline h), ih, if_pos rfl, if_pos hc]
        rfl
      · rw [lineEnds_plain (return_not_mem_escapeChar hc), ih, if_neg hc]
        rfl
  | case3 => rfl

theorem return_not_mem_name {name : List Char} (hname : isName name = true) : '\r' ∉ name := by
  obtain ⟨_, _, -, -, hall⟩ := isName_cons hname
  intro hmem
  exact absurd (hall _ hmem) (by decide)

/-- The attributes with the line ends of their values normalised. -/
def lineEndsValues (attributes : List (List Char × List Char)) : List (List Char × List Char) :=
  attributes.map fun named => (named.1, lineEnds named.2)

theorem lineEnds_writeAttributes {attributes : List (List Char × List Char)}
    (hnames : ∀ named ∈ attributes, isName named.1 = true ∧ named.1 ≠ "xmlns".toList)
    (rest : List Char) :
    lineEnds (writeAttributes attributes ++ rest) =
      writeAttributes (lineEndsValues attributes) ++ lineEnds rest := by
  induction attributes with
  | nil => rfl
  | cons named attributes ih =>
      obtain ⟨hnamed, hothers⟩ := List.forall_mem_cons.mp hnames
      have hshape : writeAttributes (named :: attributes) ++ rest =
          (' ' :: (named.1 ++ ['=', '"'])) ++
            (escape named.2 ++ ('"' :: (writeAttributes attributes ++ rest))) := by
        simp [writeAttributes, writeAttribute]
      have hstart : '\r' ∉ ' ' :: (named.1 ++ ['=', '"']) := by
        have := return_not_mem_name hnamed.1
        simp [this]
      have hquote : lineEnds ('"' :: (writeAttributes attributes ++ rest)) =
          '"' :: lineEnds (writeAttributes attributes ++ rest) :=
        lineEnds_cons fun h => absurd h (by decide)
      rw [hshape, lineEnds_plain hstart, lineEnds_append (by simp), lineEnds_escape, hquote,
        ih hothers]
      simp [lineEndsValues, writeAttributes, writeAttribute]

/-- The line ends of the texts of a node. -/
abbrev Node.lineEnds (node : Node) : Node := node.mapText Xml.lineEnds Xml.lineEnds

abbrev lineEndsAll (nodes : List Node) : List Node := mapTextAll lineEnds lineEnds nodes

variable (void) in
theorem writeAll_head_ne_newline {nodes : List Node} {rest : List Char}
    (hfirst : ∀ next ∈ nodes.head?, next.isText = false) (hrest : rest.head? ≠ some '\n') :
    (writeAll void nodes ++ rest).head? ≠ some '\n' := by
  cases nodes with
  | nil => exact hrest
  | cons node nodes =>
      cases node with
      | text chars => exact absurd (hfirst _ rfl) (by simp [Node.isText])
      | element name attributes children => simp [writeAll, write]

mutual

/-- Markup has no line end of its own, so that those of the texts are normalised apart. -/
theorem lineEnds_writeAll (nodes : List Node) (hlegal : LegalAll void nodes)
    (hjoined : JoinedAll nodes) (rest : List Char) (hrest : rest.head? ≠ some '\n') :
    lineEnds (writeAll void nodes ++ rest) =
      writeAll void (lineEndsAll nodes) ++ lineEnds rest := by
  match nodes with
  | [] => rfl
  | .text chars :: nodes =>
      obtain ⟨-, hnext, hothers⟩ := hjoined
      have hhead := writeAll_head_ne_newline void (hnext rfl) hrest
      rw [writeAll, write, List.append_assoc, lineEnds_append hhead, lineEnds_escape,
        lineEnds_writeAll nodes hlegal.2 hothers rest hrest, ← List.append_assoc]
      rfl
  | .element name attributes children :: nodes =>
      obtain ⟨hchildren, -, hothers⟩ := hjoined
      rw [writeAll, List.append_assoc,
        lineEnds_write name attributes children hlegal.1 hchildren,
        lineEnds_writeAll nodes hlegal.2 hothers rest hrest, ← List.append_assoc]
      rfl
termination_by sizeOf nodes

theorem lineEnds_write (name : List Char) (attributes : List (List Char × List Char))
    (children : List Node) (hlegal : (Node.element name attributes children).Legal void)
    (hjoined : JoinedAll children) (rest : List Char) :
    lineEnds (write void (.element name attributes children) ++ rest) =
      write void (Node.element name attributes children).lineEnds ++ lineEnds rest := by
  obtain ⟨htag, -, hchildren⟩ := hlegal
  have hname := return_not_mem_name htag.name
  have hopen : '\r' ∉ '<' :: name := by simp [hname]
  have hempties : '\r' ∉ ['/', '>'] := by decide
  have hcloses : '\r' ∉ ['>'] := by decide
  by_cases hempty : void name = true
  · have hshape : write void (.element name attributes children) ++ rest =
        ('<' :: name) ++ (writeAttributes attributes ++ (['/', '>'] ++ rest)) := by
      simp [write, hempty]
    rw [hshape, lineEnds_plain hopen, lineEnds_writeAttributes htag.names,
      lineEnds_plain hempties]
    simp [write, hempty, Node.mapText, lineEndsValues]
  · have hshape : write void (.element name attributes children) ++ rest =
        ('<' :: name) ++ (writeAttributes attributes ++ (['>'] ++ (writeAll void children ++
          (('<' :: '/' :: (name ++ ['>'])) ++ rest)))) := by
      simp [write, hempty]
    have hclose : '\r' ∉ '<' :: '/' :: (name ++ ['>']) := by simp [hname]
    rw [hshape, lineEnds_plain hopen, lineEnds_writeAttributes htag.names,
      lineEnds_plain hcloses,
      lineEnds_writeAll children hchildren hjoined _ (by simp), lineEnds_plain hclose]
    simp [write, hempty, Node.mapText, lineEndsValues]
termination_by sizeOf children + 1

end

theorem isChar_lineEnds {cs : List Char} (hlegal : ∀ c ∈ cs, isChar c = true) :
    ∀ c ∈ lineEnds cs, isChar c = true := by
  induction cs using lineEnds.induct with
  | case1 cs ih =>
      have hrest := ih fun c hc => hlegal c (by simp [hc])
      rw [lineEnds]
      exact List.forall_mem_cons.mpr ⟨rfl, hrest⟩
  | case2 c cs hcs ih =>
      have hhead : c = '\r' → cs.head? ≠ some '\n' := by
        rintro rfl h
        obtain ⟨tail, rfl⟩ := List.head?_eq_some_iff.mp h
        exact hcs tail rfl rfl
      rw [lineEnds_cons hhead]
      refine List.forall_mem_cons.mpr ⟨?_, ih fun d hd => hlegal d (List.mem_cons_of_mem _ hd)⟩
      split
      · rfl
      · exact hlegal c List.mem_cons_self
  | case3 => exact nofun

theorem lineEnds_eq_nil {cs : List Char} : lineEnds cs = [] ↔ cs = [] := by
  unfold lineEnds
  split <;> simp

mutual

theorem legal_lineEnds (node : Node) (hlegal : node.Legal void) : node.lineEnds.Legal void := by
  match node with
  | .text chars => exact isChar_lineEnds hlegal
  | .element name attributes children =>
      obtain ⟨htag, hvoid, hchildren⟩ := hlegal
      refine ⟨⟨htag.name, ?_, ?_, ?_⟩, ?_, legalAll_lineEnds children hchildren⟩
      · rw [List.map_map]
        exact htag.nodup
      · intro named hnamed
        obtain ⟨other, hother, rfl⟩ := List.mem_map.mp hnamed
        exact htag.names other hother
      · intro named hnamed
        obtain ⟨other, hother, rfl⟩ := List.mem_map.mp hnamed
        exact isChar_lineEnds (htag.values other hother)
      · intro hname
        rw [hvoid hname]
        rfl

theorem legalAll_lineEnds (nodes : List Node) (hlegal : LegalAll void nodes) :
    LegalAll void (lineEndsAll nodes) := by
  match nodes with
  | [] => trivial
  | node :: rest => exact ⟨legal_lineEnds node hlegal.1, legalAll_lineEnds rest hlegal.2⟩

end

mutual

theorem joined_lineEnds (node : Node) (hjoined : node.Joined) : node.lineEnds.Joined := by
  match node with
  | .text chars => exact fun h => hjoined (lineEnds_eq_nil.mp h)
  | .element name attributes children => exact joinedAll_lineEnds children hjoined

theorem joinedAll_lineEnds (nodes : List Node) (hjoined : JoinedAll nodes) :
    JoinedAll (lineEndsAll nodes) := by
  match nodes with
  | [] => trivial
  | node :: rest =>
      obtain ⟨hnode, hnext, hrest⟩ := hjoined
      refine ⟨joined_lineEnds node hnode, ?_, joinedAll_lineEnds rest hrest⟩
      intro htext
      rw [isText_mapText] at htext
      exact head_mapTextAll (hnext htext)

end

mutual

theorem mapText_mapText (onText onValue laterText laterValue : List Char → List Char)
    (node : Node) : (node.mapText onText onValue).mapText laterText laterValue =
      node.mapText (laterText ∘ onText) (laterValue ∘ onValue) := by
  match node with
  | .text chars => rfl
  | .element name attributes children =>
      simp only [Node.mapText, List.map_map,
        mapTextAll_mapTextAll onText onValue laterText laterValue children]
      rfl

theorem mapTextAll_mapTextAll (onText onValue laterText laterValue : List Char → List Char)
    (nodes : List Node) : mapTextAll laterText laterValue (mapTextAll onText onValue nodes) =
      mapTextAll (laterText ∘ onText) (laterValue ∘ onValue) nodes := by
  match nodes with
  | [] => rfl
  | node :: rest =>
      simp only [mapTextAll, mapText_mapText onText onValue laterText laterValue node,
        mapTextAll_mapTextAll onText onValue laterText laterValue rest]

end

/-- What a reader finds of a node: joined texts, with the line ends and the white space of
values normalised. -/
def Node.normal (node : Node) : Node := node.joined.mapText Xml.lineEnds (spacedValue ∘ Xml.lineEnds)

/-- A legal element, written as a document, is read back. -/
theorem document_write {name : List Char} {attributes : List (List Char × List Char)}
    {children : List Node} (hlegal : (Node.element name attributes children).Legal void) :
    document (write void (.element name attributes children)) =
      some (Node.element name attributes children).normal := by
  have hjoined := joinedAll_join children
  have hlegalJoin := legal_joined (.element name attributes children) hlegal
  have hinput : lineEnds (write void (.element name attributes children)) =
      write void (Node.element name attributes (join children)).lineEnds := by
    have h := lineEnds_write name attributes (join children) hlegalJoin hjoined []
    rw [List.append_nil, lineEnds, List.append_nil] at h
    rw [← h, ← write_joined (.element name attributes children)]
    rfl
  have hread := readElement_write name (lineEndsValues attributes) (lineEndsAll (join children))
    (legal_lineEnds _ hlegalJoin) (joinedAll_lineEnds _ hjoined) []
    ((write void (Node.element name (lineEndsValues attributes)
      (lineEndsAll (join children)))).length + 1) (Nat.le_succ _)
  have hnode : (Node.element name attributes (join children)).lineEnds =
      .element name (lineEndsValues attributes) (lineEndsAll (join children)) := rfl
  have hdrop : (write void (Node.element name attributes (join children)).lineEnds).dropWhile
      isSpace = write void (Node.element name attributes (join children)).lineEnds := rfl
  have hhead : (write void (Node.element name attributes (join children)).lineEnds).head? =
      some '<' := rfl
  rw [List.append_nil] at hread
  rw [document, hinput, hdrop, if_pos hhead, hnode, hread]
  have hcompose := mapText_mapText lineEnds lineEnds id spacedValue
    (.element name attributes (join children))
  exact congrArg some hcompose

/-! ### What a document shows of itself -/

theorem legalAll_iff {nodes : List Node} :
    LegalAll void nodes ↔ ∀ node ∈ nodes, node.Legal void := by
  induction nodes with
  | nil => exact ⟨fun _ => nofun, fun _ => trivial⟩
  | cons node rest ih => rw [LegalAll, ih, List.forall_mem_cons]

mutual

/-- `element.iter()`: the names of the elements in document order. -/
def Node.tags : Node → List (List Char)
  | .text _ => []
  | .element name _ children => name :: tagsAll children

def tagsAll : List Node → List (List Char)
  | [] => []
  | node :: rest => node.tags ++ tagsAll rest

end

theorem mem_tagsAll {tag : List Char} {nodes : List Node} :
    tag ∈ tagsAll nodes ↔ ∃ node ∈ nodes, tag ∈ node.tags := by
  induction nodes with
  | nil => simp [tagsAll]
  | cons node rest ih => simp [tagsAll, ih]

@[simp] theorem tagsAll_addNode (node : Node) (nodes : List Node) :
    tagsAll (addNode node nodes) = node.tags ++ tagsAll nodes := by
  unfold addNode
  split <;> simp [tagsAll, Node.tags]

mutual

theorem tags_joined (node : Node) : node.joined.tags = node.tags := by
  match node with
  | .text chars => rfl
  | .element name attributes children => simp only [Node.joined, Node.tags, tagsAll_join children]

theorem tagsAll_join (nodes : List Node) : tagsAll (join nodes) = tagsAll nodes := by
  match nodes with
  | [] => rfl
  | node :: rest => simp only [join, tagsAll_addNode, tagsAll, tags_joined node, tagsAll_join rest]

end

mutual

theorem tags_mapText (onText onValue : List Char → List Char) (node : Node) :
    (node.mapText onText onValue).tags = node.tags := by
  match node with
  | .text chars => rfl
  | .element name attributes children =>
      simp only [Node.mapText, Node.tags, tagsAll_mapTextAll onText onValue children]

theorem tagsAll_mapTextAll (onText onValue : List Char → List Char) (nodes : List Node) :
    tagsAll (mapTextAll onText onValue nodes) = tagsAll nodes := by
  match nodes with
  | [] => rfl
  | node :: rest =>
      simp only [mapTextAll, tagsAll, tags_mapText onText onValue node,
        tagsAll_mapTextAll onText onValue rest]

end

theorem tags_normal (node : Node) : node.normal.tags = node.tags := by
  rw [Node.normal, tags_mapText, tags_joined]

/-- Elements apart from each other are found one by one. -/
theorem normal_separated {name separator : List Char} {attributes : List (List Char × List Char)}
    {nodes : List Node} (hseparator : separator ≠ [])
    (helements : ∀ node ∈ nodes, node.isText = false) :
    (Node.element name attributes (nodes.intersperse (.text separator))).normal =
      .element name (attributes.map fun named => (named.1, spacedValue (lineEnds named.2)))
        ((nodes.map Node.normal).intersperse (.text (lineEnds separator))) := by
  have hadd : ∀ node : Node, node.isText = false → ∀ others,
      addNode node.joined others = node.joined :: others := by
    intro node hnode others
    cases node with
    | text chars => simp [Node.isText] at hnode
    | element name attributes children => rfl
  have hall : mapTextAll lineEnds (spacedValue ∘ lineEnds)
      (join (nodes.intersperse (.text separator))) =
      (nodes.map Node.normal).intersperse (.text (lineEnds separator)) := by
    induction nodes with
    | nil => rfl
    | cons node rest ih =>
        obtain ⟨hnode, hrest⟩ := List.forall_mem_cons.mp helements
        cases rest with
        | nil =>
            simp only [List.intersperse_singleton, List.map_cons, List.map_nil, join,
              hadd node hnode, mapTextAll, Node.normal]
        | cons next rest =>
            have hnext : (join ((next :: rest).intersperse (.text separator))).head? =
                some next.joined := by
              cases rest with
              | nil => simp only [List.intersperse_singleton, join, hadd next (hrest next (by simp)),
                  List.head?_cons]
              | cons other rest =>
                  simp only [List.intersperse_cons_cons, join, hadd next (hrest next (by simp)),
                    List.head?_cons]
            have htext : ∀ first ∈ (join ((next :: rest).intersperse (.text separator))).head?,
                first.isText = false := by
              rw [hnext]
              rintro first ⟨⟩
              have h := hrest next (by simp)
              cases next with
              | text chars => simp [Node.isText] at h
              | element name attributes children => rfl
            rw [List.intersperse_cons_cons, join, hadd node hnode, join, Node.joined,
              addNode_text hseparator htext, mapTextAll, mapTextAll, ih hrest]
            rfl
  exact congrArg (Node.element name _) hall

/-- A text opens no declaration. -/
def NoDeclaration (cs : List Char) : Prop := ¬ "<!".toList <:+: cs

theorem noDeclaration_plain {cs : List Char} (hcs : '<' ∉ cs) (rest : List Char) :
    NoDeclaration (cs ++ rest) ↔ NoDeclaration rest := by
  induction cs with
  | nil => rfl
  | cons c cs ih =>
      have hc : c ≠ '<' := fun h => hcs (h ▸ List.mem_cons_self)
      have hstart : ¬ "<!".toList <+: c :: (cs ++ rest) := fun h =>
        hc (List.cons_prefix_cons.mp h).1.symm
      have hrest := ih fun h => hcs (List.mem_cons_of_mem _ h)
      rw [NoDeclaration, List.cons_append, List.infix_cons_iff, or_iff_right hstart]
      exact hrest

theorem noDeclaration_open {c : Char} (hc : c ≠ '!') (rest : List Char) :
    NoDeclaration ('<' :: c :: rest) ↔ NoDeclaration (c :: rest) := by
  have hstart : ¬ "<!".toList <+: '<' :: c :: rest := fun h =>
    hc (List.cons_prefix_cons.mp (List.cons_prefix_cons.mp h).2).1.symm
  rw [NoDeclaration, List.infix_cons_iff, or_iff_right hstart]
  rfl

theorem open_not_mem_name {name : List Char} (hname : isName name = true) : '<' ∉ name := by
  obtain ⟨_, _, -, -, hall⟩ := isName_cons hname
  intro hmem
  exact absurd (hall _ hmem) (by decide)

theorem open_not_mem_attributes {attributes : List (List Char × List Char)}
    (hnames : ∀ named ∈ attributes, isName named.1 = true ∧ named.1 ≠ "xmlns".toList) :
    '<' ∉ writeAttributes attributes := by
  intro hmem
  obtain ⟨named, hnamed, hwritten⟩ := List.mem_flatMap.mp hmem
  have hname := open_not_mem_name (hnames named hnamed).1
  have hvalue : '<' ∉ escape named.2 := Markup.escape_safe.1
  simp [writeAttribute, hname, hvalue] at hwritten

mutual

/-- Nothing that is written opens a declaration. -/
theorem noDeclaration_writeAll (nodes : List Node) (hlegal : LegalAll void nodes)
    (rest : List Char) : NoDeclaration (writeAll void nodes ++ rest) ↔ NoDeclaration rest := by
  match nodes with
  | [] => rfl
  | .text chars :: nodes =>
      rw [writeAll, write, List.append_assoc, noDeclaration_plain Markup.escape_safe.1]
      exact noDeclaration_writeAll nodes hlegal.2 rest
  | .element name attributes children :: nodes =>
      rw [writeAll, List.append_assoc, noDeclaration_write name attributes children hlegal.1]
      exact noDeclaration_writeAll nodes hlegal.2 rest
termination_by sizeOf nodes

theorem noDeclaration_write (name : List Char) (attributes : List (List Char × List Char))
    (children : List Node) (hlegal : (Node.element name attributes children).Legal void)
    (rest : List Char) :
    NoDeclaration (write void (.element name attributes children) ++ rest) ↔
      NoDeclaration rest := by
  obtain ⟨htag, -, hchildren⟩ := hlegal
  have hname := open_not_mem_name htag.name
  have hattributes := open_not_mem_attributes htag.names
  obtain ⟨c, letters, hcons, hstart, -⟩ := isName_cons htag.name
  have hc : c ≠ '!' := ne_of_isNameStart hstart rfl
  have hempties : '<' ∉ ['/', '>'] := by decide
  have hcloses : '<' ∉ ['>'] := by decide
  have hslash : '<' ∉ ['/'] := by decide
  have hopen (others : List Char) : NoDeclaration ('<' :: (name ++ others)) ↔
      NoDeclaration (name ++ others) := by
    rw [hcons, List.cons_append, noDeclaration_open hc]
  by_cases hempty : void name = true
  · have hshape : write void (.element name attributes children) ++ rest =
        '<' :: (name ++ (writeAttributes attributes ++ (['/', '>'] ++ rest))) := by
      simp [write, hempty]
    rw [hshape, hopen, noDeclaration_plain hname,
      noDeclaration_plain hattributes, noDeclaration_plain hempties]
  · have hshape : write void (.element name attributes children) ++ rest =
        '<' :: (name ++ (writeAttributes attributes ++ (['>'] ++
          (writeAll void children ++ ('<' :: '/' :: (name ++ (['>'] ++ rest))))))) := by
      simp [write, hempty]
    rw [hshape, hopen, noDeclaration_plain hname,
      noDeclaration_plain hattributes, noDeclaration_plain hcloses,
      noDeclaration_writeAll children hchildren, noDeclaration_open (by decide),
      ← List.singleton_append, noDeclaration_plain hslash,
      noDeclaration_plain hname, noDeclaration_plain hcloses]
termination_by sizeOf children + 1

end

end Codex2Lark.Lib.Xml
