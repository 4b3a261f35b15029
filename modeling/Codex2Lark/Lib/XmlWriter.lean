import Codex2Lark.Lib.Xml

/-!
XML content written out, and read back. Text is written escaped and so cannot end the
character data or the value that it stands in; what is read is what was written, with the
line ends and the white space of values as the grammar has them.
-/

namespace Codex2Lark.Lib.Xml

open Markup (escape escapeChar)

def writeAttribute (named : List Char × List Char) : List Char :=
  ' ' :: (named.1 ++ '=' :: '"' :: (escape named.2 ++ ['"']))

def writeAttributes (attributes : List (List Char × List Char)) : List Char :=
  attributes.flatMap writeAttribute

section Write

variable (void : List Char → Bool)

mutual

/-- The text of a node; an element of a void name is an empty-element tag. -/
def write : Node → List Char
  | .text chars => escape chars
  | .element name attributes children =>
      '<' :: (name ++ (writeAttributes attributes ++
        if void name then ['/', '>']
        else '>' :: (writeAll children ++ '<' :: '/' :: (name ++ ['>']))))

def writeAll : List Node → List Char
  | [] => []
  | node :: rest => write node ++ writeAll rest

end

end Write

def Node.isText : Node → Bool
  | .text _ => true
  | .element .. => false

/-- The names are names and the texts have XML's characters. -/
structure LegalTag (name : List Char) (attributes : List (List Char × List Char)) : Prop where
  name : isName name = true
  nodup : (attributes.map Prod.fst).Nodup
  names : ∀ named ∈ attributes, isName named.1 = true ∧ named.1 ≠ "xmlns".toList
  values : ∀ named ∈ attributes, ∀ c ∈ named.2, isChar c = true

section Proper

variable (void : List Char → Bool)

mutual

/-- The node can be written: a void element has no children. -/
def Node.Legal : Node → Prop
  | .text chars => ∀ c ∈ chars, isChar c = true
  | .element name attributes children =>
      LegalTag name attributes ∧ (void name = true → children = []) ∧ LegalAll children

def LegalAll : List Node → Prop
  | [] => True
  | node :: rest => node.Legal ∧ LegalAll rest

end

mutual

/-- No text is empty or stands beside another text. -/
def Node.Joined : Node → Prop
  | .text chars => chars ≠ []
  | .element _ _ children => JoinedAll children

def JoinedAll : List Node → Prop
  | [] => True
  | node :: rest =>
      node.Joined ∧ (node.isText = true → ∀ next ∈ rest.head?, next.isText = false) ∧
        JoinedAll rest

end

end Proper

mutual

/-- The texts and the values of attributes, changed. -/
def Node.mapText (onText onValue : List Char → List Char) : Node → Node
  | .text chars => .text (onText chars)
  | .element name attributes children =>
      .element name (attributes.map fun named => (named.1, onValue named.2))
        (mapTextAll onText onValue children)

def mapTextAll (onText onValue : List Char → List Char) : List Node → List Node
  | [] => []
  | node :: rest => node.mapText onText onValue :: mapTextAll onText onValue rest

end

/-! ### Names and marks -/

theorem isName_cons {name : List Char} (hname : isName name = true) :
    ∃ c rest, name = c :: rest ∧ isNameStart c = true ∧ ∀ d ∈ name, isNameChar d = true := by
  cases name with
  | nil => cases hname
  | cons c rest =>
      have h : isNameStart c = true ∧ rest.all isNameChar = true := by
        simpa [isName] using hname
      refine ⟨c, rest, rfl, h.1, ?_⟩
      intro d hd
      rcases List.mem_cons.mp hd with rfl | hd
      · simp [isNameChar, h.1]
      · exact List.all_eq_true.mp h.2 d hd

theorem ne_of_isNameStart {c d : Char} (hc : isNameStart c = true) (hd : isNameStart d = false) :
    c ≠ d := by
  rintro rfl
  rw [hc] at hd
  cases hd

/-- A name is read up to the first character that is none of a name. -/
theorem name_append {name rest : List Char} (hname : isName name = true)
    (hrest : ∀ c ∈ rest.head?, isNameChar c = false) :
    (name ++ rest).takeWhile isNameChar = name ∧ (name ++ rest).dropWhile isNameChar = rest := by
  obtain ⟨_, _, -, -, hall⟩ := isName_cons hname
  rw [List.takeWhile_append_of_pos hall, List.dropWhile_append_of_pos hall]
  cases rest with
  | nil => simp
  | cons c rest =>
      have hc : isNameChar c = false := hrest c rfl
      simp [hc]

/-- What comes before the first character of a kind. -/
theorem until_append {raw : List Char} {stop : Char} (hraw : stop ∉ raw) (rest : List Char) :
    (raw ++ stop :: rest).takeWhile (fun c => c ≠ stop) = raw ∧
      (raw ++ stop :: rest).dropWhile (fun c => c ≠ stop) = stop :: rest := by
  have hall : ∀ c ∈ raw, decide (c ≠ stop) = true := by
    intro c hc
    exact decide_eq_true fun h => hraw (h ▸ hc)
  rw [List.takeWhile_append_of_pos hall, List.dropWhile_append_of_pos hall]
  simp

/-! ### Escaped texts -/

/-- The characters that `escape` replaces. -/
def Replaced (c : Char) : Prop := escapeChar c ≠ [c]

theorem decode_escapeChar {change : Char → Char} (hchange : ∀ c, Replaced c → change c = c)
    {c : Char} (hchar : isChar c = true) (rest : List Char) :
    decode change none (escapeChar c ++ rest) = (decode change none rest).map (change c :: ·) := by
  by_cases hreplaced : Replaced c
  · rw [hchange c hreplaced]
    unfold Replaced escapeChar at hreplaced
    unfold escapeChar
    split_ifs at hreplaced ⊢ with hamp hlt hgt hquot hapos
    · subst hamp
      rfl
    · subst hlt
      rfl
    · subst hgt
      rfl
    · subst hquot
      rfl
    · subst hapos
      rfl
    · exact absurd rfl hreplaced
  · have hself : escapeChar c = [c] := by simpa [Replaced] using hreplaced
    have hamp : c ≠ '&' := by
      rintro rfl
      exact absurd hself (by decide)
    rw [hself, List.singleton_append, decode, if_neg hamp, if_pos hchar]

theorem decode_escape {change : Char → Char} (hchange : ∀ c, Replaced c → change c = c)
    {text : List Char} (hlegal : ∀ c ∈ text, isChar c = true) :
    decode change none (escape text) = some (text.map change) := by
  induction text with
  | nil => rfl
  | cons c rest ih =>
      have hrest := ih fun d hd => hlegal d (List.mem_cons_of_mem _ hd)
      have hcons : escape (c :: rest) = escapeChar c ++ escape rest := rfl
      rw [hcons, decode_escapeChar hchange (hlegal c List.mem_cons_self), hrest]
      rfl

theorem spaced_replaced (c : Char) (hreplaced : Replaced c) : spaced c = c := by
  unfold Replaced escapeChar at hreplaced
  split_ifs at hreplaced with hamp hlt hgt hquot hapos
  · subst hamp
    rfl
  · subst hlt
    rfl
  · subst hgt
    rfl
  · subst hquot
    rfl
  · subst hapos
    rfl
  · exact absurd rfl hreplaced

theorem breakAt_of_not_mem {mark cs : List Char} {c : Char} (hmark : c ∈ mark) (hcs : c ∉ cs) :
    breakAt mark cs = none := by
  induction cs with
  | nil => rfl
  | cons d rest ih =>
      have hstart : ¬ mark <+: d :: rest := fun h => hcs (h.subset hmark)
      rw [breakAt, if_neg hstart, ih fun h => hcs (List.mem_cons_of_mem _ h)]
      rfl

theorem readText_escape {text : List Char} (hlegal : ∀ c ∈ text, isChar c = true) :
    readText (escape text) = some text := by
  have hend : breakAt "]]>".toList (escape text) = none :=
    breakAt_of_not_mem (c := '>') (by decide) Markup.escape_safe.2.1
  have hdecode : decode id none (escape text) = some (text.map id) :=
    decode_escape (fun _ _ => rfl) hlegal
  rw [readText, hend, hdecode, List.map_id]
  rfl

/-! ### Attributes -/

theorem readAttribute_write {name value : List Char} (hname : isName name = true)
    (hxmlns : name ≠ "xmlns".toList) (hvalue : ∀ c ∈ value, isChar c = true) (rest : List Char) :
    readAttribute (name ++ '=' :: '"' :: (escape value ++ '"' :: rest)) =
      some ((name, value.map spaced), rest) := by
  have hnext : ∀ c ∈ ('=' :: '"' :: (escape value ++ '"' :: rest)).head?,
      isNameChar c = false := by
    rintro c ⟨⟩
    rfl
  have hsplit := name_append hname hnext
  have hquotes : '"' ∉ escape value := Markup.escape_safe.2.2
  have hraw := until_append hquotes rest
  have hdecode := decode_escape spaced_replaced hvalue
  have hopen : '<' ∉ escape value := Markup.escape_safe.1
  have hsign : ('=' :: '"' :: (escape value ++ '"' :: rest)).dropWhile isSpace =
      '=' :: '"' :: (escape value ++ '"' :: rest) := rfl
  have hquoted : ('"' :: (escape value ++ '"' :: rest)).dropWhile isSpace =
      '"' :: (escape value ++ '"' :: rest) := rfl
  simp only [readAttribute, hsplit.1, hsplit.2, hsign, List.tail_cons, hquoted, List.headD_cons,
    hraw.1, hraw.2, hdecode, Option.map_some]
  rw [if_pos]
  exact ⟨hname, hxmlns, rfl, .inl trivial, List.cons_ne_nil _ _, hopen⟩

/-- The tags' ends, by whether the element is empty. -/
def tagEnd (empty : Bool) : List Char := if empty then ['/', '>'] else ['>']

theorem readAttributes_write {attributes : List (List Char × List Char)}
    (hnames : ∀ named ∈ attributes, isName named.1 = true ∧ named.1 ≠ "xmlns".toList)
    (hvalues : ∀ named ∈ attributes, ∀ c ∈ named.2, isChar c = true) (empty : Bool)
    (rest : List Char) {fuel : Nat} (hfuel : attributes.length < fuel) :
    readAttributes fuel (writeAttributes attributes ++ (tagEnd empty ++ rest)) =
      some (attributes.map (fun named => (named.1, named.2.map spaced)), empty, rest) := by
  induction attributes generalizing fuel with
  | nil =>
      obtain ⟨fuel, rfl⟩ := Nat.exists_eq_succ_of_ne_zero (Nat.ne_zero_of_lt hfuel)
      cases empty <;> rfl
  | cons named attributes ih =>
      obtain ⟨fuel, rfl⟩ := Nat.exists_eq_succ_of_ne_zero (Nat.ne_zero_of_lt hfuel)
      obtain ⟨hnamed, hrest⟩ := List.forall_mem_cons.mp hnames
      obtain ⟨hvalue, hothers⟩ := List.forall_mem_cons.mp hvalues
      have htail := ih hrest hothers (by simpa using hfuel)
      obtain ⟨c, letters, hname, hstart, -⟩ := isName_cons hnamed.1
      have hbody : writeAttributes (named :: attributes) ++ (tagEnd empty ++ rest) =
          ' ' :: (named.1 ++ '=' :: '"' :: (escape named.2 ++ '"' ::
            (writeAttributes attributes ++ (tagEnd empty ++ rest)))) := by
        simp [writeAttributes, writeAttribute]
      have hread := readAttribute_write hnamed.1 hnamed.2 hvalue
        (writeAttributes attributes ++ (tagEnd empty ++ rest))
      have hspace : isSpace c = false := by
        have hne : ∀ d, isNameStart d = false → c ≠ d := fun d => ne_of_isNameStart hstart
        simp [isSpace, hne ' ' rfl, hne '\t' rfl, hne '\n' rfl, hne '\r' rfl]
      have hclose : c ≠ '>' := ne_of_isNameStart hstart rfl
      have hslash : '/' ≠ c := (ne_of_isNameStart hstart rfl).symm
      have hdrop : (' ' :: (named.1 ++ '=' :: '"' :: (escape named.2 ++ '"' ::
            (writeAttributes attributes ++ (tagEnd empty ++ rest))))).dropWhile isSpace =
          named.1 ++ '=' :: '"' :: (escape named.2 ++ '"' ::
            (writeAttributes attributes ++ (tagEnd empty ++ rest))) := by
        rw [hname]
        simp [hspace, show isSpace ' ' = true from rfl]
      have hnotEnd : (named.1 ++ '=' :: '"' :: (escape named.2 ++ '"' ::
          (writeAttributes attributes ++ (tagEnd empty ++ rest)))).head? ≠ some '>' := by
        rw [hname]
        simpa using hclose
      have hnotEmpty : ¬ "/>".toList <+: named.1 ++ '=' :: '"' :: (escape named.2 ++ '"' ::
          (writeAttributes attributes ++ (tagEnd empty ++ rest))) := by
        rw [hname, List.cons_append]
        exact fun h => hslash (List.cons_prefix_cons.mp h).1
      have hspaced : (' ' :: (named.1 ++ '=' :: '"' :: (escape named.2 ++ '"' ::
          (writeAttributes attributes ++ (tagEnd empty ++ rest))))).head?.any isSpace = true := rfl
      rw [hbody, readAttributes, hdrop, if_neg hnotEnd, if_neg hnotEmpty, if_pos hspaced, hread]
      simp only [htail, Option.map_some, List.map_cons]

/-! ### Content -/

/-- A text stops here: at markup or at the end. -/
def AtMarkup (cs : List Char) : Prop := ∀ c ∈ cs.head?, c = '<'

variable {void : List Char → Bool}

theorem escape_cons_head (c : Char) (rest : List Char) :
    ∃ d more, escape (c :: rest) = d :: more ∧ d ≠ '<' := by
  have hne : escapeChar c ≠ [] := by
    unfold escapeChar
    split_ifs <;> simp
  obtain ⟨d, more, hhead⟩ := List.exists_cons_of_ne_nil hne
  refine ⟨d, more ++ escape rest, ?_, ?_⟩
  · calc escape (c :: rest) = escapeChar c ++ escape rest := rfl
      _ = d :: (more ++ escape rest) := by rw [hhead, List.cons_append]
  · rintro rfl
    have hmem : '<' ∈ escape [c] := by simp [escape, hhead]
    exact Markup.escape_safe.1 hmem

theorem readContent_text {chars rest : List Char} (hchars : chars ≠ [])
    (hlegal : ∀ c ∈ chars, isChar c = true) (hrest : AtMarkup rest) (fuel : Nat) :
    readContent (fuel + 1) (escape chars ++ rest) =
      (readContent fuel rest).map fun found => (addNode (.text chars) found.1, found.2) := by
  obtain ⟨c, more, rfl⟩ := List.exists_cons_of_ne_nil hchars
  obtain ⟨d, tail, hescape, hd⟩ := escape_cons_head c more
  have hopen : ∀ mark, ¬ '<' :: mark <+: escape (c :: more) ++ rest := by
    intro mark h
    rw [hescape, List.cons_append] at h
    exact hd (List.cons_prefix_cons.mp h).1.symm
  have hnil : escape (c :: more) ++ rest ≠ [] := by
    rw [hescape]
    exact List.cons_ne_nil _ _
  have hhead : (escape (c :: more) ++ rest).head? ≠ some '<' := by
    rw [hescape]
    simpa using hd
  have hall : ∀ d ∈ escape (c :: more), decide (d ≠ '<') = true := by
    intro d hmem
    exact decide_eq_true fun h => Markup.escape_safe.1 (h ▸ hmem)
  have hraw : (escape (c :: more) ++ rest).takeWhile (fun c => c ≠ '<') = escape (c :: more) ∧
      (escape (c :: more) ++ rest).dropWhile (fun c => c ≠ '<') = rest := by
    rw [List.takeWhile_append_of_pos hall, List.dropWhile_append_of_pos hall]
    cases rest with
    | nil => simp
    | cons e rest =>
        obtain rfl : e = '<' := hrest e rfl
        simp
  have hclose : ¬ "</".toList <+: escape (c :: more) ++ rest := hopen ['/']
  have hdeclared : ¬ "<!".toList <+: escape (c :: more) ++ rest := hopen ['!']
  have hinstruction : ¬ "<?".toList <+: escape (c :: more) ++ rest := hopen ['?']
  rw [readContent, if_neg fun h => h.elim hnil hclose, if_neg hdeclared, if_neg hinstruction,
    if_neg hhead, hraw.1, hraw.2, readText_escape hlegal]

theorem readContent_element {c : Char} (hstart : isNameStart c = true) (rest : List Char)
    (fuel : Nat) :
    readContent (fuel + 1) ('<' :: c :: rest) =
      match readElement fuel (c :: rest) with
      | some (node, after) =>
          (readContent fuel after).map fun found => (addNode node found.1, found.2)
      | none => none := by
  have hmark : ∀ d, isNameStart d = false → ∀ mark, ¬ '<' :: d :: mark <+: '<' :: c :: rest := by
    intro d hd mark h
    have hsecond := (List.cons_prefix_cons.mp (List.cons_prefix_cons.mp h).2).1
    exact ne_of_isNameStart hstart hd hsecond.symm
  have hclose : ¬ "</".toList <+: '<' :: c :: rest := hmark '/' rfl []
  have hdeclared : ¬ "<!".toList <+: '<' :: c :: rest := hmark '!' rfl []
  have hinstruction : ¬ "<?".toList <+: '<' :: c :: rest := hmark '?' rfl []
  have hhead : ('<' :: c :: rest).head? = some '<' := rfl
  rw [readContent, if_neg fun h => h.elim (List.cons_ne_nil _ _) hclose, if_neg hdeclared,
    if_neg hinstruction, if_pos hhead]
  rfl

theorem readContent_end {rest : List Char} (hrest : rest = [] ∨ "</".toList <+: rest)
    (fuel : Nat) : readContent (fuel + 1) rest = some ([], rest) := by
  rw [readContent, if_pos hrest]

theorem length_writeAttributes (attributes : List (List Char × List Char)) :
    attributes.length ≤ (writeAttributes attributes).length := by
  induction attributes with
  | nil => exact Nat.le_refl _
  | cons named rest ih =>
      have hcons : writeAttributes (named :: rest) = writeAttribute named ++ writeAttributes rest :=
        rfl
      have hone : 1 ≤ (writeAttribute named).length := by simp [writeAttribute]
      rw [hcons, List.length_append, List.length_cons]
      omega

/-- The start tag of an element, up to its content. -/
theorem readElement_start {name : List Char} {attributes : List (List Char × List Char)}
    (hlegal : LegalTag name attributes) (empty : Bool) (rest : List Char) :
    let cs := name ++ (writeAttributes attributes ++ (tagEnd empty ++ rest))
    cs.takeWhile isNameChar = name ∧
      readAttributes (cs.length + 1) (cs.dropWhile isNameChar) =
        some (attributes.map (fun named => (named.1, named.2.map spaced)), empty, rest) := by
  intro cs
  have hnext : ∀ c ∈ (writeAttributes attributes ++ (tagEnd empty ++ rest)).head?,
      isNameChar c = false := by
    cases attributes with
    | nil =>
        cases empty <;> rintro c ⟨⟩ <;> rfl
    | cons named attributes =>
        rintro c ⟨⟩
        rfl
  have hname := name_append hlegal.name hnext
  have hlength : attributes.length < cs.length + 1 := by
    have hattributes := length_writeAttributes attributes
    simp only [cs, List.length_append]
    omega
  refine ⟨hname.1, ?_⟩
  rw [hname.2]
  exact readAttributes_write hlegal.names hlegal.values empty rest hlength

/-- The end tag of an element. -/
theorem end_tag {name : List Char} (hname : isName name = true) (rest : List Char) :
    (name ++ '>' :: rest).takeWhile isNameChar = name ∧
      ((name ++ '>' :: rest).dropWhile isNameChar).dropWhile isSpace = '>' :: rest := by
  have hnext : ∀ c ∈ ('>' :: rest).head?, isNameChar c = false := by
    rintro c ⟨⟩
    rfl
  have h := name_append hname hnext
  refine ⟨h.1, ?_⟩
  rw [h.2]
  rfl

variable (void) in
theorem atMarkup_writeAll {nodes : List Node} {rest : List Char}
    (hfirst : ∀ next ∈ nodes.head?, next.isText = false)
    (hrest : rest = [] ∨ "</".toList <+: rest) : AtMarkup (writeAll void nodes ++ rest) := by
  cases nodes with
  | nil =>
      rcases hrest with rfl | ⟨tail, rfl⟩
      · exact nofun
      · rintro c ⟨⟩
        rfl
  | cons node nodes =>
      cases node with
      | text chars => exact absurd (hfirst _ rfl) (by simp [Node.isText])
      | element name attributes children =>
          rintro c ⟨⟩
          rfl

theorem addNode_text {chars : List Char} {nodes : List Node} (hchars : chars ≠ [])
    (hfirst : ∀ next ∈ nodes.head?, next.isText = false) :
    addNode (.text chars) nodes = .text chars :: nodes := by
  obtain ⟨c, rest, rfl⟩ := List.exists_cons_of_ne_nil hchars
  cases nodes with
  | nil => rfl
  | cons next nodes =>
      cases next with
      | text more => exact absurd (hfirst _ rfl) (by simp [Node.isText])
      | element name attributes children => rfl

@[simp] theorem isText_mapText (onText onValue : List Char → List Char) (node : Node) :
    (node.mapText onText onValue).isText = node.isText := by
  cases node <;> rfl

theorem head_mapTextAll {onText onValue : List Char → List Char} {nodes : List Node}
    (hfirst : ∀ next ∈ nodes.head?, next.isText = false) :
    ∀ next ∈ (mapTextAll onText onValue nodes).head?, next.isText = false := by
  cases nodes with
  | nil => exact nofun
  | cons node nodes =>
      rintro next ⟨⟩
      rw [isText_mapText]
      exact hfirst node rfl

/-- The value of an attribute as it is read. -/
def spacedValue (value : List Char) : List Char := value.map spaced

mutual

/-- Joined content is read back node by node. -/
theorem readContent_write (nodes : List Node) (hlegal : LegalAll void nodes)
    (hjoined : JoinedAll nodes) (rest : List Char) (hrest : rest = [] ∨ "</".toList <+: rest)
    (fuel : Nat) (hfuel : (writeAll void nodes).length < fuel) :
    readContent fuel (writeAll void nodes ++ rest) =
      some (mapTextAll id spacedValue nodes, rest) := by
  match nodes, fuel, hfuel with
  | [], fuel + 1, _ => exact readContent_end hrest fuel
  | .text chars :: nodes, fuel + 1, hfuel =>
      obtain ⟨hchars, hnodes⟩ := hlegal
      obtain ⟨hnonempty, hnext, hothers⟩ := hjoined
      have hnext : ∀ next ∈ nodes.head?, next.isText = false := hnext rfl
      obtain ⟨c, more, hescape, -⟩ : ∃ d more, escape chars = d :: more ∧ d ≠ '<' := by
        obtain ⟨c, tail, rfl⟩ := List.exists_cons_of_ne_nil hnonempty
        exact escape_cons_head c tail
      have hlength : (writeAll void nodes).length < fuel := by
        simp only [writeAll, write, hescape, List.length_append, List.length_cons] at hfuel
        omega
      have hread := readContent_write nodes hnodes hothers rest hrest fuel hlength
      have hmarkup := atMarkup_writeAll void hnext hrest
      rw [writeAll, write, List.append_assoc, readContent_text hnonempty hchars hmarkup, hread]
      simp only [Option.map_some, mapTextAll, Node.mapText, id,
        addNode_text hnonempty (head_mapTextAll hnext)]
  | .element name attributes children :: nodes, fuel + 1, hfuel =>
      obtain ⟨helement, hnodes⟩ := hlegal
      obtain ⟨hchildren, -, hothers⟩ := hjoined
      obtain ⟨c, letters, hname, hstart, -⟩ := isName_cons helement.1.name
      have hlengths : (write void (.element name attributes children)).length ≤ fuel ∧
          (writeAll void nodes).length < fuel := by
        have hpositive : 2 ≤ (write void (.element name attributes children)).length := by
          simp only [write, hname, List.length_cons, List.length_append]
          omega
        rw [writeAll, List.length_append] at hfuel
        omega
      have hread := readContent_write nodes hnodes hothers rest hrest fuel hlengths.2
      have htag := readElement_write name attributes children helement hchildren
        (writeAll void nodes ++ rest) fuel hlengths.1
      have hwritten : write void (.element name attributes children) =
          '<' :: (write void (.element name attributes children)).tail := rfl
      have hhead : (write void (.element name attributes children)).tail =
          c :: (write void (.element name attributes children)).tail.tail := by
        simp only [write, hname, List.tail_cons, List.cons_append]
      rw [writeAll, List.append_assoc, hwritten, hhead, List.cons_append, List.cons_append,
        readContent_element hstart, ← List.cons_append, ← hhead, htag]
      simp only [hread, Option.map_some, mapTextAll]
      rfl

/-- An element is read back from its tags. -/
theorem readElement_write (name : List Char) (attributes : List (List Char × List Char))
    (children : List Node) (hlegal : (Node.element name attributes children).Legal void)
    (hjoined : JoinedAll children) (rest : List Char) (fuel : Nat)
    (hfuel : (write void (.element name attributes children)).length ≤ fuel) :
    readElement fuel ((write void (.element name attributes children)).tail ++ rest) =
      some ((Node.element name attributes children).mapText id spacedValue, rest) := by
  obtain ⟨htag, hvoid, hchildren⟩ := hlegal
  match fuel, hfuel with
  | fuel + 1, hfuel =>
      have hnodup : ((attributes.map fun named => (named.1, named.2.map spaced)).map
          Prod.fst).Nodup := by
        rw [List.map_map]
        exact htag.nodup
      by_cases hempty : void name = true
      · obtain rfl := hvoid hempty
        have hshape : (write void (.element name attributes [])).tail ++ rest =
            name ++ (writeAttributes attributes ++ (tagEnd true ++ rest)) := by
          simp [write, hempty, tagEnd]
        obtain ⟨hname, hread⟩ := readElement_start htag true rest
        rw [hshape, readElement]
        simp only [hname, hread]
        rw [if_pos ⟨htag.name, hnodup⟩]
        rfl
      · have hshape : (write void (.element name attributes children)).tail ++ rest =
            name ++ (writeAttributes attributes ++ (tagEnd false ++
              (writeAll void children ++ ('<' :: '/' :: (name ++ '>' :: rest))))) := by
          simp [write, hempty, tagEnd]
        have hlength : (writeAll void children).length < fuel := by
          simp only [write, hempty, List.length_cons, List.length_append] at hfuel
          simp at hfuel
          omega
        have hcontent := readContent_write children hchildren hjoined
          ('<' :: '/' :: (name ++ '>' :: rest)) (.inr ⟨_, rfl⟩) fuel hlength
        obtain ⟨hname, hread⟩ := readElement_start htag false
          (writeAll void children ++ ('<' :: '/' :: (name ++ '>' :: rest)))
        obtain ⟨hclose, hleft⟩ := end_tag htag.name rest
        have hopen : "</".toList <+: '<' :: '/' :: (name ++ '>' :: rest) := ⟨_, rfl⟩
        rw [hshape, readElement]
        simp only [hname, hread, hcontent, Bool.false_eq_true, if_false]
        rw [if_pos ⟨htag.name, hnodup⟩]
        simp only [List.drop_succ_cons, List.drop_zero, hclose, hleft, hopen, List.head?_cons,
          List.tail_cons, and_self, if_true]
        rfl

end

end Codex2Lark.Lib.Xml
