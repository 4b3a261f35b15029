import Mathlib.Data.List.Basic
import Codex2Lark.Lib.Markup

/-!
The content of an XML 1.0 document, read and written. The reader follows the grammar of
elements, attributes, character data, references, comments, CDATA sections and processing
instructions. Namespaces are not read: no name has a colon and no attribute is `xmlns`.
-/

namespace Codex2Lark.Lib.Xml

/-- Character data and elements. -/
inductive Node where
  | text (chars : List Char)
  | element (name : List Char) (attributes : List (List Char × List Char)) (children : List Node)

/-! ### Characters -/

/-- `Char`. -/
def isChar (c : Char) : Bool :=
  let n := c.toNat
  n = 9 || n = 10 || n = 13 || (32 ≤ n && n ≤ 0xD7FF) || (0xE000 ≤ n && n ≤ 0xFFFD) || 0x10000 ≤ n

/-- `S`. -/
def isSpace (c : Char) : Bool := c = ' ' || c = '\t' || c = '\n' || c = '\r'

/-- `NameStartChar`, without the colon. -/
def isNameStart (c : Char) : Bool :=
  let n := c.toNat
  c.isAlpha || c = '_' || (0xC0 ≤ n && n ≤ 0xD6) || (0xD8 ≤ n && n ≤ 0xF6) ||
    (0xF8 ≤ n && n ≤ 0x2FF) || (0x370 ≤ n && n ≤ 0x37D) || (0x37F ≤ n && n ≤ 0x1FFF) ||
    (0x200C ≤ n && n ≤ 0x200D) || (0x2070 ≤ n && n ≤ 0x218F) || (0x2C00 ≤ n && n ≤ 0x2FEF) ||
    (0x3001 ≤ n && n ≤ 0xD7FF) || (0xF900 ≤ n && n ≤ 0xFDCF) || (0xFDF0 ≤ n && n ≤ 0xFFFD) ||
    (0x10000 ≤ n && n ≤ 0xEFFFF)

/-- `NameChar`, without the colon. -/
def isNameChar (c : Char) : Bool :=
  let n := c.toNat
  isNameStart c || c.isDigit || c = '-' || c = '.' || n = 0xB7 || (0x300 ≤ n && n ≤ 0x36F) ||
    (0x203F ≤ n && n ≤ 0x2040)

def isName : List Char → Bool
  | [] => false
  | c :: rest => isNameStart c && rest.all isNameChar

/-- The line ends of the input, each as one line feed. -/
def lineEnds : List Char → List Char
  | '\r' :: '\n' :: rest => '\n' :: lineEnds rest
  | c :: rest => (if c = '\r' then '\n' else c) :: lineEnds rest
  | [] => []

/-- White space in the value of an attribute. -/
def spaced (c : Char) : Char := if isSpace c then ' ' else c

/-! ### References -/

def hexValue (c : Char) : Option Nat :=
  let n := c.toNat
  if 48 ≤ n ∧ n ≤ 57 then some (n - 48)
  else if 97 ≤ n ∧ n ≤ 102 then some (n - 87)
  else if 65 ≤ n ∧ n ≤ 70 then some (n - 55)
  else none

/-- The number that the digits write in the base. -/
def digitsValue (base : Nat) (digits : List Char) : Option Nat :=
  digits.foldlM (fun value c =>
    (hexValue c).bind fun digit => if digit < base then some (base * value + digit) else none) 0

/-- `CharRef` of the digits. -/
def charReference (base : Nat) (digits : List Char) : Option Char :=
  if digits = [] then none
  else
    (digitsValue base digits).bind fun n =>
      if n.isValidChar ∧ isChar (Char.ofNat n) then some (Char.ofNat n) else none

def entities : List (List Char × Char) :=
  [("amp".toList, '&'), ("lt".toList, '<'), ("gt".toList, '>'), ("quot".toList, '"'),
    ("apos".toList, Char.ofNat 39)]

/-- What stands between `&` and `;`. -/
def reference (name : List Char) : Option Char :=
  match entities.find? fun entity => entity.1 = name with
  | some entity => some entity.2
  | none =>
      match name with
      | '#' :: 'x' :: digits => charReference 16 digits
      | '#' :: digits => charReference 10 digits
      | _ => none

/-- Characters and references, with the reference that is being read. The change applies
to the characters that stand for themselves. -/
def decode (change : Char → Char) : Option (List Char) → List Char → Option (List Char)
  | none, [] => some []
  | some _, [] => none
  | none, c :: rest =>
      if c = '&' then decode change (some []) rest
      else if isChar c then (decode change none rest).map (change c :: ·)
      else none
  | some name, c :: rest =>
      if c = ';' then
        match reference name with
        | some char => (decode change none rest).map (char :: ·)
        | none => none
      else decode change (some (name ++ [c])) rest

/-- What comes before a mark, and what comes after it. -/
def breakAt (mark : List Char) : List Char → Option (List Char × List Char)
  | [] => none
  | c :: rest =>
      if mark <+: c :: rest then some ([], (c :: rest).drop mark.length)
      else (breakAt mark rest).map fun found => (c :: found.1, found.2)

/-- `CharData` and references: no CDATA section ends in it. -/
def readText (raw : List Char) : Option (List Char) :=
  if (breakAt "]]>".toList raw).isSome then none else decode id none raw

/-! ### Attributes -/

/-- `Attribute`: its name, its value and what comes after it. -/
def readAttribute (cs : List Char) : Option ((List Char × List Char) × List Char) :=
  let name := cs.takeWhile isNameChar
  let sign := (cs.dropWhile isNameChar).dropWhile isSpace
  let quoted := sign.tail.dropWhile isSpace
  let quote := quoted.headD ' '
  let raw := quoted.tail.takeWhile fun c => c ≠ quote
  let after := quoted.tail.dropWhile fun c => c ≠ quote
  if isName name ∧ name ≠ "xmlns".toList ∧ sign.head? = some '=' ∧
      (quote = '"' ∨ quote = Char.ofNat 39) ∧ after ≠ [] ∧ '<' ∉ raw then
    (decode spaced none raw).map fun value => ((name, value), after.tail)
  else none

/-- The attributes of a tag up to its end, and whether it ends as an empty element. -/
def readAttributes : Nat → List Char → Option (List (List Char × List Char) × Bool × List Char)
  | 0, _ => none
  | fuel + 1, cs =>
      let body := cs.dropWhile isSpace
      if body.head? = some '>' then some ([], false, body.tail)
      else if "/>".toList <+: body then some ([], true, body.drop 2)
      else if cs.head?.any isSpace then
        match readAttribute body with
        | some (value, after) =>
            (readAttributes fuel after).map fun found => (value :: found.1, found.2)
        | none => none
      else none

/-! ### Content -/

/-- A comment or a CDATA section after `<!`: the character data in it. -/
def readDeclared (cs : List Char) : Option (List Char × List Char) :=
  if "--".toList <+: cs then
    match breakAt "--".toList (cs.drop 2) with
    | some (body, '>' :: after) => if body.all isChar then some ([], after) else none
    | _ => none
  else if "[CDATA[".toList <+: cs then
    match breakAt "]]>".toList (cs.drop 7) with
    | some (body, after) => if body.all isChar then some (body, after) else none
    | none => none
  else none

/-- A processing instruction after `<?`. -/
def readInstruction (cs : List Char) : Option (List Char) :=
  match breakAt "?>".toList cs with
  | some (body, after) =>
      let target := body.takeWhile isNameChar
      if isName target ∧ target.map Char.toLower ≠ "xml".toList ∧ body.all isChar ∧
          (body.dropWhile isNameChar).head?.all isSpace then some after
      else none
  | none => none

/-- Character data joins the character data after it. -/
def addNode : Node → List Node → List Node
  | .text [], nodes => nodes
  | .text chars, .text more :: rest => .text (chars ++ more) :: rest
  | node, nodes => node :: nodes

mutual

/-- `content`, up to an end tag or the end of the text. -/
def readContent : Nat → List Char → Option (List Node × List Char)
  | 0, _ => none
  | fuel + 1, cs =>
      if cs = [] ∨ "</".toList <+: cs then some ([], cs)
      else if "<!".toList <+: cs then
        match readDeclared (cs.drop 2) with
        | some (chars, after) =>
            (readContent fuel after).map fun found => (addNode (.text chars) found.1, found.2)
        | none => none
      else if "<?".toList <+: cs then
        match readInstruction (cs.drop 2) with
        | some after => readContent fuel after
        | none => none
      else if cs.head? = some '<' then
        match readElement fuel cs.tail with
        | some (node, after) =>
            (readContent fuel after).map fun found => (addNode node found.1, found.2)
        | none => none
      else
        match readText (cs.takeWhile fun c => c ≠ '<') with
        | some chars =>
            (readContent fuel (cs.dropWhile fun c => c ≠ '<')).map fun found =>
              (addNode (.text chars) found.1, found.2)
        | none => none

/-- `element`, after its `<`. -/
def readElement : Nat → List Char → Option (Node × List Char)
  | 0, _ => none
  | fuel + 1, cs =>
      let name := cs.takeWhile isNameChar
      match readAttributes (cs.length + 1) (cs.dropWhile isNameChar) with
      | some (attributes, empty, after) =>
          if isName name ∧ (attributes.map Prod.fst).Nodup then
            if empty then some (.element name attributes [], after)
            else
              match readContent fuel after with
              | some (children, tail) =>
                  let close := tail.drop 2
                  let left := (close.dropWhile isNameChar).dropWhile isSpace
                  if "</".toList <+: tail ∧ close.takeWhile isNameChar = name ∧
                      left.head? = some '>' then
                    some (.element name attributes children, left.tail)
                  else none
              | none => none
          else none
      | none => none

end

/-- A document that is one element. -/
def document (cs : List Char) : Option Node :=
  let input := (lineEnds cs).dropWhile isSpace
  if input.head? = some '<' then
    match readElement (input.length + 1) input.tail with
    | some (node, after) => if after.all isSpace then some node else none
    | none => none
  else none

end Codex2Lark.Lib.Xml
