import Mathlib.Data.List.Sort
import Mathlib.Algebra.Group.Nat.Defs

/-!
JSON values and `json.dumps` as the runtime calls it: `ensure_ascii=False` and
`sort_keys=True`, with the default or the compact separators.
-/

namespace Codex2Lark

/-- A JSON value. A float is kept as the text Python prints for it. -/
inductive Json where
  | null
  | bool (value : Bool)
  | int (value : Int)
  | float (shown : String)
  | str (value : String)
  | arr (items : List Json)
  | obj (fields : List (String × Json))
deriving Repr, Inhabited

namespace Json

mutual
def decEq : (a b : Json) → Decidable (a = b)
  | .null, .null => isTrue rfl
  | .bool a, .bool b => decidable_of_iff (a = b) (by simp)
  | .int a, .int b => decidable_of_iff (a = b) (by simp)
  | .float a, .float b => decidable_of_iff (a = b) (by simp)
  | .str a, .str b => decidable_of_iff (a = b) (by simp)
  | .arr a, .arr b => @decidable_of_iff _ (a = b) (by simp) (decEqItems a b)
  | .obj a, .obj b => @decidable_of_iff _ (a = b) (by simp) (decEqFields a b)
  | .null, .bool _ | .null, .int _ | .null, .float _ | .null, .str _ | .null, .arr _
  | .null, .obj _ | .bool _, .null | .bool _, .int _ | .bool _, .float _ | .bool _, .str _
  | .bool _, .arr _ | .bool _, .obj _ | .int _, .null | .int _, .bool _ | .int _, .float _
  | .int _, .str _ | .int _, .arr _ | .int _, .obj _ | .float _, .null | .float _, .bool _
  | .float _, .int _ | .float _, .str _ | .float _, .arr _ | .float _, .obj _ | .str _, .null
  | .str _, .bool _ | .str _, .int _ | .str _, .float _ | .str _, .arr _ | .str _, .obj _
  | .arr _, .null | .arr _, .bool _ | .arr _, .int _ | .arr _, .float _ | .arr _, .str _
  | .arr _, .obj _ | .obj _, .null | .obj _, .bool _ | .obj _, .int _ | .obj _, .float _
  | .obj _, .str _ | .obj _, .arr _ => isFalse nofun
def decEqItems : (a b : List Json) → Decidable (a = b)
  | [], [] => isTrue rfl
  | x :: xs, y :: ys =>
      @decidable_of_iff _ (x = y ∧ xs = ys) (by simp)
        (@instDecidableAnd _ _ (decEq x y) (decEqItems xs ys))
  | [], _ :: _ | _ :: _, [] => isFalse nofun
def decEqFields : (a b : List (String × Json)) → Decidable (a = b)
  | [], [] => isTrue rfl
  | (k, x) :: xs, (l, y) :: ys =>
      @decidable_of_iff _ (k = l ∧ x = y ∧ xs = ys) (by simp [and_assoc])
        (@instDecidableAnd _ _ inferInstance
          (@instDecidableAnd _ _ (decEq x y) (decEqFields xs ys)))
  | [], _ :: _ | _ :: _, [] => isFalse nofun
end
instance : DecidableEq Json := decEq

private def hexDigit (n : Nat) : Char :=
  if n < 10 then Char.ofNat (48 + n) else Char.ofNat (87 + n)

def escapeChar (c : Char) : List Char :=
  if c = '"' then ['\\', '"']
  else if c = '\\' then ['\\', '\\']
  else if c.toNat = 8 then ['\\', 'b']
  else if c.toNat = 9 then ['\\', 't']
  else if c.toNat = 10 then ['\\', 'n']
  else if c.toNat = 12 then ['\\', 'f']
  else if c.toNat = 13 then ['\\', 'r']
  else if c.toNat < 32 then
    ['\\', 'u', '0', '0', hexDigit (c.toNat / 16), hexDigit (c.toNat % 16)]
  else [c]

def quote (s : String) : String :=
  "\"" ++ String.ofList (s.toList.flatMap escapeChar) ++ "\""

/-- The `separators` argument. -/
structure Separators where
  item : String := ", "
  key : String := ": "

def compact : Separators := ⟨",", ":"⟩

def objectText (sep : Separators) (fields : List (String × String)) : String :=
  let sorted := fields.insertionSort (fun a b => a.1 ≤ b.1)
  "\x7b" ++ sep.item.intercalate (sorted.map fun e => quote e.1 ++ sep.key ++ e.2) ++ "\x7d"

mutual

def dumps (sep : Separators) : Json → String
  | .null => "null"
  | .bool b => if b then "true" else "false"
  | .int n => toString n
  | .float shown => shown
  | .str s => quote s
  | .arr items => "[" ++ sep.item.intercalate (dumpsItems sep items) ++ "]"
  | .obj fields => objectText sep (dumpsFields sep fields)

def dumpsItems (sep : Separators) : List Json → List String
  | [] => []
  | item :: rest => dumps sep item :: dumpsItems sep rest

def dumpsFields (sep : Separators) : List (String × Json) → List (String × String)
  | [] => []
  | (key, value) :: rest => (key, dumps sep value) :: dumpsFields sep rest

end

/-- The escape of one character under `ensure_ascii`: a surrogate pair above U+FFFF. -/
def asciiChar (c : Char) : List Char :=
  let unit (n : Nat) : List Char :=
    ['\\', 'u', hexDigit (n / 4096), hexDigit (n / 256 % 16), hexDigit (n / 16 % 16),
      hexDigit (n % 16)]
  if c.toNat < 128 then [c]
  else if c.toNat < 65536 then unit c.toNat
  else unit (55296 + (c.toNat - 65536) / 1024) ++ unit (56320 + (c.toNat - 65536) % 1024)

/-- `json.dumps` with its default `ensure_ascii=True`. -/
def dumpsAscii (sep : Separators) (value : Json) : String :=
  String.ofList ((dumps sep value).toList.flatMap asciiChar)

/-- `value.get(key)` on a decoded object. -/
def field? (fields : List (String × Json)) (key : String) : Option Json :=
  (fields.find? fun e => e.1 = key).map Prod.snd

/-! ### Equality -/

def decimal (digits : List Char) : Nat := digits.foldl (fun n c => 10 * n + (c.toNat - 48)) 0

/-- The double nearest to `n`, ties to even. -/
def nearestDouble (n : Nat) : Nat :=
  let ulp := 2 ^ (n.log2 - 52)
  let kept := n / ulp
  let rest := n % ulp
  (if ulp < 2 * rest ∨ 2 * rest = ulp ∧ kept % 2 = 1 then kept + 1 else kept) * ulp

/-- The integer that a printed float equals. From `1e+16` on Python prints an exponent,
and the digits need not be those of the double. -/
def wholeFloat (shown : String) : Option Int :=
  let negative := shown.toList.head? = some '-'
  let body := if negative then shown.toList.tail else shown.toList
  let mantissa := body.takeWhile fun c => c ≠ 'e'
  let exponent := (body.dropWhile fun c => c ≠ 'e').tail
  let whole := mantissa.takeWhile fun c => c ≠ '.'
  let fraction := (mantissa.dropWhile fun c => c ≠ '.').tail
  let magnitude : Option Nat :=
    match exponent with
    | [] => if fraction = ['0'] then some (decimal whole) else none
    | '+' :: power =>
        some (nearestDouble (decimal (whole ++ fraction) * 10 ^ (decimal power - fraction.length)))
    | _ => none
  magnitude.map fun n => if negative then -n else n

def wholeNumber : Json → Option Int
  | .bool value => some (if value then 1 else 0)
  | .int value => some value
  | .float shown => wholeFloat shown
  | _ => none

def sameNumber (a b : Json) : Bool :=
  match wholeNumber a, wholeNumber b with
  | some m, some n => m = n
  | _, _ =>
      match a, b with
      | .float x, .float y => x = y && x ≠ "NaN"
      | _, _ => false

mutual

/-- Python's `==`: numbers by value, objects in any order of their keys. -/
def same : Json → Json → Bool
  | .null, .null => true
  | .str a, .str b => a = b
  | .arr items, .arr others => sameItems items others
  | .obj fields, .obj others => fields.length = others.length && sameFields fields others
  | a, b => sameNumber a b

def sameItems : List Json → List Json → Bool
  | [], [] => true
  | item :: rest, other :: others => same item other && sameItems rest others
  | _, _ => false

def sameFields : List (String × Json) → List (String × Json) → Bool
  | [], _ => true
  | (key, value) :: rest, others =>
      (match field? others key with
        | some other => same value other
        | none => false) && sameFields rest others

end

example : same (.obj [("a", .int 1), ("b", .float "1e+23")])
    (.obj [("b", .int 99999999999999991611392), ("a", .bool true)]) = true := by decide

def optStr : Option String → Json
  | some s => .str s
  | none => .null

example : dumps compact (.obj [("b", .int (-1)), ("a", .arr [.null, .str "x\n"])]) =
    "\x7b\"a\":[null,\"x\\n\"],\"b\":-1\x7d" := by decide

end Json

end Codex2Lark
