import Codex2Lark.Core.Errors
import Codex2Lark.Core.JsonEquality
import Codex2Lark.Lib.Dict
import Mathlib.Data.List.TakeWhile

/-!
`json.loads`, and that it reads back what `json.dumps` writes: the value with the keys of its objects
sorted. A surrogate without its partner has no character and is refused.
-/

namespace Codex2Lark.Json

/-! ### The scanner -/

/-- The white space of JSON. -/
def isJsonSpace (c : Char) : Bool := c = ' ' || c = '\t' || c = '\n' || c = '\r'

def skipSpace (cs : List Char) : List Char := cs.dropWhile isJsonSpace

/-- Where `py_scanstring` stands inside a string. -/
inductive StringMode where
  | plain
  | escaped
  /-- Hexadecimal digits are left to read, after a high surrogate or not. -/
  | unicode (high : Option Nat) (left value : Nat)
  | afterHigh (high : Nat) (slash : Bool)
deriving DecidableEq, Repr

def hexValue (c : Char) : Option Nat :=
  if '0' ≤ c ∧ c ≤ '9' then some (c.toNat - 48)
  else if 'a' ≤ c ∧ c ≤ 'f' then some (c.toNat - 87)
  else if 'A' ≤ c ∧ c ≤ 'F' then some (c.toNat - 55)
  else none

def escapeOf : Char → Option Char
  | '"' => some '"'
  | '\\' => some '\\'
  | '/' => some '/'
  | 'b' => some (Char.ofNat 8)
  | 'f' => some (Char.ofNat 12)
  | 'n' => some '\n'
  | 'r' => some '\r'
  | 't' => some '\t'
  | _ => none

/-- The four digits of an escape are read. -/
def closeEscape (high : Option Nat) (value : Nat) : Option (List Char × StringMode) :=
  match high with
  | none =>
      if 0xD800 ≤ value ∧ value ≤ 0xDBFF then some ([], .afterHigh value false)
      else if 0xDC00 ≤ value ∧ value ≤ 0xDFFF then none
      else some ([Char.ofNat value], .plain)
  | some high =>
      if 0xDC00 ≤ value ∧ value ≤ 0xDFFF then
        some ([Char.ofNat (0x10000 + (high - 0xD800) * 0x400 + (value - 0xDC00))], .plain)
      else none

/-- One character of a string, up to the closing quote. -/
def stringStep : StringMode → Char → Option (List Char × StringMode)
  | .plain, c =>
      if c = '\\' then some ([], .escaped)
      else if c = '"' ∨ c.toNat < 32 then none
      else some ([c], .plain)
  | .escaped, c =>
      if c = 'u' then some ([], .unicode none 4 0) else (escapeOf c).map fun c => ([c], .plain)
  | .unicode high left value, c =>
      (hexValue c).bind fun digit =>
        if left ≤ 1 then closeEscape high (16 * value + digit)
        else some ([], .unicode high (left - 1) (16 * value + digit))
  | .afterHigh high false, c => if c = '\\' then some ([], .afterHigh high true) else none
  | .afterHigh high true, c => if c = 'u' then some ([], .unicode (some high) 4 0) else none

/-- The rest of a string and what follows its quote. -/
def scanString (mode : StringMode) : List Char → Option (List Char × List Char)
  | [] => none
  | c :: rest =>
      if mode = .plain ∧ c = '"' then some ([], rest)
      else
        (stringStep mode c).bind fun step =>
          (scanString step.2 rest).map fun read => (step.1 ++ read.1, read.2)

def wholePart : List Char → Option (List Char × List Char)
  | '0' :: rest => some (['0'], rest)
  | cs =>
      if cs.takeWhile Char.isDigit = [] then none
      else some (cs.takeWhile Char.isDigit, cs.dropWhile Char.isDigit)

def fractionPart : List Char → List Char × List Char
  | '.' :: cs =>
      if cs.takeWhile Char.isDigit = [] then ([], '.' :: cs)
      else ('.' :: cs.takeWhile Char.isDigit, cs.dropWhile Char.isDigit)
  | cs => ([], cs)

def signPart : List Char → List Char × List Char
  | '+' :: cs => (['+'], cs)
  | '-' :: cs => (['-'], cs)
  | cs => ([], cs)

def exponentPart : List Char → List Char × List Char
  | [] => ([], [])
  | e :: cs =>
      if e = 'e' ∨ e = 'E' then
        let (sign, digits) := signPart cs
        if digits.takeWhile Char.isDigit = [] then ([], e :: cs)
        else (e :: sign ++ digits.takeWhile Char.isDigit, digits.dropWhile Char.isDigit)
      else ([], e :: cs)

def minusPart : List Char → List Char × List Char
  | '-' :: cs => (['-'], cs)
  | cs => ([], cs)

/-- `match_number`. A float keeps its text, which is that of `float.__repr__` in whatever
`json.dumps` has written. -/
def number (cs : List Char) : Option (Json × List Char) :=
  let (minus, unsigned) := minusPart cs
  (wholePart unsigned).map fun (whole, rest) =>
    let (fraction, rest) := fractionPart rest
    let (exponent, rest) := exponentPart rest
    if fraction = [] ∧ exponent = [] then
      let magnitude : Int := Nat.ofDigitChars 10 whole 0
      (.int (if minus = [] then magnitude else -magnitude), rest)
    else (.float (String.ofList (minus ++ whole ++ fraction ++ exponent)), rest)

def literals : List (String × Json) :=
  [("null", .null), ("true", .bool true), ("false", .bool false), ("NaN", .float "NaN"),
    ("Infinity", .float "Infinity"), ("-Infinity", .float "-Infinity")]

def literal (cs : List Char) : Option (Json × List Char) :=
  literals.findSome? fun entry =>
    if entry.1.toList.isPrefixOf cs then some (entry.2, cs.drop entry.1.length) else none

def scalarText (cs : List Char) : Option (Json × List Char) := (literal cs).or (number cs)

mutual

/-- `scan_once`; every nested call has a shorter text to read, which bounds the depth. -/
def parseValue : Nat → List Char → Option (Json × List Char)
  | 0, _ => none
  | fuel + 1, cs =>
      match cs with
      | '"' :: rest => (scanString .plain rest).map fun read => (.str (String.ofList read.1), read.2)
      | '[' :: rest =>
          match skipSpace rest with
          | ']' :: rest => some (.arr [], rest)
          | rest => (parseItems fuel rest).map fun read => (.arr read.1, read.2)
      | '\x7b' :: rest =>
          match skipSpace rest with
          | '\x7d' :: rest => some (.obj [], rest)
          | rest => (parseFields fuel rest).map fun read => (.obj (Lib.Dict.ofEntries read.1), read.2)
      | cs => scalarText cs

def parseItems : Nat → List Char → Option (List Json × List Char)
  | 0, _ => none
  | fuel + 1, cs =>
      match parseValue fuel cs with
      | none => none
      | some (value, rest) =>
          match skipSpace rest with
          | ']' :: rest => some ([value], rest)
          | ',' :: rest =>
              (parseItems fuel (skipSpace rest)).map fun read => (value :: read.1, read.2)
          | _ => none

def parseFields : Nat → List Char → Option (List (String × Json) × List Char)
  | 0, _ => none
  | fuel + 1, cs =>
      match cs with
      | '"' :: rest =>
          match scanString .plain rest with
          | none => none
          | some (key, rest) =>
              match skipSpace rest with
              | ':' :: rest =>
                  match parseValue fuel (skipSpace rest) with
                  | none => none
                  | some (value, rest) =>
                      match skipSpace rest with
                      | '\x7d' :: rest => some ([(String.ofList key, value)], rest)
                      | ',' :: rest =>
                          (parseFields fuel (skipSpace rest)).map fun read =>
                            ((String.ofList key, value) :: read.1, read.2)
                      | _ => none
              | _ => none
      | _ => none

end

/-- `json.JSONDecodeError`, a `ValueError`. -/
def jsonDecodeError : PyError := .valueError ""

def loads (text : String) : Except PyError Json :=
  match parseValue (text.toList.length + 1) (skipSpace text.toList) with
  | some (value, rest) => if skipSpace rest = [] then .ok value else .error jsonDecodeError
  | none => .error jsonDecodeError

/-! ### The values that `json.dumps` writes -/

/-- The text is one that Python prints for a float. -/
def isFloatText (shown : String) : Bool :=
  shown = "NaN" || shown = "Infinity" || shown = "-Infinity" ||
    number shown.toList = some (.float shown, [])

mutual

/-- Floats are printed ones, and no object has a key twice. -/
def isPrinted : Json → Bool
  | .float shown => isFloatText shown
  | .arr items => isPrintedItems items
  | .obj fields => (fields.map Prod.fst).Nodup && isPrintedFields fields
  | _ => true

def isPrintedItems : List Json → Bool
  | [] => true
  | item :: rest => isPrinted item && isPrintedItems rest

def isPrintedFields : List (String × Json) → Bool
  | [] => true
  | (_, value) :: rest => isPrinted value && isPrintedFields rest

end

mutual

/-- The value with the keys of every object in order. -/
def sorted : Json → Json
  | .arr items => .arr (sortedItems items)
  | .obj fields => .obj ((sortedFields fields).insertionSort fun a b => a.1 ≤ b.1)
  | value => value

def sortedItems : List Json → List Json
  | [] => []
  | item :: rest => sorted item :: sortedItems rest

def sortedFields : List (String × Json) → List (String × Json)
  | [] => []
  | (key, value) :: rest => (key, sorted value) :: sortedFields rest

end

/-! ### Strings -/

/-- Characters of a string that do not close it. -/
def stepAll (mode : StringMode) : List Char → Option (List Char × StringMode)
  | [] => some ([], mode)
  | c :: rest =>
      (stringStep mode c).bind fun step =>
        (stepAll step.2 rest).map fun read => (step.1 ++ read.1, read.2)

theorem scanString_append {mode after : StringMode} {cs out : List Char}
    (hsteps : stepAll mode cs = some (out, after)) (rest : List Char) :
    scanString mode (cs ++ rest) =
      (scanString after rest).map fun read => (out ++ read.1, read.2) := by
  induction cs generalizing mode out with
  | nil =>
      cases hsteps
      simp
  | cons c cs ih =>
      rw [stepAll, Option.bind_eq_some_iff] at hsteps
      obtain ⟨step, hstep, hsteps⟩ := hsteps
      obtain ⟨read, hread, hout⟩ := Option.map_eq_some_iff.mp hsteps
      cases hout
      have hopen : ¬ (mode = .plain ∧ c = '"') := by
        rintro ⟨rfl, rfl⟩
        simp [stringStep] at hstep
      rw [List.cons_append, scanString, if_neg hopen, hstep]
      dsimp only [Option.bind_some]
      rw [ih hread, Option.map_map]
      congr 1
      funext found
      simp

private theorem stepAll_control : ∀ n < 32, stepAll .plain (escapeChar (Char.ofNat n)) =
    some ([Char.ofNat n], .plain) := by decide +kernel

theorem stepAll_escapeChar (c : Char) : stepAll .plain (escapeChar c) = some ([c], .plain) := by
  by_cases hcontrol : c.toNat < 32
  · have hstep := stepAll_control c.toNat hcontrol
    rwa [Char.ofNat_toNat] at hstep
  · unfold escapeChar
    split
    · rename_i hquote
      subst hquote
      decide
    · rename_i hquote
      split
      · rename_i hslash
        subst hslash
        decide
      · rename_i hslash
        rw [if_neg (by omega), if_neg (by omega), if_neg (by omega), if_neg (by omega),
          if_neg (by omega)]
        simp [stepAll, stringStep, hquote, hslash, hcontrol]

/-- A quoted text is read up to its closing quote. -/
theorem scanString_quoted (cs rest : List Char) :
    scanString .plain (cs.flatMap escapeChar ++ '"' :: rest) = some (cs, rest) := by
  induction cs with
  | nil => simp [scanString]
  | cons c cs ih =>
      rw [List.flatMap_cons, List.append_assoc, scanString_append (stepAll_escapeChar c), ih]
      rfl

theorem quote_toList (s : String) :
    (quote s).toList = '"' :: (s.toList.flatMap escapeChar ++ ['"']) := by
  simp [quote]

/-! ### Numbers -/

/-- What can follow a value. -/
def Ends (rest : List Char) : Prop := ∀ c ∈ rest.head?, c = ',' ∨ c = ']' ∨ c = '\x7d'

section Number

variable {rest : List Char} (hrest : Ends rest)

include hrest

theorem Ends.not_digit : ∀ c ∈ rest.head?, c.isDigit = false := by
  intro c hc
  rcases hrest c hc with rfl | rfl | rfl <;> decide

theorem takeWhile_ends (cs : List Char) :
    (cs ++ rest).takeWhile Char.isDigit = cs.takeWhile Char.isDigit := by
  induction cs with
  | nil =>
      cases rest with
      | nil => rfl
      | cons c tail => simp [hrest.not_digit c (by simp)]
  | cons c cs ih =>
      rw [List.cons_append, List.takeWhile_cons, List.takeWhile_cons, ih]

theorem dropWhile_ends (cs : List Char) :
    (cs ++ rest).dropWhile Char.isDigit = cs.dropWhile Char.isDigit ++ rest := by
  induction cs with
  | nil =>
      cases rest with
      | nil => rfl
      | cons c tail => simp [hrest.not_digit c (by simp)]
  | cons c cs ih =>
      rw [List.cons_append, List.dropWhile_cons, List.dropWhile_cons, ih]
      split
      · rfl
      · rfl

omit hrest in
theorem wholePart_of_ne_zero {c : Char} {cs : List Char} (hzero : c ≠ '0') :
    wholePart (c :: cs) = if (c :: cs).takeWhile Char.isDigit = [] then none
      else some ((c :: cs).takeWhile Char.isDigit, (c :: cs).dropWhile Char.isDigit) := by
  unfold wholePart
  split
  · rename_i hcons
    cases hcons
    exact absurd rfl hzero
  · rfl

theorem wholePart_append {cs whole left : List Char} (hwhole : wholePart cs = some (whole, left)) :
    wholePart (cs ++ rest) = some (whole, left ++ rest) := by
  cases cs with
  | nil => simp [wholePart] at hwhole
  | cons c cs =>
      by_cases hzero : c = '0'
      · subst hzero
        cases hwhole
        rfl
      · rw [List.cons_append, wholePart_of_ne_zero hzero, ← List.cons_append, takeWhile_ends hrest,
          dropWhile_ends hrest]
        rw [wholePart_of_ne_zero hzero] at hwhole
        split at hwhole
        · cases hwhole
        · rename_i hdigits
          cases hwhole
          rw [if_neg hdigits]

theorem fractionPart_append (cs : List Char) :
    fractionPart (cs ++ rest) = ((fractionPart cs).1, (fractionPart cs).2 ++ rest) := by
  cases cs with
  | nil =>
      cases rest with
      | nil => rfl
      | cons c tail => rcases hrest c (by simp) with rfl | rfl | rfl <;> rfl
  | cons c cs =>
      by_cases hpoint : c = '.'
      · subst hpoint
        simp only [List.cons_append, fractionPart]
        rw [takeWhile_ends hrest, dropWhile_ends hrest]
        split <;> rfl
      · have hnone : ∀ tail, fractionPart (c :: tail) = ([], c :: tail) := by
          intro tail
          unfold fractionPart
          split
          · rename_i hcons
            cases hcons
            exact absurd rfl hpoint
          · rfl
        rw [List.cons_append, hnone, hnone]
        rfl

theorem signPart_append (cs : List Char) :
    signPart (cs ++ rest) = ((signPart cs).1, (signPart cs).2 ++ rest) := by
  cases cs with
  | nil =>
      cases rest with
      | nil => rfl
      | cons c tail => rcases hrest c (by simp) with rfl | rfl | rfl <;> rfl
  | cons c cs =>
      simp only [List.cons_append]
      unfold signPart
      split
      · rename_i hcons
        cases hcons
        rfl
      · rename_i hcons
        cases hcons
        rfl
      · rename_i hplus hminus
        split
        · rename_i hcons
          cases hcons
          exact absurd rfl (hplus _)
        · rename_i hcons
          cases hcons
          exact absurd rfl (hminus _)
        · rfl

theorem exponentPart_append (cs : List Char) :
    exponentPart (cs ++ rest) = ((exponentPart cs).1, (exponentPart cs).2 ++ rest) := by
  cases cs with
  | nil =>
      cases rest with
      | nil => rfl
      | cons c tail =>
          have hletter : ¬ (c = 'e' ∨ c = 'E') := by
            rcases hrest c (by simp) with rfl | rfl | rfl <;> decide
          simp [exponentPart, hletter]
  | cons c cs =>
      simp only [List.cons_append, exponentPart]
      by_cases hletter : c = 'e' ∨ c = 'E'
      · rw [if_pos hletter, if_pos hletter, signPart_append hrest]
        dsimp only
        rw [takeWhile_ends hrest, dropWhile_ends hrest]
        split <;> rfl
      · rw [if_neg hletter, if_neg hletter]
        rfl

theorem minusPart_append (cs : List Char) :
    minusPart (cs ++ rest) = ((minusPart cs).1, (minusPart cs).2 ++ rest) := by
  cases cs with
  | nil =>
      cases rest with
      | nil => rfl
      | cons c tail => rcases hrest c (by simp) with rfl | rfl | rfl <;> rfl
  | cons c cs =>
      simp only [List.cons_append]
      unfold minusPart
      split
      · rename_i hcons
        cases hcons
        rfl
      · rename_i hminus
        split
        · rename_i hcons
          cases hcons
          exact absurd rfl (hminus _)
        · rfl

/-- A number is read up to what can follow it. -/
theorem number_append {cs left : List Char} {value : Json} (hnumber : number cs = some (value, left)) :
    number (cs ++ rest) = some (value, left ++ rest) := by
  unfold number at hnumber ⊢
  dsimp only at hnumber ⊢
  obtain ⟨⟨whole, tail⟩, hwhole, hvalue⟩ := Option.map_eq_some_iff.mp hnumber
  dsimp only at hvalue
  rw [minusPart_append hrest]
  dsimp only
  rw [wholePart_append hrest hwhole, Option.map_some]
  dsimp only
  rw [fractionPart_append hrest]
  dsimp only
  rw [exponentPart_append hrest]
  dsimp only
  split at hvalue
  · rename_i hnone
    cases hvalue
    rw [if_pos hnone]
  · rename_i hsome
    cases hvalue
    rw [if_neg hsome]

end Number

/-- `str` of two natural numbers. -/
theorem toString_injective : Function.Injective (toString : Nat → String) := by
  intro a b h
  have hdigits : Nat.toDigits 10 a = Nat.toDigits 10 b := String.ofList_injective h
  have hvalue := congrArg (fun digits => Nat.ofDigitChars 10 digits 0) hdigits
  simpa [Nat.ofDigitChars_toDigits] using hvalue

theorem toDigits_head (n : Nat) (hpos : 0 < n) :
    ∃ c cs, Nat.toDigits 10 n = c :: cs ∧ c ≠ '0' := by
  induction n using Nat.strongRecOn with
  | ind n ih =>
      rcases Nat.lt_or_ge n 10 with hsmall | hlarge
      · refine ⟨n.digitChar, [], Nat.toDigits_of_lt_base hsmall, ?_⟩
        simp only [ne_eq, Nat.digitChar_eq_zero]
        omega
      · obtain ⟨c, cs, hdigits, hzero⟩ := ih (n / 10) (by omega) (by omega)
        refine ⟨c, cs ++ [(n % 10).digitChar], ?_, hzero⟩
        rw [Nat.toDigits_of_base_le (by omega) hlarge, hdigits]
        rfl

theorem wholePart_toDigits (n : Nat) :
    wholePart (Nat.toDigits 10 n) = some (Nat.toDigits 10 n, []) := by
  rcases Nat.eq_zero_or_pos n with rfl | hpos
  · rfl
  · have hdigit : ∀ c ∈ Nat.toDigits 10 n, c.isDigit = true := fun c hc =>
      Nat.isDigit_of_mem_toDigits (by decide) (by decide) hc
    obtain ⟨c, cs, hdigits, hzero⟩ := toDigits_head n hpos
    rw [hdigits] at hdigit ⊢
    rw [wholePart_of_ne_zero hzero, List.takeWhile_eq_self_iff.mpr hdigit,
      List.dropWhile_eq_nil_iff.mpr hdigit, if_neg (by simp)]

theorem minusPart_digit {c : Char} (hdigit : c.isDigit = true) (cs : List Char) :
    minusPart (c :: cs) = ([], c :: cs) := by
  unfold minusPart
  split
  · rename_i hcons
    cases hcons
    cases hdigit
  · rfl

theorem number_natural (n : Nat) :
    number (Nat.toDigits 10 n) = some (.int n, []) := by
  have hminus : minusPart (Nat.toDigits 10 n) = ([], Nat.toDigits 10 n) := by
    cases hdigits : Nat.toDigits 10 n with
    | nil => rfl
    | cons c cs =>
        refine minusPart_digit (Nat.isDigit_of_mem_toDigits (n := n) (b := 10) ?_ ?_ ?_) cs
        · decide
        · decide
        · simp [hdigits]
  unfold number
  rw [hminus]
  dsimp only
  rw [wholePart_toDigits]
  simp [fractionPart, exponentPart, Nat.ofDigitChars_toDigits]

theorem number_negative (n : Nat) :
    number ('-' :: Nat.toDigits 10 n) = some (.int (-(n : Int)), []) := by
  have hminus : minusPart ('-' :: Nat.toDigits 10 n) = (['-'], Nat.toDigits 10 n) := rfl
  unfold number
  rw [hminus]
  dsimp only
  rw [wholePart_toDigits]
  simp [fractionPart, exponentPart, Nat.ofDigitChars_toDigits]

theorem int_toList (n : Int) : (toString n).toList =
    if 0 ≤ n then Nat.toDigits 10 n.toNat else '-' :: Nat.toDigits 10 (-n).toNat := by
  cases n with
  | ofNat n =>
      have hnonneg : 0 ≤ Int.ofNat n := Int.natCast_nonneg n
      rw [if_pos hnonneg]
      change (toString n).toList = _
      rw [Nat.toString_eq_ofList_toDigits]
      simp
  | negSucc n =>
      rw [if_neg (by omega)]
      change ("-" ++ (n + 1).repr).toList = _
      rw [Nat.repr_eq_ofList_toDigits]
      simp

theorem number_int (n : Int) : number (toString n).toList = some (.int n, []) := by
  rw [int_toList]
  split
  · rename_i hnonneg
    rw [number_natural]
    congr 3
    omega
  · rename_i hnegative
    rw [number_negative]
    congr 3
    omega

/-- A number starts with a digit, or with a minus and a digit. -/
theorem number_head {cs left : List Char} {value : Json} (hnumber : number cs = some (value, left)) :
    ∃ c tail, c.isDigit = true ∧ (cs = c :: tail ∨ cs = '-' :: c :: tail) := by
  have hdigit : ∀ unsigned whole rest, wholePart unsigned = some (whole, rest) →
      ∃ c tail, c.isDigit = true ∧ unsigned = c :: tail := by
    intro unsigned whole rest hwhole
    cases unsigned with
    | nil => simp [wholePart] at hwhole
    | cons c tail =>
        by_cases hzero : c = '0'
        · exact ⟨c, tail, by rw [hzero]; decide, rfl⟩
        · rw [wholePart_of_ne_zero hzero, List.takeWhile_cons] at hwhole
          cases hc : c.isDigit with
          | true => exact ⟨c, tail, hc, rfl⟩
          | false => simp [hc] at hwhole
  unfold number at hnumber
  dsimp only at hnumber
  obtain ⟨⟨whole, rest⟩, hwhole, -⟩ := Option.map_eq_some_iff.mp hnumber
  obtain ⟨c, tail, hc, hunsigned⟩ := hdigit _ _ _ hwhole
  refine ⟨c, tail, hc, ?_⟩
  unfold minusPart at hunsigned
  split at hunsigned
  · exact .inr (congrArg _ hunsigned)
  · exact .inl hunsigned

theorem literal_digit {c : Char} (hdigit : c.isDigit = true) (tail : List Char) :
    literal (c :: tail) = none ∧ literal ('-' :: c :: tail) = none := by
  have hne : ∀ d : Char, d.isDigit = false → d ≠ c := by
    rintro d hd rfl
    rw [hdigit] at hd
    cases hd
  have hn := hne 'n' (by decide)
  have ht := hne 't' (by decide)
  have hf := hne 'f' (by decide)
  have hN := hne 'N' (by decide)
  have hI := hne 'I' (by decide)
  have hminus := hne '-' (by decide)
  simp [literal, literals, hn, ht, hf, hN, hI, hminus]

/-! ### Reading back -/

/-- The characters that `json.dumps` writes. -/
def text (value : Json) : List Char := (dumps {} value).toList

/-- The text of the value, before what can follow it, is read as the sorted value. -/
def Reads (value : Json) : Prop :=
  ∀ fuel rest, (text value).length ≤ fuel → Ends rest →
    parseValue fuel (text value ++ rest) = some (sorted value, rest)

/-- A text that starts with no white space and closes nothing. -/
def StartsValue (cs : List Char) : Prop :=
  ∃ c tail, cs = c :: tail ∧ isJsonSpace c = false ∧ c ≠ ']' ∧ c ≠ '\x7d'

theorem StartsValue.skipSpace {cs : List Char} (hstart : StartsValue cs) (rest : List Char) :
    skipSpace (cs ++ rest) = cs ++ rest := by
  obtain ⟨c, tail, rfl, hspace, -⟩ := hstart
  simp [Json.skipSpace, hspace]

theorem skipSpace_ends {rest : List Char} (hrest : Ends rest) : skipSpace rest = rest := by
  cases rest with
  | nil => rfl
  | cons c tail => rcases hrest c (by simp) with rfl | rfl | rfl <;> rfl

theorem parseValue_scalar {c : Char} {tail : List Char} (fuel : Nat) (hquote : c ≠ '"')
    (hitems : c ≠ '[') (hfields : c ≠ '\x7b') :
    parseValue (fuel + 1) (c :: tail) = scalarText (c :: tail) := by
  unfold parseValue
  split
  · rename_i hcons
    cases hcons
    exact absurd rfl hquote
  · rename_i hcons
    cases hcons
    exact absurd rfl hitems
  · rename_i hcons
    cases hcons
    exact absurd rfl hfields
  · rfl

theorem scalarText_number {cs rest : List Char} {value : Json} (hrest : Ends rest)
    (hnumber : number cs = some (value, [])) : scalarText (cs ++ rest) = some (value, rest) := by
  have hread := number_append hrest hnumber
  have hliteral : literal (cs ++ rest) = none := by
    obtain ⟨c, tail, hdigit, rfl | rfl⟩ := number_head hnumber
    · exact (literal_digit hdigit _).1
    · exact (literal_digit hdigit _).2
  rw [scalarText, hliteral, hread]
  rfl

/-- A number is read back. -/
theorem reads_number {value : Json} {cs : List Char} (htext : text value = cs)
    (hsorted : sorted value = value) (hnumber : number cs = some (value, [])) :
    Reads value ∧ StartsValue (text value) := by
  rw [StartsValue, Reads, htext, hsorted]
  have hdigit : ∀ c : Char, c.isDigit = true → isJsonSpace c = false ∧ c ≠ ']' ∧ c ≠ '\x7d' ∧
      c ≠ '"' ∧ c ≠ '[' ∧ c ≠ '\x7b' := by
    intro c hc
    refine ⟨?_, ?_, ?_, ?_, ?_, ?_⟩
    · cases hspace : isJsonSpace c with
      | false => rfl
      | true =>
          simp only [isJsonSpace, Bool.or_eq_true, decide_eq_true_eq] at hspace
          rcases hspace with ((rfl | rfl) | rfl) | rfl <;> cases hc
    all_goals
      rintro rfl
      cases hc
  obtain ⟨c, tail, hc, hcs | hcs⟩ := number_head hnumber
  · obtain ⟨hspace, hclose, hbrace, hquote, hitems, hfields⟩ := hdigit c hc
    refine ⟨fun fuel rest hfuel hrest => ?_, c, tail, hcs, hspace, hclose, hbrace⟩
    cases fuel with
    | zero => simp [hcs] at hfuel
    | succ fuel =>
        rw [← scalarText_number hrest hnumber, hcs, List.cons_append,
          parseValue_scalar fuel hquote hitems hfields]
  · refine ⟨fun fuel rest hfuel hrest => ?_, '-', c :: tail, hcs, by decide, by decide, by decide⟩
    cases fuel with
    | zero => simp [hcs] at hfuel
    | succ fuel =>
        rw [← scalarText_number hrest hnumber, hcs, List.cons_append,
          parseValue_scalar fuel (by decide) (by decide) (by decide)]

/-- A literal is read back. -/
theorem reads_literal {value : Json} (shown : String) (htext : text value = shown.toList)
    (hsorted : sorted value = value) (hlisted : (shown, value) ∈ literals) :
    Reads value ∧ StartsValue (text value) := by
  rw [StartsValue, Reads, htext, hsorted]
  have hread : ∀ rest, scalarText (shown.toList ++ rest) = some (value, rest) := by
    intro rest
    simp only [literals, List.mem_cons, Prod.mk.injEq, List.not_mem_nil, or_false] at hlisted
    rcases hlisted with ⟨rfl, rfl⟩ | ⟨rfl, rfl⟩ | ⟨rfl, rfl⟩ | ⟨rfl, rfl⟩ | ⟨rfl, rfl⟩ | ⟨rfl, rfl⟩ <;>
      rfl
  have hhead : ∃ c tail, shown.toList = c :: tail ∧ (isJsonSpace c = false ∧ c ≠ ']' ∧ c ≠ '\x7d') ∧
      c ≠ '"' ∧ c ≠ '[' ∧ c ≠ '\x7b' := by
    simp only [literals, List.mem_cons, Prod.mk.injEq, List.not_mem_nil, or_false] at hlisted
    rcases hlisted with ⟨rfl, rfl⟩ | ⟨rfl, rfl⟩ | ⟨rfl, rfl⟩ | ⟨rfl, rfl⟩ | ⟨rfl, rfl⟩ | ⟨rfl, rfl⟩ <;>
      exact ⟨_, _, rfl, by decide, by decide, by decide, by decide⟩
  obtain ⟨c, tail, hcs, hstart, hquote, hitems, hfields⟩ := hhead
  refine ⟨fun fuel rest hfuel _ => ?_, c, tail, hcs, hstart⟩
  cases fuel with
  | zero => simp [hcs] at hfuel
  | succ fuel =>
      rw [← hread rest, hcs, List.cons_append, parseValue_scalar fuel hquote hitems hfields]

theorem reads_str (s : String) : Reads (.str s) ∧ StartsValue (text (.str s)) := by
  have htext : text (.str s) = '"' :: (s.toList.flatMap escapeChar ++ ['"']) := quote_toList s
  refine ⟨fun fuel rest hfuel _ => ?_, '"', _, htext, by decide, by decide, by decide⟩
  rw [htext] at hfuel ⊢
  cases fuel with
  | zero => simp at hfuel
  | succ fuel =>
      rw [List.cons_append, List.append_assoc, List.singleton_append, parseValue,
        scanString_quoted]
      simp [sorted]

/-! ### Arrays and objects -/

theorem ends_close (rest : List Char) : Ends (']' :: rest) ∧ Ends ('\x7d' :: rest) := by
  refine ⟨fun c hc => ?_, fun c hc => ?_⟩
  · cases hc
    simp
  · cases hc
    simp

theorem ends_comma (rest : List Char) : Ends (',' :: rest) := by
  intro c hc
  cases hc
  simp

theorem startsValue_intercalate {first : List Char} (hfirst : StartsValue first)
    (others : List (List Char)) : StartsValue ([',', ' '].intercalate (first :: others)) := by
  obtain ⟨c, tail, rfl, hstart⟩ := hfirst
  cases others with
  | nil => exact ⟨c, tail, by simp, hstart⟩
  | cons other others =>
      refine ⟨c, tail ++ ([',', ' '] ++ [',', ' '].intercalate (other :: others)), ?_, hstart⟩
      rw [List.intercalate_cons_cons]
      simp

/-- The blank after a comma or a colon. -/
theorem skipSpace_next {cs : List Char} (hstart : StartsValue cs) (rest : List Char) :
    skipSpace (' ' :: (cs ++ rest)) = cs ++ rest := by
  have hblank : skipSpace (' ' :: (cs ++ rest)) = skipSpace (cs ++ rest) := rfl
  rw [hblank, hstart.skipSpace]

theorem parseItems_text (items : List Json) (hread : ∀ item ∈ items, Reads item)
    (hstart : ∀ item ∈ items, StartsValue (text item)) (hsome : items ≠ []) (fuel : Nat)
    (rest : List Char)
    (hfuel : ([',', ' '].intercalate (items.map text)).length < fuel) :
    parseItems fuel ([',', ' '].intercalate (items.map text) ++ ']' :: rest) =
      some (items.map sorted, rest) := by
  induction items generalizing fuel with
  | nil => exact absurd rfl hsome
  | cons item others ih =>
      cases fuel with
      | zero => exact absurd hfuel (Nat.not_lt_zero _)
      | succ fuel =>
          have hitem := hread item (by simp)
          cases others with
          | nil =>
              simp only [List.map_cons, List.map_nil, List.intercalate_singleton] at hfuel ⊢
              rw [parseItems, hitem fuel _ (by omega) (ends_close rest).1]
              dsimp only
              rw [skipSpace_ends (ends_close rest).1]
              rfl
          | cons next others =>
              have hnext := hstart next (by simp)
              simp only [List.map_cons, List.intercalate_cons_cons, List.length_append,
                List.length_cons, List.length_nil] at hfuel
              have hlater := ih (fun other hmem => hread other (List.mem_cons_of_mem _ hmem))
                (fun other hmem => hstart other (List.mem_cons_of_mem _ hmem)) (by simp) fuel
                (by simp only [List.map_cons]; omega)
              have hskip : skipSpace (' ' :: ([',', ' '].intercalate
                  ((next :: others).map text) ++ ']' :: rest)) =
                  [',', ' '].intercalate ((next :: others).map text) ++ ']' :: rest :=
                skipSpace_next (startsValue_intercalate hnext _) _
              rw [List.map_cons, List.map_cons, List.intercalate_cons_cons, ← List.map_cons,
                List.append_assoc, List.append_assoc, List.cons_append, List.cons_append,
                List.nil_append, parseItems, hitem fuel _ (by omega) (ends_comma _)]
              dsimp only
              rw [skipSpace_ends (ends_comma _)]
              change Option.map _ (parseItems fuel (skipSpace (' ' :: ([',', ' '].intercalate
                  ((next :: others).map text) ++ ']' :: rest)))) = _
              rw [hskip, hlater]
              rfl

/-- A key with its value. -/
def fieldText (field : String × Json) : List Char :=
  (quote field.1).toList ++ [':', ' '] ++ text field.2

theorem startsValue_fieldText (field : String × Json) : StartsValue (fieldText field) := by
  have htext : fieldText field = '"' :: (field.1.toList.flatMap escapeChar ++ ['"'] ++
      [':', ' '] ++ text field.2) := by
    simp [fieldText, quote_toList]
  exact ⟨'"', _, htext, by decide, by decide, by decide⟩

theorem parseFields_text (fields : List (String × Json)) (hread : ∀ field ∈ fields, Reads field.2)
    (hstart : ∀ field ∈ fields, StartsValue (text field.2)) (hsome : fields ≠ []) (fuel : Nat)
    (rest : List Char)
    (hfuel : ([',', ' '].intercalate (fields.map fieldText)).length < fuel) :
    parseFields fuel ([',', ' '].intercalate (fields.map fieldText) ++ '\x7d' :: rest) =
      some (fields.map fun field => (field.1, sorted field.2), rest) := by
  induction fields generalizing fuel with
  | nil => exact absurd rfl hsome
  | cons field others ih =>
      cases fuel with
      | zero => exact absurd hfuel (Nat.not_lt_zero _)
      | succ fuel =>
          obtain ⟨key, value⟩ := field
          have hvalue : Reads value := hread (key, value) (by simp)
          have hfirst : StartsValue (text value) := hstart (key, value) (by simp)
          have hlength : (text value).length < (fieldText (key, value)).length := by
            simp [fieldText, quote_toList]
            omega
          -- the key and the colon before the text of the value
          have hshape : ∀ after, parseFields (fuel + 1) (fieldText (key, value) ++ after) =
              match parseValue fuel (text value ++ after) with
              | none => none
              | some (value, rest) =>
                  match skipSpace rest with
                  | '\x7d' :: rest => some ([(key, value)], rest)
                  | ',' :: rest =>
                      (parseFields fuel (skipSpace rest)).map fun read =>
                        ((key, value) :: read.1, read.2)
                  | _ => none := by
            intro after
            have htext : fieldText (key, value) ++ after =
                '"' :: (key.toList.flatMap escapeChar ++ '"' ::
                  (':' :: ' ' :: (text value ++ after))) := by
              simp [fieldText, quote_toList]
            have hcolon : skipSpace (':' :: ' ' :: (text value ++ after)) =
                ':' :: ' ' :: (text value ++ after) := rfl
            rw [htext, parseFields, scanString_quoted]
            dsimp only
            rw [hcolon, String.ofList_toList]
            change (match parseValue fuel (skipSpace (' ' :: (text value ++ after))) with
              | none => none
              | some (value, rest) => _) = _
            rw [skipSpace_next hfirst]
          cases others with
          | nil =>
              simp only [List.map_cons, List.map_nil, List.intercalate_singleton] at hfuel ⊢
              rw [hshape, hvalue fuel _ (by omega) (ends_close rest).2]
              dsimp only
              rw [skipSpace_ends (ends_close rest).2]
              rfl
          | cons next others =>
              simp only [List.map_cons, List.intercalate_cons_cons, List.length_append,
                List.length_cons, List.length_nil] at hfuel
              have hlater := ih (fun other hmem => hread other (List.mem_cons_of_mem _ hmem))
                (fun other hmem => hstart other (List.mem_cons_of_mem _ hmem)) (by simp) fuel
                (by simp only [List.map_cons]; omega)
              have hskip : skipSpace (' ' :: ([',', ' '].intercalate
                  ((next :: others).map fieldText) ++ '\x7d' :: rest)) =
                  [',', ' '].intercalate ((next :: others).map fieldText) ++ '\x7d' :: rest :=
                skipSpace_next (startsValue_intercalate (startsValue_fieldText next) _) _
              rw [List.map_cons, List.map_cons, List.intercalate_cons_cons, ← List.map_cons,
                List.append_assoc, List.append_assoc, List.cons_append, List.cons_append,
                List.nil_append, hshape, hvalue fuel _ (by omega) (ends_comma _)]
              dsimp only
              rw [skipSpace_ends (ends_comma _)]
              change Option.map _ (parseFields fuel (skipSpace (' ' :: ([',', ' '].intercalate
                  ((next :: others).map fieldText) ++ '\x7d' :: rest)))) = _
              rw [hskip, hlater]
              rfl

theorem dumpsItems_eq (sep : Separators) (items : List Json) :
    dumpsItems sep items = items.map (dumps sep) := by
  induction items with
  | nil => rfl
  | cons item rest ih => rw [dumpsItems, ih, List.map_cons]

theorem dumpsFields_eq (sep : Separators) (fields : List (String × Json)) :
    dumpsFields sep fields = fields.map fun field => (field.1, dumps sep field.2) := by
  induction fields with
  | nil => rfl
  | cons field rest ih => rw [dumpsFields, ih, List.map_cons]

theorem sortedItems_eq (items : List Json) : sortedItems items = items.map sorted := by
  induction items with
  | nil => rfl
  | cons item rest ih => rw [sortedItems, ih, List.map_cons]

theorem sortedFields_eq (fields : List (String × Json)) :
    sortedFields fields = fields.map fun field => (field.1, sorted field.2) := by
  induction fields with
  | nil => rfl
  | cons field rest ih => rw [sortedFields, ih, List.map_cons]

theorem isPrintedItems_iff {items : List Json} :
    isPrintedItems items = true ↔ ∀ item ∈ items, isPrinted item = true := by
  induction items with
  | nil => simp [isPrintedItems]
  | cons item rest ih => simp [isPrintedItems, ih]

theorem isPrintedFields_iff {fields : List (String × Json)} :
    isPrintedFields fields = true ↔ ∀ field ∈ fields, isPrinted field.2 = true := by
  induction fields with
  | nil => simp [isPrintedFields]
  | cons field rest ih =>
      obtain ⟨name, value⟩ := field
      simp [isPrintedFields, ih]

theorem isPrinted_obj {fields : List (String × Json)} :
    isPrinted (.obj fields) = true ↔
      (fields.map Prod.fst).Nodup ∧ ∀ field ∈ fields, isPrinted field.2 = true := by
  rw [isPrinted, Bool.and_eq_true, isPrintedFields_iff, decide_eq_true_eq]

/-- The fields in the order in which they are written. -/
def inOrder (fields : List (String × Json)) : List (String × Json) :=
  fields.insertionSort fun a b => a.1 ≤ b.1

theorem inOrder_perm (fields : List (String × Json)) : (inOrder fields).Perm fields :=
  List.perm_insertionSort _ _

/-- Sorting does not look at the values. -/
theorem insertionSort_values {α β : Type} (change : α → β) (fields : List (String × α)) :
    (fields.map fun field => (field.1, change field.2)).insertionSort (fun a b => a.1 ≤ b.1) =
      (fields.insertionSort fun a b => a.1 ≤ b.1).map fun field => (field.1, change field.2) :=
  (List.map_insertionSort (fun a b : String × α => a.1 ≤ b.1) (fun a b : String × β => a.1 ≤ b.1)
    (fun field => (field.1, change field.2)) fields fun _ _ _ _ => Iff.rfl).symm

theorem sorted_obj (fields : List (String × Json)) :
    sorted (.obj fields) = .obj ((inOrder fields).map fun field => (field.1, sorted field.2)) := by
  rw [sorted, sortedFields_eq, insertionSort_values, inOrder]

theorem text_arr (items : List Json) :
    text (.arr items) = '[' :: ([',', ' '].intercalate (items.map text) ++ [']']) := by
  rw [text, dumps, dumpsItems_eq, String.toList_append, String.toList_append,
    String.toList_intercalate, List.map_map]
  rfl

theorem text_obj (fields : List (String × Json)) :
    text (.obj fields) =
      '\x7b' :: ([',', ' '].intercalate ((inOrder fields).map fieldText) ++ ['\x7d']) := by
  rw [text, dumps, dumpsFields_eq, objectText, insertionSort_values, String.toList_append,
    String.toList_append, String.toList_intercalate, List.map_map, List.map_map]
  have hfield : String.toList ∘ (fun entry : String × String => quote entry.1 ++ ": " ++ entry.2) ∘
      (fun field : String × Json => (field.1, dumps {} field.2)) = fieldText := by
    funext field
    simp [fieldText, text]
  change '\x7b' :: ([',', ' '].intercalate ((inOrder fields).map (String.toList ∘
    (fun entry : String × String => quote entry.1 ++ ": " ++ entry.2) ∘
      (fun field : String × Json => (field.1, dumps {} field.2)))) ++ ['\x7d']) = _
  rw [hfield]

/-- The text of a printed value is read as that value, sorted. -/
theorem reads_printed (value : Json) (hprinted : isPrinted value = true) :
    Reads value ∧ StartsValue (text value) := by
  induction value using value_induction with
  | scalar value harr hobj =>
      cases value with
      | arr items => exact absurd rfl (harr items)
      | obj fields => exact absurd rfl (hobj fields)
      | null => exact reads_literal "null" rfl rfl (by simp [literals])
      | bool value =>
          cases value with
          | true => exact reads_literal "true" rfl rfl (by simp [literals])
          | false => exact reads_literal "false" rfl rfl (by simp [literals])
      | int n => exact reads_number rfl rfl (number_int n)
      | float shown =>
          rw [isPrinted, isFloatText] at hprinted
          simp only [Bool.or_eq_true, decide_eq_true_eq] at hprinted
          rcases hprinted with ((rfl | rfl) | rfl) | hnumber
          · exact reads_literal "NaN" rfl rfl (by simp [literals])
          · exact reads_literal "Infinity" rfl rfl (by simp [literals])
          · exact reads_literal "-Infinity" rfl rfl (by simp [literals])
          · exact reads_number rfl rfl hnumber
      | str s => exact reads_str s
  | arr items ih =>
      rw [isPrinted, isPrintedItems_iff] at hprinted
      refine ⟨fun fuel rest hfuel _ => ?_, '[', _, text_arr items, by decide, by decide, by decide⟩
      rw [text_arr] at hfuel ⊢
      cases fuel with
      | zero => simp at hfuel
      | succ fuel =>
          rw [sorted, sortedItems_eq]
          cases items with
          | nil => rfl
          | cons item others =>
              have hstart := startsValue_intercalate (ih item (by simp) (hprinted item (by simp))).2
                (others.map text)
              rw [← List.map_cons] at hstart
              have hread := parseItems_text (item :: others)
                (fun other hmem => (ih other hmem (hprinted other hmem)).1)
                (fun other hmem => (ih other hmem (hprinted other hmem)).2) (by simp) fuel rest
                (by simp only [List.length_cons, List.length_append, List.length_nil] at hfuel; omega)
              rw [List.cons_append, List.append_assoc, List.singleton_append, parseValue,
                hstart.skipSpace]
              obtain ⟨c, tail, hhead, -, hclose, -⟩ := hstart
              split
              · rename_i hcons
                rw [hhead, List.cons_append] at hcons
                cases hcons
                exact absurd rfl hclose
              · rw [hread]
                rfl
  | obj fields ih =>
      obtain ⟨hkeys, hprinted⟩ := isPrinted_obj.mp hprinted
      have hmem : ∀ field ∈ inOrder fields, Reads field.2 ∧ StartsValue (text field.2) :=
        fun field hmem =>
          have hin := (inOrder_perm fields).subset hmem
          ih field hin (hprinted field hin)
      have hnames : ((inOrder fields).map Prod.fst).Nodup :=
        ((inOrder_perm fields).map Prod.fst).nodup_iff.mpr hkeys
      refine ⟨fun fuel rest hfuel _ => ?_, '\x7b', _, text_obj fields, by decide, by decide,
        by decide⟩
      rw [text_obj] at hfuel ⊢
      rw [sorted_obj]
      cases fuel with
      | zero => simp at hfuel
      | succ fuel =>
          cases horder : inOrder fields with
          | nil => rfl
          | cons field others =>
              rw [horder] at hmem hnames hfuel
              have hstart := startsValue_intercalate (startsValue_fieldText field)
                (others.map fieldText)
              rw [← List.map_cons] at hstart
              have hread := parseFields_text (field :: others) (fun other hin => (hmem other hin).1)
                (fun other hin => (hmem other hin).2) (by simp) fuel rest
                (by simp only [List.length_cons, List.length_append, List.length_nil] at hfuel; omega)
              rw [List.cons_append, List.append_assoc, List.singleton_append, parseValue,
                hstart.skipSpace]
              obtain ⟨c, tail, hhead, -, -, hclose⟩ := hstart
              split
              · rename_i hcons
                rw [hhead, List.cons_append] at hcons
                cases hcons
                exact absurd rfl hclose
              · rw [hread, Option.map_some]
                dsimp only
                rw [Lib.Dict.ofEntries_of_nodup]
                rw [List.map_map]
                exact hnames

/-- `json.loads` reads what `json.dumps` writes. -/
theorem loads_dumps {value : Json} (hprinted : isPrinted value = true) :
    loads (dumps {} value) = .ok (sorted value) := by
  obtain ⟨hread, hstart⟩ := reads_printed value hprinted
  have hskip := hstart.skipSpace []
  rw [List.append_nil] at hskip
  have hvalue := hread ((text value).length + 1) [] (Nat.le_succ _) (by intro c hc; cases hc)
  rw [List.append_nil] at hvalue
  unfold loads
  change (match parseValue ((text value).length + 1) (skipSpace (text value)) with
    | some (value, rest) => _
    | none => _) = _
  rw [hskip, hvalue]
  rfl

/-! ### The sorted value -/

/-- Sorting the keys leaves the value what it is. -/
theorem identical_sorted (value : Json) (hprinted : isPrinted value = true) :
    identical (sorted value) value = true := by
  induction value using value_induction with
  | scalar value harr hobj =>
      have hsame : sorted value = value := by
        cases value with
        | arr items => exact absurd rfl (harr items)
        | obj fields => exact absurd rfl (hobj fields)
        | null | bool | int | float | str => rfl
      have hkey : (scalar? value).isSome = true := by
        cases value with
        | arr items => exact absurd rfl (harr items)
        | obj fields => exact absurd rfl (hobj fields)
        | null | bool | int | float | str => rfl
      rw [hsame, identical, alike_scalar harr hobj, hkey]
      simp
  | arr items ih =>
      rw [isPrinted, isPrintedItems_iff] at hprinted
      rw [sorted, sortedItems_eq]
      refine alikeItems_iff.mpr (List.forall₂_map_left_iff.mpr (List.forall₂_same.mpr ?_))
      exact fun item hmem => ih item hmem (hprinted item hmem)
  | obj fields ih =>
      obtain ⟨hkeys, hprinted⟩ := isPrinted_obj.mp hprinted
      rw [sorted_obj, identical, alike, Bool.and_eq_true, alikeFields_iff]
      refine ⟨by simp [(inOrder_perm fields).length_eq], ?_⟩
      intro field hfield
      obtain ⟨found, hfound, rfl⟩ := List.mem_map.mp hfield
      have hmem := (inOrder_perm fields).subset hfound
      exact ⟨found.2, (field?_iff hkeys).mpr hmem, ih found hmem (hprinted found hmem)⟩

/-- The sorted fields of an object. -/
def sortedObject (fields : List (String × Json)) : List (String × Json) :=
  (inOrder fields).map fun field => (field.1, sorted field.2)

theorem field?_sortedObject {fields : List (String × Json)} (hkeys : (fields.map Prod.fst).Nodup)
    (key : String) : field? (sortedObject fields) key = (field? fields key).map sorted := by
  have hnames : ((inOrder fields).map Prod.fst).Nodup :=
    ((inOrder_perm fields).map Prod.fst).nodup_iff.mpr hkeys
  have horder : field? (inOrder fields) key = field? fields key := by
    cases hfound : field? fields key with
    | some value =>
        rw [field?_iff hnames]
        exact (inOrder_perm fields).symm.subset ((field?_iff hkeys).mp hfound)
    | none =>
        cases hother : field? (inOrder fields) key with
        | none => rfl
        | some value =>
            have hmem := (inOrder_perm fields).subset ((field?_iff hnames).mp hother)
            rw [(field?_iff hkeys).mpr hmem] at hfound
            cases hfound
  rw [← horder]
  unfold field? sortedObject
  rw [List.find?_map, Option.map_map, Option.map_map]
  rfl

end Codex2Lark.Json
