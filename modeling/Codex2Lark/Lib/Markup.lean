import Mathlib.Data.List.Basic
import Mathlib.Tactic.SplitIfs

/-!
Documents written with tags between angle brackets, as in HTML and XML: the escape that
keeps a text out of the tags, and the reader that takes a document apart at its tags.
-/

namespace Codex2Lark.Lib.Markup

/-- `html.escape` of one character, with `quote=True`. -/
def escapeChar (c : Char) : List Char :=
  if c = '&' then "&amp;".toList
  else if c = '<' then "&lt;".toList
  else if c = '>' then "&gt;".toList
  else if c = '"' then "&quot;".toList
  else if c = Char.ofNat 39 then "&#x27;".toList
  else [c]

def escape (text : List Char) : List Char := text.flatMap escapeChar

/-- `html.escape`. -/
def htmlEscape (text : String) : String := String.ofList (escape text.toList)

@[simp] theorem htmlEscape_toList (text : String) :
    (htmlEscape text).toList = escape text.toList := String.toList_ofList

/-- Joined parts are the characters of the parts. -/
theorem joined_toList (parts : List String) :
    ("".intercalate parts).toList = parts.flatMap String.toList := by
  induction parts with
  | nil => rfl
  | cons part rest ih =>
      cases rest with
      | nil => simp
      | cons next rest => rw [String.intercalate_cons_cons]; simp [ih]

/-- An escaped text has no bracket and no quote. -/
theorem escape_safe {text : List Char} :
    '<' ∉ escape text ∧ '>' ∉ escape text ∧ '"' ∉ escape text := by
  have hchar : ∀ c, '<' ∉ escapeChar c ∧ '>' ∉ escapeChar c ∧ '"' ∉ escapeChar c := by
    intro c
    unfold escapeChar
    split_ifs with hamp hopen hclose hquote happ
    all_goals first
      | decide
      | exact ⟨by simpa using Ne.symm hopen, by simpa using Ne.symm hclose,
          by simpa using Ne.symm hquote⟩
  refine ⟨?_, ?_, ?_⟩
  · intro hmem
    obtain ⟨c, -, hc⟩ := List.mem_flatMap.mp hmem
    exact (hchar c).1 hc
  · intro hmem
    obtain ⟨c, -, hc⟩ := List.mem_flatMap.mp hmem
    exact (hchar c).2.1 hc
  · intro hmem
    obtain ⟨c, -, hc⟩ := List.mem_flatMap.mp hmem
    exact (hchar c).2.2 hc

/-- A tag, written between the brackets, and the text up to the next tag. -/
abbrev Piece := List Char × List Char

def writePiece (piece : Piece) : List Char := '<' :: piece.1 ++ '>' :: piece.2

def write (pieces : List Piece) : List Char := pieces.flatMap writePiece

/-- The pieces of a document, what stands before its first tag apart. -/
def read (document : List Char) : List Piece :=
  ((document.splitOn '<').drop 1).map fun segment =>
    (segment.takeWhile (· ≠ '>'), (segment.dropWhile (· ≠ '>')).tail)

/-- The brackets of a piece are the two that stand around its tag. -/
def Piece.Plain (piece : Piece) : Prop := '<' ∉ piece.1 ∧ '>' ∉ piece.1 ∧ '<' ∉ piece.2

variable {pieces others : List Piece}

@[simp] theorem write_nil : write [] = [] := rfl

@[simp] theorem write_cons (piece : Piece) (pieces : List Piece) :
    write (piece :: pieces) = writePiece piece ++ write pieces := rfl

theorem write_append : write (pieces ++ others) = write pieces ++ write others :=
  List.flatMap_append

theorem write_eq_intercalate (pieces : List Piece) :
    write pieces = ['<'].intercalate ([] :: pieces.map fun piece => piece.1 ++ '>' :: piece.2) := by
  induction pieces with
  | nil => rfl
  | cons piece rest ih =>
      rw [write_cons, ih]
      cases rest with
      | nil => simp [writePiece, List.intercalate]
      | cons next rest => simp [writePiece, List.intercalate]

/-- What was written plainly is read back piece by piece. -/
theorem read_write (hplain : ∀ piece ∈ pieces, piece.Plain) : read (write pieces) = pieces := by
  have hsplit : (write pieces).splitOn '<' =
      [] :: pieces.map fun piece => piece.1 ++ '>' :: piece.2 := by
    rw [write_eq_intercalate]
    refine List.splitOn_intercalate '<' ?_ (List.cons_ne_nil _ _)
    intro segment hsegment
    rcases List.mem_cons.mp hsegment with rfl | hsegment
    · exact List.not_mem_nil
    · obtain ⟨piece, hpiece, rfl⟩ := List.mem_map.mp hsegment
      have h := hplain piece hpiece
      simp [h.1, h.2.2]
  have hpiece : ∀ piece ∈ pieces,
      ((piece.1 ++ '>' :: piece.2).takeWhile (· ≠ '>'),
        ((piece.1 ++ '>' :: piece.2).dropWhile (· ≠ '>')).tail) = piece := by
    intro piece hpiece
    have htag : ∀ c ∈ piece.1, decide (c ≠ '>') = true := by
      intro c hc
      exact decide_eq_true fun h => (hplain piece hpiece).2.1 (h ▸ hc)
    rw [List.takeWhile_append_of_pos htag, List.dropWhile_append_of_pos htag]
    simp
  rw [read, hsplit, List.drop_one, List.tail_cons, List.map_map]
  calc pieces.map _ = pieces.map id := List.map_congr_left hpiece
    _ = pieces := List.map_id pieces

end Codex2Lark.Lib.Markup
