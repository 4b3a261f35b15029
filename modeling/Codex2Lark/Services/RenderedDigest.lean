import Codex2Lark.Services.FlattenedMessages

/-!
The XML of the digest read back: its blockquotes are the entries, each below the heading
of its date. The messages of a list reach the document whole exactly when every time of
theirs can be converted.
-/

namespace Codex2Lark.ChatDigest

open Lib.Distinct
open Lib.Markup (Piece write read htmlEscape)

/-! ### Reading a document -/

/-- Each blockquote of a document, with the text of the last `h2` before it. -/
def blockquotes (heading : Option (List Char)) :
    List Piece → List (Option (List Char) × List Piece)
  | [] => []
  | (tag, text) :: rest =>
      if tag = "h2".toList then blockquotes (some text) rest
      else if tag = "blockquote".toList then
        (heading, rest.takeWhile fun piece => piece.1 ≠ "/blockquote".toList) ::
          blockquotes heading rest
      else blockquotes heading rest

/-- The piece opens neither a heading of the second level nor a blockquote. -/
def Neutral (piece : Piece) : Prop :=
  piece.1 ≠ "h2".toList ∧ piece.1 ≠ "blockquote".toList

theorem blockquotes_neutral {heading : Option (List Char)} {pieces : List Piece}
    (hneutral : ∀ piece ∈ pieces, Neutral piece) (rest : List Piece) :
    blockquotes heading (pieces ++ rest) = blockquotes heading rest := by
  induction pieces with
  | nil => rfl
  | cons piece pieces ih =>
      have hpiece : Neutral piece := hneutral piece List.mem_cons_self
      rw [List.cons_append, blockquotes, if_neg hpiece.1, if_neg hpiece.2]
      exact ih fun other hother => hneutral other (List.mem_cons_of_mem _ hother)

/-- What is inside a blockquote ends at its closing tag. -/
theorem blockquotes_block {heading : Option (List Char)} {inside : List Piece}
    (hneutral : ∀ piece ∈ inside, Neutral piece)
    (hinside : ∀ piece ∈ inside, piece.1 ≠ "/blockquote".toList) (rest : List Piece) :
    blockquotes heading
      (("blockquote".toList, []) :: (inside ++ ("/blockquote".toList, []) :: rest)) =
      (heading, inside) :: blockquotes heading rest := by
  have hends : ∀ piece ∈ inside, decide (piece.1 ≠ "/blockquote".toList) = true := by
    intro piece hpiece
    exact decide_eq_true (hinside piece hpiece)
  rw [blockquotes, if_neg (by decide), if_pos rfl, List.takeWhile_append_of_pos hends,
    List.takeWhile_cons_of_neg (by simp), List.append_nil, blockquotes_neutral hneutral,
    blockquotes, if_neg (by decide), if_neg (by decide)]

/-! ### What the parts write -/

/-- The parts, joined, are the pieces. -/
def Writes (parts : List String) (pieces : List Piece) : Prop :=
  parts.flatMap String.toList = write pieces ∧ ∀ piece ∈ pieces, piece.Plain

theorem Writes.append {parts others : List String} {pieces rest : List Piece}
    (hparts : Writes parts pieces) (hothers : Writes others rest) :
    Writes (parts ++ others) (pieces ++ rest) := by
  refine ⟨?_, ?_⟩
  · rw [List.flatMap_append, hparts.1, hothers.1, Lib.Markup.write_append]
  · intro piece hpiece
    exact (List.mem_append.mp hpiece).elim (hparts.2 piece) (hothers.2 piece)

theorem Writes.flatMap {α : Type} {items : List α} {part : α → String} {pieces : α → List Piece}
    (hwrites : ∀ item ∈ items, Writes [part item] (pieces item)) :
    Writes (items.map part) (items.flatMap pieces) := by
  induction items with
  | nil => exact ⟨rfl, nofun⟩
  | cons item rest ih =>
      exact (hwrites item List.mem_cons_self).append
        (ih fun other hother => hwrites other (List.mem_cons_of_mem _ hother))

theorem Writes.read {parts : List String} {pieces : List Piece} (hwrites : Writes parts pieces) :
    read ("".intercalate parts).toList = pieces := by
  rw [Lib.Markup.joined_toList, hwrites.1]
  exact Lib.Markup.read_write hwrites.2

@[simp] theorem open_not_mem_escape (text : List Char) : '<' ∉ Lib.Markup.escape text :=
  Lib.Markup.escape_safe.1

@[simp] theorem close_not_mem_escape (text : List Char) : '>' ∉ Lib.Markup.escape text :=
  Lib.Markup.escape_safe.2.1

/-- The paragraphs of an entry's blockquote. -/
def entryPieces {τ : Type} (entry : ChatEntry τ) (timeLabel : String) : List Piece :=
  [("p".toList, []),
    ("b".toList, (htmlEscape timeLabel ++ " · " ++ htmlEscape entry.sender ++
      (if entry.threadReply then " · 话题回复" else "")).toList),
    ("/b".toList, []), ("/p".toList, [])] ++
    (textLines entry.text).flatMap fun line =>
      [("p".toList, (htmlEscape line).toList), ("/p".toList, [])]

/-- The piece of one image. -/
def imagePieces {τ : Type} (imagePaths : String → String → Option String) (entry : ChatEntry τ)
    (timeLabel imageKey : String) : List Piece :=
  match imagePaths entry.messageId imageKey with
  | none => [("p".toList, ("图片无法读取: " ++ htmlEscape imageKey).toList), ("/p".toList, [])]
  | some path =>
      [(("img path=\"" ++ htmlEscape path ++ "\" caption=\"" ++
        htmlEscape (entry.sender ++ " · " ++ timeLabel) ++ "\"/").toList, [])]

variable {δ τ : Type} {imagePaths : String → String → Option String}

theorem writes_paragraph (text : String) :
    Writes ["<p>" ++ htmlEscape text ++ "</p>"]
      [("p".toList, (htmlEscape text).toList), ("/p".toList, [])] := by
  refine ⟨?_, ?_⟩
  · simp [Lib.Markup.writePiece]
  · simp [Piece.Plain]

theorem writes_image (entry : ChatEntry τ) (timeLabel imageKey : String) :
    Writes [imagePart imagePaths entry timeLabel imageKey]
      (imagePieces imagePaths entry timeLabel imageKey) := by
  cases hpath : imagePaths entry.messageId imageKey with
  | none =>
      refine ⟨?_, ?_⟩
      · simp [imagePart, imagePieces, hpath, Lib.Markup.writePiece]
      · simp [imagePieces, hpath, Piece.Plain]
  | some path =>
      refine ⟨?_, ?_⟩
      · simp [imagePart, imagePieces, hpath, Lib.Markup.writePiece]
      · simp [imagePieces, hpath, Piece.Plain]

theorem natural_plain (n : Nat) : '<' ∉ Nat.toDigits 10 n := by
  intro hmem
  have hdigit : Char.isDigit '<' = true :=
    Nat.isDigit_of_mem_toDigits (by decide) (by decide) hmem
  exact absurd hdigit (by decide)

/-- The opening of a digest has no heading of a date and no blockquote. -/
theorem writes_opening (chatName start stop : String) (count : Nat) :
    ∃ pieces, Writes (openingParts chatName start stop count) pieces ∧
      ∀ piece ∈ pieces, Neutral piece := by
  refine ⟨[("title".toList, (htmlEscape chatName).toList), ("/title".toList, []),
    ("callout background-color=\"light-blue\" border-color=\"blue\"".toList, []),
    ("p".toList, []), ("b".toList, "群聊:".toList),
    ("/b".toList, (" " ++ htmlEscape chatName).toList), ("/p".toList, []),
    ("p".toList, []), ("b".toList, "时间范围:".toList),
    ("/b".toList, (" " ++ htmlEscape start ++ " 至 " ++ htmlEscape stop).toList), ("/p".toList, []),
    ("p".toList, []), ("b".toList, "消息数量:".toList),
    ("/b".toList, (" " ++ toString count).toList), ("/p".toList, []),
    ("/callout".toList, []), ("h1".toList, "群聊记录".toList), ("/h1".toList, [])],
    ⟨?_, ?_⟩, ?_⟩
  · simp [openingParts, Lib.Markup.writePiece]
  · simp [Piece.Plain, natural_plain]
  · simp [Neutral]

/-- The parts of an entry are its blockquote and pieces that open none. -/
theorem writes_entry (imagePaths : String → String → Option String) (entry : ChatEntry τ)
    (timeLabel : String) :
    ∃ after, Writes (entryParts imagePaths entry timeLabel)
        (("blockquote".toList, []) ::
          (entryPieces entry timeLabel ++ ("/blockquote".toList, []) :: after)) ∧
      ∀ piece ∈ after, Neutral piece := by
  refine ⟨entry.imageKeys.flatMap (imagePieces imagePaths entry timeLabel) ++
    [("hr/".toList, [])], ?_, ?_⟩
  · have hopen : Writes ["<blockquote>",
        "<p><b>" ++ htmlEscape timeLabel ++ " · " ++ htmlEscape entry.sender ++
          (if entry.threadReply then " · 话题回复" else "") ++ "</b></p>"]
        [("blockquote".toList, []), ("p".toList, []),
          ("b".toList, (htmlEscape timeLabel ++ " · " ++ htmlEscape entry.sender ++
            (if entry.threadReply then " · 话题回复" else "")).toList),
          ("/b".toList, []), ("/p".toList, [])] := by
      refine ⟨?_, ?_⟩
      · simp [Lib.Markup.writePiece]
      · cases entry.threadReply <;> simp [Piece.Plain]
    have hlines : Writes ((textLines entry.text).map fun line => "<p>" ++ htmlEscape line ++ "</p>")
        ((textLines entry.text).flatMap fun line =>
          [("p".toList, (htmlEscape line).toList), ("/p".toList, [])]) :=
      Writes.flatMap fun line _ => writes_paragraph line
    have hclose : Writes ["</blockquote>"] [("/blockquote".toList, [])] := by
      refine ⟨?_, ?_⟩
      · simp [Lib.Markup.writePiece]
      · simp [Piece.Plain]
    have himages : Writes (entry.imageKeys.map (imagePart imagePaths entry timeLabel))
        (entry.imageKeys.flatMap (imagePieces imagePaths entry timeLabel)) :=
      Writes.flatMap fun imageKey _ => writes_image entry timeLabel imageKey
    have hrule : Writes ["<hr/>"] [("hr/".toList, [])] := by
      refine ⟨?_, ?_⟩
      · simp [Lib.Markup.writePiece]
      · simp [Piece.Plain]
    have hall := (((hopen.append hlines).append hclose).append himages).append hrule
    simpa only [entryParts, entryPieces, List.append_assoc, List.cons_append, List.nil_append]
      using hall
  · intro piece hpiece
    rcases List.mem_append.mp hpiece with himage | hrule
    · obtain ⟨imageKey, -, hmem⟩ := List.mem_flatMap.mp himage
      unfold imagePieces at hmem
      split at hmem
      · rcases List.mem_cons.mp hmem with rfl | hmem
        · simp [Neutral]
        · obtain rfl := List.mem_singleton.mp hmem
          simp [Neutral]
      · obtain rfl := List.mem_singleton.mp hmem
        simp [Neutral]
    · obtain rfl := List.mem_singleton.mp hrule
      exact ⟨by decide, by decide⟩

theorem entryPieces_tags (entry : ChatEntry τ) (timeLabel : String) :
    ∀ piece ∈ entryPieces entry timeLabel,
      Neutral piece ∧ piece.1 ≠ "/blockquote".toList := by
  intro piece hpiece
  have htag : piece.1 ∈ ["p".toList, "b".toList, "/b".toList, "/p".toList] := by
    rcases List.mem_append.mp hpiece with hhead | hline
    · have htags := List.mem_map_of_mem (f := Prod.fst) hhead
      simpa using htags
    · obtain ⟨line, -, hmem⟩ := List.mem_flatMap.mp hline
      have htags := List.mem_map_of_mem (f := Prod.fst) hmem
      have htags : piece.1 = "p".toList ∨ piece.1 = "/p".toList := by simpa using htags
      rcases htags with htag | htag <;> simp [htag]
  have hall : ∀ tag ∈ ["p".toList, "b".toList, "/b".toList, "/p".toList],
      (tag ≠ "h2".toList ∧ tag ≠ "blockquote".toList) ∧ tag ≠ "/blockquote".toList := by
    decide
  exact hall piece.1 htag

/-! ### The entries of a document -/

/-- The blockquote shows the entry, below its local date. -/
def Shows (library : DigestLibrary δ τ) (entry : ChatEntry τ)
    (block : Option (List Char) × List Piece) : Prop :=
  ∃ dateLabel timeLabel, renderTime library entry = .ok (dateLabel, timeLabel) ∧
    block = (some (htmlEscape dateLabel).toList, entryPieces entry timeLabel)

variable {library : DigestLibrary δ τ}

theorem writes_heading (dateLabel : String) :
    Writes ["<h2>" ++ htmlEscape dateLabel ++ "</h2>"]
      [("h2".toList, (htmlEscape dateLabel).toList), ("/h2".toList, [])] := by
  refine ⟨?_, ?_⟩
  · simp [Lib.Markup.writePiece]
  · simp [Piece.Plain]

/-- Below the heading that is active, the loop writes one blockquote for each entry. -/
theorem renderEntries_reads {entries : List (ChatEntry τ)} {activeDate : Option String}
    {parts : List String}
    (hrender : renderEntries library imagePaths activeDate entries = .ok parts) :
    ∃ pieces, Writes parts pieces ∧ List.Forall₂ (Shows library) entries
      (blockquotes (activeDate.map fun dateLabel => (htmlEscape dateLabel).toList) pieces) := by
  induction entries generalizing activeDate parts with
  | nil =>
      obtain rfl : [] = parts := by simpa [renderEntries] using hrender
      exact ⟨[], ⟨rfl, nofun⟩, .nil⟩
  | cons entry rest ih =>
      obtain ⟨⟨dateLabel, timeLabel⟩, htime, hparts⟩ := PyError.bind_eq_ok.mp hrender
      obtain ⟨later, hlater, hparts⟩ := PyError.bind_eq_ok.mp hparts
      obtain ⟨laterPieces, hwrites, hshown⟩ := ih hlater
      obtain ⟨after, hentry, hafter⟩ := writes_entry imagePaths entry timeLabel
      have hinside := entryPieces_tags entry timeLabel
      -- The blockquote of the entry, under the heading of its date.
      have hblock : blockquotes (some (htmlEscape dateLabel).toList)
          (("blockquote".toList, []) ::
            (entryPieces entry timeLabel ++ ("/blockquote".toList, []) :: after) ++ laterPieces) =
          (some (htmlEscape dateLabel).toList, entryPieces entry timeLabel) ::
            blockquotes (some (htmlEscape dateLabel).toList) laterPieces := by
        rw [List.cons_append, List.append_assoc, List.cons_append,
          blockquotes_block (fun piece h => (hinside piece h).1) fun piece h => (hinside piece h).2,
          blockquotes_neutral hafter]
      have hall : List.Forall₂ (Shows library) (entry :: rest)
          (blockquotes (some (htmlEscape dateLabel).toList)
            (("blockquote".toList, []) ::
              (entryPieces entry timeLabel ++ ("/blockquote".toList, []) :: after) ++
              laterPieces)) := by
        rw [hblock]
        exact .cons ⟨dateLabel, timeLabel, htime, rfl⟩ hshown
      by_cases hactive : some dateLabel = activeDate
      · rw [if_pos hactive] at hparts
        cases hparts
        refine ⟨_, hentry.append hwrites, ?_⟩
        rw [← hactive]
        exact hall
      · rw [if_neg hactive] at hparts
        cases hparts
        refine ⟨_, ((writes_heading dateLabel).append hentry).append hwrites, ?_⟩
        rw [List.append_assoc, List.cons_append, List.singleton_append, blockquotes, if_pos rfl,
          blockquotes, if_neg (by decide), if_neg (by decide)]
        exact hall

/-- The loop goes through exactly when every entry has a date to show. -/
theorem renderEntries_returns (imagePaths : String → String → Option String)
    {entries : List (ChatEntry τ)} (activeDate : Option String) :
    (∃ parts, renderEntries library imagePaths activeDate entries = .ok parts) ↔
      ∀ entry ∈ entries, ∃ labels, renderTime library entry = .ok labels := by
  induction entries generalizing activeDate with
  | nil => simp [renderEntries]
  | cons entry rest ih =>
      rw [List.forall_mem_cons]
      constructor
      · rintro ⟨parts, hparts⟩
        obtain ⟨labels, htime, hparts⟩ := PyError.bind_eq_ok.mp hparts
        obtain ⟨later, hlater, -⟩ := PyError.bind_eq_ok.mp hparts
        exact ⟨⟨labels, htime⟩, (ih _).mp ⟨later, hlater⟩⟩
      · rintro ⟨⟨labels, htime⟩, hrest⟩
        obtain ⟨later, hlater⟩ := (ih (some labels.1)).mpr hrest
        refine ⟨_, PyError.bind_eq_ok.mpr ⟨labels, htime, PyError.bind_eq_ok.mpr
          ⟨later, hlater, rfl⟩⟩⟩

theorem renderDigestXml_reads {entries : List (ChatEntry τ)} {chatName start stop xml : String}
    (hrender : renderDigestXml library imagePaths chatName start stop entries = .ok xml) :
    List.Forall₂ (Shows library) entries (blockquotes none (read xml.toList)) := by
  obtain ⟨opening, hopening, hneutral⟩ := writes_opening chatName start stop entries.length
  rw [renderDigestXml] at hrender
  split at hrender
  · rename_i hempty
    obtain rfl := List.isEmpty_iff.mp hempty
    obtain rfl := Except.ok.inj hrender
    have hnone : Writes ["<p>该时间范围内没有消息。</p>"]
        [("p".toList, "该时间范围内没有消息。".toList), ("/p".toList, [])] := by
      refine ⟨?_, ?_⟩
      · simp [Lib.Markup.writePiece]
      · simp [Piece.Plain]
    rw [(hopening.append hnone).read, blockquotes_neutral hneutral]
    simp [blockquotes]
  · obtain ⟨rendered, hrendered, hxml⟩ := PyError.bind_eq_ok.mp hrender
    obtain rfl := Except.ok.inj hxml
    obtain ⟨pieces, hpieces, hshown⟩ := renderEntries_reads hrendered
    rw [(hopening.append hpieces).read, blockquotes_neutral hneutral]
    exact hshown

theorem renderDigestXml_returns (imagePaths : String → String → Option String)
    (chatName start stop : String) {entries : List (ChatEntry τ)} :
    (∃ xml, renderDigestXml library imagePaths chatName start stop entries = .ok xml) ↔
      ∀ entry ∈ entries, ∃ labels, renderTime library entry = .ok labels := by
  rw [← renderEntries_returns imagePaths none, renderDigestXml]
  split
  · rename_i hempty
    obtain rfl := List.isEmpty_iff.mp hempty
    exact ⟨fun _ => ⟨_, rfl⟩, fun _ => ⟨_, rfl⟩⟩
  · constructor
    · rintro ⟨xml, hxml⟩
      obtain ⟨rendered, hrendered, -⟩ := PyError.bind_eq_ok.mp hxml
      exact ⟨rendered, hrendered⟩
    · rintro ⟨rendered, hrendered⟩
      exact ⟨_, PyError.bind_eq_ok.mpr ⟨rendered, hrendered, rfl⟩⟩

end Codex2Lark.ChatDigest
