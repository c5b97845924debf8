import TensorBind.Proofs.Text.Safety

/-!
# Lines and columns

A refusal tells its place by a line and a column, both counted from one. A
cursor finds them by two separate looks at what lies behind it: the line by
counting line feeds, the column by going back to the last one.

What the two numbers should say is stated of the lines of the text alone
(`Text.Locates`): the line exists, the column does not pass its end, and the
bytes up to there are as many as the position says. The line and the column
of a cursor are of this kind (`Cursor.locates`), and no other pair is
(`Text.Locates.unique`): each line is followed by its line feed, so the end
of a line and the start of the next are different positions. The position of
a refusal can therefore be had back from its line and column
(`Parser.refusal_position`).

All this is about every byte of a text, and readers only get to places
between two of its characters. What they report is such a place
(`Parser.Keeps.splits_offset`).
-/

namespace List

variable {α : Type}

/-- Nothing in front of the first piece changes nothing. -/
theorem modifyHead_nil_append (pieces : List (List α)) :
    pieces.modifyHead ([] ++ ·) = pieces :=
  congrFun modifyHead_id pieces

variable [BEq α] [LawfulBEq α] {a : α}

/-- Up to the first mark everything belongs to the first piece. -/
theorem splitOn_append_of_not_mem {xs : List α} (h : a ∉ xs)
    (ys : List α) :
    (xs ++ ys).splitOn a = (ys.splitOn a).modifyHead (xs ++ ·) := by
  induction xs with
  | nil => exact (modifyHead_nil_append _).symm
  | cons x xs ih =>
    rw [mem_cons, not_or] at h
    rw [cons_append, splitOn_cons_eq_if_modifyHead,
      if_neg (fun hx => h.1 (eq_of_beq hx).symm), ih h.2,
      modifyHead_modifyHead]
    rfl

end List

namespace TensorBind

/-! ## The lines of a text -/

theorem length_byteChars (text : String) :
    (byteChars text).length = text.utf8ByteSize := by
  rw [byteChars, List.length_map, String.toUTF8_eq_toByteArray]
  exact String.size_toByteArray

/-- A line feed is a byte of no other character. -/
theorem newline_not_mem_charBytes {c : Char} (h : c ≠ '\n') :
    '\n' ∉ charBytes c := by
  intro hmem
  rw [charBytes_of_isBasic (isBasic_of_mem_charBytes hmem rfl),
    List.mem_singleton] at hmem
  exact h hmem.symm

/-- **The bytes of the lines are the lines of the bytes.** -/
theorem splitOn_flatMap_charBytes (chars : List Char) :
    (chars.flatMap charBytes).splitOn '\n'
      = (chars.splitOn '\n').map (·.flatMap charBytes) := by
  induction chars with
  | nil => rfl
  | cons c chars ih =>
    rw [List.flatMap_cons, List.splitOn_cons_eq_if_modifyHead]
    by_cases hc : c = '\n'
    · subst hc
      rw [if_pos (beq_self_eq_true _), charBytes_of_isBasic rfl,
        List.singleton_append, List.splitOn_cons_eq_if_modifyHead,
        if_pos (beq_self_eq_true _), ih]
      rfl
    · rw [if_neg (fun h => hc (eq_of_beq h)),
        List.splitOn_append_of_not_mem (newline_not_mem_charBytes hc), ih]
      cases chars.splitOn '\n' with
      | nil => rfl
      | cons line lines => rfl

namespace Text

/-- **The lines of a text**: what stands between its line feeds. -/
def lines (text : String) : List String :=
  (text.toList.splitOn '\n').map String.ofList

/-- How many bytes are in front of a line, the lines counted from zero. -/
def lineStart (text : String) (line : Nat) : Nat :=
  (((lines text).take line).map fun l => l.utf8ByteSize + 1).sum

/-- **The position of a line and a column**, both counted from one. -/
def offset (text : String) (line column : Nat) : Nat :=
  lineStart text (line - 1) + (column - 1)

/-- **A line and a column are those of a position** in a text: the line
exists, the column is in it or at its end, and the bytes up to there are as
many as the position says. -/
structure Locates (text : String) (line column position : Nat) : Prop where
  /-- Lines are counted from one. -/
  one_le_line : 1 ≤ line
  /-- Columns are counted from one. -/
  one_le_column : 1 ≤ column
  /-- The line exists and is long enough. -/
  exists_line : ∃ l, (lines text)[line - 1]? = some l
    ∧ column - 1 ≤ l.utf8ByteSize
  /-- The bytes up to there. -/
  offset_eq : offset text line column = position

variable {text : String} {line line' column column' position : Nat}

theorem splitOn_byteChars (text : String) :
    (byteChars text).splitOn '\n' = (lines text).map byteChars := by
  rw [byteChars_eq_flatMap, splitOn_flatMap_charBytes, lines, List.map_map]
  refine List.map_congr_left fun chars _ => ?_
  exact (byteChars_ofList chars).symm

theorem lineStart_succ {l : String} (h : (lines text)[line]? = some l) :
    lineStart text (line + 1)
      = lineStart text line + (l.utf8ByteSize + 1) := by
  rw [lineStart, List.take_add_one, h, List.map_append, List.sum_append]
  rfl

theorem monotone_lineStart (text : String) : Monotone (lineStart text) := by
  refine monotone_nat_of_le_succ fun n => ?_
  rw [lineStart, lineStart, List.take_add_one, List.map_append,
    List.sum_append]
  exact Nat.le_add_right _ _

namespace Locates

/-- No position is on two lines: a line ends, with its line feed, in front
of the next. -/
theorem line_le (h : Locates text line column position)
    (h' : Locates text line' column' position) : line' ≤ line := by
  refine Nat.le_of_not_lt fun hlt => ?_
  obtain ⟨l, hl, hcolumn⟩ := h.exists_line
  have hline : line - 1 + 1 ≤ line' - 1 := by
    have hpos := h.one_le_line
    omega
  have hstart := monotone_lineStart text hline
  rw [lineStart_succ hl] at hstart
  have hoffset : lineStart text (line - 1) + (column - 1)
      = lineStart text (line' - 1) + (column' - 1) :=
    h.offset_eq.trans h'.offset_eq.symm
  omega

/-- **A position has one line and one column.** -/
theorem unique (h : Locates text line column position)
    (h' : Locates text line' column' position) :
    line = line' ∧ column = column' := by
  obtain rfl : line = line' := Nat.le_antisymm (h'.line_le h) (h.line_le h')
  refine ⟨rfl, ?_⟩
  have hoffset : lineStart text (line - 1) + (column - 1)
      = lineStart text (line - 1) + (column' - 1) :=
    h.offset_eq.trans h'.offset_eq.symm
  have hcolumn := h.one_le_column
  have hcolumn' := h'.one_le_column
  omega

end Locates

end Text

/-! ## Where a cursor is -/

namespace Cursor

variable {text : String} {c : Cursor}

/-- **What has been read, line by line**: whole lines, as many as there are
line feeds in it, and a piece of the line that goes on with what is to
come. -/
theorem exists_front (before rest : List Char) :
    ∃ front : List (List Char),
      (before.reverse ++ rest).splitOn '\n'
        = front ++ (rest.splitOn '\n').modifyHead
          ((before.takeWhile (· != '\n')).reverse ++ ·)
      ∧ front.length = before.count '\n'
      ∧ (front.map (·.length + 1)).sum
          + (before.takeWhile (· != '\n')).length = before.length := by
  -- one byte more has been read: it ends the line or makes its piece longer
  induction before generalizing rest with
  | nil =>
    exact ⟨[], (List.modifyHead_nil_append _).symm, rfl, rfl⟩
  | cons d before ih =>
    obtain ⟨front, hsplit, hlength, hsum⟩ := ih (d :: rest)
    rw [List.splitOn_cons_eq_if_modifyHead] at hsplit
    rw [List.reverse_cons, List.append_assoc, List.singleton_append, hsplit]
    by_cases hd : d = '\n'
    · subst hd
      rw [if_pos (beq_self_eq_true _), List.takeWhile_cons_of_neg (by simp)]
      refine ⟨front ++ [(before.takeWhile (· != '\n')).reverse], ?_, ?_, ?_⟩
      · rw [List.modifyHead_cons, List.append_nil, List.append_assoc,
          List.singleton_append, List.reverse_nil, List.modifyHead_nil_append]
      · rw [List.length_append, hlength, List.count_cons_self]
        rfl
      · rw [List.map_append, List.sum_append, List.map_singleton,
          List.sum_singleton, List.length_reverse, List.length_nil,
          List.length_cons, ← hsum]
        omega
    · rw [if_neg (fun h => hd (eq_of_beq h)),
        List.takeWhile_cons_of_pos (by simpa using hd),
        List.modifyHead_modifyHead]
      refine ⟨front, ?_, ?_, ?_⟩
      · rw [List.reverse_cons]
        simp only [List.append_assoc, List.singleton_append]
        rfl
      · rw [hlength, List.count_cons_of_ne hd]
      · rw [List.length_cons, List.length_cons, ← Nat.add_assoc, hsum]

/-- **The line and the column of a cursor** are those of its position. -/
theorem locates (h : c.text = byteChars text) :
    Text.Locates text c.line c.column c.position := by
  obtain ⟨front, hsplit, hlength, hsum⟩ := exists_front c.before c.rest
  obtain ⟨first, more, hrest⟩ :=
    List.exists_cons_of_ne_nil (List.splitOn_ne_nil '\n' c.rest)
  have hlines : (Text.lines text).map byteChars
      = front ++ ((c.before.takeWhile (· != '\n')).reverse ++ first)
        :: more := by
    rw [← Text.splitOn_byteChars, ← h, Cursor.text, hsplit, hrest,
      List.modifyHead_cons]
  obtain ⟨earlier, later, hsplitLines, rfl, hlater⟩ :=
    List.map_eq_append_iff.mp hlines
  obtain ⟨current, following, rfl, hcurrent, -⟩ :=
    List.map_eq_cons_iff.mp hlater
  rw [List.length_map] at hlength
  refine ⟨Nat.le_add_left _ _, Nat.le_add_left _ _, ⟨current, ?_, ?_⟩, ?_⟩
  · rw [line, Nat.add_sub_cancel, hsplitLines, ← hlength,
      List.getElem?_append_right (Nat.le_refl _), Nat.sub_self]
    rfl
  · rw [column, Nat.add_sub_cancel, ← length_byteChars, hcurrent,
      List.length_append, List.length_reverse]
    exact Nat.le_add_right _ _
  · rw [Text.offset, Text.lineStart, line, column, Nat.add_sub_cancel,
      Nat.add_sub_cancel, hsplitLines, ← hlength, List.take_left, position,
      ← hsum, List.map_map]
    simp only [Function.comp_def, length_byteChars]

/-- A cursor is the one that goes to its position from the start. -/
theorem advance_position (h : c.text = byteChars text) :
    (ofText text).advance c.position = c := by
  have hlength : c.position = c.before.reverse.length :=
    List.length_reverse.symm
  rw [ofText, ← h, advance, Cursor.text, hlength, List.take_left,
    List.drop_left, List.reverse_reverse, List.append_nil]

end Cursor

/-! ## Where a text is refused -/

namespace Parser

/-- **What a reader reports is a place between two characters**, and which
one can be told from the line and the column. -/
theorem Keeps.splits_offset {α : Type} {text : String}
    {extra : ParseError → Prop} {p : Parser α} (h : Keeps text extra p)
    (hextra : ∀ line column cause, ¬extra (.refused line column cause))
    {line column : Nat} {cause : ParseCause}
    (hrefused : p.onText text = .error (.refused line column cause)) :
    Text.Locates text line column (Text.offset text line column)
      ∧ ((Cursor.ofText text).advance
        (Text.offset text line column)).Splits text := by
  rcases h.onText with ⟨a, ha⟩ | ⟨place, cause', hplace, hcause⟩ | ⟨e, he, hfail⟩
  · rw [ha] at hrefused
    cases hrefused
  · rw [hrefused] at hcause
    obtain ⟨rfl, rfl, -⟩ := ParseError.refused.inj (Except.error.inj hcause)
    have hlocates := Cursor.locates hplace.text_eq
    rw [hlocates.offset_eq, Cursor.advance_position hplace.text_eq]
    exact ⟨hlocates, hplace⟩
  · rw [hrefused] at hfail
    cases hfail
    exact absurd he (hextra line column cause)

end Parser

end TensorBind
