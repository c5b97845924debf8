import TensorBind.Proofs.Text.Encoding
import TensorBind.Proofs.Text.Yields

/-!
# Reading what was written

`Parser.Reads` says what a reader gives for a text that is known: the value
and what is left of the text. It does not depend on what was read before,
so what is proved for a piece of a text holds wherever the piece stands.

What stands after a piece does matter, since names and numbers go on as
long as they can. Each rule for a token says what must not follow. Blanks
in front of a token are passed over, and `Cursor.unblanked` is the text
behind them; for the front of a text that is known it is computed.

A text that begins in a way a reader does not accept is refused
(`Parser.Refuses`).
-/

namespace TensorBind

/-! ## Blanks -/

namespace Cursor

/-- **A text behind the blanks** and comments it begins with. -/
def unblanked (text : List Char) : List Char :=
  text.drop (blankLength false text)

/-- Behind blanks there are none. -/
theorem blankLength_drop (inComment : Bool) (text : List Char) :
    blankLength false (text.drop (blankLength inComment text)) = 0 := by
  induction text generalizing inComment with
  | nil => rfl
  | cons c rest ih =>
    cases hlength : blankLength inComment (c :: rest) with
    | zero =>
      rw [List.drop_zero]
      cases inComment with
      | false => exact hlength
      | true =>
        rw [blankLength, if_pos rfl] at hlength
        cases hlength
    | succ length =>
      rw [List.drop_succ_cons]
      unfold blankLength at hlength
      split at hlength
      · rw [← Nat.succ.inj hlength]
        exact ih _
      · split at hlength
        · rw [← Nat.succ.inj hlength]
          exact ih true
        · split at hlength
          · rw [← Nat.succ.inj hlength]
            exact ih false
          · cases hlength

theorem unblanked_unblanked (text : List Char) :
    unblanked (unblanked text) = unblanked text := by
  show (unblanked text).drop (blankLength false (unblanked text)) = _
  rw [unblanked, blankLength_drop, List.drop_zero]

@[simp]
theorem unblanked_space (rest : List Char) :
    unblanked (' ' :: rest) = unblanked rest := rfl

/-- A character that is not passed over, whatever follows it. -/
def isSolid (c : Char) : Bool := !isBlank c && c != '/'

theorem length_unblanked_le (text : List Char) :
    (unblanked text).length ≤ text.length := by
  rw [unblanked, List.length_drop]
  exact Nat.sub_le _ _

theorem unblanked_cons {c : Char} (h : isSolid c) (rest : List Char) :
    unblanked (c :: rest) = c :: rest := by
  rw [isSolid, Bool.and_eq_true, Bool.not_eq_true', bne_iff_ne] at h
  rw [unblanked, blankLength, if_neg Bool.false_ne_true,
    if_neg fun hslash => h.2 hslash.1, h.1]
  rfl

/-- Moving past a piece of a text. -/
theorem advance_append (before piece rest : List Char) :
    advance ⟨before, piece ++ rest⟩ piece.length
      = ⟨piece.reverse ++ before, rest⟩ := by
  rw [advance, List.take_left, List.drop_left]

theorem isSolid_of_isNameChar {c : Char} (h : isNameChar c) :
    isSolid c := by
  rw [isSolid, Bool.and_eq_true, Bool.not_eq_true', bne_iff_ne]
  refine ⟨Bool.eq_false_iff.mpr fun hblank => ?_, ?_⟩
  · simp only [isBlank, Bool.or_eq_true, beq_iff_eq] at hblank
    rcases hblank with (((rfl | rfl) | rfl) | rfl) | rfl
    all_goals exact absurd h (by decide)
  · rintro rfl
    exact absurd h (by decide)

end Cursor

namespace Parser

open Cursor (unblanked)

variable {α β σ : Type} {p : Parser α} {a : α}
  {text rest mid : List Char}

/-- **What a reader gives for a text**, and what it leaves of it. -/
def Reads (p : Parser α) (text : List Char) (a : α) (rest : List Char) :
    Prop :=
  ∀ before, ∃ before', p ⟨before, text⟩ = .ok (a, ⟨before', rest⟩)

/-- **A reader does not accept a text.** -/
def Refuses (p : Parser α) (text : List Char) : Prop :=
  ∀ before, ∃ e, p ⟨before, text⟩ = .error e

/-- A run of characters of a class ends where no more follow. -/
theorem takeWhile_append {p : Char → Bool} {run : List Char}
    (hrun : ∀ c ∈ run, p c) (hrest : rest.head?.any p = false) :
    (run ++ rest).takeWhile p = run := by
  rw [List.takeWhile_append_of_pos hrun]
  cases rest with
  | nil => exact List.append_nil run
  | cons c rest =>
    rw [List.head?_cons, Option.any_some] at hrest
    rw [List.takeWhile_cons_of_neg (Bool.eq_false_iff.mp hrest),
      List.append_nil]

namespace Reads

theorem pure (a : α) (text : List Char) :
    Reads (Pure.pure a) text a text :=
  fun before => ⟨before, rfl⟩

/-- **One reader after another.** -/
theorem bind {first : Parser β} {second : β → Parser α} {b : β}
    (hfirst : Reads first text b mid) (hsecond : Reads (second b) mid a rest) :
    Reads (first >>= second) text a rest := by
  intro before
  obtain ⟨middle, hmiddle⟩ := hfirst before
  obtain ⟨after, hafter⟩ := hsecond middle
  exact ⟨after, (bind_of_eq_ok hmiddle).trans hafter⟩

theorem get {second : Cursor → Parser α}
    (h : ∀ start, Reads (second start) text a rest) :
    Reads (MonadState.get >>= second) text a rest :=
  fun before => h ⟨before, text⟩ before

theorem peek : Reads Parser.peek text text.head? text :=
  fun before => ⟨before, rfl⟩

theorem atEnd : Reads Parser.atEnd text text.isEmpty text :=
  fun before => ⟨before, rfl⟩

theorem skipOne {c : Char} : Reads Parser.skipOne (c :: rest) () rest :=
  fun before => ⟨c :: before, rfl⟩

/-- **To the next line.** -/
theorem skipLine {line : List Char} (h : '\n' ∉ line) :
    Reads Parser.skipLine (line ++ '\n' :: rest) () rest := by
  intro before
  have hline : ∀ c ∈ line, c != '\n' :=
    fun c hc => bne_iff_ne.mpr fun heq => h (heq ▸ hc)
  have hadvance := Cursor.advance_append before (line ++ ['\n']) rest
  rw [List.length_append, List.append_assoc] at hadvance
  refine ⟨(line ++ ['\n']).reverse ++ before, ?_⟩
  unfold Parser.skipLine Cursor.skipLine Cursor.run
  dsimp only
  rw [takeWhile_append hline rfl]
  exact congrArg (fun next => Except.ok ((), next)) hadvance

theorem skipBlanks : Reads Parser.skipBlanks text () (unblanked text) :=
  fun _ => ⟨_, rfl⟩

/-! ## Tokens -/

theorem tryChar {wanted : Char} (h : unblanked text = wanted :: rest) :
    Reads (Parser.tryChar wanted) text true rest := by
  refine skipBlanks.bind (peek.bind ?_)
  rw [h, List.head?_cons, if_pos rfl]
  exact skipOne.bind (.pure true rest)

/-- A character that does not come next is not taken. -/
theorem tryChar_ne {wanted : Char}
    (h : (unblanked text).head? ≠ some wanted) :
    Reads (Parser.tryChar wanted) text false (unblanked text) := by
  refine skipBlanks.bind (peek.bind ?_)
  rw [if_neg h]
  exact .pure false _

theorem expectChar {wanted : Char} (h : unblanked text = wanted :: rest) :
    Reads (Parser.expectChar wanted) text () rest :=
  (tryChar h).bind (.pure () rest)

theorem tryKeyword {word : String}
    (h : unblanked text = word.toList ++ rest)
    (hrest : rest.head?.any isNameChar = false) :
    Reads (Parser.tryKeyword word) text true rest := by
  refine skipBlanks.bind fun before => ⟨word.toList.reverse ++ before, ?_⟩
  have hstarts : startsWithWord word.toList (word.toList ++ rest) := by
    rw [startsWithWord, List.drop_left, hrest, Bool.not_false,
      Bool.and_true, List.isPrefixOf_iff_prefix]
    exact List.prefix_append _ _
  dsimp only
  rw [h, if_pos hstarts, Cursor.advance_append]

/-- A keyword that does not come next is not taken. -/
theorem tryKeyword_ne {word : String}
    (h : startsWithWord word.toList (unblanked text) = false) :
    Reads (Parser.tryKeyword word) text false (unblanked text) := by
  refine skipBlanks.bind fun before => ⟨before, ?_⟩
  dsimp only
  rw [if_neg (Bool.eq_false_iff.mp h)]

theorem expectKeyword {word : String}
    (h : unblanked text = word.toList ++ rest)
    (hrest : rest.head?.any isNameChar = false) :
    Reads (Parser.expectKeyword word) text () rest :=
  (tryKeyword h hrest).bind (.pure () rest)

/-- **The longest run** of characters of a class. -/
theorem takeRun {p : Char → Bool} {run : List Char}
    (hrun : ∀ c ∈ run, p c) (hrest : rest.head?.any p = false) :
    Reads (Parser.takeRun p) (run ++ rest) run rest := by
  intro before
  refine ⟨run.reverse ++ before, ?_⟩
  unfold Parser.takeRun Cursor.run
  dsimp only
  rw [takeWhile_append hrun hrest, Cursor.advance_append]

end Reads

theorem IsName.exists_cons {name : String} (h : IsName name) :
    ∃ c tail, name.toList = c :: tail ∧ isNameChar c := by
  obtain ⟨hne, hchars⟩ := h
  obtain ⟨c, tail, hname⟩ := List.exists_cons_of_ne_nil hne
  rw [hname] at hchars
  exact ⟨c, tail, hname, hchars c List.mem_cons_self⟩

/-- A name is not passed over. -/
theorem IsName.unblanked_append {name : String} (h : IsName name)
    (rest : List Char) :
    unblanked (name.toList ++ rest) = name.toList ++ rest := by
  obtain ⟨c, tail, hname, hc⟩ := h.exists_cons
  rw [hname]
  exact Cursor.unblanked_cons (Cursor.isSolid_of_isNameChar hc) _

theorem IsName.isBasicText {name : String} (h : IsName name) :
    IsBasicText name :=
  fun c hc => isBasic_of_isNameChar (h.2 c hc)

/-- **A keyword comes next only where it stands.** In front of a name that
is another word, no keyword does. -/
theorem IsName.startsWithWord_eq_false {name word : String}
    (hname : IsName name) (hword : IsName word) (hne : name ≠ word)
    (hrest : rest.head?.any isNameChar = false) :
    startsWithWord word.toList (name.toList ++ rest) = false := by
  refine Bool.eq_false_iff.mpr fun hstarts => hne ?_
  rw [startsWithWord, Bool.and_eq_true, Bool.not_eq_true',
    List.isPrefixOf_iff_prefix] at hstarts
  obtain ⟨⟨more, hmore⟩, hnext⟩ := hstarts
  rw [← hmore, List.drop_left] at hnext
  have htaken := takeWhile_append hname.2 hrest
  rw [← hmore, takeWhile_append hword.2 hnext] at htaken
  exact String.toList_inj.mp htaken.symm

/-- A name does not begin with a character that names do not have. -/
theorem IsName.head?_ne {name : String} {c : Char} (h : IsName name)
    (hc : isNameChar c = false) (rest : List Char) :
    (name.toList ++ rest).head? ≠ some c := by
  obtain ⟨d, tail, hname, hd⟩ := h.exists_cons
  rw [hname, List.cons_append, List.head?_cons, ne_eq, Option.some.injEq]
  rintro rfl
  rw [hd] at hc
  cases hc

namespace Reads

theorem word {name : String} (hname : IsName name)
    (h : unblanked text = name.toList ++ rest)
    (hrest : rest.head?.any isNameChar = false) :
    Reads Parser.word text name rest := by
  refine skipBlanks.bind ?_
  rw [h]
  refine (takeRun hname.2 hrest).bind ?_
  rw [if_neg (mt List.isEmpty_iff.mp hname.1), String.ofList_toList]
  exact .pure name rest

theorem identifier {name : String} (hname : IsName name)
    (hfirst : name.toList.head?.any startsIdentifier)
    (h : unblanked text = name.toList ++ rest)
    (hrest : rest.head?.any isNameChar = false) :
    Reads Parser.identifier text name rest := by
  refine skipBlanks.bind (peek.bind ?_)
  have hhead : (unblanked text).head?.any startsIdentifier := by
    cases hchars : name.toList with
    | nil => exact absurd hchars hname.1
    | cons c chars =>
      rw [hchars] at h hfirst
      rw [h]
      exact hfirst
  rw [if_pos hhead, h]
  refine (takeRun hname.2 hrest).bind ?_
  rw [String.ofList_toList]
  exact .pure name rest

theorem natural {digits : List Char} {n : Nat} (hne : digits ≠ [])
    (hdigits : ∀ c ∈ digits, isDecimalDigit c)
    (hn : Integer.readWord digits = .ok n)
    (h : unblanked text = digits ++ rest)
    (hrest : rest.head?.any isDecimalDigit = false) :
    Reads Parser.natural text n rest := by
  refine skipBlanks.bind ?_
  rw [h]
  refine (takeRun hdigits hrest).bind ?_
  rw [if_neg (mt List.isEmpty_iff.mp hne), hn]
  exact .pure n rest

end Reads

/-! ## Groups -/

/-- A group without another one in it ends where it is closed. -/
theorem find_eq_closed {opening closing : Char} {inside : List Char}
    (hne : closing ≠ opening)
    (hinside : ∀ c ∈ inside, c ≠ opening ∧ c ≠ closing)
    (rest : List Char) :
    GroupEnd.find opening closing 1 (inside ++ closing :: rest)
      = .closed (inside.length + 1) := by
  induction inside with
  | nil =>
    rw [List.nil_append, GroupEnd.find, if_neg hne, if_pos rfl]
    rfl
  | cons c inside ih =>
    obtain ⟨⟨hopening, hclosing⟩, hinside⟩ := List.forall_mem_cons.mp hinside
    rw [List.cons_append, GroupEnd.find, if_neg hopening, if_neg hclosing,
      ih hinside]
    rfl

theorem Reads.skipGroup {opening closing : Char} {inside : List Char}
    (hne : closing ≠ opening)
    (hinside : ∀ c ∈ inside, c ≠ opening ∧ c ≠ closing) :
    Reads (Parser.skipGroup opening closing)
      (opening :: (inside ++ closing :: rest)) () rest := by
  intro before
  have hfind : GroupEnd.find opening closing 0
      (opening :: (inside ++ closing :: rest))
        = .closed (inside.length + 2) := by
    rw [GroupEnd.find, if_pos rfl, find_eq_closed hne hinside]
    rfl
  have hadvance := Cursor.advance_append before
    (opening :: (inside ++ [closing])) rest
  rw [List.length_cons, List.length_append, List.cons_append,
    List.append_assoc] at hadvance
  refine ⟨(opening :: (inside ++ [closing])).reverse ++ before, ?_⟩
  unfold Parser.skipGroup
  rw [hfind]
  exact congrArg (fun next => Except.ok ((), next)) hadvance

/-! ## Scalars -/

/-- A character of a scalar token. -/
def isScalarChar (c : Char) : Bool :=
  isLetter c || isDecimalDigit c || c == '.' || isSign c

theorem isSolid_of_isScalarChar {c : Char} (h : isScalarChar c) :
    Cursor.isSolid c := by
  simp only [isScalarChar, Bool.or_eq_true, beq_iff_eq] at h
  rcases h with ((hc | hc) | rfl) | hc
  · exact Cursor.isSolid_of_isNameChar (by simp [isNameChar, hc])
  · exact Cursor.isSolid_of_isNameChar (by simp [isNameChar, hc])
  · rfl
  · simp only [isSign, Bool.or_eq_true, beq_iff_eq] at hc
    rcases hc with rfl | rfl
    · rfl
    · rfl

/-- **A scalar token**: not empty, and read as a whole. -/
def IsScalar (token : List Char) : Prop :=
  token ≠ [] ∧ Cursor.scalarToken ⟨[], token⟩ = token

/-- A scalar run that is read as a whole is so in front of anything that is
no scalar. -/
theorem scalarRun_append {previous : Char} {run : List Char}
    (h : Cursor.scalarRun previous run = run)
    (hrest : rest.head?.any isScalarChar = false) :
    Cursor.scalarRun previous (run ++ rest) = run := by
  induction run generalizing previous with
  | nil =>
    cases rest with
    | nil => rfl
    | cons c rest =>
      rw [List.head?_cons, Option.any_some, isScalarChar, Bool.or_eq_false_iff]
        at hrest
      rw [List.nil_append, Cursor.scalarRun, hrest.1, hrest.2]
      rfl
  | cons c run ih =>
    unfold Cursor.scalarRun at h
    split at h
    · rename_i hc
      rw [List.cons_append, Cursor.scalarRun, if_pos hc,
        ih (List.cons.inj h).2]
    · cases h

namespace IsScalar

variable {token : List Char}

theorem exists_cons (h : IsScalar token) :
    ∃ c tail, token = c :: tail ∧ isScalarChar c := by
  obtain ⟨hne, htoken⟩ := h
  cases token with
  | nil => exact absurd rfl hne
  | cons c tail =>
    refine ⟨c, tail, rfl, ?_⟩
    unfold isScalarChar
    by_cases hsign : isSign c
    · rw [hsign, Bool.or_true]
    · unfold Cursor.scalarToken at htoken
      dsimp only at htoken
      rw [if_neg hsign, Cursor.scalarRun] at htoken
      split at htoken
      · rename_i hc
        rw [Bool.eq_false_iff.mpr hsign, Bool.false_and, Bool.or_false] at hc
        rw [hc, Bool.true_or]
      · cases htoken

/-- A scalar token is of the basic alphabet. -/
theorem isBasic {c : Char} (h : IsScalar token) (hc : c ∈ token) :
    isBasic c := by
  obtain ⟨hne, htoken⟩ := h
  rw [← htoken] at hc
  unfold Cursor.scalarToken at hc
  split at hc
  · cases hc
  · split at hc
    · rename_i hsign
      rcases List.mem_cons.mp hc with rfl | hc
      · exact isBasic_of_isSign hsign
      · exact Cursor.isBasic_of_mem_scalarRun hc
    · exact Cursor.isBasic_of_mem_scalarRun hc

theorem unblanked_append (h : IsScalar token) (rest : List Char) :
    unblanked (token ++ rest) = token ++ rest := by
  obtain ⟨c, tail, rfl, hc⟩ := h.exists_cons
  exact Cursor.unblanked_cons (isSolid_of_isScalarChar hc) _

theorem scalarToken_append (h : IsScalar token) (before : List Char)
    (hrest : rest.head?.any isScalarChar = false) :
    Cursor.scalarToken ⟨before, token ++ rest⟩ = token := by
  obtain ⟨hne, htoken⟩ := h
  cases token with
  | nil => exact absurd rfl hne
  | cons c tail =>
    unfold Cursor.scalarToken at htoken ⊢
    dsimp only [List.cons_append] at htoken ⊢
    split at htoken
    · rename_i hsign
      rw [if_pos hsign, scalarRun_append (List.cons.inj htoken).2 hrest]
    · rename_i hsign
      rw [if_neg hsign, ← List.cons_append, scalarRun_append htoken hrest]

end IsScalar

namespace Reads

theorem scalarToken {token : List Char} (htoken : IsScalar token)
    (h : unblanked text = token ++ rest)
    (hrest : rest.head?.any isScalarChar = false) :
    Reads Parser.scalarToken text token rest := by
  refine skipBlanks.bind fun before => ⟨token.reverse ++ before, ?_⟩
  dsimp only
  rw [h, htoken.scalarToken_append before hrest,
    if_neg (mt List.isEmpty_iff.mp htoken.1), Cursor.advance_append]

/-! ## Repetition -/

/-- The last round of a repetition. -/
theorem loop_done {round : σ → Parser (Round σ α)} {state : σ}
    (h : Reads (round state) text (.done a) rest) :
    Reads (loop round state) text a rest := by
  intro before
  obtain ⟨after, hafter⟩ := h before
  refine ⟨after, ?_⟩
  rw [loop, hafter]

/-- A round that is followed by another. -/
theorem loop_more {round : σ → Parser (Round σ α)} {state state' : σ}
    (h : Reads (round state) text (.more state') mid)
    (hlt : mid.length < text.length)
    (hloop : Reads (loop round state') mid a rest) :
    Reads (loop round state) text a rest := by
  intro before
  obtain ⟨middle, hmiddle⟩ := h before
  obtain ⟨after, hafter⟩ := hloop middle
  refine ⟨after, ?_⟩
  rw [loop, hmiddle]
  dsimp only
  rw [if_pos hlt, hafter]

end Reads

/-- Behind something that was read, less is to come. -/
theorem length_lt_of_unblanked {piece : List Char}
    (h : unblanked text = piece ++ mid) (hne : piece ≠ []) :
    mid.length < text.length := by
  have hlength := congrArg List.length h
  have hpos : 0 < piece.length := List.length_pos_iff.mpr hne
  rw [Cursor.unblanked, List.length_drop, List.length_append] at hlength
  omega

/-! ## Lists -/

/-- What may stand between a comma and the next item of a list. -/
def IsGap (gap : List Char) : Prop :=
  ∀ text, unblanked (gap ++ text) = unblanked text

theorem isGap_nil : IsGap [] := fun _ => rfl

theorem isGap_blank : IsGap [' '] := fun _ => rfl

/-- **An item of a list** begins with a character that is not passed over
and does not close the list. -/
def IsItem (closing : Char) (piece : List Char) : Prop :=
  ∃ c tail, piece = c :: tail ∧ Cursor.isSolid c ∧ c ≠ closing

namespace IsItem

variable {closing : Char} {piece : List Char}

/-- An item is not passed over. -/
theorem unblanked_append (h : IsItem closing piece) (rest : List Char) :
    unblanked (piece ++ rest) = piece ++ rest := by
  obtain ⟨c, tail, rfl, hc, -⟩ := h
  exact Cursor.unblanked_cons hc _

theorem head?_ne (h : IsItem closing piece) (rest : List Char) :
    (piece ++ rest).head? ≠ some closing := by
  obtain ⟨c, tail, rfl, -, hc⟩ := h
  rw [List.cons_append, List.head?_cons, ne_eq, Option.some.injEq]
  exact hc

/-- How an item begins is all that matters. -/
theorem append (h : IsItem closing piece) (more : List Char) :
    IsItem closing (piece ++ more) := by
  obtain ⟨c, tail, rfl, hc⟩ := h
  exact ⟨c, tail ++ more, rfl, hc⟩

theorem ne_nil (h : IsItem closing piece) : piece ≠ [] := by
  obtain ⟨c, tail, rfl, -⟩ := h
  exact List.cons_ne_nil c tail

end IsItem

/-- Names can be items of a list that no name closes. -/
theorem IsName.isItem {closing : Char} {name : String} (h : IsName name)
    (hclosing : isNameChar closing = false) : IsItem closing name.toList := by
  obtain ⟨c, tail, hname, hc⟩ := h.exists_cons
  refine ⟨c, tail, hname, Cursor.isSolid_of_isNameChar hc, ?_⟩
  rintro rfl
  rw [hc] at hclosing
  cases hclosing

/-- **Items of a list.** -/
def AreItems (closing : Char) (pieces : List (List Char)) : Prop :=
  ∀ piece ∈ pieces, IsItem closing piece

theorem AreItems.unblanked_append {closing : Char}
    {sep : List Char} {pieces : List (List Char)}
    (h : AreItems closing pieces) (hne : pieces ≠ []) (rest : List Char) :
    unblanked (sep.intercalate pieces ++ rest)
      = sep.intercalate pieces ++ rest := by
  cases pieces with
  | nil => exact absurd rfl hne
  | cons piece pieces =>
    obtain ⟨c, tail, rfl, hc, -⟩ := h piece List.mem_cons_self
    rw [List.intercalate_cons_cons_left]
    exact Cursor.unblanked_cons hc _

/-- A list with an item does not begin with what closes it. -/
theorem AreItems.head?_ne {closing : Char} {sep : List Char}
    {pieces : List (List Char)} (h : AreItems closing pieces)
    (hne : pieces ≠ []) (rest : List Char) :
    (sep.intercalate pieces ++ rest).head? ≠ some closing := by
  cases pieces with
  | nil => exact absurd rfl hne
  | cons piece pieces =>
    obtain ⟨c, tail, rfl, -, hc⟩ := h piece List.mem_cons_self
    rw [List.intercalate_cons_cons_left, List.cons_append, List.head?_cons,
      ne_eq, Option.some.injEq]
    exact hc

/-- Up to the end of a list, nothing is passed over. -/
theorem AreItems.unblanked_closed {closing : Char}
    {sep : List Char} {pieces : List (List Char)}
    (h : AreItems closing pieces) (hclosing : Cursor.isSolid closing)
    (rest : List Char) :
    unblanked (sep.intercalate pieces ++ closing :: rest)
      = sep.intercalate pieces ++ closing :: rest := by
  by_cases hne : pieces = []
  · rw [hne]
    exact Cursor.unblanked_cons hclosing rest
  · exact h.unblanked_append hne _

/-- Scalars can be items of a list that no scalar closes. -/
theorem areItems_of_isScalar {closing : Char} {tokens : List (List Char)}
    (hclosing : isScalarChar closing = false)
    (h : ∀ token ∈ tokens, IsScalar token) : AreItems closing tokens := by
  intro token htoken
  obtain ⟨c, tail, rfl, hc⟩ := (h token htoken).exists_cons
  refine ⟨c, tail, rfl, isSolid_of_isScalarChar hc, ?_⟩
  rintro rfl
  rw [hclosing] at hc
  cases hc

namespace Reads

/-- What stands behind an item, and where the separator leads. -/
theorem exists_separator {closing : Char} (cause : ParseCause)
    {gap : List Char} {pieces : List (List Char)}
    (hclosing : Cursor.isSolid closing) (hcomma : closing ≠ ',')
    (hgap : IsGap gap) (hpieces : AreItems closing pieces)
    (rest : List Char) :
    ∃ tail mid, (∀ piece, (',' :: gap).intercalate (piece :: pieces)
          ++ closing :: rest = piece ++ tail)
      ∧ (tail.head? = some ',' ∨ tail.head? = some closing)
      ∧ Reads (separator closing cause) tail () mid
      ∧ mid.length ≤ tail.length
      ∧ unblanked mid = (',' :: gap).intercalate pieces
        ++ closing :: rest := by
  cases pieces with
  | nil =>
    refine ⟨closing :: rest, closing :: rest, fun piece => ?_, .inr rfl, ?_,
      Nat.le_refl _, Cursor.unblanked_cons hclosing rest⟩
    · rw [List.intercalate_singleton]
    · have hnext : (unblanked (closing :: rest)).head? ≠ some ',' := by
        rw [Cursor.unblanked_cons hclosing, List.head?_cons, ne_eq,
          Option.some.injEq]
        exact hcomma
      refine (tryChar_ne hnext).bind ?_
      rw [if_neg Bool.false_ne_true, Cursor.unblanked_cons hclosing]
      refine peek.bind ?_
      rw [List.head?_cons, if_pos rfl]
      exact .pure () _
  | cons next pieces =>
    refine ⟨',' :: gap ++ ((',' :: gap).intercalate (next :: pieces)
      ++ closing :: rest), gap ++ ((',' :: gap).intercalate (next :: pieces)
      ++ closing :: rest), fun piece => ?_, .inl rfl, ?_, ?_, ?_⟩
    · rw [List.intercalate_cons_cons, List.append_assoc, List.append_assoc]
    · refine (tryChar (Cursor.unblanked_cons rfl _)).bind ?_
      exact .pure () _
    · exact Nat.le_succ _
    · rw [hgap, hpieces.unblanked_append (List.cons_ne_nil _ _)]

/-- **One item is read** with the separator behind it, and less is to
come. -/
theorem exists_itemRound {closing : Char} (cause : ParseCause)
    {item : σ → Parser σ} {gap piece : List Char} {pieces : List (List Char)}
    {state state' : σ} (hclosing : Cursor.isSolid closing)
    (hcomma : closing ≠ ',') (hgap : IsGap gap)
    (hpieces : AreItems closing (piece :: pieces))
    (hitem : ∀ rest, (rest.head? = some ',' ∨ rest.head? = some closing) →
      Reads (item state) (piece ++ rest) state' rest)
    (h : unblanked text
      = (',' :: gap).intercalate (piece :: pieces) ++ closing :: rest) :
    ∃ mid, Reads (itemRound closing cause item state) text (.more state') mid
      ∧ mid.length < text.length
      ∧ unblanked mid = (',' :: gap).intercalate pieces
        ++ closing :: rest := by
  obtain ⟨hpiece, hpieces⟩ := List.forall_mem_cons.mp hpieces
  obtain ⟨tail, mid, htail, hhead, hseparator, hmid, hrest⟩ :=
    exists_separator cause hclosing hcomma hgap hpieces rest
  rw [htail] at h
  refine ⟨mid, ?_, ?_, hrest⟩
  · have hopen : (unblanked text).head? ≠ some closing := by
      rw [h]
      exact hpiece.head?_ne tail
    refine (tryChar_ne hopen).bind ?_
    rw [if_neg Bool.false_ne_true, h]
    exact (hitem tail hhead).bind (hseparator.bind (.pure _ mid))
  · exact Nat.lt_of_le_of_lt hmid (length_lt_of_unblanked h hpiece.ne_nil)

/-- **Items up to a closing character**, with a comma and a gap between
them, from one state to the next. -/
theorem itemsUntil {closing : Char} {cause : ParseCause}
    {item : σ → Parser σ} {gap : List Char} {pieces : List (List Char)}
    (state : Nat → σ) (hclosing : Cursor.isSolid closing)
    (hcomma : closing ≠ ',') (hgap : IsGap gap)
    (hpieces : AreItems closing pieces)
    (hitem : ∀ i (h : i < pieces.length) rest,
      (rest.head? = some ',' ∨ rest.head? = some closing) →
      Reads (item (state i)) (pieces[i] ++ rest) (state (i + 1)) rest)
    (h : unblanked text
      = (',' :: gap).intercalate pieces ++ closing :: rest) :
    Reads (Parser.itemsUntil closing cause item (state 0)) text
      (state pieces.length) rest := by
  unfold Parser.itemsUntil
  induction pieces generalizing state text with
  | nil =>
    refine loop_done ((tryChar h).bind ?_)
    exact .pure _ rest
  | cons piece pieces ih =>
    obtain ⟨mid, hround, hless, hrest⟩ := exists_itemRound cause hclosing
      hcomma hgap hpieces (hitem 0 (Nat.succ_pos _)) h
    exact loop_more hround hless (ih (fun i => state (i + 1))
      (List.forall_mem_cons.mp hpieces).2
      (fun i hi => hitem (i + 1) (Nat.succ_lt_succ hi)) hrest)

/-- **A list of items up to a closing character**, which are written with
more than what is read of them. -/
theorem listUntil_map {γ : Type} {closing : Char} {cause : ParseCause}
    {item : Parser α} {gap : List Char} {items : List γ}
    {write : γ → List Char} (value : γ → α)
    (hclosing : Cursor.isSolid closing)
    (hcomma : closing ≠ ',') (hgap : IsGap gap)
    (hpieces : AreItems closing (items.map write))
    (hitem : ∀ x ∈ items, ∀ rest,
      (rest.head? = some ',' ∨ rest.head? = some closing) →
      Reads item (write x ++ rest) (value x) rest)
    (h : unblanked text
      = (',' :: gap).intercalate (items.map write) ++ closing :: rest) :
    Reads (Parser.listUntil closing cause item) text (items.map value)
      rest := by
  have hstep : ∀ i (h : i < (items.map write).length) rest,
      (rest.head? = some ',' ∨ rest.head? = some closing) →
      Reads (do return (items.map value).take i ++ [← item])
        ((items.map write)[i] ++ rest) ((items.map value).take (i + 1))
        rest := by
    intro i hi rest hrest
    rw [List.length_map] at hi
    rw [List.getElem_map]
    refine (hitem _ (List.getElem_mem hi) rest hrest).bind ?_
    rw [List.take_succ_eq_append_getElem (by rwa [List.length_map]),
      List.getElem_map]
    exact .pure _ rest
  have hlist : Reads (Parser.itemsUntil closing cause
      (fun items => return items ++ [← item]) ((items.map value).take 0))
      text _ rest :=
    itemsUntil (items.map value).take hclosing hcomma hgap hpieces hstep h
  rw [List.length_map, ← List.length_map value, List.take_length] at hlist
  exact hlist

/-- A list of items up to a closing character. -/
theorem listUntil {closing : Char} {cause : ParseCause} {item : Parser α}
    {gap : List Char} {items : List α} {write : α → List Char}
    (hclosing : Cursor.isSolid closing) (hcomma : closing ≠ ',')
    (hgap : IsGap gap) (hpieces : AreItems closing (items.map write))
    (hitem : ∀ x ∈ items, ∀ rest,
      (rest.head? = some ',' ∨ rest.head? = some closing) →
      Reads item (write x ++ rest) x rest)
    (h : unblanked text
      = (',' :: gap).intercalate (items.map write) ++ closing :: rest) :
    Reads (Parser.listUntil closing cause item) text items rest := by
  have hlist : Reads (Parser.listUntil closing cause item) text
      (items.map id) rest :=
    listUntil_map id hclosing hcomma hgap hpieces hitem h
  rwa [List.map_id] at hlist

/-- **Scalars in brackets.** A reader that collects scalars and passes over
brackets and the commas inside them reads a list that is one bracket deep,
and then what follows it. -/
theorem bracketed {round : Nat × List α → Parser (Round (Nat × List α) β)}
    {closing : Char} {b : β} {items before : List α}
    {write : α → List Char} {tail : List Char}
    (hsolid : Cursor.isSolid closing)
    (hclosing : isScalarChar closing = false)
    (hscalar : ∀ x ∈ items, IsScalar (write x))
    (hitem : ∀ x ∈ items, ∀ before text rest,
      unblanked text = write x ++ rest →
      rest.head?.any isScalarChar = false →
      Reads (round (1, before)) text (.more (1, before ++ [x])) rest)
    (hcomma : ∀ before rest,
      Reads (round (1, before)) (',' :: rest) (.more (1, before)) rest)
    (hclose : ∀ before text, unblanked text = closing :: tail →
      Reads (round (1, before)) text (.more (0, before)) tail)
    (hdone : Reads (loop round (0, before ++ items)) tail b rest)
    (h : unblanked text
      = [',', ' '].intercalate (items.map write) ++ closing :: tail) :
    Reads (loop round (1, before)) text b rest := by
  induction items generalizing before text with
  | nil =>
    rw [List.append_nil] at hdone
    exact loop_more (hclose before text h)
      (length_lt_of_unblanked (h.trans List.singleton_append.symm)
        (List.cons_ne_nil _ _)) hdone
  | cons x items ih =>
    rw [List.forall_mem_cons] at hscalar hitem
    rw [List.append_cons] at hdone
    have hpieces : AreItems closing (items.map write) := by
      refine areItems_of_isScalar hclosing fun token htoken => ?_
      obtain ⟨y, hy, rfl⟩ := List.mem_map.mp htoken
      exact hscalar.2 y hy
    have hnext : unblanked ([',', ' '].intercalate _ ++ closing :: tail)
        = _ := hpieces.unblanked_closed hsolid tail
    by_cases hne : items.map write = []
    · rw [List.map_cons, hne, List.intercalate_singleton] at h
      rw [hne] at hnext
      refine loop_more (hitem.1 before text _ h hclosing)
        (length_lt_of_unblanked h hscalar.1.1)
        (ih hscalar.2 hitem.2 hdone ?_)
      rw [hne]
      exact hnext
    · rw [List.map_cons, List.intercalate_cons_of_ne_nil hne,
        List.append_assoc, List.append_assoc] at h
      refine loop_more (hitem.1 before text _ h rfl)
        (length_lt_of_unblanked h hscalar.1.1) ?_
      exact loop_more (hcomma _ _) (Nat.lt_succ_self _)
        (ih hscalar.2 hitem.2 hdone hnext)

/-- **One item, and then one more after each comma.** -/
theorem commaSeparated {item : Parser α} {gap : List Char} {items : List α}
    {write : α → List Char} (hne : items ≠ []) (hgap : IsGap gap)
    (hpieces : AreItems ',' (items.map write))
    (hitem : ∀ x ∈ items, ∀ text rest',
      (rest'.head? = some ',' ∨ rest' = rest) →
      unblanked text = write x ++ rest' → Reads item text x rest')
    (hrest : (unblanked rest).head? ≠ some ',')
    (h : unblanked text
      = (',' :: gap).intercalate (items.map write) ++ rest) :
    Reads (Parser.commaSeparated item) text items (unblanked rest) := by
  unfold Parser.commaSeparated
  suffices hloop : ∀ before : List α, Reads (loop _ before) text
      (before ++ items) (unblanked rest) from hloop []
  induction items generalizing text with
  | nil => exact absurd rfl hne
  | cons x items ih =>
    intro before
    rw [List.forall_mem_cons] at hitem
    cases items with
    | nil =>
      rw [List.map_singleton, List.intercalate_singleton] at h
      refine loop_done ((hitem.1 text rest (.inr rfl) h).bind ?_)
      exact (tryChar_ne hrest).bind (.pure _ _)
    | cons y items =>
      rw [List.map_cons, List.map_cons, List.intercalate_cons_cons,
        ← List.map_cons, List.append_assoc, List.append_assoc] at h
      have hpieces' : AreItems ',' ((y :: items).map write) :=
        fun piece hpiece => hpieces piece (List.mem_cons_of_mem _ hpiece)
      have hmid := hgap ((',' :: gap).intercalate ((y :: items).map write)
        ++ rest)
      rw [hpieces'.unblanked_append (List.cons_ne_nil _ _)] at hmid
      have hnext := ih (List.cons_ne_nil y items) hpieces' hitem.2 hmid
        (before ++ [x])
      rw [List.append_assoc, List.singleton_append] at hnext
      refine loop_more ((hitem.1 text _ (.inl rfl) h).bind ?_) ?_ hnext
      · exact (tryChar (Cursor.unblanked_cons rfl _)).bind (.pure _ _)
      · obtain ⟨c, tail, hx, -⟩ := hpieces (write x) List.mem_cons_self
        refine Nat.lt_trans (Nat.lt_succ_self _) (length_lt_of_unblanked h ?_)
        rw [hx]
        exact List.cons_ne_nil _ _

end Reads

/-! ## Texts that are refused -/

namespace Refuses

theorem fail {cause : ParseCause} :
    Refuses (Parser.fail cause : Parser α) text :=
  fun _ => ⟨_, rfl⟩

theorem bind_left {first : Parser β} {second : β → Parser α}
    (h : Refuses first text) : Refuses (first >>= second) text := by
  intro before
  obtain ⟨e, he⟩ := h before
  exact ⟨e, bind_of_eq_error he⟩

/-- **A text that is refused behind what is read.** -/
theorem bind {first : Parser β} {second : β → Parser α} {b : β}
    (hfirst : Reads first text b mid) (hsecond : Refuses (second b) mid) :
    Refuses (first >>= second) text := by
  intro before
  obtain ⟨middle, hmiddle⟩ := hfirst before
  obtain ⟨e, he⟩ := hsecond middle
  exact ⟨e, (bind_of_eq_ok hmiddle).trans he⟩

theorem expectChar {wanted : Char}
    (h : (unblanked text).head? ≠ some wanted) :
    Refuses (Parser.expectChar wanted) text :=
  bind (.tryChar_ne h) (bind .peek fail)

theorem word (h : (unblanked text).head?.any isNameChar = false) :
    Refuses Parser.word text :=
  bind .skipBlanks (bind (.takeRun (fun _ hc => absurd hc List.not_mem_nil) h)
    fail)

theorem natural (h : (unblanked text).head?.any isDecimalDigit = false) :
    Refuses Parser.natural text :=
  bind .skipBlanks (bind (.takeRun (fun _ hc => absurd hc List.not_mem_nil) h)
    fail)

/-- A repetition is refused in its first round. -/
theorem loop {round : σ → Parser (Round σ α)} {state : σ}
    (h : Refuses (round state) text) : Refuses (loop round state) text := by
  intro before
  obtain ⟨e, he⟩ := h before
  refine ⟨e, ?_⟩
  rw [Parser.loop, he]

/-- A repetition is refused in a later round. -/
theorem loop_more {round : σ → Parser (Round σ α)} {state state' : σ}
    (h : Reads (round state) text (.more state') mid)
    (hlt : mid.length < text.length)
    (hloop : Refuses (Parser.loop round state') mid) :
    Refuses (Parser.loop round state) text := by
  intro before
  obtain ⟨middle, hmiddle⟩ := h before
  obtain ⟨e, he⟩ := hloop middle
  refine ⟨e, ?_⟩
  rw [Parser.loop, hmiddle]
  dsimp only
  rw [if_pos hlt, he]

/-- **A list with an item that is refused is refused**, if the items before
it are read. -/
theorem listUntil {closing : Char} {cause : ParseCause} {item : Parser α}
    {gap : List Char} {items : List α} {write : α → List Char}
    (hclosing : Cursor.isSolid closing) (hcomma : closing ≠ ',')
    (hgap : IsGap gap) (hpieces : AreItems closing (items.map write))
    (hitem : ∀ x ∈ items, (∀ rest,
        (rest.head? = some ',' ∨ rest.head? = some closing) →
        Reads item (write x ++ rest) x rest)
      ∨ ∀ rest, Refuses item (write x ++ rest))
    (hbad : ∃ x ∈ items, ∀ rest, Refuses item (write x ++ rest))
    (h : unblanked text
      = (',' :: gap).intercalate (items.map write) ++ closing :: rest) :
    Refuses (Parser.listUntil closing cause item) text := by
  unfold Parser.listUntil Parser.itemsUntil
  -- what has been read already does not matter to a refusal
  suffices hloop : ∀ before, Refuses (Parser.loop (itemRound closing cause
      fun items => return items ++ [← item]) before) text from hloop []
  intro before
  induction items generalizing before text with
  | nil =>
    obtain ⟨x, hx, -⟩ := hbad
    exact absurd hx List.not_mem_nil
  | cons x items ih =>
    obtain ⟨hx, hitems⟩ := List.forall_mem_cons.mp hitem
    by_cases hrefuses : ∀ rest, Refuses item (write x ++ rest)
    · have hpiece := hpieces (write x) List.mem_cons_self
      obtain ⟨tail, -, htail, -⟩ := Reads.exists_separator cause hclosing
        hcomma hgap (List.forall_mem_cons.mp hpieces).2 rest
      have hstart := h.trans (htail (write x))
      have hopen : (unblanked text).head? ≠ some closing := by
        rw [hstart]
        exact hpiece.head?_ne tail
      refine loop (bind (.tryChar_ne hopen) ?_)
      rw [if_neg Bool.false_ne_true, hstart]
      exact bind_left (bind_left (hrefuses tail))
    · have hreads := hx.resolve_right hrefuses
      have hround : ∃ mid, Reads (itemRound closing cause
          (fun items => return items ++ [← item]) before) text
          (.more (before ++ [x])) mid ∧ _ :=
        Reads.exists_itemRound cause hclosing hcomma hgap hpieces
          (fun rest hhead => (hreads rest hhead).bind (.pure _ rest)) h
      obtain ⟨mid, hround, hless, hrest⟩ := hround
      have hbad : ∃ y ∈ items, ∀ rest, Refuses item (write y ++ rest) := by
        obtain ⟨y, hy, hbad⟩ := hbad
        rcases List.mem_cons.mp hy with rfl | hy
        · exact absurd hbad hrefuses
        · exact ⟨y, hy, hbad⟩
      exact loop_more hround hless
        (ih (List.forall_mem_cons.mp hpieces).2 hitems hbad hrest _)

end Refuses

/-! ## Whole texts -/

theorem Reads.onText {text : String} (h : Reads p (byteChars text) a rest) :
    p.onText text = .ok a := by
  obtain ⟨after, hafter⟩ := h []
  rw [Parser.onText, Cursor.ofText, hafter]
  rfl

theorem Refuses.onText {text : String} (h : Refuses p (byteChars text)) :
    ∃ e, p.onText text = .error e := by
  obtain ⟨e, he⟩ := h []
  rw [Parser.onText, Cursor.ofText, he]
  exact ⟨e, rfl⟩

end Parser

end TensorBind
