import TensorBind.Proofs.Text.Encoding
import TensorBind.Proofs.Text.Yields

/-!
# Readers on arbitrary texts

A text that is read is arbitrary, and readers move through its bytes. Here
is what can nevertheless be said of them: at every place where a reader
stands, the text is cut between two characters (`Cursor.Splits`), and every
round of a repetition moves forward.

`Parser.Runs` is a triple for readers, with one condition on where a reader
starts and one on where it ends. A reader may fail on its way, by an
objection to a place of the text or in a way that is listed. The two kinds
of triples that readers are put together from are `Parser.Keeps`, for a
reader that does not move back, and `Parser.Consumes`, for one that moves
forward. The repetition of a reader that moves forward never stalls
(`Parser.Keeps.loop`).
-/

namespace TensorBind

/-! ## Places -/

namespace Cursor

variable {text : String} {c : Cursor}

/-- **A place between two characters** of a text, or at one of its ends. -/
def Splits (text : String) (c : Cursor) : Prop :=
  ∃ before after : String, text = before ++ after
    ∧ c = ⟨(byteChars before).reverse, byteChars after⟩

theorem splits_ofText (text : String) : (ofText text).Splits text :=
  ⟨"", text, (String.empty_append).symm, rfl⟩

/-- What has been read and what is to come make up the text. -/
theorem Splits.text_eq (h : c.Splits text) : c.text = byteChars text := by
  obtain ⟨before, after, rfl, rfl⟩ := h
  rw [Cursor.text, List.reverse_reverse, byteChars_append]

/-- A number of bytes after which a text is cut between two characters: the
last of them is of the basic alphabet, or the text ends. -/
def Clean (rest : List Char) (count : Nat) : Prop :=
  (∀ b ∈ (rest.take count).getLast?, isBasic b) ∨ rest.length ≤ count

/-- **Moving on** by a clean number of bytes. -/
theorem Splits.advance (h : c.Splits text) {count : Nat}
    (hclean : Clean c.rest count) : (c.advance count).Splits text := by
  obtain ⟨before, after, rfl, rfl⟩ := h
  rcases hclean with hlast | hle
  · have hcut : after.toList.flatMap charBytes
        = (byteChars after).take count ++ (byteChars after).drop count := by
      rw [List.take_append_drop, byteChars_eq_flatMap]
    obtain ⟨taken, left, hchars, htaken, hleft⟩ :=
      exists_append_of_flatMap hcut hlast
    refine ⟨before ++ String.ofList taken, String.ofList left, ?_, ?_⟩
    · rw [String.append_assoc, ← String.ofList_append, ← hchars,
        String.ofList_toList]
    · rw [Cursor.advance, byteChars_append, byteChars_ofList,
        byteChars_ofList, htaken, hleft, List.reverse_append]
  · refine ⟨before ++ after, "", String.append_empty.symm, ?_⟩
    rw [Cursor.advance, List.take_of_length_le hle,
      List.drop_eq_nil_of_le hle, byteChars_append, List.reverse_append]
    rfl

theorem clean_zero (rest : List Char) : Clean rest 0 := by
  refine .inl fun b hb => ?_
  rw [List.take_zero] at hb
  cases hb

/-- A piece of the basic alphabet is a clean number of bytes. -/
theorem clean_length {piece rest : List Char} (h : piece <+: rest)
    (hpiece : ∀ b ∈ piece, isBasic b) : Clean rest piece.length := by
  refine .inl fun b hb => hpiece b ?_
  rw [List.prefix_iff_eq_take.mp h]
  exact List.mem_of_getLast? hb

/-- One byte more in front, which does not come last or is of the basic
alphabet itself. -/
theorem Clean.cons {b : Char} {rest : List Char} {count : Nat}
    (h : Clean rest count) (hb : isBasic b ∨ rest = [] ∨ 0 < count) :
    Clean (b :: rest) (count + 1) := by
  rcases h with hlast | hle
  · by_cases hempty : rest = []
    · subst hempty
      exact .inr (Nat.succ_le_succ (Nat.zero_le _))
    · refine .inl fun d hd => ?_
      rw [List.take_succ_cons, List.getLast?_cons, Option.mem_some] at hd
      cases hcut : (rest.take count).getLast? with
      | some last =>
        rw [hcut] at hd hlast
        exact hd ▸ hlast last rfl
      | none =>
        rw [hcut] at hd
        rw [List.getLast?_eq_none_iff, List.take_eq_nil_iff] at hcut
        have hzero := hcut.resolve_right hempty
        rcases hb with hb | hb | hb
        · exact hd ▸ hb
        · exact absurd hb hempty
        · exact absurd hzero (Nat.ne_of_gt hb)
  · exact .inr (Nat.succ_le_succ hle)

/-- Separation ends at the end of a line, at a blank or with the text. -/
theorem clean_blankLength (inComment : Bool) (rest : List Char) :
    Clean rest (blankLength inComment rest) := by
  induction rest generalizing inComment with
  | nil => exact .inr (Nat.zero_le _)
  | cons b rest ih =>
    unfold blankLength
    split
    · -- a comment goes on behind every byte but the end of its line
      refine (ih _).cons ?_
      by_cases hb : b = '\n'
      · exact .inl (hb ▸ rfl)
      · cases rest with
        | nil => exact .inr (.inl rfl)
        | cons d rest =>
          refine .inr (.inr ?_)
          rw [show (b != '\n') = true from bne_iff_ne.mpr hb, blankLength]
          exact Nat.succ_pos _
    · split
      · rename_i hslash
        exact (ih _).cons (.inl (hslash.1 ▸ rfl))
      · split
        · rename_i hblank
          refine (ih _).cons (.inl ?_)
          simp only [isBlank, Bool.or_eq_true, beq_iff_eq] at hblank
          rcases hblank with (((rfl | rfl) | rfl) | rfl) | rfl
          all_goals rfl
        · exact clean_zero _

/-- A line ends with its last byte or with the text. -/
theorem clean_line (rest : List Char) :
    Clean rest ((rest.takeWhile (· != '\n')).length + 1) := by
  induction rest with
  | nil => exact .inr (Nat.zero_le _)
  | cons b rest ih =>
    by_cases hb : b = '\n'
    · rw [List.takeWhile_cons_of_neg (by simp [hb])]
      exact (clean_zero rest).cons (.inl (hb ▸ rfl))
    · rw [List.takeWhile_cons_of_pos (by simp [hb])]
      exact ih.cons (.inr (.inr (Nat.succ_pos _)))

theorem prefix_of_scalarRun (previous : Char) (rest : List Char) :
    scalarRun previous rest <+: rest := by
  induction rest generalizing previous with
  | nil => exact List.prefix_rfl
  | cons d rest ih =>
    unfold scalarRun
    split
    · exact (List.prefix_cons_inj d).mpr (ih d)
    · exact List.nil_prefix

theorem clean_scalarToken (c : Cursor) :
    Clean c.rest c.scalarToken.length := by
  unfold scalarToken
  cases c.rest with
  | nil => exact clean_zero _
  | cons first rest =>
    dsimp only
    split
    · rename_i hsign
      refine clean_length ((List.prefix_cons_inj first).mpr
        (prefix_of_scalarRun first rest)) fun b hb => ?_
      rcases List.mem_cons.mp hb with rfl | hb
      · exact isBasic_of_isSign hsign
      · exact isBasic_of_mem_scalarRun hb
    · exact clean_length (prefix_of_scalarRun _ _) fun b hb =>
        isBasic_of_mem_scalarRun hb

/-- **The pieces that readers cut out of a text** at a place: the name, the
number and the scalar that comes next. -/
def pieces (c : Cursor) : List (List Char) :=
  [c.run isNameChar, c.run isDecimalDigit, c.scalarToken]

theorem clean_run {p : Char → Bool} (h : ∀ b, p b → isBasic b)
    (c : Cursor) : Clean c.rest (c.run p).length :=
  clean_length (List.takeWhile_prefix p) fun b hb =>
    h b (List.all_eq_true.mp List.all_takeWhile b hb)

/-- **No piece ends inside a character.** -/
theorem Splits.piece (h : c.Splits text) {piece : List Char}
    (hpiece : piece ∈ c.pieces) : (c.advance piece.length).Splits text := by
  refine h.advance ?_
  simp only [pieces, List.mem_cons, List.not_mem_nil, or_false] at hpiece
  rcases hpiece with rfl | rfl | rfl
  · exact clean_run (fun _ => isBasic_of_isNameChar) c
  · exact clean_run (fun _ => isBasic_of_isDecimalDigit) c
  · exact clean_scalarToken c

end Cursor

namespace GroupEnd

variable {opening closing : Char} {depth length : Nat} {rest : List Char}

theorem succ_eq_closed {e : GroupEnd} :
    e.succ = closed length ↔ ∃ k, e = closed k ∧ k + 1 = length := by
  cases e with
  | closed k => simp [succ]
  | unterminated => simp [succ]
  | neverOpened => simp [succ]

/-- A group ends with the bracket that closes it. -/
theorem clean_of_find (hclosing : isBasic closing)
    (h : find opening closing depth rest = closed length) :
    0 < length ∧ Cursor.Clean rest length := by
  induction rest generalizing depth length with
  | nil => cases h
  | cons b rest ih =>
    have hlater : ∀ {d k}, find opening closing d rest = closed k →
        0 < k + 1 ∧ Cursor.Clean (b :: rest) (k + 1) := by
      intro d k hk
      exact ⟨Nat.succ_pos k, (ih hk).2.cons (.inr (.inr (ih hk).1))⟩
    unfold find at h
    split at h
    · obtain ⟨k, hk, rfl⟩ := succ_eq_closed.mp h
      exact hlater hk
    · split at h
      · rename_i hb
        split at h
        · cases h
        · cases h
          exact ⟨Nat.one_pos, (Cursor.clean_zero rest).cons
            (.inl (hb ▸ hclosing))⟩
        · obtain ⟨k, hk, rfl⟩ := succ_eq_closed.mp h
          exact hlater hk
      · obtain ⟨k, hk, rfl⟩ := succ_eq_closed.mp h
        exact hlater hk

theorem succ_eq_neverOpened {e : GroupEnd} :
    e.succ = neverOpened ↔ e = neverOpened := by
  cases e with
  | closed k => exact ⟨nofun, nofun⟩
  | unterminated => exact ⟨nofun, nofun⟩
  | neverOpened => rfl

/-- **A group that was opened** is not closed before it was. -/
theorem find_ne_neverOpened (h : 0 < depth) :
    find opening closing depth rest ≠ neverOpened := by
  induction rest generalizing depth with
  | nil => nofun
  | cons b rest ih =>
    unfold find
    split
    · exact mt succ_eq_neverOpened.mp (ih (Nat.succ_pos depth))
    · split
      · split
        · exact absurd rfl (Nat.ne_of_gt h)
        · nofun
        · rename_i k hk
          refine mt succ_eq_neverOpened.mp (ih ?_)
          exact Nat.pos_of_ne_zero fun hzero => hk (hzero ▸ rfl)
      · exact mt succ_eq_neverOpened.mp (ih h)

end GroupEnd

/-! ## Triples for readers -/

namespace Parser

variable {α β σ : Type} {text : String} {extra : ParseError → Prop}
  {P P' : Cursor → Prop} {Q : α → Cursor → Prop}

/-- **What a reader may come to**: a value and a place with a property, or a
failure. It refuses the text at one of its places, or fails in one of the
ways that are listed. -/
def Outcome (text : String) (extra : ParseError → Prop)
    (Q : α → Cursor → Prop) : Except ParseError (α × Cursor) → Prop
  | .ok (a, next) => Q a next
  | .error e =>
    (∃ place cause, place.Splits text ∧ e = refusal place cause) ∨ extra e

/-- **A reader gets from places with one property to places with
another**, or fails as it may. -/
def Runs (text : String) (extra : ParseError → Prop) (P : Cursor → Prop)
    (p : Parser α) (Q : α → Cursor → Prop) : Prop :=
  ∀ c, P c → Outcome text extra Q (p c)

namespace Runs

theorem pure {a : α} (h : ∀ c, P c → Q a c) :
    Runs text extra P (Pure.pure a) Q := h

/-- One reader after another. -/
theorem bind {first : Parser β} {second : β → Parser α}
    {R : β → Cursor → Prop} (hfirst : Runs text extra P first R)
    (hsecond : ∀ b, Runs text extra (R b) (second b) Q) :
    Runs text extra P (first >>= second) Q := by
  intro c hc
  have hb := hfirst c hc
  cases hrun : first c with
  | error e =>
    rw [hrun] at hb
    rw [bind_of_eq_error hrun]
    exact hb
  | ok result =>
    rw [hrun] at hb
    rw [bind_of_eq_ok hrun]
    exact hsecond result.1 result.2 hb

theorem mono {p : Parser α} {Q' : α → Cursor → Prop}
    (h : Runs text extra P p Q) (hpre : ∀ c, P' c → P c)
    (hpost : ∀ a c, Q a c → Q' a c) : Runs text extra P' p Q' := by
  intro c hc
  have hp := h c (hpre c hc)
  cases hrun : p c with
  | error e =>
    rw [hrun] at hp
    exact hp
  | ok result =>
    rw [hrun] at hp
    exact hpost _ _ hp

theorem fail {cause : ParseCause} (h : ∀ c, P c → c.Splits text) :
    Runs text extra P (Parser.fail cause) Q :=
  fun c hc => .inl ⟨c, cause, h c hc, rfl⟩

theorem failAt {place : Cursor} {cause : ParseCause}
    (h : place.Splits text) :
    Runs text extra P (Parser.failAt place cause) Q :=
  fun _ _ => .inl ⟨place, cause, h, rfl⟩

theorem ite {p q : Parser α} {A : Prop} [Decidable A]
    (hp : A → Runs text extra P p Q) (hq : ¬A → Runs text extra P q Q) :
    Runs text extra P (if A then p else q) Q := by
  split
  · rename_i h
    exact hp h
  · rename_i h
    exact hq h

end Runs

/-! ## Readers that move forward -/

/-- A place of a text with less than a number of bytes to come. -/
def Ahead (text : String) (n : Nat) (c : Cursor) : Prop :=
  c.Splits text ∧ c.rest.length < n

theorem Ahead.advance {c : Cursor} {n count : Nat} (h : Ahead text n c)
    (hclean : Cursor.Clean c.rest count) : Ahead text n (c.advance count) := by
  refine ⟨h.1.advance hclean, ?_⟩
  rw [Cursor.advance, List.length_drop]
  exact Nat.lt_of_le_of_lt (Nat.sub_le _ _) h.2

theorem Ahead.advance_pos {c : Cursor} {n count : Nat}
    (h : Ahead text (n + 1) c) (hclean : Cursor.Clean c.rest count)
    (hcount : 0 < count) (hrest : c.rest ≠ []) :
    Ahead text n (c.advance count) := by
  refine ⟨h.1.advance hclean, ?_⟩
  rw [Cursor.advance, List.length_drop]
  have hpos : 0 < c.rest.length := List.length_pos_iff.mpr hrest
  exact Nat.lt_of_lt_of_le (Nat.sub_lt hpos hcount) (Nat.le_of_lt_succ h.2)

/-- **A reader that does not move back.** -/
def Keeps (text : String) (extra : ParseError → Prop) (p : Parser α) :
    Prop :=
  ∀ n, Runs text extra (Ahead text n) p fun _ => Ahead text n

/-- **A reader that moves forward.** -/
def Consumes (text : String) (extra : ParseError → Prop) (p : Parser α) :
    Prop :=
  ∀ n, Runs text extra (Ahead text (n + 1)) p fun _ => Ahead text n

/-- **A reader that may take something**: it moves forward if it does. -/
def Takes (text : String) (extra : ParseError → Prop) (p : Parser Bool) :
    Prop :=
  ∀ n, Runs text extra (Ahead text (n + 1)) p fun taken =>
    if taken then Ahead text n else Ahead text (n + 1)

/-- Something is always to come of a text, or its end. -/
theorem Keeps.of_succ {p : Parser α}
    (h : ∀ n, Runs text extra (Ahead text (n + 1)) p fun _ =>
      Ahead text (n + 1)) : Keeps text extra p
  | 0 => fun _ hc => absurd hc.2 (Nat.not_lt_zero _)
  | n + 1 => h n

theorem Ahead.succ {c : Cursor} {n : Nat} (h : Ahead text n c) :
    Ahead text (n + 1) c :=
  ⟨h.1, Nat.lt_succ_of_lt h.2⟩

theorem Consumes.keeps {p : Parser α} (h : Consumes text extra p) :
    Keeps text extra p :=
  .of_succ fun n => (h n).mono (fun _ hc => hc) fun _ _ hc => hc.succ

theorem Takes.keeps {p : Parser Bool} (h : Takes text extra p) :
    Keeps text extra p := by
  refine .of_succ fun n => (h n).mono (fun _ hc => hc) fun taken c hc => ?_
  cases taken with
  | true => exact hc.succ
  | false => exact hc

/-- A reader that moves forward, and then one that does not move back. -/
theorem Consumes.bind {first : Parser β} {second : β → Parser α}
    (hfirst : Consumes text extra first)
    (hsecond : ∀ b, Keeps text extra (second b)) :
    Consumes text extra (first >>= second) :=
  fun n => (hfirst n).bind fun b => hsecond b n

namespace Keeps

theorem pure {a : α} : Keeps text extra (Pure.pure a) :=
  fun _ => .pure fun _ hc => hc

theorem bind {first : Parser β} {second : β → Parser α}
    (hfirst : Keeps text extra first)
    (hsecond : ∀ b, Keeps text extra (second b)) :
    Keeps text extra (first >>= second) :=
  fun n => (hfirst n).bind fun b => hsecond b n

theorem fail {cause : ParseCause} :
    Keeps text extra (Parser.fail cause : Parser α) :=
  fun _ => .fail fun _ hc => hc.1

theorem failAt {place : Cursor} {cause : ParseCause}
    (h : place.Splits text) :
    Keeps text extra (Parser.failAt place cause : Parser α) :=
  fun _ => .failAt h

theorem ite {p q : Parser α} {A : Prop} [Decidable A]
    (hp : A → Keeps text extra p) (hq : ¬A → Keeps text extra q) :
    Keeps text extra (if A then p else q) :=
  fun n => .ite (fun h => hp h n) fun h => hq h n

/-- A reader that may have another one before it. -/
theorem optional {first : Parser β} {rest : Parser α} {A : Prop}
    [Decidable A] (hfirst : Keeps text extra first)
    (hrest : Keeps text extra rest) :
    Keeps text extra (if A then first >>= fun _ => rest else rest) :=
  .ite (fun _ => hfirst.bind fun _ => hrest) fun _ => hrest

theorem mapM {item : β → Parser α} {items : List β}
    (h : ∀ b, Keeps text extra (item b)) :
    Keeps text extra (items.mapM item) := by
  induction items with
  | nil => exact .pure
  | cons b items ih =>
    rw [List.mapM_cons]
    exact (h b).bind fun _ => ih.bind fun _ => .pure

end Keeps

/-- A reader that keeps where it started. -/
theorem Runs.get {second : Cursor → Parser α} {n : Nat}
    (h : ∀ start, start.Splits text →
      Runs text extra (Ahead text n) (second start) Q) :
    Runs text extra (Ahead text n) (MonadState.get >>= second) Q :=
  fun c hc => h c hc.1 c hc

/-- Where a round of a repetition ends: further on, unless it is the
last. -/
def Moved (text : String) (n : Nat) : Round σ α → Cursor → Prop
  | .more _ => Ahead text n
  | .done _ => Ahead text (n + 1)

/-- **A repetition** of rounds that move forward, or end it, does not
stall. The rounds need only do so where the repetition can get to. -/
theorem Runs.loop {round : σ → Parser (Round σ α)} {state : σ} {bound : Nat}
    (h : ∀ state, ∀ n < bound, Runs text extra (Ahead text (n + 1))
      (round state) (Moved text n)) :
    Runs text extra (Ahead text bound) (Parser.loop round state)
      fun _ => Ahead text bound := by
  intro c
  fun_induction Parser.loop round state c with
  | case1 state c e hrun =>
    intro hc
    have hround := h state c.rest.length hc.2 c ⟨hc.1, Nat.lt_succ_self _⟩
    rw [hrun] at hround
    exact hround
  | case2 state c value after hrun =>
    intro hc
    have hround : Ahead text (c.rest.length + 1) after := by
      have hround := h state c.rest.length hc.2 c ⟨hc.1, Nat.lt_succ_self _⟩
      rwa [hrun] at hround
    exact ⟨hround.1, Nat.lt_of_le_of_lt (Nat.le_of_lt_succ hround.2) hc.2⟩
  | case3 state c state' after hrun hlt ih =>
    intro hc
    have hround : Ahead text c.rest.length after := by
      have hround := h state c.rest.length hc.2 c ⟨hc.1, Nat.lt_succ_self _⟩
      rwa [hrun] at hround
    exact ih ⟨hround.1, Nat.lt_trans hlt hc.2⟩
  | case4 state c state' after hrun hlt =>
    intro hc
    have hround : Ahead text c.rest.length after := by
      have hround := h state c.rest.length hc.2 c ⟨hc.1, Nat.lt_succ_self _⟩
      rwa [hrun] at hround
    exact absurd hround.2 hlt

theorem Keeps.loop {round : σ → Parser (Round σ α)} {state : σ}
    (h : ∀ state n, Runs text extra (Ahead text (n + 1)) (round state)
      (Moved text n)) :
    Keeps text extra (Parser.loop round state) :=
  fun _ => .loop fun state n _ => h state n

/-! ## Tokens -/

/-- A place of a text with a certain next character. -/
def Facing (text : String) (n : Nat) (next : Option Char) (c : Cursor) :
    Prop :=
  Ahead text n c ∧ c.peek? = next

/-- Looking at the next character. -/
theorem Runs.peek {second : Option Char → Parser α} {n : Nat}
    (h : ∀ next, Runs text extra (Facing text n next) (second next) Q) :
    Runs text extra (Ahead text n) (Parser.peek >>= second) Q :=
  fun c hc => h c.peek? c ⟨hc, rfl⟩

/-- The next character need not matter. -/
theorem Runs.of_ahead {p : Parser α} {n : Nat} {next : Option Char}
    (h : Runs text extra (Ahead text n) p Q) :
    Runs text extra (Facing text n next) p Q :=
  h.mono (fun _ hc => hc.1) fun _ _ hc => hc

/-- Moving past a character of the basic alphabet. -/
theorem Runs.skipOne {n : Nat} {wanted : Char} (h : isBasic wanted) :
    Runs text extra (Facing text (n + 1) (some wanted)) Parser.skipOne
      fun _ => Ahead text n := by
  rintro ⟨before, rest⟩ ⟨hc, hnext⟩
  obtain ⟨rest, rfl⟩ := List.head?_eq_some_iff.mp hnext
  exact hc.advance_pos ((Cursor.clean_zero rest).cons (.inl h)) Nat.one_pos
    (List.cons_ne_nil _ _)

theorem keeps_skipBlanks : Keeps text extra skipBlanks :=
  fun _ c hc => hc.advance (Cursor.clean_blankLength false c.rest)

theorem keeps_skipLine : Keeps text extra skipLine :=
  fun _ c hc => hc.advance (Cursor.clean_line c.rest)

theorem keeps_atEnd : Keeps text extra atEnd := fun _ _ hc => hc

theorem takes_tryChar {wanted : Char} (h : isBasic wanted) :
    Takes text extra (tryChar wanted) := by
  intro n
  refine (keeps_skipBlanks (n + 1)).bind fun _ => .peek fun next => ?_
  refine .ite (fun hnext => ?_) fun _ => .of_ahead (.pure fun _ hc => hc)
  subst hnext
  exact (Runs.skipOne h).bind fun _ => .pure fun _ hc => hc

theorem consumes_expectChar {wanted : Char} (h : isBasic wanted) :
    Consumes text extra (expectChar wanted) := by
  refine fun n => (takes_tryChar h n).bind fun taken => ?_
  cases taken with
  | true => exact .pure fun _ hc => hc
  | false => exact .peek fun next => .fail fun _ hc => hc.1.1

theorem takes_tryKeyword {word : String} (hword : word.toList ≠ [])
    (hbasic : IsBasicText word) :
    Takes text extra (tryKeyword word) := by
  intro n
  refine (keeps_skipBlanks (n + 1)).bind fun _ c hc => ?_
  split
  · rename_i hstarts
    rw [startsWithWord, Bool.and_eq_true, List.isPrefixOf_iff_prefix] at hstarts
    refine hc.advance_pos (Cursor.clean_length hstarts.1 hbasic)
      (List.length_pos_iff.mpr hword) fun hrest => ?_
    rw [hrest, List.prefix_nil] at hstarts
    exact hword hstarts.1
  · exact hc

theorem consumes_expectKeyword {word : String} (hword : word.toList ≠ [])
    (hbasic : IsBasicText word) :
    Consumes text extra (expectKeyword word) := by
  refine fun n => (takes_tryKeyword hword hbasic n).bind fun taken => ?_
  cases taken with
  | true => exact .pure fun _ hc => hc
  | false => exact .fail fun _ hc => hc.1

/-- A run that is not empty is behind the place that follows. -/
theorem runs_takeRun {p : Char → Bool} (h : ∀ b, p b → isBasic b) (n : Nat) :
    Runs text extra (Ahead text (n + 1)) (takeRun p) fun run =>
      if run.isEmpty then Ahead text (n + 1) else Ahead text n := by
  intro c hc
  have hclean : Cursor.Clean c.rest (c.run p).length :=
    Cursor.clean_run h c
  show (if (c.run p).isEmpty then Ahead text (n + 1) else Ahead text n) _
  split
  · exact hc.advance hclean
  · rename_i hrun
    rw [List.isEmpty_iff] at hrun
    refine hc.advance_pos hclean (List.length_pos_iff.mpr hrun) fun hrest => ?_
    rw [Cursor.run, hrest] at hrun
    exact hrun rfl

theorem consumes_word : Consumes text extra word := by
  intro n
  refine (keeps_skipBlanks (n + 1)).bind fun _ =>
    (runs_takeRun (fun _ => isBasic_of_isNameChar) n).bind fun run => ?_
  cases run with
  | nil => exact .fail fun _ hc => hc.1
  | cons b run => exact .pure fun _ hc => hc

theorem consumes_identifier : Consumes text extra identifier := by
  intro n
  refine (keeps_skipBlanks (n + 1)).bind fun _ => .peek fun next => ?_
  refine .ite (fun hstart => ?_) fun _ => .fail fun _ hc => hc.1.1
  rintro c ⟨hc, rfl⟩
  obtain ⟨b, run, hrun, -⟩ := exists_run_of_startsIdentifier hstart
  have htaken : Outcome text extra _ (takeRun isNameChar c) :=
    runs_takeRun (fun _ => isBasic_of_isNameChar) n c hc
  show Ahead text n (c.advance (c.run isNameChar).length)
  unfold takeRun at htaken
  rw [hrun] at htaken ⊢
  exact htaken

theorem keeps_identifier : Keeps text extra identifier :=
  consumes_identifier.keeps

theorem consumes_natural : Consumes text extra natural := by
  intro n
  refine (keeps_skipBlanks (n + 1)).bind fun _ =>
    (runs_takeRun (fun _ => isBasic_of_isDecimalDigit) n).bind fun digits => ?_
  cases digits with
  | nil => exact .fail fun _ hc => hc.1
  | cons b digits =>
    rw [List.isEmpty_cons, if_neg Bool.false_ne_true,
      if_neg Bool.false_ne_true]
    split
    · exact .pure fun _ hc => hc
    · exact .fail fun _ hc => hc.1

theorem consumes_scalarToken : Consumes text extra scalarToken := by
  intro n
  refine (keeps_skipBlanks (n + 1)).bind fun _ c hc => ?_
  dsimp only
  split
  · rename_i hempty
    exact .inl ⟨c, _, hc.1, rfl⟩
  · rename_i htoken
    rw [List.isEmpty_iff] at htoken
    refine hc.advance_pos c.clean_scalarToken
      (List.length_pos_iff.mpr htoken) fun hrest => ?_
    rw [Cursor.scalarToken, hrest] at htoken
    exact htoken rfl

/-- **Moving past a group** from the bracket that opens it. -/
theorem runs_skipGroup {opening closing : Char} (hclosing : isBasic closing)
    (n : Nat) :
    Runs text extra (Facing text n (some opening))
      (skipGroup opening closing) fun _ => Ahead text n := by
  rintro ⟨before, rest⟩ ⟨hc, hnext⟩
  obtain ⟨rest, rfl⟩ := List.head?_eq_some_iff.mp hnext
  unfold skipGroup
  dsimp only
  split
  · rename_i length hfind
    exact hc.advance (GroupEnd.clean_of_find hclosing hfind).2
  · exact .inl ⟨_, _, hc.1, rfl⟩
  · rename_i hfind
    rw [GroupEnd.find, if_pos rfl, GroupEnd.succ_eq_neverOpened] at hfind
    exact absurd hfind (GroupEnd.find_ne_neverOpened Nat.one_pos)

/-! ## Lists -/

theorem keeps_separator {closing : Char} {cause : ParseCause} :
    Keeps text extra (separator closing cause) := by
  refine (takes_tryChar rfl).keeps.bind fun _ => .ite (fun _ => .pure)
    fun _ n => .peek fun next => .of_ahead ?_
  exact .ite (fun _ => .pure fun _ hc => hc) fun _ => .fail fun _ hc => hc.1

/-- **Items up to a closing character**, each of which moves forward where
the list can get to. -/
theorem Runs.itemsUntil {closing : Char} {cause : ParseCause}
    {item : σ → Parser σ} {state : σ} {bound : Nat}
    (hclosing : isBasic closing)
    (hitem : ∀ state, ∀ n < bound, Runs text extra (Ahead text (n + 1))
      (item state) fun _ => Ahead text n) :
    Runs text extra (Ahead text bound)
      (Parser.itemsUntil closing cause item state)
      fun _ => Ahead text bound := by
  refine .loop fun state n hn => ?_
  refine ((takes_tryChar hclosing).keeps (n + 1)).bind fun closed =>
    .ite (fun _ => .pure fun _ hc => hc) fun _ => ?_
  refine (hitem state n hn).bind fun state => ?_
  exact (keeps_separator n).bind fun _ => .pure fun _ hc => hc

theorem keeps_itemsUntil {closing : Char} {cause : ParseCause}
    {item : σ → Parser σ} {state : σ} (hclosing : isBasic closing)
    (hitem : ∀ state, Consumes text extra (item state)) :
    Keeps text extra (itemsUntil closing cause item state) :=
  fun _ => .itemsUntil hclosing fun state n _ => hitem state n

theorem keeps_listUntil {closing : Char} {cause : ParseCause}
    {item : Parser α} (hclosing : isBasic closing)
    (hitem : Consumes text extra item) :
    Keeps text extra (listUntil closing cause item) :=
  keeps_itemsUntil hclosing fun _ => hitem.bind fun _ => .pure

theorem keeps_commaSeparated {item : Parser α}
    (hitem : Consumes text extra item) :
    Keeps text extra (commaSeparated item) := by
  refine .loop fun items n => (hitem n).bind fun a => ?_
  refine ((takes_tryChar rfl).keeps n).bind fun more => ?_
  exact .ite (fun _ => .pure fun _ hc => hc)
    fun _ => .pure fun _ hc => hc.succ

/-- **What a reader comes to on a text**: a value, a refusal at one of its
places or a failure that is listed. -/
theorem Keeps.onText {p : Parser α} (h : Keeps text extra p) :
    (∃ a, p.onText text = .ok a)
      ∨ (∃ place cause, place.Splits text
        ∧ p.onText text = .error (refusal place cause))
      ∨ ∃ e, extra e ∧ p.onText text = .error e := by
  have hstart : Ahead text _ (Cursor.ofText text) :=
    ⟨Cursor.splits_ofText text, Nat.lt_succ_self _⟩
  have hrun := h _ _ hstart
  unfold Parser.onText
  cases hp : p (Cursor.ofText text) with
  | ok result => exact .inl ⟨result.1, rfl⟩
  | error e =>
    rw [hp] at hrun
    rcases hrun with ⟨place, cause, hplace, rfl⟩ | hextra
    · exact .inr (.inl ⟨place, cause, hplace, rfl⟩)
    · exact .inr (.inr ⟨e, hextra, rfl⟩)

end Parser

end TensorBind
