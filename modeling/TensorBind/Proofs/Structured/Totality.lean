import TensorBind.Proofs.Text.Position
import TensorBind.Proofs.Structured.Reading

/-!
# Reading structured programs from arbitrary texts

On every text reading ends, with a program or with a refusal at a place of
the text, with one exception. The attributes of a module or a function are
passed over as a group in braces, and that they begin with a brace is not
looked at. If a closing brace comes first, the depth of the group cannot be
counted (`UnopenedAttributes`). Which place a refusal is at can be told from
its line and column (`Module.splits_of_parse`).
-/

namespace TensorBind

namespace GroupEnd

/-- A group that is closed before it was opened. -/
theorem exists_of_find_eq_neverOpened {opening closing : Char}
    {text : List Char} (h : find opening closing 0 text = neverOpened) :
    ∃ between rest, text = between ++ closing :: rest
      ∧ opening ∉ between := by
  induction text with
  | nil => cases h
  | cons b text ih =>
    unfold find at h
    split at h
    · rw [succ_eq_neverOpened] at h
      exact absurd h (find_ne_neverOpened Nat.one_pos)
    · rename_i hopening
      split at h
      · rename_i hclosing
        exact ⟨[], text, hclosing ▸ rfl, List.not_mem_nil⟩
      · obtain ⟨between, rest, rfl, hbetween⟩ :=
          ih (succ_eq_neverOpened.mp h)
        refine ⟨b :: between, rest, rfl, fun hmem => ?_⟩
        rcases List.mem_cons.mp hmem with hb | hmem
        · exact hopening hb.symm
        · exact hbetween hmem

end GroupEnd

namespace Structured

open TensorBind.Parser

/-- **Attributes that are closed before they are opened**: behind the
keyword and blanks, a closing brace comes before any opening one. -/
def UnopenedAttributes (text : String) : Prop :=
  ∃ before after between rest,
    byteChars text = before ++ "attributes".toList ++ after
      ∧ after.drop (Cursor.blankLength false after) = between ++ '}' :: rest
      ∧ '{' ∉ between

/-- How reading can fail without a refusal. -/
def Underflow (text : String) (e : ParseError) : Prop :=
  e = .groupUnderflow ∧ UnopenedAttributes text

variable {text : String}

/-! ## Types and attributes -/

/-- Behind the keyword, attributes are passed over or never opened. -/
theorem keeps_skipAttributes :
    Keeps text (Underflow text) skipAttributes := by
  intro n
  have hkeyword : Runs text (Underflow text) (Ahead text n)
      (tryKeyword "attributes") fun taken c => Ahead text n c
        ∧ (taken → "attributes".toList <:+ c.before.reverse) := by
    refine (keeps_skipBlanks n).bind fun _ c hc => ?_
    split
    · rename_i hstarts
      rw [startsWithWord, Bool.and_eq_true,
        List.isPrefixOf_iff_prefix] at hstarts
      have hbasic : IsBasicText "attributes" := by decide
      refine ⟨hc.advance (Cursor.clean_length hstarts.1 hbasic),
        fun _ => ⟨c.before.reverse, ?_⟩⟩
      rw [Cursor.advance, ← List.prefix_iff_eq_take.mp hstarts.1,
        List.reverse_append, List.reverse_reverse]
    · exact ⟨hc, fun h => absurd h Bool.false_ne_true⟩
  refine hkeyword.bind fun taken => .ite (fun htaken => ?_)
    fun _ => .pure fun _ hc => hc.1
  rintro c ⟨hc, hbehind⟩
  show Outcome _ _ _ (skipGroup '{' '}' c.skipBlanks)
  have hblanks : Ahead text n c.skipBlanks :=
    hc.advance (Cursor.clean_blankLength false c.rest)
  unfold skipGroup
  split
  · rename_i length hfind
    exact hblanks.advance (GroupEnd.clean_of_find rfl hfind).2
  · exact .inl ⟨_, _, hblanks.1, rfl⟩
  · rename_i hfind
    obtain ⟨between, rest, hrest, hbetween⟩ :=
      GroupEnd.exists_of_find_eq_neverOpened hfind
    obtain ⟨before, hbefore⟩ := hbehind htaken
    refine .inr ⟨rfl, before, c.rest, between, rest, ?_, hrest, hbetween⟩
    rw [hbefore]
    exact hc.1.text_eq.symm

theorem keeps_skipDictionary {extra : ParseError → Prop} :
    Keeps text extra skipDictionary := by
  refine keeps_skipBlanks.bind fun _ n => .peek fun next => ?_
  refine .ite (fun hnext => ?_) fun _ => .of_ahead (.pure fun _ hc => hc)
  subst hnext
  exact runs_skipGroup rfl n

theorem keeps_readDimension {extra : ParseError → Prop} (part : String) :
    Keeps text extra (readDimension part) := by
  unfold readDimension
  split
  · exact .fail
  · exact .ite (fun _ => .fail) fun _ => .pure

theorem keeps_tensorOfParts {extra : ParseError → Prop}
    (parts : List String) : Keeps text extra (tensorOfParts parts) := by
  unfold tensorOfParts
  dsimp only
  split
  · exact .fail
  · refine Keeps.bind (.mapM keeps_readDimension) fun dims => ?_
    exact .ite (fun _ => .fail) fun _ => .pure

theorem consumes_readTensorType {extra : ParseError → Prop} :
    Consumes text extra readTensorType := by
  refine (consumes_expectKeyword (by decide) (by decide)).bind fun _ => ?_
  refine (consumes_expectChar rfl).keeps.bind fun _ => ?_
  refine consumes_word.keeps.bind fun word => .of_succ fun n => ?_
  refine .peek fun next => .ite (fun hnext => ?_)
    fun _ => .fail fun _ hc => hc.1.1
  subst hnext
  refine (Runs.skipOne rfl).bind fun _ => ?_
  exact (keeps_tensorOfParts _ n).mono (fun _ hc => hc)
    fun _ _ hc => hc.succ

theorem consumes_readElement {extra : ParseError → Prop}
    (elements : Dense) : Consumes text extra (readElement elements) := by
  refine consumes_scalarToken.bind fun token => ?_
  split
  · exact .pure
  · exact .fail

theorem keeps_readDense {extra : ParseError → Prop} :
    Keeps text extra readDense := by
  unfold readDense
  refine Keeps.bind (.loop ?_) fun elements =>
    .ite (fun _ => .fail) fun _ => .pure
  rintro ⟨depth, elements⟩ n
  refine (keeps_skipBlanks (n + 1)).bind fun _ => .peek fun next => ?_
  -- a bracket or a comma may also be taken for an element
  have helement : Runs text extra (Facing text (n + 1) next)
      (do return Round.more (depth, ← readElement elements))
      (Moved (α := Dense) text n) :=
    .of_ahead ((consumes_readElement elements n).bind fun _ =>
      .pure fun _ hc => hc)
  split
  · exact .fail fun _ hc => hc.1.1
  · exact (Runs.skipOne rfl).bind fun _ => .pure fun _ hc => hc
  · refine .ite (fun _ => helement) fun _ => ?_
    exact (Runs.skipOne rfl).bind fun _ => .pure fun _ hc => hc
  · refine .ite (fun _ => helement) fun _ => ?_
    exact (Runs.skipOne rfl).bind fun _ => .pure fun _ hc => hc
  · refine .ite (fun _ => ?_) fun _ => helement
    exact (Runs.skipOne rfl).bind fun _ => .pure fun _ hc => hc.succ
  · exact helement

/-! ## Values and operations -/

variable {extra : ParseError → Prop}

theorem consumes_readValueName : Consumes text extra readValueName :=
  (consumes_expectChar rfl).bind fun _ => consumes_word.keeps

theorem consumes_readValue (names : Names) :
    Consumes text extra (readValue names) := by
  refine fun n => .get fun start hstart => ?_
  refine (consumes_readValueName n).bind fun name => ?_
  split
  · exact .pure fun _ hc => hc
  · exact .failAt hstart

theorem keeps_readKind {names : Names} {start : Cursor} {name : String}
    (hstart : start.Splits text) :
    Keeps text extra (readKind names start name) := by
  unfold readKind
  split
  · exact .failAt hstart
  · refine .ite (fun _ => ?_) fun _ => ?_
    · refine (consumes_expectKeyword (by decide) (by decide)).keeps.bind
        fun _ => ?_
      refine (consumes_expectChar rfl).keeps.bind fun _ => ?_
      exact keeps_readDense.bind fun _ => .pure
    · split
      · exact .failAt hstart
      · refine (keeps_commaSeparated (consumes_readValue names)).bind
          fun operands => ?_
        exact .ite (fun _ => .pure) fun _ => .fail

theorem keeps_readResultType : Keeps text extra readResultType := by
  refine (consumes_expectChar rfl).keeps.bind fun _ => ?_
  refine keeps_skipBlanks.bind fun _ n => .peek fun next => ?_
  refine .ite (fun hnext => ?_)
    fun _ => .of_ahead (consumes_readTensorType.keeps n)
  subst hnext
  refine (runs_skipGroup rfl n).bind fun _ => ?_
  refine ((consumes_expectChar rfl).keeps n).bind fun _ => ?_
  refine ((consumes_expectChar rfl).keeps n).bind fun _ => ?_
  exact consumes_readTensorType.keeps n

theorem keeps_define (names : Names) (name : String) :
    Keeps text extra (names.define name) :=
  .ite (fun _ => .fail) fun _ => .pure

theorem consumes_readOperation (names : Names) :
    Consumes text extra (readOperation names) := by
  refine consumes_readValueName.bind fun result => ?_
  refine (consumes_expectChar rfl).keeps.bind fun _ => ?_
  refine keeps_skipBlanks.bind fun _ n => .peek fun next => .of_ahead ?_
  refine .ite (fun _ => .fail fun _ hc => hc.1) fun _ => ?_
  refine .get fun start hstart => (keeps_identifier n).bind fun name => ?_
  refine (keeps_readKind hstart n).bind fun kind => ?_
  refine (keeps_readResultType n).bind fun type => ?_
  exact (keeps_define names result n).bind fun _ => .pure fun _ hc => hc

theorem keeps_readReturn (names : Names) :
    Keeps text extra (readReturn names) := by
  refine keeps_skipBlanks.bind fun _ n => .peek fun next => .of_ahead ?_
  refine .ite (fun _ => ?_) fun _ => .pure fun _ hc => hc
  refine (keeps_commaSeparated (consumes_readValue names) n).bind
    fun values => ?_
  refine ((consumes_expectChar rfl).keeps n).bind fun _ => ?_
  refine (keeps_commaSeparated consumes_readTensorType n).bind fun types => ?_
  exact .ite (fun _ => .pure fun _ hc => hc) fun _ => .fail fun _ hc => hc.1

/-! ## Functions and modules -/

theorem consumes_readArgument (state : List Shape × Names) :
    Consumes text extra (readArgument state) := by
  refine consumes_readValueName.bind fun name => ?_
  refine (consumes_expectChar rfl).keeps.bind fun _ => ?_
  refine consumes_readTensorType.keeps.bind fun type => ?_
  refine keeps_skipDictionary.bind fun _ => ?_
  exact (keeps_define state.2 name).bind fun _ => .pure

theorem consumes_readResult : Consumes text extra readResult :=
  consumes_readTensorType.bind fun _ => keeps_skipDictionary.bind
    fun _ => .pure

theorem keeps_readResults : Keeps text extra readResults := by
  refine (takes_tryChar rfl).keeps.bind fun _ =>
    .ite (fun _ => ?_) fun _ => .pure
  refine (consumes_expectChar rfl).keeps.bind fun _ => ?_
  refine (takes_tryChar rfl).keeps.bind fun _ => .ite (fun _ => ?_) fun _ => ?_
  · exact keeps_listUntil rfl consumes_readResult
  · exact consumes_readTensorType.keeps.bind fun _ => .pure

theorem keeps_readBody (function : String) (names : Names) :
    Keeps text extra (readBody function names) := by
  refine .loop fun state n => ?_
  have hreturn : Keeps text extra (do
      if ← tryKeyword "return" then return true
      else tryKeyword "func.return") := by
    refine (takes_tryKeyword (by decide) (by decide)).keeps.bind fun _ =>
      .ite (fun _ => .pure) fun _ => ?_
    exact (takes_tryKeyword (by decide) (by decide)).keeps
  refine (hreturn (n + 1)).bind fun _ => .ite (fun _ => ?_) fun _ => ?_
  · exact (keeps_readReturn state.2 (n + 1)).bind fun _ =>
      .pure fun _ hc => hc
  · refine .peek fun next => .of_ahead ?_
    refine .ite (fun _ => .fail fun _ hc => hc.1) fun _ => ?_
    exact (consumes_readOperation state.2 n).bind fun _ =>
      .pure fun _ hc => hc

theorem consumes_readFunc :
    Consumes text (Underflow text) readFunc := by
  refine (consumes_expectKeyword (by decide) (by decide)).bind fun _ => ?_
  refine (takes_tryKeyword (by decide) (by decide)).keeps.bind fun _ => ?_
  refine .optional (takes_tryKeyword (by decide) (by decide)).keeps ?_
  refine (consumes_expectChar rfl).keeps.bind fun _ => ?_
  refine consumes_word.keeps.bind fun name => ?_
  refine (consumes_expectChar rfl).keeps.bind fun _ => ?_
  refine (keeps_itemsUntil rfl consumes_readArgument).bind fun _ => ?_
  refine keeps_readResults.bind fun _ => ?_
  refine keeps_skipAttributes.bind fun _ => ?_
  refine (consumes_expectChar rfl).keeps.bind fun _ => ?_
  refine (keeps_readBody name _).bind fun _ => ?_
  exact (consumes_expectChar rfl).keeps.bind fun _ => .pure

theorem keeps_readBracedFunctions :
    Keeps text (Underflow text) readBracedFunctions := by
  refine .loop fun functions n => ?_
  refine ((takes_tryChar rfl).keeps (n + 1)).bind fun _ =>
    .ite (fun _ => .pure fun _ hc => hc) fun _ => ?_
  refine (keeps_atEnd (n + 1)).bind fun _ =>
    .ite (fun _ => .fail fun _ hc => hc.1) fun _ => ?_
  exact (consumes_readFunc n).bind fun _ => .pure fun _ hc => hc

theorem keeps_readBareFunctions :
    Keeps text (Underflow text) readBareFunctions := by
  refine keeps_skipBlanks.bind fun _ => .loop fun functions n => ?_
  refine (keeps_atEnd (n + 1)).bind fun _ =>
    .ite (fun _ => .pure fun _ hc => hc) fun _ => ?_
  refine (consumes_readFunc n).bind fun _ => ?_
  exact (keeps_skipBlanks n).bind fun _ => .pure fun _ hc => hc

theorem keeps_readModuleName : Keeps text extra readModuleName := by
  refine keeps_skipBlanks.bind fun _ => .of_succ fun n => ?_
  refine .peek fun next => .ite (fun hnext => ?_)
    fun _ => .of_ahead (.pure fun _ hc => hc)
  subst hnext
  refine (Runs.skipOne rfl).bind fun _ => ?_
  exact (consumes_word.keeps n).bind fun _ => .pure fun _ hc => hc.succ

theorem keeps_readModule : Keeps text (Underflow text) readModule := by
  have hmodule : Keeps text (Underflow text) readModuleText := by
    refine (takes_tryKeyword (by decide) (by decide)).keeps.bind fun _ => ?_
    refine .ite (fun _ => ?_) fun _ =>
      keeps_readBareFunctions.bind fun _ => .pure
    refine keeps_readModuleName.bind fun name => ?_
    refine keeps_skipAttributes.bind fun _ => ?_
    refine (consumes_expectChar rfl).keeps.bind fun _ => ?_
    exact keeps_readBracedFunctions.bind fun _ => .pure
  refine hmodule.bind fun m => keeps_skipBlanks.bind fun _ => ?_
  refine keeps_atEnd.bind fun _ => .ite (fun _ => .fail) fun _ => ?_
  exact .ite (fun _ => .fail) fun _ => .pure

/-- **Where a text is refused**: the line and the column of a refusal are
those of one place between two characters. -/
theorem Module.splits_of_parse {text : String} {line column : Nat}
    {cause : ParseCause}
    (h : parse text = .error (.refused line column cause)) :
    Text.Locates text line column (Text.offset text line column)
      ∧ ((Cursor.ofText text).advance
        (Text.offset text line column)).Splits text := by
  refine keeps_readModule.splits_offset (fun _ _ _ hextra => ?_) h
  cases hextra.1

namespace Context

/-- **On every text reading ends in one of three ways**: with a program,
which is counted; with a refusal at a place between two characters of the
text, and nothing counted; or, only if attributes in the text are closed
before they are opened, without a depth to count, and nothing counted. -/
theorem parse_cases (c : Context) (text : String) :
    (∃ m, c.parse text = (.ok m, ⟨c.modulesParsed + 1⟩))
      ∨ (∃ (place : Cursor) (cause : ParseCause), place.Splits text
        ∧ c.parse text
          = (.error (.refused place.line place.column cause), c))
      ∨ c.parse text = (.error .groupUnderflow, c)
        ∧ UnopenedAttributes text := by
  have hkeeps : Keeps text _ readModule := keeps_readModule
  unfold parse Module.parse
  rcases hkeeps.onText with
    ⟨m, hm⟩ | ⟨place, cause, hplace, hcause⟩ | ⟨e, ⟨rfl, hunopened⟩, he⟩
  · rw [hm]
    exact .inl ⟨m, rfl⟩
  · rw [hcause]
    exact .inr (.inl ⟨place, cause, hplace, rfl⟩)
  · rw [he]
    exact .inr (.inr ⟨rfl, hunopened⟩)

-- A closing brace behind the keyword of attributes is neither read nor
-- refused.
example :
    empty.parse "module attributes \x7d" = (.error .groupUnderflow, empty) := by
  cbv

end Context

end Structured

end TensorBind
