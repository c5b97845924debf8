import TensorBind.Text.Cursor
import TensorBind.Text.ParseError

/-!
# Parsers

A parser advances a cursor and returns a value, or fails with a
`ParseError`. The parsers of single tokens, which are methods of aotc's
`Cursor`, are here; those of the two program forms are composed of them.

Repetition is `Parser.loop`. It requires that every round but the last
advances the cursor, which is why it ends, and fails with
`ParseError.stalled` at a round that does not.
-/

namespace TensorBind

/-- **A parser**: a step from one cursor to a later one, with a value. -/
abbrev Parser := StateT Cursor (Except ParseError)

namespace Parser

/-- How a round of a repetition ends. -/
inductive Round (σ α : Type) where
  /-- Another round follows. -/
  | more (state : σ)
  /-- The repetition is over. -/
  | done (value : α)

/-- **Repeats a parser** until a round is the last. -/
def loop {σ α : Type} (round : σ → Parser (Round σ α)) (state : σ)
    (c : Cursor) : Except ParseError (α × Cursor) :=
  match round state c with
  | .error e => .error e
  | .ok (.done value, next) => .ok (value, next)
  | .ok (.more state, next) =>
    if next.rest.length < c.rest.length then loop round state next
    else .error .stalled
termination_by c.rest.length

/-- aotc's `error`: a cause at the position of a cursor. -/
def refusal (c : Cursor) (cause : ParseCause) : ParseError :=
  .refused c.line c.column cause

/-- Fails at the current position. -/
def fail {α : Type} (cause : ParseCause) : Parser α := fun c =>
  .error (refusal c cause)

/-- Fails at an earlier position. -/
def failAt {α : Type} (c : Cursor) (cause : ParseCause) : Parser α :=
  fun _ => .error (refusal c cause)

/-- The next character. -/
def peek : Parser (Option Char) := fun c => .ok (c.peek?, c)

/-- Whether nothing is left. -/
def atEnd : Parser Bool := fun c => .ok (c.atEnd, c)

/-- Advances past one character. -/
def skipOne : Parser Unit := fun c => .ok ((), c.advance 1)

/-- Moves past blanks and comments. -/
def skipBlanks : Parser Unit := fun c => .ok ((), c.skipBlanks)

/-- Moves to the start of the next line. -/
def skipLine : Parser Unit := fun c => .ok ((), c.skipLine)

/-- aotc's `try_read`: consumes a character if it comes next, after white
space. -/
def tryChar (wanted : Char) : Parser Bool := do
  skipBlanks
  if (← peek) = some wanted then
    skipOne
    return true
  else
    return false

/-- aotc's `expect`: consumes a character, which has to come next after white
space. -/
def expectChar (wanted : Char) : Parser Unit := do
  if ← tryChar wanted then
    return ()
  else
    fail (.expectedChar wanted (← peek))

/-- Whether a word comes next and is not part of a longer one. -/
def startsWithWord (word text : List Char) : Bool :=
  word.isPrefixOf text && !((text.drop word.length).head?.any isNameChar)

/-- aotc's `try_keyword`: consumes a word if it comes next, after white
space. -/
def tryKeyword (word : String) : Parser Bool := do
  skipBlanks
  fun c =>
    if startsWithWord word.toList c.rest then
      .ok (true, c.advance word.toList.length)
    else .ok (false, c)

/-- aotc's `expect_keyword`: consumes a word, which has to come next after
white space. -/
def expectKeyword (word : String) : Parser Unit := do
  if ← tryKeyword word then
    return ()
  else
    fail (.expectedKeyword word)

/-- Consumes the longest run of characters of a class. -/
def takeRun (p : Char → Bool) : Parser (List Char) := fun c =>
  .ok (c.run p, c.advance (c.run p).length)

/-- Whether an identifier may start with a character. -/
def startsIdentifier (c : Char) : Bool := isLetter c || c == '_'

/-- aotc's `read_identifier`: a name that starts with a letter or an
underscore. -/
def identifier : Parser String := do
  skipBlanks
  let next ← peek
  if next.any startsIdentifier then
    return String.ofList (← takeRun isNameChar)
  else
    fail (.expectedIdentifier next)

/-- aotc's `read_word`: a name, which may start with any of its characters. -/
def word : Parser String := do
  skipBlanks
  let run ← takeRun isNameChar
  if run.isEmpty then
    fail .expectedName
  else
    return String.ofList run

/-- Reads a scalar token, aotc's `read_scalar_token`. -/
def scalarToken : Parser (List Char) := do
  skipBlanks
  fun c =>
    let token := c.scalarToken
    if token.isEmpty then .error (refusal c .expectedValue)
    else .ok (token, c.advance token.length)

/-- aotc's `read_unsigned`: a natural number that fits a word of 64 bits. -/
def natural : Parser Nat := do
  skipBlanks
  let digits ← takeRun isDecimalDigit
  if digits.isEmpty then
    fail .expectedNumber
  else match Integer.readWord digits with
    | .ok n => return n
    | .error fault => fail (.invalidNumber fault)

/-- aotc's `skip_balanced`: advances past a bracketed group. -/
def skipGroup (opening closing : Char) : Parser Unit := fun c =>
  match GroupEnd.find opening closing 0 c.rest with
  | .closed length => .ok ((), c.advance length)
  | .unterminated => .error (refusal c (.unterminated opening))
  | .neverOpened => .error .groupUnderflow

/-! ## Lists -/

/-- What follows an item of a list: a comma, or the closing character of the
list, which is not consumed. -/
def separator (closing : Char) (cause : ParseCause) : Parser Unit := do
  if ← tryChar ',' then
    return ()
  else if (← peek) = some closing then
    return ()
  else
    fail cause

/-- A round of a list of items: the closing character, or one more item and
what follows it. -/
def itemRound {σ : Type} (closing : Char) (cause : ParseCause)
    (item : σ → Parser σ) (state : σ) : Parser (Round σ σ) := do
  if ← tryChar closing then
    return .done state
  else
    let state ← item state
    separator closing cause
    return .more state

/-- **Reads items up to a closing character**, with a comma after each, which
may be missing after the last, and folds a state over them. -/
def itemsUntil {σ : Type} (closing : Char) (cause : ParseCause)
    (item : σ → Parser σ) (state : σ) : Parser σ :=
  loop (itemRound closing cause item) state

/-- Reads a list of items up to a closing character. -/
def listUntil {α : Type} (closing : Char) (cause : ParseCause)
    (item : Parser α) : Parser (List α) :=
  itemsUntil closing cause (fun items => return items ++ [← item]) []

/-- A round of items between commas: one more item, which is the last if no
comma follows. -/
def commaRound {α : Type} (item : Parser α) (items : List α) :
    Parser (Round (List α) (List α)) := do
  let items := items ++ [← item]
  if ← tryChar ',' then
    return .more items
  else
    return .done items

/-- Reads one item and then one more after each comma. -/
def commaSeparated {α : Type} (item : Parser α) : Parser (List α) :=
  loop (commaRound item) []

/-- Runs a parser from the start of a text. -/
def onText {α : Type} (reader : Parser α) (text : String) :
    Except ParseError α :=
  (reader (Cursor.ofText text)).map Prod.fst

end Parser

end TensorBind
