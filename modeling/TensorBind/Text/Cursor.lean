/-!
# Cursors in a text

aotc's `Cursor`, which both program readers share. A text is read byte by
byte. Each byte of its encoding is shown as the character with the same code
(`byteChars`), which for the characters of programs is the character itself,
so the rules below compare characters and still count bytes.

A **cursor** is a byte position in such a text, kept as the bytes before it,
the latest first, and the bytes after it. Advancing moves characters from the
one list to the other, so no position can leave the text, the line and the
column of a cursor are computed from the bytes before it, and backtracking to
an earlier position is keeping its cursor.
-/

namespace TensorBind

/-- The bytes of a text, each as the character of the same code. -/
def byteChars (text : String) : List Char :=
  text.toUTF8.data.toList.map fun byte => Char.ofNat byte.toNat

/-- **aotc's `Cursor`**: a position in a text. -/
structure Cursor where
  /-- The bytes before the position, the latest first. -/
  before : List Char
  /-- The bytes after the position. -/
  rest : List Char
deriving DecidableEq

/-! ## Character classes -/

/-- A letter of the basic alphabet. -/
def isLetter (c : Char) : Bool :=
  ('a' ≤ c && c ≤ 'z') || ('A' ≤ c && c ≤ 'Z')

/-- A decimal digit. -/
def isDecimalDigit (c : Char) : Bool := '0' ≤ c && c ≤ '9'

/-- aotc's `is_ident_char`: a character that a name may contain. -/
def isNameChar (c : Char) : Bool :=
  isLetter c || isDecimalDigit c || c == '_' || c == '.' || c == '-'

/-- ASCII white space: blank, tab, line feed, form feed and carriage
return. -/
def isBlank (c : Char) : Bool :=
  c == ' ' || c == '\t' || c == '\n' || c == '\x0c' || c == '\r'

/-- A sign of a number or of an exponent. -/
def isSign (c : Char) : Bool := c == '-' || c == '+'

namespace Cursor

/-- A cursor at the start of a text. -/
def ofText (text : String) : Cursor := ⟨[], byteChars text⟩

/-- The whole text of a cursor. -/
def text (c : Cursor) : List Char := c.before.reverse ++ c.rest

/-- aotc's `pos`: the byte offset of a cursor. -/
def position (c : Cursor) : Nat := c.before.length

/-- The line of a cursor, counted from one. -/
def line (c : Cursor) : Nat := c.before.count '\n' + 1

/-- The column of a cursor in bytes, counted from one. -/
def column (c : Cursor) : Nat :=
  (c.before.takeWhile (· != '\n')).length + 1

/-- aotc's `peek`: the next character. -/
def peek? (c : Cursor) : Option Char := c.rest.head?

/-- Whether the cursor is at the end of the text, aotc's `is_eof`. -/
def atEnd (c : Cursor) : Bool := c.rest.isEmpty

/-- Advances by a number of characters, or to the end of the text. -/
def advance (c : Cursor) (count : Nat) : Cursor :=
  ⟨(c.rest.take count).reverse ++ c.before, c.rest.drop count⟩

/-- The longest run of characters of a class from the cursor on. -/
def run (c : Cursor) (p : Char → Bool) : List Char := c.rest.takeWhile p

/-! ## What is skipped -/

/-- The length of the white space and comments at the start of a text. A
comment goes from two slashes to the end of its line. -/
def blankLength (inComment : Bool) : List Char → Nat
  | [] => 0
  | c :: rest =>
    if inComment then blankLength (c != '\n') rest + 1
    else if c = '/' ∧ rest.head? = some '/' then blankLength true rest + 1
    else if isBlank c then blankLength false rest + 1
    else 0

/-- aotc's `skip_whitespace`: advances past white space and comments. -/
def skipBlanks (c : Cursor) : Cursor := c.advance (blankLength false c.rest)

/-- aotc's `skip_line`: advances to the start of the next line. -/
def skipLine (c : Cursor) : Cursor :=
  c.advance ((c.run (· != '\n')).length + 1)

/-! ## Tokens -/

/-- The rest of a scalar token after the character `previous`: letters, digits
and points, and a sign directly after the letter of an exponent. -/
def scalarRun (previous : Char) : List Char → List Char
  | [] => []
  | c :: rest =>
    if isLetter c || isDecimalDigit c || c == '.'
        || (isSign c && (previous == 'e' || previous == 'E')) then
      c :: scalarRun c rest
    else []

/-- The token that aotc's `read_scalar_token` reads, which may start with a
sign. -/
def scalarToken (c : Cursor) : List Char :=
  match c.rest with
  | [] => []
  | first :: rest =>
    if isSign first then first :: scalarRun first rest
    else scalarRun ' ' (first :: rest)

end Cursor

/-- How the search of `skip_balanced` for the end of a group ends. -/
inductive GroupEnd where
  /-- The group is closed after so many characters. -/
  | closed (length : Nat)
  /-- The text ends inside the group. -/
  | unterminated
  /-- A closing bracket comes first, and the depth would go below zero. -/
  | neverOpened
deriving DecidableEq

namespace GroupEnd

/-- The end of a group one character further on. -/
def succ : GroupEnd → GroupEnd
  | closed length => closed (length + 1)
  | other => other

/-- **The loop of `skip_balanced`**, at a nesting depth. -/
def find (opening closing : Char) : Nat → List Char → GroupEnd
  | _, [] => unterminated
  | depth, c :: rest =>
    if c = opening then (find opening closing (depth + 1) rest).succ
    else if c = closing then
      match depth with
      | 0 => neverOpened
      | 1 => closed 1
      | depth + 1 => (find opening closing depth rest).succ
    else (find opening closing depth rest).succ

end GroupEnd

end TensorBind
