import TensorBind.Text.Printable

/-!
# Quoted texts

A text that a message repeats is put between double quotes. A quote or a
backslash in it is written behind a backslash, the usual controls have
their letters, and any other character that cannot be printed is given by
its code point in hexadecimal digits.
-/

namespace TensorBind.Text

/-- A character as it stands in a quoted text. -/
def quoteChar (c : Char) : String :=
  if c = '\x00' then "\\0"
  else if c = '\t' then "\\t"
  else if c = '\r' then "\\r"
  else if c = '\n' then "\\n"
  else if c = '\\' then "\\\\"
  else if c = '"' then "\\\""
  else if printable c then String.singleton c
  else "\\u\x7b" ++ String.ofList (Nat.toDigits 16 c.toNat) ++ "\x7d"

/-- **A text between quotes.** -/
def quote (text : String) : String :=
  "\"" ++ String.join (text.toList.map quoteChar) ++ "\""

end TensorBind.Text
