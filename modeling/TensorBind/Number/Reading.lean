import TensorBind.Number.Decimal

/-!
# Reading binary numbers from decimal texts

A number is an optional sign and then either digits with at most one point
among them and an optional exponent, or one of the words `inf`, `infinity`
and `nan` in any mixture of cases (`Binary.read?`). At least one digit
stands before or after the point, and an exponent has at least one digit.
The exact value of the text is rounded once.
-/

namespace TensorBind

-- Powers are the core library's, also where other instances are in sight.
attribute [local instance (2000)] instPowNat

namespace Decimal

/-- Whether a character is a decimal digit. -/
def isDigit (c : Char) : Bool := (Integer.digit? c).isSome

/-- The value of a run of digits; a character that is no digit counts as
zero. -/
def valueOf (digits : List Char) : Nat :=
  digits.foldl (fun value c => 10 * value + (Integer.digit? c).getD 0) 0

/-- The magnitude of an exponent. Once it has reached `2 ^ 16`, where
every number with fewer digits than that is out of range, further digits
are dropped. -/
def exponentOf (digits : List Char) : Nat :=
  digits.foldl
    (fun value c =>
      if value < 2 ^ (16 : Nat) then 10 * value + (Integer.digit? c).getD 0
      else value) 0

/-- Reads digits to the end of the text, of which there is at least
one. -/
def readExponentDigits? (text : List Char) : Option Nat :=
  if text.isEmpty || !text.all isDigit then none else some (exponentOf text)

/-- Reads an exponent with an optional sign. -/
def readExponent? : List Char → Option Int
  | '-' :: rest => (readExponentDigits? rest).map fun n => -(n : Int)
  | '+' :: rest => (readExponentDigits? rest).map Int.ofNat
  | text => (readExponentDigits? text).map Int.ofNat

/-- Reads what may follow the digits: nothing, or an exponent. -/
def readScale? : List Char → Option Int
  | [] => some 0
  | 'e' :: rest => readExponent? rest
  | 'E' :: rest => readExponent? rest
  | _ => none

/-- The digits behind a point, if there is one, and what follows them. -/
def splitFraction : List Char → List Char × List Char
  | '.' :: rest => rest.span isDigit
  | text => ([], text)

/-- **Reads a decimal without a sign.** -/
def read? (text : List Char) : Option Decimal :=
  let (whole, rest) := text.span isDigit
  let (fraction, rest) := splitFraction rest
  if whole.isEmpty && fraction.isEmpty then none
  else (readScale? rest).map fun scale =>
    ⟨valueOf (whole ++ fraction), scale - fraction.length⟩

end Decimal

namespace Binary

/-- Reads a magnitude: a decimal, or a word for infinity or NaN. -/
def readMagnitude? (F : Format) (text : List Char) : Option Nat :=
  match Decimal.read? text with
  | some d => some (d.nearest F)
  | none =>
    let word := String.ofList (text.map Char.toLower)
    if word = "inf" ∨ word = "infinity" then some F.infinity
    else if word = "nan" then some F.quietNaN
    else none

/-- **Reads a number**, with an optional sign. -/
def read? (F : Format) : List Char → Option (Binary F)
  | '-' :: rest => (readMagnitude? F rest).map (ofMagnitude F true)
  | '+' :: rest => (readMagnitude? F rest).map (ofMagnitude F false)
  | text => (readMagnitude? F text).map (ofMagnitude F false)

end Binary

end TensorBind
