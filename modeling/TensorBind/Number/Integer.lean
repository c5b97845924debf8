/-!
# Reading integers

A signed integer is an optional sign and at least one decimal digit. The
text is judged from left to right and the first character at fault decides
(`IntegerFault`): a character that is no digit, or a digit that carries
the value out of the range asked for. A sign alone is a character that is
no digit, and so is a minus sign where the range has no negative numbers.
-/

namespace TensorBind

-- Powers are the core library's, also where other instances are in sight.
attribute [local instance (2000)] instPowNat

/-- Why a text is not an integer of the range asked for. -/
inductive IntegerFault where
  /-- There is no character at all. -/
  | empty
  /-- A character is not a digit. -/
  | invalidDigit
  /-- The value passes the upper end of the range. -/
  | tooLarge
  /-- The value passes the lower end of the range. -/
  | tooSmall
deriving DecidableEq, Repr

namespace IntegerFault

/-- The wording of each cause. -/
def message : IntegerFault → String
  | empty => "cannot parse integer from empty string"
  | invalidDigit => "invalid digit found in string"
  | tooLarge => "number too large to fit in target type"
  | tooSmall => "number too small to fit in target type"

end IntegerFault

namespace Integer

/-- The value of a decimal digit. -/
def digit? (c : Char) : Option Nat :=
  if '0' ≤ c ∧ c ≤ '9' then some (c.toNat - '0'.toNat) else none

/-- Reads the digits of a magnitude of at most `bound` after the value
`value`; `fault` is the cause reported when the bound is passed. -/
def readDigits (bound : Nat) (fault : IntegerFault) :
    Nat → List Char → Except IntegerFault Nat
  | value, [] => .ok value
  | value, c :: rest =>
    match digit? c with
    | none => .error .invalidDigit
    | some d =>
      if 10 * value + d ≤ bound then
        readDigits bound fault (10 * value + d) rest
      else .error fault

/-- **Reads a natural number of at most `bound`**, with an optional plus
sign. -/
def readNat (bound : Nat) : List Char → Except IntegerFault Nat
  | [] => .error .empty
  | '+' :: [] => .error .invalidDigit
  | '+' :: rest => readDigits bound .tooLarge 0 rest
  | text => readDigits bound .tooLarge 0 text

/-- **Reads an integer from `-below` to `above`**, with an optional
sign. -/
def readInt (below above : Nat) : List Char → Except IntegerFault Int
  | [] => .error .empty
  | '+' :: [] => .error .invalidDigit
  | '-' :: [] => .error .invalidDigit
  | '+' :: rest => (readDigits above .tooLarge 0 rest).map Int.ofNat
  | '-' :: rest =>
    (readDigits below .tooSmall 0 rest).map fun n => -(n : Int)
  | text => (readDigits above .tooLarge 0 text).map Int.ofNat

/-- Reads a 32-bit signed integer. -/
def readInt32 (text : List Char) : Except IntegerFault Int32 :=
  (readInt (2 ^ (31 : Nat)) (2 ^ (31 : Nat) - 1) text).map Int32.ofInt

/-- Reads a 64-bit signed integer. -/
def readInt64 (text : List Char) : Except IntegerFault Int64 :=
  (readInt (2 ^ (63 : Nat)) (2 ^ (63 : Nat) - 1) text).map Int64.ofInt

/-- Reads a natural number that fits 64 bits. -/
def readWord (text : List Char) : Except IntegerFault Nat :=
  readNat (2 ^ (64 : Nat) - 1) text

end Integer

end TensorBind
