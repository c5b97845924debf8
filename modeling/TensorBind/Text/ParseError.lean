import TensorBind.Literal
import TensorBind.Number.Integer

/-!
# Parse errors

A parser that fails says where and why (`ParseError.refused`): the line and
the column of its position and a cause. The causes of both program forms are
listed here, with their wording in one place.

Three outcomes are no parse errors of aotc. The elements of a constant may be
refused by its shape (`ParseError.literal`), a group of skipped text that is
closed before it was opened takes the nesting depth below zero
(`ParseError.groupUnderflow`), and a repetition that consumes nothing would
never end (`ParseError.stalled`).
-/

namespace TensorBind

/-- The causes of a parse error. -/
inductive ParseCause where
  -- Words and signs.
  /-- A certain character had to come next. -/
  | expectedChar (wanted : Char) (found : Option Char)
  /-- A certain word had to come next. -/
  | expectedKeyword (word : String)
  /-- An identifier had to come next. -/
  | expectedIdentifier (found : Option Char)
  /-- A name had to come next. -/
  | expectedName
  /-- A scalar had to come next. -/
  | expectedValue
  /-- A number had to come next. -/
  | expectedNumber
  /-- A number is not one that can be counted with. -/
  | invalidNumber (fault : IntegerFault)
  /-- A bracket is not closed. -/
  | unterminated (opening : Char)
  -- The graph form.
  /-- A second computation is marked as the entry. -/
  | manyEntries
  /-- No computation can serve as the entry. -/
  | noEntry
  /-- A parameter list is neither continued nor closed. -/
  | parameterSeparator
  /-- The text ends inside a computation. -/
  | computationNotClosed (name : String)
  /-- Two instructions have one name. -/
  | instructionTwice (name : String)
  /-- A second instruction is marked as the root. -/
  | manyRoots (name : String)
  /-- A computation has no instructions. -/
  | emptyComputation (name : String)
  /-- A constant is declared as a tuple. -/
  | tupleConstant
  /-- An instruction applies an operation that does not exist. -/
  | unsupportedOpcode (name : String)
  /-- An operation has too few or too many operands. -/
  | operandCount (name : String) (expected found : Nat)
  /-- An operand names no earlier instruction. -/
  | undefinedInstruction (name : String)
  /-- A tuple shape contains a tuple shape. -/
  | nestedTuple
  /-- A tuple shape is neither continued nor closed. -/
  | tupleSeparator
  /-- An element type does not exist. -/
  | unknownElementType (name : String)
  /-- A dimension is not a signed word. -/
  | dimensionTooLarge (dim : Nat)
  /-- A list of dimensions is neither continued nor closed. -/
  | dimensionSeparator
  /-- The size of a shape cannot be counted. -/
  | shapeTooLarge (shape : Shape)
  /-- A constant closes a brace that was not opened. -/
  | unbalancedConstant
  /-- The text ends inside a constant. -/
  | unterminatedConstant
  /-- A constant is too large to be materialized. -/
  | constantTooLarge (shape : Shape)
  /-- A constant has too few or too many values. -/
  | valueCount (shape : Shape) (found : Nat)
  /-- A token is no value of the element type. -/
  | invalidValue (token : String)
  -- The structured form.
  /-- The text ends inside a module. -/
  | moduleNotClosed
  /-- Something follows the module. -/
  | inputAfterModule
  /-- A module has no functions. -/
  | noFunctions
  /-- An argument list is neither continued nor closed. -/
  | argumentSeparator
  /-- A result list is neither continued nor closed. -/
  | resultSeparator
  /-- A function ends without returning. -/
  | noReturn (name : String)
  /-- Two values of a function have one name. -/
  | valueTwice (name : String)
  /-- A value is used that no earlier line defines. -/
  | undefinedValue (name : String)
  /-- An operation is written in the generic form. -/
  | genericOperation
  /-- An operation does not exist. -/
  | unsupportedOperation (name : String)
  /-- A return lists more or fewer types than values. -/
  | returnTypes (values types : Nat)
  /-- A tensor type is not made of plain dimensions and an element type. -/
  | tensorEncoding
  /-- An element type does not exist. -/
  | unsupportedElementType (name : String)
  /-- A dimension is not a number. -/
  | invalidDimension (part : String)
  /-- A dimension is negative. -/
  | negativeDimension (dim : Int)
  /-- The size of a tensor type cannot be counted. -/
  | tensorTooLarge (type : String)
  /-- A token is no element of a dense attribute. -/
  | invalidElement (token : String)
  /-- The text ends inside a dense attribute. -/
  | unterminatedDense
  /-- A dense attribute has no elements. -/
  | emptyDense
deriving DecidableEq

namespace ParseCause

/-- A character in quotes, or that there is none. -/
def describe : Option Char → String
  | some c => "'" ++ c.toString ++ "'"
  | none => "end of input"

/-- The wording of each cause. -/
def message : ParseCause → String
  | expectedChar wanted found =>
    "expected '" ++ wanted.toString ++ "' but found " ++ describe found
  | expectedKeyword word => "expected '" ++ word ++ "'"
  | expectedIdentifier found =>
    "expected identifier but found " ++ describe found
  | expectedName => "expected a name"
  | expectedValue => "expected a literal value"
  | expectedNumber => "expected a number"
  | invalidNumber fault => "invalid number: " ++ fault.message
  | unterminated opening => "unterminated '" ++ opening.toString ++ "'"
  | manyEntries => "module has more than one ENTRY computation"
  | noEntry => "module has no ENTRY computation"
  | parameterSeparator => "expected ',' or ')' in parameter list"
  | computationNotClosed name => "computation " ++ name ++ " is not closed"
  | instructionTwice name => "instruction " ++ name ++ " is defined twice"
  | manyRoots name => "computation " ++ name ++ " has more than one ROOT"
  | emptyComputation name => "computation " ++ name ++ " is empty"
  | tupleConstant => "tuple constants are not supported"
  | unsupportedOpcode name => "unsupported opcode '" ++ name ++ "'"
  | operandCount name expected found =>
    name ++ " expects " ++ toString expected ++ " operands but got "
      ++ toString found
  | undefinedInstruction name =>
    "use of undefined instruction '" ++ name ++ "'"
  | nestedTuple => "nested tuple shapes are not supported"
  | tupleSeparator => "expected ',' or ')' in tuple shape"
  | unknownElementType name => "unknown element type '" ++ name ++ "'"
  | dimensionTooLarge dim => "dimension " ++ toString dim ++ " is too large"
  | dimensionSeparator => "expected ',' or ']' in dimensions"
  | shapeTooLarge shape => "shape " ++ shape.render ++ " is too large"
  | unbalancedConstant => "unbalanced '\x7d' in constant"
  | unterminatedConstant => "unterminated constant"
  | constantTooLarge shape =>
    "constant of shape " ++ shape.render ++ " is too large"
  | valueCount shape found =>
    "constant of shape " ++ shape.render ++ " needs "
      ++ toString shape.elementCount ++ " values but has " ++ toString found
  | invalidValue token => "invalid literal value '" ++ token ++ "'"
  | moduleNotClosed => "module body is not closed"
  | inputAfterModule => "unexpected input after module"
  | noFunctions => "module contains no functions"
  | argumentSeparator => "expected ',' or ')' in argument list"
  | resultSeparator => "expected ',' or ')' in result list"
  | noReturn name => "function @" ++ name ++ " has no return"
  | valueTwice name => "value %" ++ name ++ " is defined twice"
  | undefinedValue name => "use of undefined value %" ++ name
  | genericOperation => "generic operation syntax is not supported"
  | unsupportedOperation name => "unsupported operation '" ++ name ++ "'"
  | returnTypes values types =>
    "return lists " ++ toString values ++ " values but " ++ toString types
      ++ " types"
  | tensorEncoding =>
    "dynamic dimensions and tensor encodings are not supported"
  | unsupportedElementType name =>
    "unsupported element type '" ++ name ++ "'"
  | invalidDimension part =>
    "invalid dimension '" ++ part ++ "' in tensor type"
  | negativeDimension dim =>
    "negative dimension " ++ toString dim ++ " in tensor type"
  | tensorTooLarge type => type ++ " is too large"
  | invalidElement token => "invalid dense element '" ++ token ++ "'"
  | unterminatedDense => "unterminated dense attribute"
  | emptyDense => "dense attribute has no elements"

end ParseCause

/-- **How parsing a text fails.** -/
inductive ParseError where
  /-- The text is refused at a line and a column, which is aotc's `Parse`
  error. -/
  | refused (line column : Nat) (cause : ParseCause)
  /-- The elements of a constant were refused by its shape. -/
  | literal (cause : Literal.Error)
  /-- The nesting depth of a skipped group goes below zero. -/
  | groupUnderflow
  /-- A repetition consumed nothing. -/
  | stalled
deriving DecidableEq

namespace ParseError

/-- The fault a caller is shown, where there is one. -/
def toFault? : ParseError → Option Fault
  | refused line column cause =>
    some (Fault.parse line column cause.message)
  | literal cause => some cause.toFault
  | groupUnderflow | stalled => none

end ParseError

end TensorBind
