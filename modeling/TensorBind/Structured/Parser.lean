import TensorBind.Structured.Basic
import TensorBind.Text.Parser

/-!
# Parsing structured programs

aotc's `parse_module` for the structured form. A text is a module in braces,
or just functions. A function has a header with its arguments and results and
a body of operations that ends in a return. Attributes and dictionaries are
skipped, and so are the operand types of an operation; of its type only the
result is kept.

Values are parsed by name and kept by number (`Names`): a name may be used
once it is defined and defined only once.
-/

namespace TensorBind.Structured

open TensorBind.Parser

/-- **aotc's `ValueMap`**: the names of the values defined so far, the number
of a name being its position; arguments come first. -/
abbrev Names := List String

namespace Names

/-- The number of a value. -/
def number? (names : Names) (name : String) : Option UInt32 :=
  (names.findIdx? (· = name)).map UInt32.ofNat

/-- aotc's `define`: defines a value, which must be new. -/
def define (names : Names) (name : String) : Parser Names :=
  if names.contains name then fail (.valueTwice name)
  else return names ++ [name]

end Names

/-! ## Types and attributes -/

/-- Reads a dimension of a tensor type. -/
def readDimension (part : String) : Parser Int64 :=
  match Integer.readInt64 part.toList with
  | .error _ => fail (.invalidDimension part)
  | .ok dim =>
    if dim < 0 then fail (.negativeDimension dim.toInt) else return dim

/-- Splits a text at every letter `x`. -/
def splitAtCross : List Char → List (List Char)
  | [] => [[]]
  | c :: rest =>
    match splitAtCross rest with
    | [] => [[c]]
    | part :: parts =>
      if c = 'x' then [] :: part :: parts else (c :: part) :: parts

/-- The tensor type of its parts: dimensions and then an element type. -/
def tensorOfParts (parts : List String) : Parser Shape := do
  let element := parts.getLast?.getD ""
  match ElementType.ofTensorName? element with
  | none => fail (.unsupportedElementType element)
  | some type =>
    let dims ← parts.dropLast.mapM readDimension
    let shape : Shape := ⟨type, dims⟩
    if shape.checkedByteSize.isNone then
      fail (.tensorTooLarge shape.renderTensor)
    else
      return shape

/-- **Reads a tensor type**, aotc's `parse_tensor_type`. -/
def readTensorType : Parser Shape := do
  expectKeyword "tensor"
  expectChar '<'
  let text ← word
  if (← peek) = some '>' then
    skipOne
    tensorOfParts ((splitAtCross text.toList).map String.ofList)
  else
    fail .tensorEncoding

/-- aotc's `skip_attributes`: skips the attributes of a module or a
function. -/
def skipAttributes : Parser Unit := do
  if ← tryKeyword "attributes" then
    skipBlanks
    skipGroup '{' '}'

/-- aotc's `skip_dictionary`: skips the dictionary that may follow a type. -/
def skipDictionary : Parser Unit := do
  skipBlanks
  if (← peek) = some '{' then
    skipGroup '{' '}'

/-- Reads one more element of a dense attribute. -/
def readElement (elements : Dense) : Parser Dense := do
  let token ← scalarToken
  match DenseElement.read? token with
  | some element => return elements ++ [element]
  | none => fail (.invalidElement (String.ofList token))

/-- A round of reading a dense attribute, at a nesting depth of square
brackets: a bracket, a comma between elements or one more element, or the
bracket that ends the attribute. -/
def denseRound (state : Nat × Dense) :
    Parser (Round (Nat × Dense) Dense) := do
  let (depth, elements) := state
  skipBlanks
  match ← peek with
  | none => fail .unterminatedDense
  | some '[' =>
    skipOne
    return .more (depth + 1, elements)
  | some ']' =>
    if depth = 0 then
      return .more (depth, ← readElement elements)
    else
      skipOne
      return .more (depth - 1, elements)
  | some ',' =>
    if depth = 0 then
      return .more (depth, ← readElement elements)
    else
      skipOne
      return .more (depth, elements)
  | some '>' =>
    if depth = 0 then
      skipOne
      return .done elements
    else
      return .more (depth, ← readElement elements)
  | some _ => return .more (depth, ← readElement elements)

/-- aotc's `parse_dense_elements`: the elements of a dense attribute up to the
bracket that ends it; square brackets, and commas inside them, only structure
the elements. -/
def readDense : Parser Dense := do
  let elements ← loop denseRound (0, [])
  if elements.isEmpty then
    fail .emptyDense
  else
    return elements

/-! ## Values and operations -/

/-- Reads the name of a value. -/
def readValueName : Parser String := do
  expectChar '%'
  word

/-- aotc's `resolve`: a value that is defined. An unknown one is refused at
the position before it. -/
def readValue (names : Names) : Parser UInt32 := do
  let start ← get
  let name ← readValueName
  match names.number? name with
  | some number => return number
  | none => failAt start (.undefinedValue name)

/-- Splits a name at its first point. -/
def splitAtPoint (name : List Char) : Option (List Char × List Char) :=
  match name.dropWhile (· != '.') with
  | [] => none
  | _ :: rest => some (name.takeWhile (· != '.'), rest)

/-- The name of an operation within its dialect, if the dialect is one of
the two known. -/
def mnemonic? (name : String) : Option String :=
  match splitAtPoint name.toList with
  | none => none
  | some (dialect, rest) =>
    if dialect = "mhlo".toList ∨ dialect = "stablehlo".toList then
      some (String.ofList rest)
    else none

/-- The kind of an operation of a name that takes operands, and how many it
takes. -/
def kindOfName? (name : String) : Option (OpKind × Nat) :=
  match UnaryOp.ofName? name with
  | some op => some (.unary op, 1)
  | none => (BinaryOp.ofName? name).map fun op => (.binary op, 2)

/-- Reads the kind of an operation and its operands. `start` is the position
of its name. -/
def readKind (names : Names) (start : Cursor) (name : String) :
    Parser (OpKind × List UInt32) := do
  match mnemonic? name with
  | none => failAt start (.unsupportedOperation name)
  | some mnemonic =>
    if mnemonic = "constant" then
      expectKeyword "dense"
      expectChar '<'
      return (.constant (← readDense), [])
    else match kindOfName? mnemonic with
      | none => failAt start (.unsupportedOperation name)
      | some (kind, arity) =>
        let operands ← commaSeparated (readValue names)
        if operands.length = arity then
          return (kind, operands)
        else
          fail (.operandCount name arity operands.length)

/-- Reads the type of an operation's result, after the types of its operands
if they are given. -/
def readResultType : Parser Shape := do
  expectChar ':'
  skipBlanks
  if (← peek) = some '(' then
    skipGroup '(' ')'
    expectChar '-'
    expectChar '>'
  readTensorType

/-- **aotc's `parse_operation`**, which defines the next value. -/
def readOperation (names : Names) : Parser (Operation × Names) := do
  let result ← readValueName
  expectChar '='
  skipBlanks
  if (← peek) = some '"' then
    fail .genericOperation
  else
    let start ← get
    let name ← identifier
    let (kind, operands) ← readKind names start name
    let resultType ← readResultType
    let next ← names.define result
    return (⟨name, kind, operands, UInt32.ofNat names.length, resultType⟩,
      next)

/-- aotc's `parse_return`: the returned values, with a type for each. -/
def readReturn (names : Names) : Parser (List UInt32) := do
  skipBlanks
  if (← peek) = some '%' then
    let values ← commaSeparated (readValue names)
    expectChar ':'
    let types ← commaSeparated readTensorType
    if types.length = values.length then
      return values
    else
      fail (.returnTypes values.length types.length)
  else
    return []

/-! ## Functions and modules -/

/-- Reads an argument and the dictionary that may follow it. -/
def readArgument (state : List Shape × Names) :
    Parser (List Shape × Names) := do
  let name ← readValueName
  expectChar ':'
  let type ← readTensorType
  skipDictionary
  let names ← state.2.define name
  return (state.1 ++ [type], names)

/-- Reads the type of a result and the dictionary that may follow it. -/
def readResult : Parser Shape := do
  let type ← readTensorType
  skipDictionary
  return type

/-- Reads the types of the results, if the header has them. -/
def readResults : Parser (List Shape) := do
  if ← tryChar '-' then
    expectChar '>'
    if ← tryChar '(' then
      listUntil ')' .resultSeparator readResult
    else
      return [← readTensorType]
  else
    return []

/-- A round of reading the body of a function: the return, or one more
operation. -/
def bodyRound (function : String) (state : List Operation × Names) :
    Parser (Round (List Operation × Names)
      (List Operation × List UInt32)) := do
  let (body, names) := state
  if ← (do
      if ← tryKeyword "return" then return true
      else tryKeyword "func.return") then
    return .done (body, ← readReturn names)
  else
    let next ← peek
    if next = none ∨ next = some '}' then
      fail (.noReturn function)
    else
      let (operation, names) ← readOperation names
      return .more (body ++ [operation], names)

/-- Reads operations up to and including the return. -/
def readBody (function : String) (names : Names) :
    Parser (List Operation × List UInt32) :=
  loop (bodyRound function) ([], names)

/-- **Reads a function**, aotc's `parse_func`. -/
def readFunc : Parser Func := do
  expectKeyword "func.func"
  if !(← tryKeyword "public") then
    let _ ← tryKeyword "private"
  expectChar '@'
  let name ← word
  expectChar '('
  let (arguments, names) ← itemsUntil ')' .argumentSeparator readArgument
    (([], []) : List Shape × Names)
  let resultTypes ← readResults
  skipAttributes
  expectChar '{'
  let (body, returned) ← readBody name names
  expectChar '}'
  return ⟨name, arguments, resultTypes, body, returned⟩

/-- A round of reading a module in braces: the closing brace, or one more
function. -/
def bracedRound (functions : List Func) :
    Parser (Round (List Func) (List Func)) := do
  if ← tryChar '}' then
    return .done functions
  else if ← atEnd then
    fail .moduleNotClosed
  else
    return .more (functions ++ [← readFunc])

/-- Reads functions up to the closing brace of a module. -/
def readBracedFunctions : Parser (List Func) := loop bracedRound []

/-- A round of reading functions without a module: the end of the text, or one
more function. -/
def bareRound (functions : List Func) :
    Parser (Round (List Func) (List Func)) := do
  if ← atEnd then
    return .done functions
  else
    let function ← readFunc
    skipBlanks
    return .more (functions ++ [function])

/-- Reads functions to the end of the text. -/
def readBareFunctions : Parser (List Func) := do
  skipBlanks
  loop bareRound []

/-- Reads the name of a module, if it has one. -/
def readModuleName : Parser (Option String) := do
  skipBlanks
  if (← peek) = some '@' then
    skipOne
    return some (← word)
  else
    return none

/-- Reads a module in braces, or functions without one. -/
def readModuleText : Parser Module := do
  if ← tryKeyword "module" then
    let name ← readModuleName
    skipAttributes
    expectChar '{'
    return ⟨name, ← readBracedFunctions⟩
  else
    return ⟨none, ← readBareFunctions⟩

/-- **Reads a program**, which has to be the whole text and to have at least
one function. -/
def readModule : Parser Module := do
  let m ← readModuleText
  skipBlanks
  if !(← atEnd) then
    fail .inputAfterModule
  else if m.functions.isEmpty then
    fail .noFunctions
  else
    return m

namespace Module

/-- **The structured program that a text denotes.** -/
def parse (text : String) : Except ParseError Module :=
  readModule.onText text

end Module

/-- **aotc's `ModuleContext`**, which counts the programs parsed in it. -/
structure Context where
  /-- How many programs have been parsed. -/
  modulesParsed : Nat
deriving DecidableEq

namespace Context

/-- A context in which nothing has been parsed. -/
def empty : Context := ⟨0⟩

/-- Parses a program. Only a successful parse is counted. -/
def parse (c : Context) (text : String) :
    Except ParseError Module × Context :=
  match Module.parse text with
  | .ok m => (.ok m, ⟨c.modulesParsed + 1⟩)
  | .error e => (.error e, c)

end Context

end TensorBind.Structured
