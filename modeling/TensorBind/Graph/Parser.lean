import TensorBind.Graph.Basic
import TensorBind.Graph.Value
import TensorBind.Text.Parser

/-!
# Parsing graph programs

aotc's `parse_module` for the graph form. A module is a header line and then
computations, of which one is marked as the entry or is the only one. Names
may start with a percent sign, operands may be preceded by their shapes, a
shape may be followed at once by a layout, and a line may end in attributes;
all of that is parsed and dropped. Only the entry is kept.

Causes and positions of parse errors are part of the form: a parser fails at
the first thing that is wrong, at the position where it is noticed.
-/

namespace TensorBind.Graph

open TensorBind.Parser

-- Powers are the core library's, also where other instances are in sight.
attribute [local instance (2000)] instPowNat

/-- aotc's `read_name`: a name, with or without a percent sign. -/
def readName : Parser String := do
  skipBlanks
  if (← peek) = some '%' then
    skipOne
  word

/-! ## Shapes -/

/-- Reads a dimension. -/
def readDimension : Parser Int64 := do
  let dim ← natural
  if 2 ^ (63 : Nat) ≤ dim then
    fail (.dimensionTooLarge dim)
  else
    return Int64.ofNat dim

/-- Skips a layout, which has to follow at once. -/
def skipLayout : Parser Unit := do
  if (← peek) = some '{' then
    skipGroup '{' '}'

/-- **Reads the shape of an array**, aotc's `parse_array_shape`. -/
def readArrayShape : Parser Shape := do
  let name ← identifier
  match ElementType.ofName? name with
  | none => fail (.unknownElementType name)
  | some type =>
    expectChar '['
    let dims ← listUntil ']' .dimensionSeparator readDimension
    skipLayout
    let shape : Shape := ⟨type, dims⟩
    if shape.checkedByteSize.isNone then
      fail (.shapeTooLarge shape)
    else
      return shape

/-- Reads a declared shape that is nested at most so many parentheses deep. -/
def readShapeWithin : Nat → Parser DeclaredShape
  | 0 => fun _ => .error .stalled
  | depth + 1 => do
    if ← tryChar '(' then
      let shapes ← listUntil ')' .tupleSeparator do
        match ← readShapeWithin depth with
        | .array shape => return shape
        | .tuple _ => fail .nestedTuple
      return .tuple shapes
    else
      return .array (← readArrayShape)

/-- **aotc's `parse_shape`**: a declared shape. A text cannot be nested deeper
than it is long. -/
def readShape : Parser DeclaredShape := fun c =>
  readShapeWithin (c.rest.length + 1) c

/-! ## Constants -/

/-- A round of reading the tokens of a constant, at a nesting depth of braces:
a brace, a comma between tokens or one more token, or the parenthesis that
ends the constant. -/
def tokenRound (state : Nat × List (List Char)) :
    Parser (Round (Nat × List (List Char)) (List (List Char))) := do
  let (depth, tokens) := state
  skipBlanks
  match ← peek with
  | none => fail .unterminatedConstant
  | some '{' =>
    skipOne
    return .more (depth + 1, tokens)
  | some '}' =>
    if depth = 0 then
      fail .unbalancedConstant
    else
      skipOne
      return .more (depth - 1, tokens)
  | some ',' =>
    if depth = 0 then
      return .more (depth, tokens ++ [← scalarToken])
    else
      skipOne
      return .more (depth, tokens)
  | some ')' =>
    if depth = 0 then
      return .done tokens
    else
      return .more (depth, tokens ++ [← scalarToken])
  | some _ => return .more (depth, tokens ++ [← scalarToken])

/-- The tokens of a constant up to the parenthesis that ends it; braces, and
commas inside braces, only structure them. -/
def readTokens : Parser (List (List Char)) := loop tokenRound (0, [])

/-- **aotc's `parse_literal`**: a constant of a shape. -/
def readLiteral (shape : Shape) : Parser Literal := do
  let tokens ← readTokens
  if shape.literalByteSize.isNone then
    fail (.constantTooLarge shape)
  else if tokens.length ≠ shape.elementCount then
    fail (.valueCount shape tokens.length)
  else match readValues shape.elementType tokens with
    | .error token => fail (.invalidValue (String.ofList token))
    | .ok values =>
      match Literal.ofElements shape ⟨shape.elementType, values⟩ with
      | .ok value => return value
      | .error cause => fun _ => .error (.literal cause)

/-! ## Instructions -/

/-- aotc's `skip_operand_shape`: skips the shape that may stand before an
operand. A name that is an element type is a shape only if a bracket follows
at once. -/
def skipOperandShape : Parser Unit := do
  skipBlanks
  fun c =>
    let name := c.run isNameChar
    let startsShape := c.peek?.any startsIdentifier
      && (ElementType.ofName? (String.ofList name)).isSome
      && (c.advance name.length).peek? = some '['
    if c.peek? = some '(' then (readShape c).map fun (_, next) => ((), next)
    else if startsShape then
      (readArrayShape c).map fun (_, next) => ((), next)
    else .ok ((), c)

/-- Reads an operand, which names an earlier instruction. -/
def readOperand (earlier : List Instruction) : Parser Nat := do
  skipOperandShape
  let name ← readName
  match earlier.findIdx? (·.name = name) with
  | some position => return position
  | none => fail (.undefinedInstruction name)

/-- A round of reading operands: one more of them, and what follows it. -/
def operandRound (earlier : List Instruction) (operands : List Nat) :
    Parser (Round (List Nat) (List Nat)) := do
  let operands := operands ++ [← readOperand earlier]
  if ← tryChar ')' then
    return .done operands
  else
    expectChar ','
    return .more operands

/-- aotc's `parse_operands`: the operands up to the closing parenthesis. -/
def readOperands (earlier : List Instruction) : Parser (List Nat) := do
  if ← tryChar ')' then
    return []
  else
    loop (operandRound earlier) []

/-- The opcode of a name that takes operands. -/
def opcodeOfName? (name : String) : Option Opcode :=
  if name = "tuple" then some .tuple
  else match UnaryOp.ofName? name with
    | some op => some (.unary op)
    | none => (BinaryOp.ofName? name).map .binary

/-- How many operands an opcode takes, where that is fixed. -/
def arity? : Opcode → Option Nat
  | .unary _ => some 1
  | .binary _ => some 2
  | _ => none

/-- Checks the number of operands. -/
def checkArity (name : String) (opcode : Opcode) (operands : List Nat) :
    Parser Unit :=
  match arity? opcode with
  | none => return ()
  | some expected =>
    if operands.length = expected then return ()
    else fail (.operandCount name expected operands.length)

/-- The operands of an instruction that is neither a parameter nor a constant.
`start` is the position of the name of its opcode. -/
def readOperation (earlier : List Instruction) (start : Cursor)
    (name : String) : Parser (Opcode × List Nat) := do
  match opcodeOfName? name with
  | none => failAt start (.unsupportedOpcode name)
  | some opcode =>
    let operands ← readOperands earlier
    checkArity name opcode operands
    return (opcode, operands)

/-- Reads the opcode and the operands of an instruction of a declared
shape. -/
def readOpcode (earlier : List Instruction) (shape : DeclaredShape) :
    Parser (Opcode × List Nat) := do
  let start ← get
  let name ← identifier
  expectChar '('
  if name = "parameter" then
    let number ← natural
    expectChar ')'
    return (.parameter number, [])
  else if name = "constant" then
    match shape with
    | .tuple _ => fail .tupleConstant
    | .array shape =>
      let value ← readLiteral shape
      expectChar ')'
      return (.constant value, [])
  else
    readOperation earlier start name

/-- **aotc's `parse_instruction`**, with the attributes at the end of the
line. -/
def readInstruction (earlier : List Instruction) :
    Parser Instruction := do
  let name ← readName
  expectChar '='
  let shape ← readShape
  let (opcode, operands) ← readOpcode earlier shape
  if ← tryChar ',' then
    skipLine
  return ⟨name, shape, opcode, operands⟩

/-! ## Computations and modules -/

/-- A round of reading the body of a computation: the instructions so far and
the position of the one marked as the root. -/
abbrev BodyRound :=
  Round (List Instruction × Option Nat) (List Instruction × Option Nat)

/-- **Reads a line** of the body of a computation. -/
def readLine (name : String) (instructions : List Instruction)
    (root : Option Nat) : Parser BodyRound := do
  let isRoot ← tryKeyword "ROOT"
  let instruction ← readInstruction instructions
  if instructions.any (·.name = instruction.name) then
    fail (.instructionTwice instruction.name)
  else if isRoot then
    if root.isSome then
      fail (.manyRoots name)
    else
      return .more (instructions ++ [instruction], some instructions.length)
  else
    return .more (instructions ++ [instruction], root)

/-- A round of reading the body of a computation: the closing brace, or one
more line. -/
def bodyRound (name : String) (state : List Instruction × Option Nat) :
    Parser BodyRound := do
  let (instructions, root) := state
  if ← tryChar '}' then
    return .done (instructions, root)
  else if ← atEnd then
    fail (.computationNotClosed name)
  else
    readLine name instructions root

/-- Reads the instructions of a computation up to the closing brace, and the
position of the one marked as the root. -/
def readBody (name : String) :
    Parser (List Instruction × Option Nat) :=
  loop (bodyRound name) ([], none)

/-- Reads the name and the shape of a parameter. -/
def readParameter : Parser (String × Shape) := do
  let name ← readName
  expectChar ':'
  return (name, ← readArrayShape)

/-- Reads a signature and the shape of the result, if they are there. -/
def readSignature :
    Parser (Option (List (String × Shape)) × Option DeclaredShape) := do
  if ← tryChar '(' then
    let parameters ← listUntil ')' .parameterSeparator readParameter
    expectChar '-'
    expectChar '>'
    let result ← readShape
    return (some parameters, some result)
  else
    return (none, none)

/-- **aotc's `parse_computation`.** Without a mark the last instruction is the
root. -/
def readComputation : Parser Entry := do
  let name ← readName
  let (signature, resultShape) ← readSignature
  expectChar '{'
  let (instructions, root) ← readBody name
  if instructions.isEmpty then
    fail (.emptyComputation name)
  else
    return ⟨name, signature, resultShape, instructions,
      root.getD (instructions.length - 1)⟩

/-- A round of reading the computations of a module: the end of the text, or
one more computation. -/
def computationRound (state : Option Entry × List Entry) :
    Parser (Round (Option Entry × List Entry)
      (Option Entry × List Entry)) := do
  let (entry, others) := state
  if ← atEnd then
    return .done (entry, others)
  else
    let isEntry ← tryKeyword "ENTRY"
    let computation ← readComputation
    if isEntry && entry.isSome then
      fail .manyEntries
    else
      skipBlanks
      if isEntry then
        return .more (some computation, others)
      else
        return .more (entry, others ++ [computation])

/-- Reads the computations of a module to the end of the text: the one
marked as the entry, and the others. -/
def readComputations : Parser (Option Entry × List Entry) :=
  loop computationRound (none, [])

/-- **Reads a module.** -/
def readModule : Parser Module := do
  expectKeyword "HloModule"
  let name ← readName
  skipLine
  skipBlanks
  match ← readComputations with
  | (some entry, _) => return ⟨name, entry⟩
  | (none, [only]) => return ⟨name, only⟩
  | (none, _) => fail .noEntry

namespace Module

/-- **The graph program that a text denotes.** -/
def parse (text : String) : Except ParseError Module :=
  readModule.onText text

end Module

end TensorBind.Graph
