import TensorBind.Graph.Basic

/-!
# The text of a graph program

A program is printed with its entry computation only, one instruction a
line. Names are printed without a percent sign, operands without their shapes
and shapes without a layout. An operand that is no instruction is printed as
undefined.
-/

namespace TensorBind.Graph

namespace DeclaredShape

/-- The text of a declared shape. -/
def render : DeclaredShape → String
  | array shape => shape.render
  | tuple shapes => "(" ++ ", ".intercalate (shapes.map Shape.render) ++ ")"

end DeclaredShape

namespace Entry

/-- The name of an operand. -/
def operandName (e : Entry) (operand : Nat) : String :=
  match e.instructions[operand]? with
  | some instruction => instruction.name
  | none => "<undefined>"

/-- The text between the parentheses of an instruction. -/
def renderOperands (e : Entry) (instruction : Instruction) : String :=
  match instruction.opcode with
  | .parameter number => toString number
  | .constant value => value.renderValues
  | _ => ", ".intercalate (instruction.operands.map e.operandName)

/-- One instruction on a line of its own. -/
def renderInstruction (e : Entry) (instruction : Instruction)
    (position : Nat) : String :=
  "  " ++ (if position = e.root then "ROOT " else "") ++ instruction.name
    ++ " = " ++ instruction.shape.render ++ " " ++ instruction.opcode.name
    ++ "(" ++ e.renderOperands instruction ++ ")\n"

/-- The parameters of a signature. -/
def renderSignature (signature : List (String × Shape)) : String :=
  ", ".intercalate
    (signature.map fun (name, shape) => name ++ ": " ++ shape.render)

/-- The header of a computation, up to the brace that opens its body. -/
def renderHeader (e : Entry) : String :=
  "ENTRY " ++ e.name ++ "(" ++ renderSignature (e.signature.getD []) ++ ")"
    ++ (match e.resultShape with
      | some result => " -> " ++ result.render
      | none => "")
    ++ " \x7b\n"

/-- The text of a computation. -/
def render (e : Entry) : String :=
  e.renderHeader
    ++ String.join (e.instructions.zipIdx.map fun (instruction, position) =>
      e.renderInstruction instruction position)
    ++ "\x7d"

end Entry

namespace Module

/-- **The text of a program.** -/
def render (m : Module) : String :=
  "HloModule " ++ m.name ++ "\n\n" ++ m.entry.render

end Module

end TensorBind.Graph
