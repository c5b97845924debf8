import TensorBind.Operation

/-!
# Programs in graph form

A graph program, aotc's `GraphProgram`, is a module with one entry
computation: named instructions, each with a declared shape, an opcode and
the positions of its operands. One instruction is the root, whose value is
the result; a tuple as the root stands for several results. The header of a
computation may carry a signature, that is, names and shapes of the
parameters, and with it the shape of the result.

Declared shapes are compared with inferred ones when the program is lowered
(`TensorBind.Graph.Lowering`).
-/

namespace TensorBind.Graph

/-- **aotc's `GraphShape`**: the declared shape of an array, or of a tuple of
arrays. -/
inductive DeclaredShape where
  /-- One array. -/
  | array (shape : Shape)
  /-- Several arrays. -/
  | tuple (shapes : List Shape)
deriving DecidableEq

/-- The arrays of a declared shape. -/
def DeclaredShape.arrays : DeclaredShape → List Shape
  | .array shape => [shape]
  | .tuple shapes => shapes

/-- What an instruction does, aotc's `GraphOpcode`. -/
inductive Opcode where
  /-- The parameter of a number. -/
  | parameter (number : Nat)
  /-- A constant. -/
  | constant (value : Literal)
  /-- An operation on one operand. -/
  | unary (op : UnaryOp)
  /-- An operation on two operands. -/
  | binary (op : BinaryOp)
  /-- The tuple of its operands. -/
  | tuple
deriving DecidableEq

/-- **An instruction of the graph form**, aotc's `GraphInstruction`. -/
structure Instruction where
  /-- The name of the instruction. -/
  name : String
  /-- The shape it is declared with. -/
  shape : DeclaredShape
  /-- The opcode. -/
  opcode : Opcode
  /-- The positions of its operands. -/
  operands : List Nat
deriving DecidableEq

/-- **The entry computation of a module**, aotc's `GraphComputation`. -/
structure Entry where
  /-- The name of the computation. -/
  name : String
  /-- Names and shapes of the parameters, if the header has them. -/
  signature : Option (List (String × Shape))
  /-- The shape of the result, if the header has it. -/
  resultShape : Option DeclaredShape
  /-- The instructions, in definition order. -/
  instructions : List Instruction
  /-- The position of the root. -/
  root : Nat
deriving DecidableEq

/-- **A program in graph form**, aotc's `GraphModule`. -/
structure Module where
  /-- The name of the module. -/
  name : String
  /-- Its entry computation. -/
  entry : Entry
deriving DecidableEq

namespace Opcode

/-- The name of an opcode. -/
def name : Opcode → String
  | parameter _ => "parameter"
  | constant _ => "constant"
  | unary op => op.name
  | binary op => op.name
  | tuple => "tuple"

/-- Numerical equality: constants agree as literals do. -/
def agrees : Opcode → Opcode → Bool
  | constant a, constant b => a.agrees b
  | a, b => decide (a = b)

end Opcode

namespace Instruction

/-- Numerical equality of two instructions. -/
def agrees (a b : Instruction) : Bool :=
  decide (a.name = b.name) && decide (a.shape = b.shape)
    && a.opcode.agrees b.opcode && decide (a.operands = b.operands)

end Instruction

namespace Entry

/-- aotc's `root_instruction`, if the position of the root is in range. -/
def rootInstruction? (e : Entry) : Option Instruction :=
  e.instructions[e.root]?

/-- Numerical equality of two computations. -/
def agrees (a b : Entry) : Bool :=
  decide (a.name = b.name) && decide (a.signature = b.signature)
    && decide (a.resultShape = b.resultShape)
    && a.instructions.length == b.instructions.length
    && (a.instructions.zip b.instructions).all (fun (x, y) => x.agrees y)
    && decide (a.root = b.root)

end Entry

namespace Module

/-- **Numerical equality of two programs**: equal in everything but the
constants, which agree as literals do. -/
def agrees (a b : Module) : Bool :=
  decide (a.name = b.name) && a.entry.agrees b.entry

end Module

end TensorBind.Graph
