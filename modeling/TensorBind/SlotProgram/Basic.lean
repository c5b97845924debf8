import TensorBind.Operation

/-!
# Slot programs

A compiled program, aotc's `CompiledProgram`, is a list of instructions over
numbered value slots. Each instruction writes one slot: it binds an argument
to it, materializes a constant of the pool into it, or applies an elementwise
operation to other slots. The outputs are read from slots at the end.
-/

namespace TensorBind

/-- **aotc's `Instruction`.** The slot that an instruction writes is its
`dst`. -/
inductive Instruction where
  /-- Binds an argument. -/
  | parameter (dst index : Nat)
  /-- Materializes a constant of the pool. -/
  | constant (dst index : Nat)
  /-- Applies an operation to one slot. -/
  | unary (op : UnaryOp) (dst src : Nat)
  /-- Applies an operation to two slots. -/
  | binary (op : BinaryOp) (dst lhs rhs : Nat)
deriving DecidableEq

namespace Instruction

/-- The slot an instruction writes. -/
def dst : Instruction → Nat
  | parameter dst _ => dst
  | constant dst _ => dst
  | unary _ dst _ => dst
  | binary _ dst _ _ => dst

/-- The mnemonic of an instruction, under which it is counted. -/
def name : Instruction → String
  | parameter .. => "parameter"
  | constant .. => "constant"
  | unary op .. => op.name
  | binary op .. => op.name

/-- A slot in the text of a program. -/
def renderSlot (slot : Nat) : String := "$" ++ toString slot

/-- The text of an instruction. -/
def render : Instruction → String
  | parameter dst index =>
    renderSlot dst ++ " = parameter " ++ toString index
  | constant dst index =>
    renderSlot dst ++ " = constant #" ++ toString index
  | unary op dst src =>
    renderSlot dst ++ " = " ++ op.name ++ " " ++ renderSlot src
  | binary op dst lhs rhs =>
    renderSlot dst ++ " = " ++ op.name ++ " " ++ renderSlot lhs ++ ", "
      ++ renderSlot rhs

end Instruction

/-- **A compiled program**, aotc's `CompiledProgram`. -/
structure SlotProgram where
  /-- The instructions, in the order they run. -/
  instructions : List Instruction
  /-- The pool of constants, which instructions refer to by index. -/
  constants : List Literal
  /-- The shapes of the arguments. -/
  parameterShapes : List Shape
  /-- The slots the outputs are read from. -/
  outputSlots : List Nat
  /-- The shapes of the outputs. -/
  outputShapes : List Shape
  /-- How many slots there are. -/
  slotCount : Nat
deriving DecidableEq

namespace SlotProgram

/-- **The text of a program**: one instruction a line, then the
outputs. -/
def render (p : SlotProgram) : String :=
  String.join (p.instructions.map fun i => i.render ++ "\n")
    ++ "outputs"
    ++ String.join (p.outputSlots.map fun slot =>
      " " ++ Instruction.renderSlot slot)

end SlotProgram

end TensorBind
