import TensorBind.Graph.Basic
import TensorBind.Structured.Basic

/-!
# A function in graph form

Every function can be written in graph form: an instruction for each
argument, one for each operation with the same operands and the declared
type as its shape, and a tuple of the returned values as the root. The
header carries the types of the arguments and of the results. Constants
are materialized first, so a function whose constants do not fit their types
has no graph form.
-/

namespace TensorBind.Structured

namespace Func

/-- The name of the instruction for a value. -/
def graphName (value : Nat) : String := "v" ++ toString value

/-- The instruction for an argument. -/
def argumentInstruction (argument : Shape × Nat) : Graph.Instruction :=
  ⟨graphName argument.2, .array argument.1, .parameter argument.2, []⟩

/-- The opcode of the instruction for an operation. -/
def graphOpcode (op : Operation) : Except DenseError Graph.Opcode :=
  match op.kind with
  | .constant value => (value.toLiteral op.resultType).map .constant
  | .unary unary => .ok (.unary unary)
  | .binary binary => .ok (.binary binary)

/-- The instruction for an operation. -/
def operationInstruction (op : Operation) :
    Except DenseError Graph.Instruction := do
  return ⟨graphName op.result.toNat, .array op.resultType,
    ← graphOpcode op, op.operands.map UInt32.toNat⟩

/-- The tuple of the returned values. -/
def returnInstruction (f : Func) : Graph.Instruction :=
  ⟨"returned", .tuple f.resultTypes, .tuple,
    f.returned.map UInt32.toNat⟩

/-- The arguments as a signature. -/
def graphSignature (f : Func) : List (String × Shape) :=
  f.arguments.zipIdx.map fun (type, number) => (graphName number, type)

/-- **The graph form of a function.** -/
def toGraph (f : Func) : Except DenseError Graph.Entry := do
  let operations ← f.body.mapM operationInstruction
  let values := f.arguments.zipIdx.map argumentInstruction ++ operations
  return {
    name := f.name
    signature := some f.graphSignature
    resultShape := some (.tuple f.resultTypes)
    instructions := values ++ [f.returnInstruction]
    root := values.length }

end Func

end TensorBind.Structured
