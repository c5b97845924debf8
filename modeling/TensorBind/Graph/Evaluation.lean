import TensorBind.Computation.Evaluation
import TensorBind.Graph.Basic

/-!
# The value of a graph program

The reference semantics of a graph program: its instructions are evaluated in
order from the values of the earlier ones, and the value of the root is the
result. A tuple is the list of the values of its operands, so a tuple as the
root gives several results.
-/

namespace TensorBind.Graph

namespace Entry

/-- The array that is the value of an operand. A tuple is none. -/
def operandValue (values : List (List Literal)) (instruction : Instruction)
    (position : Nat) : Except EvaluationError Literal :=
  match instruction.operands[position]? with
  | none => .error (.missingValue position)
  | some operand =>
    match values[operand]? with
    | some [value] => .ok value
    | _ => .error (.missingValue operand)

/-- **The value of one instruction**, as a list of arrays: one array, or those
of a tuple. -/
def evaluateInstruction (arguments : List Literal)
    (values : List (List Literal)) (instruction : Instruction) :
    Except EvaluationError (List Literal) := do
  match instruction.opcode with
  | .parameter number =>
    match arguments[number]? with
    | some value => return [value]
    | none => .error (.missingArgument number)
  | .constant value => return [value]
  | .unary op =>
    let x ← operandValue values instruction 0
    return [← (op.onLiteral x).mapError .operation]
  | .binary op =>
    let x ← operandValue values instruction 0
    let y ← operandValue values instruction 1
    return [← (op.onLiterals x y).mapError .operation]
  | .tuple =>
    (List.range instruction.operands.length).mapM
      (operandValue values instruction)

/-- The values of all instructions, in order. -/
def evaluateInstructions (arguments : List Literal)
    (instructions : List Instruction) :
    Except EvaluationError (List (List Literal)) :=
  instructions.foldlM (fun values instruction => do
    let value ← evaluateInstruction arguments values instruction
    return values ++ [value]) []

/-- **The results of a graph program** on some arguments. -/
def evaluate (e : Entry) (arguments : List Literal) :
    Except EvaluationError (List Literal) := do
  let values ← evaluateInstructions arguments e.instructions
  match values[e.root]? with
  | some value => return value
  | none => .error (.missingValue e.root)

end Entry

end TensorBind.Graph
