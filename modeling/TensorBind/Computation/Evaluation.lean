import TensorBind.Computation.Basic

/-!
# The value of a computation

The reference semantics of a computation: every node is evaluated in
definition order from the values of the earlier nodes, and the outputs are
looked up at the end. No node is dropped and no slot is reused. Compiled
programs are compared with this.
-/

namespace TensorBind

/-- Why a computation has no value on some arguments. -/
inductive EvaluationError where
  /-- An argument is missing. -/
  | missingArgument (number : Nat)
  /-- A node is read that has no value. -/
  | missingValue (id : Nat)
  /-- An operation has no result. -/
  | operation (cause : OperationError)
deriving DecidableEq

namespace Computation

/-- The value of a node among the values of the earlier ones. -/
def valueAt (values : List Literal) (id : Nat) :
    Except EvaluationError Literal :=
  match values[id]? with
  | some value => .ok value
  | none => .error (.missingValue id)

/-- **The value of one node**, from the arguments and the values of the
earlier nodes. -/
def evaluateNode (arguments values : List Literal) :
    NodeOp → Except EvaluationError Literal
  | .parameter number =>
    match arguments[number]? with
    | some value => .ok value
    | none => .error (.missingArgument number)
  | .constant value => .ok value
  | .unary op x => do
    let operand ← valueAt values x
    (op.onLiteral operand).mapError .operation
  | .binary op x y => do
    let left ← valueAt values x
    let right ← valueAt values y
    (op.onLiterals left right).mapError .operation

/-- The values of all nodes, in order. -/
def evaluateNodes (arguments : List Literal) (nodes : List Node) :
    Except EvaluationError (List Literal) :=
  nodes.foldlM (fun values node => do
    let value ← evaluateNode arguments values node.op
    return values ++ [value]) []

/-- **The values of the outputs** of a computation on some arguments. -/
def evaluate (c : Computation) (arguments : List Literal) :
    Except EvaluationError (List Literal) := do
  let values ← evaluateNodes arguments c.nodes
  c.outputs.mapM (valueAt values)

end Computation

end TensorBind
