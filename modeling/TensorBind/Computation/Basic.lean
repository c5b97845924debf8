import TensorBind.Operation

/-!
# Computations

A computation, aotc's `Computation`, is the canonical form that programs of
both kinds are lowered to before they are compiled: a list of nodes in
definition order, each of which is a parameter, a constant or an elementwise
operation on earlier nodes, and a list of the nodes whose values are the
outputs. A node carries the shape of its value. Operands are part of the
node's operation, so a node has as many of them as its operation needs.

Computations are made by a `Builder` (`TensorBind.Computation.Builder`),
which is what guarantees that operands come before their uses.
-/

namespace TensorBind

/-- **aotc's `NodeOp`** with its operands, which are the positions of other
nodes. -/
inductive NodeOp where
  /-- The parameter of a number. -/
  | parameter (number : Nat)
  /-- A constant. -/
  | constant (value : Literal)
  /-- An operation on one node. -/
  | unary (op : UnaryOp) (x : Nat)
  /-- An operation on two nodes. -/
  | binary (op : BinaryOp) (x y : Nat)
deriving DecidableEq

namespace NodeOp

/-- The mnemonic of a node. -/
def name : NodeOp → String
  | parameter _ => "parameter"
  | constant _ => "constant"
  | unary op _ => op.name
  | binary op _ _ => op.name

/-- The nodes that are read. -/
def operands : NodeOp → List Nat
  | parameter _ | constant _ => []
  | unary _ x => [x]
  | binary _ x y => [x, y]

/-- No node reads more than two others. -/
theorem length_operands_le_two (op : NodeOp) : op.operands.length ≤ 2 := by
  cases op <;> simp [operands]

end NodeOp

/-- **A node of a computation.** -/
structure Node where
  /-- The operation and its operands. -/
  op : NodeOp
  /-- The shape of its value. -/
  shape : Shape
deriving DecidableEq

/-- **aotc's `Computation`**: nodes in definition order, the nodes that are
the parameters, and the nodes that are the outputs. -/
structure Computation where
  /-- The name of the computation. -/
  name : String
  /-- The nodes, in definition order. -/
  nodes : List Node
  /-- The nodes that are the parameters, in the order of their numbers. -/
  parameters : List Nat
  /-- The nodes whose values are the outputs. -/
  outputs : List Nat
deriving DecidableEq

namespace Computation

/-- The shape of a node's value. -/
def shape? (c : Computation) (id : Nat) : Option Shape :=
  c.nodes[id]?.map Node.shape

/-- The shapes of the parameters, in the order of their numbers. -/
def parameterShapes (c : Computation) : List Shape :=
  c.parameters.filterMap c.shape?

/-- The shapes of the outputs. -/
def outputShapes (c : Computation) : List Shape :=
  c.outputs.filterMap c.shape?

/-! ## Text -/

/-- The name of a node in the text of a computation. -/
def renderId (id : Nat) : String := "n" ++ toString id

/-- The text between the parentheses of a node. -/
def renderOperands : NodeOp → String
  | .parameter number => toString number
  | .constant value => value.render
  | op => ", ".intercalate (op.operands.map renderId)

/-- One node on a line of its own. -/
def renderNode (node : Node) (id : Nat) : String :=
  "  " ++ renderId id ++ " = " ++ node.shape.render ++ " " ++ node.op.name
    ++ "(" ++ renderOperands node.op ++ ")\n"

/-- **The text of a computation.** -/
def render (c : Computation) : String :=
  "computation " ++ c.name ++ " \x7b\n"
    ++ String.join (c.nodes.zipIdx.map fun (node, id) => renderNode node id)
    ++ "  outputs (" ++ ", ".intercalate (c.outputs.map renderId) ++ ")\n"
    ++ "\x7d"

end Computation

end TensorBind
