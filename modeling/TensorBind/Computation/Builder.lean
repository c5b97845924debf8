import TensorBind.Computation.Basic

/-!
# Building computations

aotc's `ComputationBuilder` as a value. It holds the nodes added so far and
nothing else: which parameters are defined is computed from the nodes. Each
call either adds one node, whose shape it infers, or fails and says why
(`BuildError`); a call that fails leaves the builder as it was. The builder
with the table that aotc keeps is `Draft`, in `TensorBind.Computation.Draft`.

A finished computation has at least one output, every output is a node,
and the parameters are numbered without gaps.
-/

namespace TensorBind

/-- Why a computation could not be built. -/
inductive BuildError where
  /-- A parameter number is defined twice. -/
  | parameterTwice (number : Nat) (computation : String)
  /-- A parameter number is the largest word, so that the count of parameters
  overflows. -/
  | parameterOverflow (number : Nat)
  /-- An operation is not defined on the elements of its operand. -/
  | undefinedOperation (op : String) (shape : Shape)
  /-- The operands of an operation have different shapes. -/
  | shapesDiffer (op : BinaryOp) (left right : Shape)
  /-- Something is declared with another shape than it has. -/
  | declaredShape (what : String) (declared computed : Shape)
  /-- An operand is not a node. -/
  | missingNode (id : Nat) (computation : String)
  /-- There are no outputs. -/
  | noOutputs (computation : String)
  /-- An output is not a node. -/
  | missingOutput (id : Nat) (computation : String)
  /-- A parameter number below the largest is not defined. -/
  | missingParameter (number : Nat) (computation : String)
deriving DecidableEq

namespace BuildError

/-- The wording of each cause. -/
def reason : BuildError → String
  | parameterTwice number computation =>
    "parameter " ++ toString number ++ " of " ++ computation
      ++ " is defined twice"
  | parameterOverflow number =>
    "parameter " ++ toString number ++ " cannot be counted"
  | undefinedOperation op shape =>
    op ++ " is not defined on " ++ shape.render
  | shapesDiffer op left right =>
    "operand shapes " ++ left.render ++ " and " ++ right.render ++ " of "
      ++ op.name ++ " do not match"
  | declaredShape what declared computed =>
    what ++ " is declared as " ++ declared.render ++ " but computes "
      ++ computed.render
  | missingNode id computation =>
    "node " ++ toString id ++ " is not defined in " ++ computation
  | noOutputs computation => computation ++ " produces no outputs"
  | missingOutput id computation =>
    "output node " ++ toString id ++ " is not defined in " ++ computation
  | missingParameter number computation =>
    "parameter " ++ toString number ++ " of " ++ computation
      ++ " is missing"

/-- The fault a caller is shown, where there is one: the overflow of the
parameter count has none. -/
def toFault? : BuildError → Option Fault
  | parameterOverflow _ => none
  | e => some ⟨.lowering, e.reason⟩

end BuildError

/-- **aotc's `ComputationBuilder`**: a computation under construction. -/
structure Builder where
  /-- The name of the computation. -/
  name : String
  /-- The nodes added so far. -/
  nodes : List Node
deriving DecidableEq

namespace Builder

/-- A builder with no nodes. -/
def empty (name : String) : Builder := ⟨name, []⟩

/-- aotc's `push`: adds a node and returns its position. -/
def push (b : Builder) (op : NodeOp) (shape : Shape) : Nat × Builder :=
  (b.nodes.length, ⟨b.name, b.nodes ++ [⟨op, shape⟩]⟩)

/-- The node that is the parameter of a number. -/
def parameterNode? (b : Builder) (number : Nat) : Option Nat :=
  b.nodes.findIdx? fun node => node.op = .parameter number

/-- Whether the parameter of a number is defined, aotc's `has_parameter`. -/
def hasParameter (b : Builder) (number : Nat) : Bool :=
  (b.parameterNode? number).isSome

/-- aotc's `operand_shape`: the shape of a node, which has to exist. -/
def operandShape (b : Builder) (id : Nat) : Except BuildError Shape :=
  match b.nodes[id]? with
  | some node => .ok node.shape
  | none => .error (.missingNode id b.name)

/-- **aotc's `parameter`**: adds a parameter. -/
def parameter (b : Builder) (number : Nat) (shape : Shape) :
    Except BuildError (Nat × Builder) :=
  if largestSize ≤ number then .error (.parameterOverflow number)
  else if b.hasParameter number then
    .error (.parameterTwice number b.name)
  else .ok (b.push (.parameter number) shape)

/-- **aotc's `constant`**: adds a constant. -/
def constant (b : Builder) (value : Literal) : Nat × Builder :=
  b.push (.constant value) value.shape

/-- **aotc's `unary`**: adds an operation with one operand. -/
def unary (b : Builder) (op : UnaryOp) (x : Nat) :
    Except BuildError (Nat × Builder) := do
  let shape ← b.operandShape x
  if op.definedOn shape.elementType then
    return b.push (.unary op x) shape
  else
    .error (.undefinedOperation op.name shape)

/-- **aotc's `binary`**: adds an operation with two operands, which have one
shape. -/
def binary (b : Builder) (op : BinaryOp) (x y : Nat) :
    Except BuildError (Nat × Builder) := do
  let left ← b.operandShape x
  let right ← b.operandShape y
  if left ≠ right then
    .error (.shapesDiffer op left right)
  else if op.definedOn left.elementType then
    return b.push (.binary op x y) left
  else
    .error (.undefinedOperation op.name left)

/-- aotc's `expect_shape`: compares a declared shape with that of a node. -/
def expectShape (b : Builder) (id : Nat) (declared : Shape)
    (what : String) : Except BuildError Unit := do
  let computed ← b.operandShape id
  if computed = declared then
    return ()
  else
    .error (.declaredShape what declared computed)

/-- One more than the largest parameter number. -/
def parameterCount (b : Builder) : Nat :=
  b.nodes.foldl (fun count node =>
    match node.op with
    | .parameter number => max count (number + 1)
    | _ => count) 0

/-- The nodes that are the `count` parameters from a number on, none of which
may be missing. -/
def parametersFrom (b : Builder) (number : Nat) :
    Nat → Except BuildError (List Nat)
  | 0 => .ok []
  | count + 1 => do
    match b.parameterNode? number with
    | some id =>
      let rest ← b.parametersFrom (number + 1) count
      return id :: rest
    | none => .error (.missingParameter number b.name)

/-- **aotc's `build`**: finishes a computation with the given outputs. -/
def build (b : Builder) (outputs : List Nat) :
    Except BuildError Computation := do
  if outputs.isEmpty then
    .error (.noOutputs b.name)
  else match outputs.find? (b.nodes.length ≤ ·) with
    | some id => .error (.missingOutput id b.name)
    | none =>
      let parameters ← b.parametersFrom 0 b.parameterCount
      return ⟨b.name, b.nodes, parameters, outputs⟩

end Builder

end TensorBind
