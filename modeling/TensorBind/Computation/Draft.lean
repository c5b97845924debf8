import TensorBind.Computation.Builder

/-!
# Drafts

aotc's `ComputationBuilder` as it is mutated. Next to its nodes it keeps a
**table of parameters**: for each number the node that is this parameter, or
a hole. The table is as long as the largest number needs, so that a number is
looked up and not searched for.

Every call returns its answer together with the draft after it, also a call
that fails. Operations check their operands before they change anything.
`parameter` does not: the table is extended first, and only then is it
checked whether the number is already defined.
-/

namespace TensorBind

/-- **A computation under construction with a table of its
parameters.** -/
structure Draft extends Builder where
  /-- The node that is each parameter, by number. -/
  parameters : List (Option Nat)
deriving DecidableEq

namespace Draft

/-- A draft with no nodes. -/
def empty (name : String) : Draft := ⟨Builder.empty name, []⟩

/-- The draft after a call that leaves the table alone. -/
def settle (d : Draft) : Except BuildError (Nat × Builder) →
    Except BuildError Nat × Draft
  | .ok (id, b) => (.ok id, { d with toBuilder := b })
  | .error cause => (.error cause, d)

/-- The table extended with holes so that it has an entry for a number. -/
def reserve (d : Draft) (number : Nat) : Draft :=
  { d with parameters := d.parameters
      ++ List.replicate (number + 1 - d.parameters.length) none }

/-- Whether the table has a node for a number. -/
def takes (d : Draft) (number : Nat) : Bool :=
  d.parameters[number]?.join.isSome

/-- **Adds a parameter**, as aotc's `parameter` does: the table is extended
before the number is looked up. -/
def parameter (d : Draft) (number : Nat) (shape : Shape) :
    Except BuildError Nat × Draft :=
  if largestSize ≤ number then (.error (.parameterOverflow number), d)
  else
    let d := d.reserve number
    if d.takes number then (.error (.parameterTwice number d.name), d)
    else
      let (id, b) := d.push (.parameter number) shape
      (.ok id, ⟨b, d.parameters.set number (some id)⟩)

/-- **Adds a constant.** -/
def constant (d : Draft) (value : Literal) : Except BuildError Nat × Draft :=
  d.settle (.ok (d.toBuilder.constant value))

/-- **Adds an operation with one operand.** -/
def unary (d : Draft) (op : UnaryOp) (x : Nat) :
    Except BuildError Nat × Draft :=
  d.settle (d.toBuilder.unary op x)

/-- **Adds an operation with two operands**, which have one shape. -/
def binary (d : Draft) (op : BinaryOp) (x y : Nat) :
    Except BuildError Nat × Draft :=
  d.settle (d.toBuilder.binary op x y)

/-- The nodes in a table from a number on, in which there may be no
hole. -/
def withoutHoles (name : String) (number : Nat) :
    List (Option Nat) → Except BuildError (List Nat)
  | [] => .ok []
  | some id :: rest => do
    let ids ← withoutHoles name (number + 1) rest
    return id :: ids
  | none :: _ => .error (.missingParameter number name)

/-- **Finishes a computation** with the given outputs. -/
def build (d : Draft) (outputs : List Nat) :
    Except BuildError Computation := do
  if outputs.isEmpty then
    .error (.noOutputs d.name)
  else match outputs.find? (d.nodes.length ≤ ·) with
    | some id => .error (.missingOutput id d.name)
    | none =>
      let parameters ← withoutHoles d.name 0 d.parameters
      return ⟨d.name, d.nodes, parameters, outputs⟩

end Draft

end TensorBind
