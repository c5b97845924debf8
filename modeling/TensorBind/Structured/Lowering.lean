import TensorBind.Computation.Builder
import TensorBind.Structured.Basic

/-!
# From structured programs to computations

aotc's `to_computation` for structured programs. The entry function is
lowered to a parameter for each argument, a node for each operation, and its
returned values as the outputs. The declared type of an operation has to be
the inferred shape, and so have the types of the results.
-/

namespace TensorBind.Structured

/-- Why a structured program could not be lowered. -/
inductive LoweringError where
  /-- There are several functions and none is called `main`. -/
  | noEntry (count : Nat)
  /-- An operation has too few operands. -/
  | missingOperand (operation : String) (position : Nat)
  /-- An operand is not an earlier value. -/
  | usedBeforeDefined (operation : String) (value : UInt32)
  /-- More or fewer values are returned than declared. -/
  | resultCount (function : String) (returned declared : Nat)
  /-- A value is returned that does not exist. -/
  | undefinedResult (function : String)
  /-- A constant could not be materialized. -/
  | dense (cause : DenseError)
  /-- The computation could not be built. -/
  | build (cause : BuildError)
deriving DecidableEq

namespace LoweringError

/-- The wording of each cause. -/
def reason : LoweringError → String
  | noEntry count =>
    "module has " ++ toString count
      ++ " functions and none is named @main"
  | missingOperand operation position =>
    operation ++ " is missing operand " ++ toString position
  | usedBeforeDefined operation value =>
    operation ++ " uses value %" ++ toString value.toNat
      ++ " before it is defined"
  | resultCount function returned declared =>
    "@" ++ function ++ " returns " ++ toString returned
      ++ " values but declares " ++ toString declared ++ " results"
  | undefinedResult function => "@" ++ function ++ " returns undefined value"
  | dense cause => cause.reason
  | build cause => cause.reason

/-- The fault a caller is shown, where there is one. -/
def toFault? : LoweringError → Option Fault
  | build cause => cause.toFault?
  | dense cause => some cause.toFault
  | e => some ⟨.lowering, e.reason⟩

end LoweringError

/-- **The state of `to_computation`**: the builder, and the node of each value
so far. -/
structure Lowering where
  /-- The builder with the nodes so far. -/
  builder : Builder
  /-- The node of each value. -/
  nodes : List Nat
deriving DecidableEq

namespace Func

/-- Adds the parameter of an argument. -/
def lowerArgument (l : Lowering) (argument : Shape × Nat) :
    Except LoweringError Lowering := do
  let (id, builder) ←
    (l.builder.parameter argument.2 argument.1).mapError .build
  return ⟨builder, l.nodes ++ [id]⟩

/-- The node of an operand of an operation. -/
def operandNode (nodes : List Nat) (op : Operation) (position : Nat) :
    Except LoweringError Nat :=
  match op.operands[position]? with
  | none => .error (.missingOperand op.name position)
  | some value =>
    match nodes[value.toNat]? with
    | some id => .ok id
    | none => .error (.usedBeforeDefined op.name value)

/-- Adds the node of an operation. -/
def lowerValue (l : Lowering) (op : Operation) :
    Except LoweringError (Nat × Builder) := do
  match op.kind with
  | .constant value =>
    return l.builder.constant
      (← (value.toLiteral op.resultType).mapError .dense)
  | .unary unary =>
    let x ← operandNode l.nodes op 0
    (l.builder.unary unary x).mapError .build
  | .binary binary =>
    let x ← operandNode l.nodes op 0
    let y ← operandNode l.nodes op 1
    (l.builder.binary binary x y).mapError .build

/-- **Lowers one operation.** -/
def lowerOperation (l : Lowering) (op : Operation) :
    Except LoweringError Lowering := do
  let (id, builder) ← lowerValue l op
  (builder.expectShape id op.resultType op.name).mapError .build
  return ⟨builder, l.nodes ++ [id]⟩

/-- The node of a returned value, which has to have the declared type. -/
def outputNode (f : Func) (l : Lowering) (result : UInt32 × Shape) :
    Except LoweringError Nat := do
  match l.nodes[result.1.toNat]? with
  | none => .error (.undefinedResult f.name)
  | some id =>
    (l.builder.expectShape id result.2 "returned value").mapError .build
    return id

/-- **Lowers a function.** -/
def toComputation (f : Func) : Except LoweringError Computation := do
  let l ← f.arguments.zipIdx.foldlM lowerArgument
    ⟨Builder.empty f.name, []⟩
  let l ← f.body.foldlM lowerOperation l
  if f.returned.length ≠ f.resultTypes.length then
    .error
      (.resultCount f.name f.returned.length f.resultTypes.length)
  else
    let outputs ← (f.returned.zip f.resultTypes).mapM (f.outputNode l)
    (l.builder.build outputs).mapError .build

end Func

namespace Module

/-- The entry function, which has to exist; aotc's `entry_function`. -/
def entry (m : Module) : Except LoweringError Func :=
  match m.entry? with
  | some function => .ok function
  | none => .error (.noEntry m.functions.length)

/-- **The computation of a structured program**, aotc's `to_computation`. -/
def toComputation (m : Module) : Except LoweringError Computation := do
  (← m.entry).toComputation

end Module

end TensorBind.Structured
