import TensorBind.Computation.Builder
import TensorBind.Graph.Printer

/-!
# From graph programs to computations

aotc's `to_computation` for graph programs. The instructions of the entry are
lowered one after another (`Entry.lowerInstruction`). A tuple is allowed only
as the root, where its operands become the outputs. A value that is declared
as an array has to have the shape that is inferred.

A parameter of the signature that no instruction defines is added at the end,
so that a computation has all the parameters it was declared with. The
signature and the declared result are compared with the finished computation.
-/

namespace TensorBind.Graph

/-- Why a graph program could not be lowered. -/
inductive LoweringError where
  /-- An instruction has too few operands. -/
  | missingOperand (instruction : String) (position : Nat)
  /-- An operand is a tuple. -/
  | tupleOperand (instruction operand : String)
  /-- An operand is not an earlier instruction. -/
  | usedBeforeDefined (instruction : String) (operand : Nat)
  /-- A tuple is not the root. -/
  | tupleNotRoot (instruction : String)
  /-- A parameter is declared as a tuple. -/
  | tupleParameter (instruction : String) (shape : DeclaredShape)
  /-- The root is not an instruction. -/
  | rootOutOfRange (root : Nat) (computation : String) (count : Nat)
  /-- An operand of the root tuple is not an array. -/
  | nestedTuple (instruction : String)
  /-- The root has no value. -/
  | rootWithoutValue
  /-- The signature is not that of the parameters. -/
  | signatureMismatch (computation : String)
  /-- The declared result is not what the root computes. -/
  | resultMismatch (computation : String) (result : DeclaredShape)
  /-- The computation could not be built. -/
  | build (cause : BuildError)
deriving DecidableEq

namespace LoweringError

/-- The wording of each cause. -/
def reason : LoweringError → String
  | missingOperand instruction position =>
    instruction ++ " is missing operand " ++ toString position
  | tupleOperand instruction operand =>
    instruction ++ " uses tuple-shaped " ++ operand
      ++ "; tuples are only supported as the root"
  | usedBeforeDefined instruction operand =>
    instruction ++ " uses instruction " ++ toString operand
      ++ " before it is defined"
  | tupleNotRoot instruction =>
    "tuple " ++ instruction
      ++ " is not the root; tuples are only supported as the root"
  | tupleParameter instruction shape =>
    instruction ++ " must have an array shape, not " ++ shape.render
  | rootOutOfRange root computation count =>
    "root index " ++ toString root ++ " of " ++ computation
      ++ " is out of range for " ++ toString count ++ " instructions"
  | nestedTuple instruction =>
    "root tuple " ++ instruction ++ " contains a nested tuple"
  | rootWithoutValue => "root has no value"
  | signatureMismatch computation =>
    "signature of " ++ computation
      ++ " does not match its parameter instructions"
  | resultMismatch computation result =>
    computation ++ " declares result " ++ result.render
      ++ " but its root computes a different shape"
  | build cause => cause.reason

/-- The fault a caller is shown, where there is one. -/
def toFault? : LoweringError → Option Fault
  | build cause => cause.toFault?
  | e => some ⟨.lowering, e.reason⟩

end LoweringError

/-- **The state of `to_computation`**: the builder, and the node of each
instruction lowered so far, none for a tuple. -/
structure Lowering where
  /-- The builder with the nodes so far. -/
  builder : Builder
  /-- The node of each instruction lowered. -/
  nodes : List (Option Nat)
deriving DecidableEq

namespace Entry

/-- The node of an operand of an instruction. -/
def operandNode (e : Entry) (nodes : List (Option Nat))
    (instruction : Instruction) (position : Nat) :
    Except LoweringError Nat :=
  match instruction.operands[position]? with
  | none => .error (.missingOperand instruction.name position)
  | some operand =>
    match nodes[operand]? with
    | some (some id) => .ok id
    | some none =>
      .error (.tupleOperand instruction.name (e.operandName operand))
    | none => .error (.usedBeforeDefined instruction.name operand)

/-- aotc's `array_shape`: the declared shape of a parameter, which has to be
an array. -/
def parameterShape (instruction : Instruction) :
    Except LoweringError Shape :=
  match instruction.shape with
  | .array shape => .ok shape
  | shape@(.tuple _) => .error (.tupleParameter instruction.name shape)

/-- Adds the node of an instruction that is not a tuple. -/
def lowerValue (e : Entry) (l : Lowering) (instruction : Instruction) :
    Except LoweringError (Option (Nat × Builder)) := do
  match instruction.opcode with
  | .tuple => return none
  | .parameter number =>
    let shape ← parameterShape instruction
    return some (← (l.builder.parameter number shape).mapError .build)
  | .constant value => return some (l.builder.constant value)
  | .unary op =>
    let x ← e.operandNode l.nodes instruction 0
    return some (← (l.builder.unary op x).mapError .build)
  | .binary op =>
    let x ← e.operandNode l.nodes instruction 0
    let y ← e.operandNode l.nodes instruction 1
    return some (← (l.builder.binary op x y).mapError .build)

/-- Compares the declared shape of an instruction with that of its node, where
it is an array. -/
def checkDeclared (instruction : Instruction) (id : Nat)
    (builder : Builder) : Except LoweringError Unit :=
  match instruction.shape with
  | .array declared =>
    (builder.expectShape id declared instruction.name).mapError .build
  | .tuple _ => .ok ()

/-- **Lowers one instruction.** -/
def lowerInstruction (e : Entry) (l : Lowering)
    (instruction : Instruction × Nat) : Except LoweringError Lowering := do
  if instruction.1.opcode = .tuple ∧ instruction.2 ≠ e.root then
    .error (.tupleNotRoot instruction.1.name)
  else match ← e.lowerValue l instruction.1 with
    | none => return { l with nodes := l.nodes ++ [none] }
    | some (id, builder) =>
      checkDeclared instruction.1 id builder
      return ⟨builder, l.nodes ++ [some id]⟩

/-- Adds a parameter of the signature unless an instruction has defined it. -/
def addParameter (builder : Builder) (parameter : (String × Shape) × Nat) :
    Except LoweringError Builder := do
  if builder.hasParameter parameter.2 then
    return builder
  else
    let (_, builder) ←
      (builder.parameter parameter.2 parameter.1.2).mapError .build
    return builder

/-- The nodes that are the outputs. -/
def outputNodes (e : Entry) (nodes : List (Option Nat)) :
    Except LoweringError (List Nat) :=
  match e.rootInstruction? with
  | none =>
    .error (.rootOutOfRange e.root e.name e.instructions.length)
  | some root =>
    match root.opcode with
    | .tuple => root.operands.mapM fun operand =>
      match nodes[operand]?.join with
      | some id => .ok id
      | none => .error (.nestedTuple root.name)
    | _ =>
      match nodes[e.root]?.join with
      | some id => .ok [id]
      | none => .error .rootWithoutValue

/-- The first part of aotc's `check_signature`: compares the signature with
the parameters of the computation. -/
def checkParameters (e : Entry) (c : Computation) :
    Except LoweringError Unit :=
  match e.signature with
  | none => .ok ()
  | some signature =>
    if signature.map Prod.snd = c.parameterShapes then .ok ()
    else .error (.signatureMismatch e.name)

/-- Whether a declared result is that of some outputs. -/
def resultMatches (outputs : List Shape) : DeclaredShape → Bool
  | .array shape => decide (outputs = [shape])
  | .tuple shapes => decide (shapes = outputs)

/-- The second part of aotc's `check_signature`: compares the declared result
with the outputs of the computation. -/
def checkResult (e : Entry) (c : Computation) :
    Except LoweringError Unit :=
  match e.resultShape with
  | none => .ok ()
  | some result =>
    if resultMatches c.outputShapes result then .ok ()
    else .error (.resultMismatch e.name result)

/-- **Lowers an entry.** -/
def toComputation (e : Entry) : Except LoweringError Computation := do
  let l ← e.instructions.zipIdx.foldlM e.lowerInstruction
    ⟨Builder.empty e.name, []⟩
  let builder ← (e.signature.getD []).zipIdx.foldlM addParameter l.builder
  let outputs ← e.outputNodes l.nodes
  let c ← (builder.build outputs).mapError .build
  e.checkParameters c
  e.checkResult c
  return c

end Entry

namespace Module

/-- **The computation of a graph program**, aotc's `to_computation`. -/
def toComputation (m : Module) : Except LoweringError Computation :=
  m.entry.toComputation

end Module

end TensorBind.Graph
