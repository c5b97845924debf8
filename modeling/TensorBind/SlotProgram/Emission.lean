import TensorBind.Fault
import TensorBind.Liveness
import TensorBind.SlotProgram.Basic

/-!
# Code generation

aotc's `lower_computation`: one forward pass over the nodes of a computation
that emits one instruction for each live node (`Emission.step`). Before the
result slot of a node is allocated, the slots of the operands that die at the
node are released, so a result may reuse the slot of its own operand; the
slot released last is the first to be allocated again (`SlotPool`). The slots
of outputs are pinned and never released.

Alongside the program the pass records `CompileStats`.
-/

namespace TensorBind

-- The zero of a sum is the core library's, also where other instances are in
-- sight.
attribute [local instance (2000)] Zero.ofOfNat0

/-- **aotc's `SlotAllocator`**: the free slots, the one released last in
front, and the number of slots ever allocated. -/
structure SlotPool where
  /-- The free list. -/
  free : List Nat
  /-- How many slots have been allocated for the first time. -/
  highWater : Nat
deriving DecidableEq

namespace SlotPool

/-- The allocator before any slot is allocated. -/
def empty : SlotPool := ⟨[], 0⟩

/-- aotc's `allocate`: the slot released last, or a new one. -/
def take (pool : SlotPool) : Nat × SlotPool :=
  match pool.free with
  | slot :: free => (slot, { pool with free })
  | [] => (pool.highWater, { pool with highWater := pool.highWater + 1 })

/-- aotc's `release`: puts a slot on the free list. -/
def release (pool : SlotPool) (slot : Nat) : SlotPool :=
  { pool with free := slot :: pool.free }

end SlotPool

/-- **aotc's `CompileStats`**: what is counted while a computation is
lowered. -/
structure CompileStats where
  /-- Live nodes, each of which became an instruction. -/
  nodesLowered : Nat
  /-- Dead nodes. -/
  deadNodesDropped : Nat
  /-- Instructions of the program. -/
  instructionsEmitted : Nat
  /-- Slots of the program. -/
  slotsUsed : Nat
  /-- Bytes of the constants. -/
  constantBytes : Nat
  /-- How many instructions there are of each mnemonic, in the order in which
  the mnemonics first occur. -/
  instructionCounts : List (String × Nat)
deriving DecidableEq

namespace CompileStats

/-- The counts at the start. -/
def zero : CompileStats := ⟨0, 0, 0, 0, 0, []⟩

/-- Counts one more instruction of a mnemonic. -/
def bump (name : String) : List (String × Nat) → List (String × Nat)
  | [] => [(name, 1)]
  | (other, count) :: rest =>
    if other = name then (other, count + 1) :: rest
    else (other, count) :: bump name rest

/-- How many instructions have a mnemonic, aotc's `instruction_count`. -/
def instructionCount (s : CompileStats) (name : String) : Nat :=
  (s.instructionCounts.lookup name).getD 0

end CompileStats

/-- Why a computation could not be lowered. -/
inductive EmissionError where
  /-- A node reads one that has no slot. -/
  | operandWithoutSlot (position operand : Nat)
  /-- An output has no slot. -/
  | outputWithoutSlot (output : Nat)
deriving DecidableEq

namespace EmissionError

/-- The wording of each cause. -/
def reason : EmissionError → String
  | operandWithoutSlot position operand =>
    "node " ++ toString position ++ " reads node " ++ toString operand
      ++ " which has no slot"
  | outputWithoutSlot output =>
    "output node " ++ toString output ++ " was not lowered"

/-- The fault a caller is shown. -/
def toFault (e : EmissionError) : Fault := ⟨.lowering, e.reason⟩

end EmissionError

/-- **The state of `lower_computation`** between two nodes. -/
structure Emission where
  /-- The slot of each node before this one; none for a dead node. -/
  slots : List (Option Nat)
  /-- The slot allocator. -/
  pool : SlotPool
  /-- The instructions emitted. -/
  instructions : List Instruction
  /-- The pool of constants. -/
  constants : List Literal
  /-- The counts. -/
  stats : CompileStats
deriving DecidableEq

namespace Emission

/-- The state before the first node. -/
def start : Emission := ⟨[], .empty, [], [], .zero⟩

/-- The slot that is assigned to a node. -/
def slotOf? (e : Emission) (id : Nat) : Option Nat := e.slots[id]?.join

/-- The slot of an operand; the pass fails if there is none. -/
def operandSlot (e : Emission) (position operand : Nat) :
    Except EmissionError Nat :=
  match e.slotOf? operand with
  | some slot => .ok slot
  | none => .error (.operandWithoutSlot position operand)

/-- Releases the slots of the operands that die at a position, that of an
operand that occurs twice only once. -/
def releaseOperands (liveness : Liveness) (position : Nat)
    (operands : List (Nat × Nat)) (pool : SlotPool) : SlotPool :=
  operands.eraseDups.foldl (fun pool (operand, slot) =>
    if liveness.diesAt operand position then pool.release slot else pool)
    pool

/-- The instruction of a node, from its slot, the slots of its operands and
the index of its constant in the pool. -/
def instructionOf (op : NodeOp) (dst constant : Nat) (operands : List Nat) :
    Instruction :=
  match op with
  | .parameter number => .parameter dst number
  | .constant _ => .constant dst constant
  | .unary op _ => .unary op dst (operands[0]?.getD 0)
  | .binary op _ _ =>
    .binary op dst (operands[0]?.getD 0) (operands[1]?.getD 0)

/-- The constant that a node adds to the pool. -/
def constantOf : NodeOp → List Literal
  | .constant value => [value]
  | _ => []

/-- Allocates the result slot of a node, once the operands that die there are
released. -/
def takeSlot (liveness : Liveness) (e : Emission) (op : NodeOp)
    (position : Nat) (operandSlots : List Nat) : Nat × SlotPool :=
  (releaseOperands liveness position (op.operands.zip operandSlots)
    e.pool).take

/-- Emits the instruction of a node whose operands are in the given slots. -/
def extend (liveness : Liveness) (e : Emission) (op : NodeOp)
    (position : Nat) (operandSlots : List Nat) : Emission :=
  let (dst, pool) := e.takeSlot liveness op position operandSlots
  let instruction := instructionOf op dst e.constants.length operandSlots
  let added := constantOf op
  { slots := e.slots ++ [some dst]
    pool
    instructions := e.instructions ++ [instruction]
    constants := e.constants ++ added
    stats := { e.stats with
      nodesLowered := e.stats.nodesLowered + 1
      constantBytes :=
        e.stats.constantBytes + (added.map (·.shape.byteSize)).sum
      instructionCounts :=
        CompileStats.bump instruction.name e.stats.instructionCounts } }

/-- **Emits the instruction of a live node.** -/
def emit (liveness : Liveness) (e : Emission) (node : Node)
    (position : Nat) : Except EmissionError Emission := do
  let operandSlots ← node.op.operands.mapM (e.operandSlot position)
  return e.extend liveness node.op position operandSlots

/-- Drops a dead node. -/
def skip (e : Emission) : Emission := { e with slots := e.slots ++ [none] }

/-- **One node of the pass.** -/
def step (liveness : Liveness) (e : Emission) (node : Node × Nat) :
    Except EmissionError Emission :=
  if liveness.isLive node.2 then e.emit liveness node.1 node.2
  else .ok e.skip

/-- The slot of an output; the pass fails if there is none. -/
def outputSlot (e : Emission) (output : Nat) : Except EmissionError Nat :=
  match e.slotOf? output with
  | some slot => .ok slot
  | none => .error (.outputWithoutSlot output)

end Emission

namespace Computation

/-- **aotc's `lower_computation`**: the slot program of a computation and its
statistics. -/
def toSlotProgram (c : Computation) :
    Except EmissionError (SlotProgram × CompileStats) := do
  let liveness := c.liveness
  let e ← c.nodes.zipIdx.foldlM (Emission.step liveness) Emission.start
  let outputSlots ← c.outputs.mapM e.outputSlot
  return (
    { instructions := e.instructions
      constants := e.constants
      parameterShapes := c.parameterShapes
      outputSlots
      outputShapes := c.outputShapes
      slotCount := e.pool.highWater },
    { e.stats with
      deadNodesDropped := liveness.deadCount
      instructionsEmitted := e.instructions.length
      slotsUsed := e.pool.highWater })

end Computation

end TensorBind
