import TensorBind.Device.Memory
import TensorBind.SlotProgram.Basic

/-!
# Running a slot program on a device

aotc's interpreter runs one invocation of a compiled program. Slots hold
buffers: a parameter shares the block of the argument, and constants and
results are new blocks on the device of the invocation. A new value is
allocated before the buffer that its slot held is dropped. The slots are
dropped once the outputs have been shared from them, and an invocation that
fails drops all its slots and returns no outputs.
-/

namespace TensorBind

/-- Why an invocation fails. -/
inductive RunError where
  /-- An argument is missing. -/
  | missingArgument (index : Nat)
  /-- A constant is missing. -/
  | missingConstant (index : Nat)
  /-- A slot is read before it was written. -/
  | emptySlot (slot : Nat)
  /-- The slot of an output is empty. -/
  | emptyOutput (slot : Nat)
  /-- The bytes of a buffer do not decode as its shape. -/
  | unreadable (cause : Literal.Error)
  /-- An operation has no result. -/
  | operation (cause : OperationError)
  /-- The device could not allocate a value. -/
  | allocation (cause : AllocationError)
deriving DecidableEq

namespace RunError

/-- The wording of each cause. -/
def reason : RunError → String
  | missingArgument index =>
    "argument " ++ toString index ++ " was not supplied"
  | missingConstant index =>
    "constant #" ++ toString index ++ " is missing"
  | emptySlot slot =>
    "slot $" ++ toString slot ++ " read before it was written"
  | emptyOutput slot => "output slot $" ++ toString slot ++ " is empty"
  | unreadable cause => cause.toFault.message
  | operation cause => cause.reason
  | allocation cause => cause.reason

/-- The fault a caller is shown. -/
def toFault (e : RunError) : Fault := ⟨.execution, e.reason⟩

end RunError

/-- **The state of an invocation**: the memory and the slots. -/
structure Run where
  /-- The memory of all devices. -/
  memory : Memory
  /-- The buffer in each slot. -/
  slots : List (Option Buffer)
deriving DecidableEq

namespace Run

/-- The buffers in slots. -/
def held (r : Run) : List Buffer := r.slots.filterMap id

/-- aotc's `read`: decodes the value of a slot. -/
def read (r : Run) (slot : Nat) : Except RunError Literal :=
  match r.slots[slot]?.join with
  | some buffer => (buffer.toLiteral r.memory).mapError .unreadable
  | none => .error (.emptySlot slot)

/-- aotc's `store`: allocates a value on the device of the invocation. -/
def store (r : Run) (place : Nat) (value : Literal) :
    Except RunError (Buffer × Memory) :=
  match r.memory.allocate place value.toBytes with
  | .ok (block, memory) => .ok (⟨value.shape, block⟩, memory)
  | .error cause => .error (.allocation cause)

/-- **The buffer that an instruction writes.** -/
def evaluate (p : SlotProgram) (place : Nat) (arguments : List Buffer)
    (r : Run) : Instruction → Except RunError (Buffer × Memory)
  | .parameter _ index =>
    match arguments[index]? with
    | some buffer => .ok (buffer, r.memory.retain buffer.block)
    | none => .error (.missingArgument index)
  | .constant _ index =>
    match p.constants[index]? with
    | some value => r.store place value
    | none => .error (.missingConstant index)
  | .unary op _ src => do
    let x ← r.read src
    r.store place (← (op.onLiteral x).mapError .operation)
  | .binary op _ lhs rhs => do
    let x ← r.read lhs
    let y ← r.read rhs
    r.store place (← (op.onLiterals x y).mapError .operation)

/-- Writes a slot and drops the buffer that it held. -/
def write (slots : List (Option Buffer)) (slot : Nat) (buffer : Buffer)
    (memory : Memory) : Run :=
  ⟨match slots[slot]?.join with
    | some old => memory.release old.block
    | none => memory,
    slots.set slot (some buffer)⟩

/-- **Runs instructions one after another.** A failure returns the state in
which it occurred. -/
def steps (p : SlotProgram) (place : Nat) (arguments : List Buffer) :
    List Instruction → Run → Except (RunError × Run) Run
  | [], r => .ok r
  | instruction :: rest, r =>
    match r.evaluate p place arguments instruction with
    | .error cause => .error (cause, r)
    | .ok (buffer, memory) =>
      steps p place arguments rest
        (write r.slots instruction.dst buffer memory)

/-- The buffers in the output slots. -/
def outputs (p : SlotProgram) (r : Run) : Except RunError (List Buffer) :=
  p.outputSlots.mapM fun slot =>
    match r.slots[slot]?.join with
    | some buffer => .ok buffer
    | none => .error (.emptyOutput slot)

/-- Shares buffers: adds a reference to the block of each. -/
def retainAll (buffers : List Buffer) (memory : Memory) : Memory :=
  buffers.foldl (fun m b => m.retain b.block) memory

/-- Drops what the slots hold. -/
def finish (r : Run) : Memory := Buffer.releaseAll r.held r.memory

end Run

namespace SlotProgram

/-- **aotc's `run`**: one invocation of a program on a device, with validated
arguments. The memory after it is returned also when it fails. -/
def run (p : SlotProgram) (place : Nat) (arguments : List Buffer)
    (memory : Memory) : Except RunError (List Buffer) × Memory :=
  let start : Run := ⟨memory, List.replicate p.slotCount none⟩
  match Run.steps p place arguments p.instructions start with
  | .error (cause, r) => (.error cause, r.finish)
  | .ok r =>
    match r.outputs p with
    | .error cause => (.error cause, r.finish)
    | .ok buffers =>
      (.ok buffers, Run.finish ⟨Run.retainAll buffers r.memory, r.slots⟩)

end SlotProgram

end TensorBind
