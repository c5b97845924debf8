import TensorBind.Assignment
import TensorBind.Program
import TensorBind.SlotProgram.Emission

/-!
# Executables

Compiling a program binds it to a topology, as aotc's `HostCompiler` does.
The request first passes a **gate** (`Gate.check`): there has to be a client,
and the topology it is bound to has to be the one compiled for. Only then is
the program lowered to a computation, assigned to devices and lowered to a
slot program.

An executable carries the fingerprint of everything that makes up its
program: name, topology, assignment, instructions and constants
(`Executable.fingerprintText`).
-/

namespace TensorBind

/-! ## The gate -/

/-- Why a compile request is refused. -/
inductive GateError where
  /-- There is no client. -/
  | noClient
  /-- The client is bound to another topology. -/
  | otherTopology
  /-- The client could not describe its topology. -/
  | report (cause : Fault)
deriving DecidableEq

namespace GateError

/-- The fault a caller is shown. A fault reported by the client is passed
on. -/
def toFault : GateError → Fault
  | noClient =>
    ⟨.unimplemented,
      "client-less compilation is not supported by this backend"⟩
  | otherTopology =>
    ⟨.unimplemented,
      "supplied topology does not match the client's bound topology"⟩
  | report cause => cause

end GateError

namespace Gate

/-- **aotc's `validate_topology`**: checks that there is a client and that it
is bound to the topology. The client is given by what it reports about
itself. -/
def check (topology : Topology) :
    Option (Except Fault Topology) → Except GateError Unit
  | none => .error .noClient
  | some (.error cause) => .error (.report cause)
  | some (.ok bound) =>
    if bound.same topology then .ok () else .error .otherTopology

end Gate

/-! ## Executables -/

/-- **aotc's `Executable`**: a program compiled for a topology. -/
structure Executable where
  /-- The name of the computation. -/
  name : String
  /-- The form the program was written in. -/
  kind : ProgramKind
  /-- The topology it was compiled for. -/
  topology : Topology
  /-- The device of each invocation. -/
  assignment : Assignment
  /-- The slot program. -/
  program : SlotProgram
  /-- The fingerprint of the program. -/
  fingerprint : UInt64
  /-- The statistics of its compilation. -/
  stats : CompileStats
deriving DecidableEq

/-- Why a program could not be compiled. -/
inductive CompileError where
  /-- The request was refused. -/
  | gate (cause : GateError)
  /-- The program could not be lowered. -/
  | program (cause : ProgramError)
  /-- The invocations could not be assigned to devices. -/
  | assignment (cause : Assignment.Error)
  /-- The computation could not be lowered. -/
  | emission (cause : EmissionError)
deriving DecidableEq

namespace CompileError

/-- The fault a caller is shown, where there is one. -/
def toFault? : CompileError → Option Fault
  | gate cause => some cause.toFault
  | program cause => cause.toFault?
  | assignment cause => some cause.toFault
  | emission cause => some cause.toFault

end CompileError

namespace Executable

/-- **The text of which an executable has the fingerprint.** -/
def fingerprintText (name : String) (topology : Topology)
    (assignment : Assignment) (program : SlotProgram) : String :=
  name ++ "\n" ++ topology.render ++ "\n" ++ assignment.render ++ "\n"
    ++ program.render
    ++ String.join (program.constants.map fun c => "\n" ++ c.render)

/-- **aotc's `lower`**: compiles a computation for a topology. -/
def ofComputation (c : Computation) (kind : ProgramKind)
    (options : CompileOptions) (topology : Topology) :
    Except CompileError Executable := do
  let assignment ←
    (Assignment.ofOptions options topology).mapError .assignment
  let (program, stats) ← c.toSlotProgram.mapError .emission
  return {
    name := c.name
    kind
    topology
    assignment
    program
    fingerprint :=
      TensorBind.fingerprint
        (fingerprintText c.name topology assignment program)
    stats }

/-- **aotc's `compile`**: compiles a program for a topology and a client that
is bound to it. -/
def compile (options : CompileOptions) (program : Program)
    (topology : Topology) (client : Option (Except Fault Topology)) :
    Except CompileError Executable := do
  (Gate.check topology client).mapError .gate
  let c ← program.toComputation.mapError .program
  ofComputation c program.kind options topology

/-- How many outputs the program has, aotc's `num_outputs`. -/
def outputCount (e : Executable) : Nat := e.program.outputShapes.length

/-- The text of an executable. -/
def render (e : Executable) : String :=
  e.name ++ " (" ++ e.kind.name ++ " program, " ++ hexWord e.fingerprint
    ++ ") on " ++ e.topology.render ++ " as " ++ e.assignment.render

end Executable

end TensorBind
