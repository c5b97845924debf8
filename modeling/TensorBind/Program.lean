import TensorBind.Graph.Lowering
import TensorBind.Structured.Lowering

/-!
# Programs

A program of either form, aotc's `Program`. Both forms are lowered to the
same kind of computation, and only the name of the form is kept.
-/

namespace TensorBind

/-- **aotc's `ProgramKind`**: the form a program is written in. -/
inductive ProgramKind where
  /-- The graph form. -/
  | graph
  /-- The structured form. -/
  | structured
deriving DecidableEq, Repr

namespace ProgramKind

/-- The name of a form. -/
def name : ProgramKind → String
  | graph => "graph"
  | structured => "structured"

end ProgramKind

/-- **A program of either form**, aotc's `Program`. -/
inductive Program where
  /-- A program in graph form. -/
  | graph (m : Graph.Module)
  /-- A program in structured form. -/
  | structured (m : Structured.Module)
deriving DecidableEq

/-- Why a program could not be lowered. -/
inductive ProgramError where
  /-- A graph program could not be. -/
  | graph (cause : Graph.LoweringError)
  /-- A structured program could not be. -/
  | structured (cause : Structured.LoweringError)
deriving DecidableEq

namespace ProgramError

/-- The fault a caller is shown, where there is one. -/
def toFault? : ProgramError → Option Fault
  | graph cause => cause.toFault?
  | structured cause => cause.toFault?

end ProgramError

namespace Program

/-- The form a program is written in. -/
def kind : Program → ProgramKind
  | graph _ => .graph
  | structured _ => .structured

/-- The name of a program: that of its module, or of the function that is
compiled. -/
def name : Program → String
  | graph m => m.name
  | structured m =>
    match m.name, m.entry? with
    | some name, _ => name
    | none, some entry => entry.name
    | none, none => "module"

/-- **The computation of a program**, aotc's `to_computation`. -/
def toComputation : Program → Except ProgramError Computation
  | graph m => m.toComputation.mapError .graph
  | structured m => m.toComputation.mapError .structured

end Program

end TensorBind
