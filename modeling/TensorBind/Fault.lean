/-!
# Faults

Every operation fails for a cause of its own type. What a caller is shown of
a cause is a **fault**, aotc's `Error`: the kind, which says which operation
failed, and a reason in words. The text of a fault is the label of its kind
followed by the reason.
-/

namespace TensorBind

/-- **aotc's `ErrorKind`**: which operation failed. -/
inductive FaultKind where
  /-- The compile request was refused before any work was done. -/
  | unimplemented
  /-- A program could not be lowered. -/
  | lowering
  /-- A loaded executable failed while running. -/
  | execution
  /-- A value could not be transferred between host and device. -/
  | transfer
  /-- An option or an argument is invalid. -/
  | invalidArgument
  /-- A text could not be parsed as a program. -/
  | parse
deriving DecidableEq, Repr

namespace FaultKind

/-- What the text of a fault of this kind starts with. -/
def label : FaultKind → String
  | unimplemented => "Unimplemented: "
  | lowering => "Lowering failed: "
  | execution => "Execution failed: "
  | transfer => "Transfer failed: "
  | invalidArgument => "Invalid argument: "
  | parse => "Parse error at "

end FaultKind

/-- **aotc's `Error`**: what a caller is shown of a failure. -/
structure Fault where
  /-- Which operation failed. -/
  kind : FaultKind
  /-- Why, in words. -/
  reason : String
deriving DecidableEq, Repr

namespace Fault

/-- The text of a fault. -/
def message (f : Fault) : String := f.kind.label ++ f.reason

/-- The fault of a text that could not be parsed; the reason starts with the
line and the column. -/
def parse (line column : Nat) (reason : String) : Fault :=
  ⟨.parse, toString line ++ ":" ++ toString column ++ ": " ++ reason⟩

end Fault

end TensorBind
