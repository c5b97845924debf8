import TensorBind.Number.Binary
import TensorBind.Number.Integer
import TensorBind.Number.Decimal
import TensorBind.Number.Reading
import TensorBind.Number.LittleEndian
import TensorBind.Element
import TensorBind.Shape
import TensorBind.Fault
import TensorBind.Literal
import TensorBind.Operation
import TensorBind.Text.Cursor
import TensorBind.Text.ParseError
import TensorBind.Text.Parser
import TensorBind.Computation.Basic
import TensorBind.Computation.Builder
import TensorBind.Computation.Draft
import TensorBind.Computation.Evaluation
import TensorBind.Liveness
import TensorBind.SlotProgram.Basic
import TensorBind.SlotProgram.Emission
import TensorBind.Graph.Basic
import TensorBind.Graph.Printer
import TensorBind.Graph.Value
import TensorBind.Graph.Parser
import TensorBind.Graph.Lowering
import TensorBind.Graph.Evaluation
import TensorBind.Structured.Dense
import TensorBind.Structured.Basic
import TensorBind.Structured.Printer
import TensorBind.Structured.Parser
import TensorBind.Structured.Lowering
import TensorBind.Structured.AsGraph
import TensorBind.Fingerprint
import TensorBind.Topology
import TensorBind.Assignment
import TensorBind.Program
import TensorBind.Executable
import TensorBind.Device.Memory
import TensorBind.Device.Run
import TensorBind.Text.Printable
import TensorBind.Text.Whitespace
import TensorBind.Text.Quoted
import TensorBind.Client.Options
import TensorBind.Client.Basic
import TensorBind.Client.Execution
import TensorBind.Session
import TensorBind.Proofs.Outcome
import TensorBind.Proofs.Shape
import TensorBind.Proofs.Literal
import TensorBind.Proofs.Operation.Division
import TensorBind.Proofs.Literal.Codec
import TensorBind.Proofs.Literal.Text
import TensorBind.Proofs.Computation.WellFormed
import TensorBind.Proofs.Computation.Draft
import TensorBind.Proofs.Computation.Evaluation
import TensorBind.Proofs.Liveness
import TensorBind.Proofs.Liveness.Exact
import TensorBind.Proofs.Computation.Removal
import TensorBind.Proofs.Device.Memory
import TensorBind.Proofs.Device.Ledger
import TensorBind.Proofs.Client.Execution
import TensorBind.Proofs.Session
import TensorBind.Proofs.SlotProgram.Allocation
import TensorBind.Proofs.SlotProgram.Simulation
import TensorBind.Proofs.SlotProgram.Sharing
import TensorBind.Proofs.SlotProgram.Limits
import TensorBind.Proofs.SlotProgram.Shapes
import TensorBind.Proofs.SlotProgram.Text
import TensorBind.Proofs.SlotProgram.Pressure
import TensorBind.Proofs.SlotProgram.DeadCode
import TensorBind.Proofs.SlotProgram.Statistics
import TensorBind.Proofs.Text.Encoding
import TensorBind.Proofs.Text.Yields
import TensorBind.Proofs.Graph.Reading
import TensorBind.Proofs.Graph.Lowering
import TensorBind.Proofs.Graph.Declared
import TensorBind.Proofs.Structured.Dense
import TensorBind.Proofs.Structured.AsGraph
import TensorBind.Proofs.Text.Safety
import TensorBind.Proofs.Text.Position
import TensorBind.Proofs.Structured.Totality
import TensorBind.Proofs.Text.Reads
import TensorBind.Proofs.Number.Reading
import TensorBind.Proofs.Number.Rounding
import TensorBind.Proofs.Number.Shortest
import TensorBind.Proofs.Number.Plain
import TensorBind.Proofs.Number.Narrowing
import TensorBind.Proofs.Number.Separation
import TensorBind.Proofs.Number.Integers
import TensorBind.Proofs.Structured.RoundTrip
import TensorBind.Proofs.Graph.Legible
import TensorBind.Proofs.Graph.Spelling
import TensorBind.Proofs.Graph.Parts
import TensorBind.Proofs.Graph.Lines
import TensorBind.Proofs.Graph.RoundTrip
import TensorBind.Proofs.Shape.Acceptance
import TensorBind.Proofs.Graph.WellFormed
import TensorBind.Proofs.Structured.WellFormed
import TensorBind.Proofs.Graph.Constants
import TensorBind.Proofs.Structured.Elements
import TensorBind.Proofs.Graph.Totality
import TensorBind.Proofs.Client.Binding
import TensorBind.Proofs.Assignment
import TensorBind.Proofs.Fingerprint
import TensorBind.Proofs.Client.Table
import TensorBind.Proofs.Client.Failure
import TensorBind.Proofs.Device.Residence
import TensorBind.Proofs.Session.Clients
import TensorBind.Proofs.Session.Residence
import TensorBind.Proofs.Session.Failure
import TensorBind.Proofs.Session.Transfer
import TensorBind.Proofs.Session.Numbering
