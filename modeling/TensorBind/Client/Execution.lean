import TensorBind.Client.Basic
import TensorBind.Device.Run

/-!
# Executing a loaded executable

aotc's `execute`, which runs every invocation of a loaded executable, one
after another. All arguments are checked before anything runs, so a wrong
argument of the last invocation leaves no trace of the first. When an
invocation fails, the outputs of those before it are dropped.
-/

namespace TensorBind

/-- Why `execute` fails. -/
inductive ExecuteError where
  /-- There is not one argument list for each invocation. -/
  | listCount (name : String) (expected given : Nat)
  /-- An invocation has too few or too many arguments. -/
  | argumentCount (invocation : Nat) (name : String)
    (expected given : Nat)
  /-- An argument has another shape than the parameter. -/
  | argumentShape (argument invocation : Nat) (given : Shape)
    (name : String) (expected : Shape)
  /-- An argument is on another device than the invocation. -/
  | argumentDevice (argument invocation : Nat) (given expected : UInt32)
  /-- An invocation fails. -/
  | run (cause : RunError)
deriving DecidableEq

namespace ExecuteError

/-- The wording of the causes that are found before anything runs. -/
def reason : ExecuteError → String
  | listCount name expected given =>
    name ++ " expects argument lists for " ++ toString expected
      ++ " device(s) but got " ++ toString given
  | argumentCount invocation name expected given =>
    "invocation " ++ toString invocation ++ " of " ++ name ++ " takes "
      ++ toString expected ++ " argument(s) but got " ++ toString given
  | argumentShape argument invocation given name expected =>
    "argument " ++ toString argument ++ " of invocation "
      ++ toString invocation ++ " has shape " ++ given.render ++ " but "
      ++ name ++ " expects " ++ expected.render
  | argumentDevice argument invocation given expected =>
    "argument " ++ toString argument ++ " of invocation "
      ++ toString invocation ++ " lives on device "
      ++ toString given.toNat ++ " but the invocation runs on device "
      ++ toString expected.toNat
  | run cause => cause.reason

/-- The fault a caller is shown. -/
def toFault : ExecuteError → Fault
  | run cause => cause.toFault
  | e => ⟨.invalidArgument, e.reason⟩

end ExecuteError

namespace Loaded

/-- Checks one argument against a parameter and the device of the invocation,
the shape first. -/
def checkArgument (l : Loaded) (m : Memory) (invocation : Nat)
    (device : UInt32) (argument : Nat) (buffer : Buffer)
    (expected : Shape) : Except ExecuteError Unit :=
  if buffer.shape ≠ expected then
    .error (.argumentShape argument invocation buffer.shape l.name
      expected)
  else if buffer.deviceId m ≠ device then
    .error (.argumentDevice argument invocation (buffer.deviceId m)
      device)
  else .ok ()

/-- aotc's `check_arguments`: checks the arguments of one invocation, in
order. -/
def checkInvocation (l : Loaded) (m : Memory) (invocation : Nat)
    (device : UInt32) (arguments : List Buffer) :
    Except ExecuteError Unit :=
  let expected := l.program.parameterShapes
  if arguments.length ≠ expected.length then
    .error (.argumentCount invocation l.name expected.length
      arguments.length)
  else
    (arguments.zip expected).zipIdx.forM fun ((buffer, shape), argument) =>
      l.checkArgument m invocation device argument buffer shape

/-- **Checks all arguments of an execution**: one list for each invocation,
and each list in order. -/
def checkArguments (l : Loaded) (m : Memory)
    (arguments : List (List Buffer)) : Except ExecuteError Unit :=
  if arguments.length ≠ l.places.length then
    .error (.listCount l.name l.places.length arguments.length)
  else
    (arguments.zip (l.deviceIds m)).zipIdx.forM
      fun ((buffers, device), invocation) =>
        l.checkInvocation m invocation device buffers

/-- Runs invocations one after another. When one fails, the outputs of those
before it are released. -/
def runInvocations (p : SlotProgram) :
    List (List Buffer × Nat) → List (List Buffer) → Memory →
      Except RunError (List (List Buffer)) × Memory
  | [], results, m => (.ok results.reverse, m)
  | (arguments, place) :: rest, results, m =>
    match p.run place arguments m with
    | (.ok outputs, m) => runInvocations p rest (outputs :: results) m
    | (.error cause, m) =>
      (.error cause, Buffer.releaseAll results.flatten m)

/-- **aotc's `execute`**: for each invocation one buffer for each output. The
memory after it is returned also when the execution fails. -/
def execute (l : Loaded) (arguments : List (List Buffer)) (m : Memory) :
    Except ExecuteError (List (List Buffer)) × Memory :=
  match l.checkArguments m arguments with
  | .error cause => (.error cause, m)
  | .ok () =>
    let (results, m) :=
      runInvocations l.program (arguments.zip l.places) [] m
    (results.mapError .run, m)

end Loaded

end TensorBind
