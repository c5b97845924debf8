import TensorBind.Fault
import TensorBind.Shape
import TensorBind.Topology

/-!
# Device assignments

A program runs once for each pair of a replica and a partition. The
invocations are assigned to the devices of a topology in order, all
partitions of a replica before the next replica, from the first device on; a
single invocation can also be assigned to a device chosen by its ordinal.
-/

namespace TensorBind

/-- **How often a program runs and where**, aotc's `CompileOptions`. -/
structure CompileOptions where
  /-- The number of replicas. -/
  numReplicas : Nat
  /-- The number of partitions of each replica. -/
  numPartitions : Nat
  /-- The position in the topology of the device for a single invocation. -/
  deviceOrdinal : Option Nat
deriving DecidableEq

namespace CompileOptions

/-- One invocation, on the first device. -/
def default : CompileOptions := ⟨1, 1, none⟩

end CompileOptions

/-- **aotc's `DeviceAssignment`**: the device of each invocation. -/
structure Assignment where
  /-- The number of replicas. -/
  replicaCount : Nat
  /-- The number of partitions of each replica. -/
  partitionCount : Nat
  /-- The device of each invocation. -/
  devices : List UInt32
deriving DecidableEq

namespace Assignment

/-- Why the invocations cannot be assigned to a topology. -/
inductive Error where
  /-- There are no replicas or no partitions. -/
  | notPositive (replicas partitions : Nat)
  /-- The number of invocations overflows. -/
  | overflow
  /-- A device ordinal is given for more than one invocation. -/
  | ordinalOfMany (replicas partitions : Nat)
  /-- The topology has no device of the ordinal. -/
  | ordinalOutOfRange (ordinal : Nat) (topology : Topology)
  /-- There are fewer devices than invocations. -/
  | tooFewDevices (replicas partitions : Nat) (topology : Topology)
deriving DecidableEq

namespace Error

/-- Too small a topology is a failed lowering; invalid options are an invalid
argument. -/
def kind : Error → FaultKind
  | ordinalOutOfRange .. | tooFewDevices .. => .lowering
  | _ => .invalidArgument

/-- The wording of each cause. -/
def reason : Error → String
  | notPositive replicas partitions =>
    "replica and partition counts must be positive, got "
      ++ toString replicas ++ " x " ++ toString partitions
  | overflow => "replica x partition count overflows"
  | ordinalOfMany replicas partitions =>
    "device_ordinal requires a single invocation, not "
      ++ toString replicas ++ " x " ++ toString partitions
  | ordinalOutOfRange ordinal topology =>
    "device ordinal " ++ toString ordinal
      ++ " is out of range for topology " ++ topology.render
  | tooFewDevices replicas partitions topology =>
    toString replicas ++ " replicas x " ++ toString partitions
      ++ " partitions need " ++ toString (replicas * partitions)
      ++ " devices but topology " ++ topology.render ++ " has "
      ++ toString topology.deviceCount

/-- The fault a caller is shown. -/
def toFault (e : Error) : Fault := ⟨e.kind, e.reason⟩

end Error

/-- The devices of the invocations, of which there are `needed`. -/
def devicesFor (options : CompileOptions) (topology : Topology)
    (needed : Nat) : Except Error (List UInt32) :=
  match options.deviceOrdinal with
  | some ordinal =>
    if needed ≠ 1 then
      .error (.ordinalOfMany options.numReplicas options.numPartitions)
    else match topology.deviceIds[ordinal]? with
      | some device => .ok [device]
      | none => .error (.ordinalOutOfRange ordinal topology)
  | none =>
    if topology.deviceCount < needed then
      .error (.tooFewDevices options.numReplicas options.numPartitions
        topology)
    else .ok (topology.deviceIds.take needed)

/-- **aotc's `for_topology`**: assigns invocations to the devices of a
topology. -/
def ofOptions (options : CompileOptions) (topology : Topology) :
    Except Error Assignment :=
  if options.numReplicas = 0 ∨ options.numPartitions = 0 then
    .error (.notPositive options.numReplicas options.numPartitions)
  else match checkedMul? options.numReplicas options.numPartitions with
    | none => .error .overflow
    | some needed =>
      (devicesFor options topology needed).map fun devices =>
        ⟨options.numReplicas, options.numPartitions, devices⟩

/-- How often the program runs, aotc's `num_invocations`. -/
def invocationCount (a : Assignment) : Nat := a.devices.length

/-- **aotc's `device`**: the device of a replica and a partition. -/
def device? (a : Assignment) (replica partition : Nat) : Option UInt32 :=
  if a.replicaCount ≤ replica ∨ a.partitionCount ≤ partition then none
  else a.devices[replica * a.partitionCount + partition]?

/-- The text of an assignment, such as `2x1 [0, 1]`. -/
def render (a : Assignment) : String :=
  toString a.replicaCount ++ "x" ++ toString a.partitionCount ++ " ["
    ++ Topology.renderDevices a.devices ++ "]"

end Assignment

end TensorBind
