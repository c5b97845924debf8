import TensorBind.Client.Options
import TensorBind.Device.Memory
import TensorBind.Executable

/-!
# Clients

aotc's `HostClient` emulates a fixed set of devices on the host and reports
them as the topology it is bound to. It keeps a binding table of the
executables that are loaded on it. Loading resolves the devices of the
executable's assignment among those of the client; the binding gets the next
id of the client, and an id is never given twice.

The devices of a client are consecutive in the memory of all devices
(`Memory.devices`), so that a client only keeps the index of the first one.
-/

namespace TensorBind

-- Powers are the core library's, also where other instances are in sight.
attribute [local instance (2000)] instPowNat

/-! ## Device numbers -/

/-- Why a client cannot be made. -/
inductive ClientError where
  /-- There would be no device. -/
  | noDevices
  /-- The product of node id and device count overflows. -/
  | overflow
  /-- The id of a device does not fit 32 bits. -/
  | outOfRange (first index : Nat)
deriving DecidableEq

namespace ClientError

/-- The wording of each cause. -/
def reason : ClientError → String
  | noDevices => "a host client needs at least one device"
  | overflow => "node id x device count overflows"
  | outOfRange first index =>
    "device id " ++ toString first ++ " + " ++ toString index
      ++ " is out of range"

/-- The fault a caller is shown. -/
def toFault (e : ClientError) : Fault := ⟨.invalidArgument, e.reason⟩

end ClientError

namespace ClientOptions

/-- How many device ids there are. -/
def idCount : Nat := 2 ^ (32 : Nat)

/-- The id of the device at an index, if it is in range. -/
def deviceId (first index : Nat) : Except ClientError UInt32 :=
  match (checkedAdd? first index).filter (· < idCount) with
  | some number => .ok (UInt32.ofNat number)
  | none => .error (.outOfRange first index)

/-- The ids of `count` devices from an index on; the first that is out of
range is reported. -/
def deviceIdsFrom (first index : Nat) :
    Nat → Except ClientError (List UInt32)
  | 0 => .ok []
  | count + 1 => do
    let id ← deviceId first index
    let ids ← deviceIdsFrom first (index + 1) count
    return id :: ids

/-- **The ids of a client's devices**, from node id times device count on.
Clients with the same number of devices share no id unless they have the same
node id. -/
def deviceIds (options : ClientOptions) :
    Except ClientError (List UInt32) :=
  if options.deviceCount = 0 then .error .noDevices
  else match checkedMul? options.nodeId options.deviceCount with
    | none => .error .overflow
    | some first => deviceIdsFrom first 0 options.deviceCount

end ClientOptions

/-! ## Loaded executables -/

/-- **aotc's `LoadedExecutable`**: an executable on the devices of its
assignment. -/
structure Loaded where
  /-- Its `LoadedExecutableId`, the key in the binding table of the client. -/
  id : Nat
  /-- The name of the executable. -/
  name : String
  /-- The fingerprint of the executable. -/
  fingerprint : UInt64
  /-- The devices of its invocations, by id. -/
  assignment : Assignment
  /-- The program. -/
  program : SlotProgram
  /-- The device of each invocation, by its index in the memory of all
  devices. -/
  places : List Nat
deriving DecidableEq

namespace Loaded

/-- The text of the id. -/
def renderId (l : Loaded) : String := "#" ++ toString l.id

/-- aotc's `num_outputs`: how many outputs each invocation has. -/
def outputCount (l : Loaded) : Nat := l.program.outputShapes.length

/-- aotc's `addressable_devices`: the ids of the devices of the
invocations. -/
def deviceIds (l : Loaded) (m : Memory) : List UInt32 :=
  l.places.filterMap fun place => m.devices[place]?.map (·.id)

/-- The text of a loaded executable. -/
def render (l : Loaded) : String :=
  l.renderId ++ " " ++ l.name ++ " on " ++ l.assignment.render

end Loaded

/-! ## Clients -/

/-- **A client**, aotc's `HostClient`. -/
structure Client where
  /-- The options the client was made from. -/
  options : ClientOptions
  /-- The topology the client is bound to. -/
  topology : Topology
  /-- The index of its first device in the memory of all devices. -/
  firstPlace : Nat
  /-- The id of the next binding. -/
  nextId : Nat
  /-- The binding table, in the order of loading. -/
  bindings : List Loaded
deriving DecidableEq

/-- An assigned device that the client does not own. -/
structure LoadError where
  /-- The name of the executable. -/
  name : String
  /-- The id of the device. -/
  device : UInt32
  /-- The topology of the client. -/
  topology : Topology
deriving DecidableEq

namespace LoadError

/-- The wording of the cause. -/
def reason (e : LoadError) : String :=
  e.name ++ " is assigned to device " ++ toString e.device.toNat
    ++ " which client " ++ e.topology.render ++ " does not own"

/-- The fault a caller is shown. -/
def toFault (e : LoadError) : Fault := ⟨.invalidArgument, e.reason⟩

end LoadError

/-- Why a literal could not be transferred to a device. -/
inductive TransferError where
  /-- The client has no such device. -/
  | unknownDevice (device : UInt32) (topology : Topology)
  /-- The device could not allocate the bytes. -/
  | allocation (cause : AllocationError)
deriving DecidableEq

namespace TransferError

/-- The fault a caller is shown. -/
def toFault : TransferError → Fault
  | unknownDevice device topology =>
    ⟨.invalidArgument, "device " ++ toString device.toNat
      ++ " is not part of " ++ topology.render⟩
  | allocation cause => ⟨.transfer, cause.reason⟩

end TransferError

namespace Client

/-- **aotc's `HostClient` from its options**, with the devices it owns, which
are added at the index `firstPlace`. -/
def ofOptions (options : ClientOptions) (firstPlace : Nat) :
    Except ClientError (Client × List Device) := do
  let ids ← options.deviceIds
  let topology : Topology :=
    ⟨Topology.platformOfName options.platformName, options.platformName,
      options.deviceKind, ids⟩
  return (⟨options, topology, firstPlace, 1, []⟩,
    ids.map fun id =>
      Device.empty id options.deviceKind options.memoryLimit)

/-- aotc's `topology_description`: what a client reports about itself. -/
def report (c : Client) : Except Fault Topology := .ok c.topology

/-- The ids of a client's devices. -/
def deviceIds (c : Client) : List UInt32 := c.topology.deviceIds

/-- The indices of a client's devices. -/
def places (c : Client) : List Nat :=
  List.range' c.firstPlace c.topology.deviceCount

/-- The devices that a client owns. -/
def devices (c : Client) (m : Memory) : List Device :=
  c.places.filterMap fun place => m.devices[place]?

/-- aotc's `device`: the device of an id. -/
def device? (c : Client) (m : Memory) (device : UInt32) : Option Device :=
  (c.devices m).find? (·.id == device)

/-- The index of the device of an id. -/
def place? (c : Client) (device : UInt32) : Option Nat :=
  (c.topology.deviceIds.idxOf? device).map (c.firstPlace + ·)

/-- The index of a device that an executable is assigned to; loading fails if
the client does not own it. -/
def resolve (c : Client) (name : String) (device : UInt32) :
    Except LoadError Nat :=
  match c.place? device with
  | some place => .ok place
  | none => .error ⟨name, device, c.topology⟩

/-- **aotc's `load`**: resolves the devices of an executable and adds it to
the binding table. -/
def load (c : Client) (e : Executable) :
    Except LoadError (Loaded × Client) := do
  let places ← e.assignment.devices.mapM (c.resolve e.name)
  let loaded : Loaded :=
    ⟨c.nextId, e.name, e.fingerprint, e.assignment, e.program, places⟩
  return (loaded, { c with
    nextId := c.nextId + 1, bindings := c.bindings ++ [loaded] })

/-- **aotc's `unload`**: discards the binding of an id and returns it, if
there is one. -/
def unload (c : Client) (id : Nat) : Option Loaded × Client :=
  match c.bindings.find? (·.id == id) with
  | none => (none, c)
  | some loaded =>
    (some loaded,
      { c with bindings := c.bindings.filter (·.id != id) })

/-- **aotc's `loaded_executables`**: the bindings, by id. -/
def listing (c : Client) : List Loaded :=
  c.bindings.mergeSort fun a b => a.id ≤ b.id

/-- **aotc's `buffer_from_host_literal`**: allocates the bytes of a literal on
a device of the client. -/
def transfer (c : Client) (value : Literal) (device : UInt32)
    (m : Memory) : Except TransferError (Buffer × Memory) :=
  match c.place? device with
  | none => .error (.unknownDevice device c.topology)
  | some place =>
    match m.allocate place value.toBytes with
    | .error cause => .error (.allocation cause)
    | .ok (block, m) => .ok (⟨value.shape, block⟩, m)

end Client

end TensorBind
