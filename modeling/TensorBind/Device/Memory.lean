import TensorBind.Literal

/-!
# Device memory

A device has a byte budget, aotc's `DeviceMemory`: a count of the bytes in
use, checked against the limit on every reservation, and the high-water mark
of that count (`Meter`). What is in use are **blocks**, aotc's
`DeviceAllocation`: bytes on a device with a reference count. A block is
allocated with one reference; when the last reference is released, its bytes
are given back to the budget. A block is known by its number, and numbers are
never reused, so buffers with the same number share one block, whose bytes
are counted once.

The devices of all clients stand in one list, and a device is known by its
index there. Two devices of different clients may have the same id.
-/

namespace TensorBind

/-- **aotc's `OutOfMemory`**: a reservation that exceeds the budget of a
device. -/
structure OutOfMemory where
  /-- The id of the device. -/
  device : UInt32
  /-- The bytes requested. -/
  requested : Nat
  /-- The bytes in use before the request. -/
  inUse : Nat
  /-- The limit, or the largest size if there is none. -/
  limit : Nat
deriving DecidableEq

namespace OutOfMemory

/-- The wording of the cause. -/
def reason (e : OutOfMemory) : String :=
  "device " ++ toString e.device.toNat ++ " is out of memory: requested "
    ++ toString e.requested ++ " bytes with " ++ toString e.inUse ++ " of "
    ++ toString e.limit ++ " in use"

end OutOfMemory

/-- **aotc's `DeviceMemory`**: the byte budget of a device. -/
structure Meter where
  /-- How many bytes may be in use at once, if that is limited. -/
  limit : Option Nat
  /-- The bytes in use. -/
  inUse : Nat
  /-- The high-water mark of the bytes in use. -/
  peak : Nat
deriving DecidableEq

namespace Meter

/-- The budget of a device with nothing in use. -/
def empty (limit : Option Nat) : Meter := ⟨limit, 0, 0⟩

/-- The most that can be in use: the limit, or the largest size. -/
def capacity (m : Meter) : Nat := min (m.limit.getD largestSize) largestSize

/-- **aotc's `reserve`**: counts bytes as in use, if the budget has room for
them. -/
def reserve? (m : Meter) (bytes : Nat) : Option Meter :=
  let next := m.inUse + bytes
  if next ≤ m.capacity then
    some { m with inUse := next, peak := max m.peak next }
  else none

/-- aotc's `release` of a budget: gives bytes back. -/
def release (m : Meter) (bytes : Nat) : Meter :=
  { m with inUse := m.inUse - bytes }

end Meter

/-- **A device**, aotc's `HostDevice`. -/
structure Device where
  /-- The id of the device. -/
  id : UInt32
  /-- The kind of the device. -/
  kind : String
  /-- Its byte budget. -/
  meter : Meter
deriving DecidableEq

namespace Device

/-- A device with nothing in use. -/
def empty (id : UInt32) (kind : String) (limit : Option Nat) : Device :=
  ⟨id, kind, Meter.empty limit⟩

/-- Reserves bytes on a device, or reports why it cannot. -/
def reserve (d : Device) (bytes : Nat) : Except OutOfMemory Device :=
  match d.meter.reserve? bytes with
  | some meter => .ok { d with meter }
  | none =>
    .error ⟨d.id, bytes, d.meter.inUse, d.meter.limit.getD largestSize⟩

/-- Gives bytes back to the budget of a device. -/
def release (d : Device) (bytes : Nat) : Device :=
  { d with meter := d.meter.release bytes }

/-- The text of a device. -/
def render (d : Device) : String := d.kind ++ ":" ++ toString d.id.toNat

end Device

/-- **aotc's `DeviceAllocation`** with the number of its references. -/
structure Block where
  /-- The index of the device. -/
  place : Nat
  /-- The bytes. -/
  bytes : List UInt8
  /-- How many buffers refer to the block. -/
  holders : Nat
deriving DecidableEq

/-- **The memory of all devices.** -/
structure Memory where
  /-- The devices of all clients, by index. -/
  devices : List Device
  /-- All blocks ever allocated, by number. -/
  blocks : List Block
deriving DecidableEq

/-- Why bytes could not be allocated. -/
inductive AllocationError where
  /-- The budget of the device is exhausted. -/
  | outOfMemory (cause : OutOfMemory)
  /-- There is no device at the index. -/
  | noDevice (place : Nat)
deriving DecidableEq

namespace AllocationError

/-- The wording of each cause. -/
def reason : AllocationError → String
  | outOfMemory cause => cause.reason
  | noDevice place => "no device at place " ++ toString place

end AllocationError

namespace Memory

/-- No devices and no blocks. -/
def empty : Memory := ⟨[], []⟩

/-- Appends devices. -/
def addDevices (m : Memory) (devices : List Device) : Memory :=
  { m with devices := m.devices ++ devices }

/-- The bytes of a block. -/
def bytes (m : Memory) (block : Nat) : List UInt8 :=
  match m.blocks[block]? with
  | some b => b.bytes
  | none => []

/-- The device a block is on. -/
def deviceOf? (m : Memory) (block : Nat) : Option Device := do
  let b ← m.blocks[block]?
  m.devices[b.place]?

/-- **aotc's `allocate`**: reserves bytes on a device and puts them in a new
block with one reference. -/
def allocate (m : Memory) (place : Nat) (bytes : List UInt8) :
    Except AllocationError (Nat × Memory) :=
  match m.devices[place]? with
  | none => .error (.noDevice place)
  | some device =>
    match device.reserve bytes.length with
    | .error cause => .error (.outOfMemory cause)
    | .ok device =>
      .ok (m.blocks.length,
        ⟨m.devices.set place device, m.blocks ++ [⟨place, bytes, 1⟩]⟩)

/-- Adds a reference to a block. -/
def retain (m : Memory) (block : Nat) : Memory :=
  { m with blocks := m.blocks.modify block fun b =>
      { b with holders := b.holders + 1 } }

/-- **Releases a reference to a block.** With the last one its bytes are given
back to the budget. -/
def release (m : Memory) (block : Nat) : Memory :=
  match m.blocks[block]? with
  | none => m
  | some b =>
    let blocks := m.blocks.set block { b with holders := b.holders - 1 }
    if b.holders = 1 then
      ⟨m.devices.modify b.place (·.release b.bytes.length), blocks⟩
    else ⟨m.devices, blocks⟩

end Memory

/-- **aotc's `DeviceBuffer`**: a value in device memory, as a shape and the
block with its bytes. -/
structure Buffer where
  /-- The shape of the value. -/
  shape : Shape
  /-- The number of the block. -/
  block : Nat
deriving DecidableEq

namespace Buffer

/-- aotc's `device_id`: the id of the device that holds a buffer. -/
def deviceId (b : Buffer) (m : Memory) : UInt32 :=
  match m.deviceOf? b.block with
  | some device => device.id
  | none => 0

/-- How many bytes a buffer takes, aotc's `size_in_bytes`. -/
def size (b : Buffer) (m : Memory) : Nat := (m.bytes b.block).length

/-- **aotc's `to_literal_sync`**: decodes the bytes of a buffer. -/
def toLiteral (b : Buffer) (m : Memory) : Except Literal.Error Literal :=
  Literal.ofBytes b.shape (m.bytes b.block)

/-- Drops buffers. -/
def releaseAll (buffers : List Buffer) (m : Memory) : Memory :=
  buffers.foldl (fun m b => m.release b.block) m

/-- The text of a buffer. -/
def render (b : Buffer) (m : Memory) : String :=
  b.shape.render ++ " on device " ++ toString (b.deviceId m).toNat

end Buffer

end TensorBind
