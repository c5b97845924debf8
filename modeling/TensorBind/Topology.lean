import TensorBind.Fingerprint

/-!
# Topologies

A topology is the set of devices that a program is compiled for, aotc's
`TopologyDescription`: a platform, a kind of device and the ids of the
devices in order. Two descriptions denote **the same topology** when their
platform ids and their device ids agree; the names they carry are for
display.
-/

namespace TensorBind

/-- **A description of a set of devices**, aotc's `TopologyDescription`. -/
structure Topology where
  /-- The id of the platform. -/
  platformId : UInt64
  /-- The name of the platform. -/
  platformName : String
  /-- The kind of the devices. -/
  deviceKind : String
  /-- The ids of the devices, in order. -/
  deviceIds : List UInt32
deriving DecidableEq

namespace Topology

/-- The name of the platform whose devices the host emulates, aotc's
`HOST_PLATFORM_NAME`. -/
def hostPlatform : String := "host"

/-- The platform id of a name, aotc's `PlatformId` made by `from_name`. -/
def platformOfName (name : String) : UInt64 := fingerprint name

/-- How many devices there are. -/
def deviceCount (t : Topology) : Nat := t.deviceIds.length

/-- Whether a device is part of the topology. -/
def contains (t : Topology) (device : UInt32) : Bool :=
  t.deviceIds.contains device

/-- **Whether two descriptions denote the same topology**, aotc's
`is_same_topology`. -/
def same (a b : Topology) : Bool :=
  decide (a.platformId = b.platformId)
    && decide (a.deviceIds = b.deviceIds)

/-- Device ids with commas between them. -/
def renderDevices (devices : List UInt32) : String :=
  ", ".intercalate (devices.map fun id => toString id.toNat)

/-- The text of a platform id. -/
def renderPlatformId (platform : UInt64) : String :=
  "0x" ++ hexWord platform

/-- The text of a topology. -/
def render (t : Topology) : String :=
  t.platformName ++ "[" ++ t.deviceKind ++ "] devices \x7b"
    ++ renderDevices t.deviceIds ++ "\x7d"

end Topology

end TensorBind
