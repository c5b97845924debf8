import TensorBind.Client.Basic
import TensorBind.Proofs.Literal

/-!
# From a compiled program to a client's devices

Compiling binds a program to a topology, and loading binds what was compiled
to the devices of a client. Between the two stand only the ids of devices.

An assignment takes its devices from the topology in order
(`Assignment.sublist_devices`), one for each replica and partition
(`Assignment.device?_eq_some`). Loading looks each of them up among the
devices of the client, and that is all it asks for
(`Client.exists_load_iff`): that the client is bound to the topology that
was compiled for is asked only when the program is compiled
(`Executable.compile_eq_ok`).
-/

namespace TensorBind

namespace Topology

/-- Two descriptions of the same topology agree on the platform and on the
devices, whatever they are called. -/
theorem same_iff {a b : Topology} :
    a.same b ↔ a.platformId = b.platformId ∧ a.deviceIds = b.deviceIds := by
  rw [same, Bool.and_eq_true, decide_eq_true_iff, decide_eq_true_iff]

theorem same_comm {a b : Topology} : a.same b ↔ b.same a := by
  rw [same_iff, same_iff, eq_comm, @eq_comm _ a.deviceIds]

end Topology

/-! ## Assignments -/

/-- **Where in a topology the device of a replica and a partition stands**:
all partitions of a replica before the next replica, or at the place that is
chosen for the only invocation. -/
def CompileOptions.position (options : CompileOptions)
    (replica partition : Nat) : Nat :=
  options.deviceOrdinal.getD (replica * options.numPartitions + partition)

namespace Assignment

variable {options : CompileOptions} {topology : Topology} {a : Assignment}
  {devices : List UInt32} {needed : Nat}

/-- **Devices are found** for as many invocations as the topology has room
for, or for one at a place that it has. -/
theorem devicesFor_eq_ok :
    devicesFor options topology needed = .ok devices
      ↔ (options.deviceOrdinal = none ∧ needed ≤ topology.deviceCount
          ∧ devices = topology.deviceIds.take needed)
        ∨ ∃ ordinal device, options.deviceOrdinal = some ordinal
          ∧ needed = 1 ∧ topology.deviceIds[ordinal]? = some device
          ∧ devices = [device] := by
  unfold devicesFor
  cases options.deviceOrdinal with
  | none =>
    by_cases hroom : topology.deviceCount < needed
    · simp [hroom, Nat.not_le_of_lt hroom]
    · simp [hroom, Nat.le_of_not_lt hroom, eq_comm]
  | some ordinal =>
    by_cases hone : needed = 1
    · cases hdevice : topology.deviceIds[ordinal]? with
      | none => simp [hone, hdevice]
      | some device => simp [hone, hdevice, eq_comm]
    · simp [hone]

/-- **A program is spread over a topology** if there are replicas and
partitions that can be counted, and devices for them. -/
theorem ofOptions_eq_ok :
    ofOptions options topology = .ok a
      ↔ 0 < options.numReplicas ∧ 0 < options.numPartitions
        ∧ options.numReplicas * options.numPartitions ≤ largestSize
        ∧ a.replicaCount = options.numReplicas
        ∧ a.partitionCount = options.numPartitions
        ∧ devicesFor options topology
          (options.numReplicas * options.numPartitions) = .ok a.devices := by
  obtain ⟨replicas, partitions, devices⟩ := a
  unfold ofOptions
  by_cases hzero : options.numReplicas = 0 ∨ options.numPartitions = 0
  · rw [if_pos hzero]
    refine ⟨nofun, fun ⟨hreplicas, hpartitions, _⟩ => ?_⟩
    rcases hzero with hzero | hzero
    · exact absurd hzero (Nat.ne_of_gt hreplicas)
    · exact absurd hzero (Nat.ne_of_gt hpartitions)
  · rw [if_neg hzero]
    simp only [not_or, ← ne_eq, ← Nat.pos_iff_ne_zero] at hzero
    by_cases hfits :
        options.numReplicas * options.numPartitions ≤ largestSize
    · rw [checkedMul?, if_pos hfits]
      simp only [Except.map_eq_ok, Assignment.mk.injEq, hzero, hfits,
        true_and]
      constructor
      · rintro ⟨found, hfound, rfl, rfl, rfl⟩
        exact ⟨rfl, rfl, hfound⟩
      · rintro ⟨rfl, rfl, hfound⟩
        exact ⟨devices, hfound, rfl, rfl, rfl⟩
    · rw [checkedMul?, if_neg hfits]
      exact ⟨nofun, fun ⟨_, _, hfits', _⟩ => absurd hfits' hfits⟩

/-- There is a device for each replica and partition. -/
theorem length_devices (h : ofOptions options topology = .ok a) :
    a.devices.length = options.numReplicas * options.numPartitions := by
  obtain ⟨-, -, -, -, -, hdevices⟩ := ofOptions_eq_ok.mp h
  rcases devicesFor_eq_ok.mp hdevices with
    ⟨-, hroom, hdevices⟩ | ⟨ordinal, device, -, hone, -, hdevices⟩
  · rw [hdevices, List.length_take]
    exact Nat.min_eq_left hroom
  · rw [hdevices, hone]
    rfl

/-- **The devices are those of the topology**, in its order. -/
theorem sublist_devices (h : ofOptions options topology = .ok a) :
    a.devices.Sublist topology.deviceIds := by
  obtain ⟨-, -, -, -, -, hdevices⟩ := ofOptions_eq_ok.mp h
  rcases devicesFor_eq_ok.mp hdevices with
    ⟨-, -, hdevices⟩ | ⟨ordinal, device, -, -, hdevice, hdevices⟩
  · rw [hdevices]
    exact List.take_sublist _ _
  · rw [hdevices, List.singleton_sublist]
    exact List.mem_of_getElem? hdevice

/-- The invocation of a replica and a partition is one of those counted. -/
theorem invocation_lt {replica partition replicas partitions : Nat}
    (hreplica : replica < replicas) (hpartition : partition < partitions) :
    replica * partitions + partition < replicas * partitions :=
  calc replica * partitions + partition
      < (replica + 1) * partitions := by
        rw [Nat.add_mul, Nat.one_mul]
        exact Nat.add_lt_add_left hpartition _
    _ ≤ replicas * partitions := Nat.mul_le_mul_right partitions hreplica

/-- **The device of a replica and a partition** is that of their invocation,
and it stands in the topology where it should. -/
theorem device?_eq_some (h : ofOptions options topology = .ok a)
    {replica partition : Nat} (hreplica : replica < options.numReplicas)
    (hpartition : partition < options.numPartitions) :
    ∃ device, a.device? replica partition = some device
      ∧ a.devices[replica * options.numPartitions + partition]? = some device
      ∧ topology.deviceIds[options.position replica partition]?
        = some device := by
  have hlt := invocation_lt hreplica hpartition
  obtain ⟨-, -, -, hreplicas, hpartitions, hdevices⟩ := ofOptions_eq_ok.mp h
  have hdevice : a.device? replica partition
      = a.devices[replica * options.numPartitions + partition]? := by
    rw [device?, hreplicas, hpartitions]
    exact if_neg (not_or.mpr
      ⟨Nat.not_le_of_lt hreplica, Nat.not_le_of_lt hpartition⟩)
  rw [hdevice, CompileOptions.position]
  -- with a place of the caller's choice there is only one invocation
  rcases devicesFor_eq_ok.mp hdevices with
    ⟨hordinal, hroom, hdevices⟩ | ⟨ordinal, device, hordinal, hone, hfound,
      hdevices⟩
  · have hplace := Nat.lt_of_lt_of_le hlt hroom
    rw [hdevices, hordinal, Option.getD_none, List.getElem?_take_of_lt hlt]
    have hdevice := List.getElem?_eq_getElem hplace
    exact ⟨_, hdevice, hdevice, hdevice⟩
  · rw [hone, Nat.lt_one_iff] at hlt
    rw [hdevices, hordinal, hlt, Option.getD_some]
    exact ⟨device, rfl, rfl, hfound⟩

end Assignment

/-! ## Compiling -/

namespace Executable

variable {options : CompileOptions} {program : Program} {topology : Topology}
  {client : Option (Except Fault Topology)} {e : Executable}

/-- **The gate lets pass** what is for the topology of a client. -/
theorem check_eq_ok :
    Gate.check topology client = .ok ()
      ↔ ∃ bound, client = some (.ok bound) ∧ bound.same topology := by
  match client with
  | none => simp [Gate.check]
  | some (.error cause) => simp [Gate.check]
  | some (.ok bound) =>
    by_cases h : bound.same topology <;> simp [Gate.check, h]

/-- **A computation compiles** if it can be put on devices and its nodes
have slots. -/
theorem ofComputation_eq_ok {c : Computation} {kind : ProgramKind} :
    ofComputation c kind options topology = .ok e
      ↔ Assignment.ofOptions options topology = .ok e.assignment
        ∧ c.toSlotProgram = .ok (e.program, e.stats)
        ∧ e.name = c.name ∧ e.kind = kind ∧ e.topology = topology
        ∧ e.fingerprint = TensorBind.fingerprint
          (fingerprintText c.name topology e.assignment e.program) := by
  obtain ⟨name, kind', topology', assignment, p, fingerprint, stats⟩ := e
  unfold ofComputation
  simp only [Except.bind_eq_ok, Except.mapError_eq_ok, Except.pure_eq_ok_iff,
    Prod.exists, Executable.mk.injEq]
  constructor
  · rintro ⟨assignment, hassignment, p, stats, hp, rfl, rfl, rfl, rfl, rfl,
      rfl, rfl⟩
    exact ⟨hassignment, hp, rfl, rfl, rfl, rfl⟩
  · rintro ⟨hassignment, hp, rfl, rfl, rfl, rfl⟩
    exact ⟨assignment, hassignment, p, stats, hp, rfl, rfl, rfl, rfl, rfl,
      rfl, rfl⟩

/-- **A program compiles** if there is a client that is bound to the
topology, and the computation of the program compiles. -/
theorem compile_eq_ok :
    compile options program topology client = .ok e
      ↔ (∃ bound, client = some (.ok bound) ∧ bound.same topology)
        ∧ ∃ c, program.toComputation = .ok c
          ∧ ofComputation c program.kind options topology = .ok e := by
  unfold compile
  simp only [Except.bind_eq_ok, Except.mapError_eq_ok, ← check_eq_ok]
  constructor
  · rintro ⟨_, hgate, hrest⟩
    exact ⟨hgate, hrest⟩
  · rintro ⟨hgate, hrest⟩
    exact ⟨(), hgate, hrest⟩

/-- **What does not pass the gate** does not get further, whatever the
program and the options are. -/
theorem compile_of_check_eq_error {cause : GateError}
    (h : Gate.check topology client = .error cause) :
    compile options program topology client = .error (.gate cause) := by
  unfold compile
  rw [h]
  rfl

end Executable

/-! ## Clients and their devices -/

namespace ClientOptions

variable {options : ClientOptions} {ids : List UInt32}

/-- **A device has an id** exactly if its number is one. -/
theorem deviceId_of_lt {first index : Nat} (h : first + index < idCount) :
    deviceId first index = .ok (UInt32.ofNat (first + index)) := by
  have hlarge : idCount ≤ largestSize := by decide
  have hsum : (checkedAdd? first index).filter (· < idCount)
      = some (first + index) := by
    rw [checkedAdd?, if_pos (Nat.le_trans (Nat.le_of_lt h) hlarge),
      Option.filter_some_eq_some]
    exact decide_eq_true h
  rw [deviceId, hsum]

/-- A number that is no id is refused, whether or not it can be counted. -/
theorem deviceId_of_le {first index : Nat} (h : idCount ≤ first + index) :
    deviceId first index = .error (.outOfRange first index) := by
  have hsum : (checkedAdd? first index).filter (· < idCount) = none := by
    rw [Option.filter_eq_none_iff]
    intro number hnumber
    rw [checkedAdd?] at hnumber
    split at hnumber
    · cases hnumber
      exact fun hlt => Nat.not_lt_of_le h (of_decide_eq_true hlt)
    · cases hnumber
  rw [deviceId, hsum]

/-- **Ids are given out one after another** as long as there are any. -/
theorem deviceIdsFrom_eq_ok {first index count : Nat}
    (h : first + index + count ≤ idCount) :
    deviceIdsFrom first index count
      = .ok ((List.range' index count).map fun i =>
        UInt32.ofNat (first + i)) := by
  induction count generalizing index with
  | zero => rfl
  | succ count ih =>
    rw [deviceIdsFrom, deviceId_of_lt (by omega), Except.ok_bind,
      ih (by omega), Except.ok_bind, List.range'_succ]
    rfl

/-- **The first device without an id** is the one that is named. -/
theorem deviceIdsFrom_eq_error {first index count bad : Nat}
    (hle : index ≤ bad) (hlt : bad < index + count)
    (hbad : idCount ≤ first + bad)
    (hfirst : ∀ i < bad, first + i < idCount) :
    deviceIdsFrom first index count = .error (.outOfRange first bad) := by
  induction count generalizing index with
  | zero => omega
  | succ count ih =>
    rw [deviceIdsFrom]
    rcases Nat.eq_or_lt_of_le hle with rfl | hafter
    · rw [deviceId_of_le hbad, Except.error_bind]
    · rw [deviceId_of_lt (hfirst index hafter), Except.ok_bind,
        ih hafter (by omega), Except.error_bind]

/-- **The results of numbering the devices of a client**: the product, the
sums and the ids themselves can each be too large, and together they ask
that the last number be an id. -/
theorem deviceIds_eq (options : ClientOptions) :
    options.deviceIds
      = if options.deviceCount = 0 then .error .noDevices
        else if largestSize < options.nodeId * options.deviceCount then
          .error .overflow
        else if options.nodeId * options.deviceCount + options.deviceCount
            ≤ idCount then
          .ok ((List.range options.deviceCount).map fun i =>
            UInt32.ofNat (options.nodeId * options.deviceCount + i))
        else .error (.outOfRange (options.nodeId * options.deviceCount)
          (idCount - options.nodeId * options.deviceCount)) := by
  unfold deviceIds
  by_cases hzero : options.deviceCount = 0
  · rw [if_pos hzero, if_pos hzero]
  rw [if_neg hzero, if_neg hzero]
  by_cases hlarge : largestSize < options.nodeId * options.deviceCount
  · rw [if_pos hlarge, checkedMul?, if_neg (Nat.not_le_of_lt hlarge)]
  rw [if_neg hlarge, checkedMul?, if_pos (Nat.le_of_not_lt hlarge)]
  by_cases hfits : options.nodeId * options.deviceCount
      + options.deviceCount ≤ idCount
  · rw [if_pos hfits, List.range_eq_range']
    exact deviceIdsFrom_eq_ok hfits
  · rw [if_neg hfits]
    exact deviceIdsFrom_eq_error (Nat.zero_le _) (by omega) (by omega)
      (fun i hi => by omega)

/-- **A client has ids for its devices** if there is a device and all
numbers from the first to the last fit. -/
theorem deviceIds_eq_ok :
    options.deviceIds = .ok ids
      ↔ 0 < options.deviceCount
        ∧ options.nodeId * options.deviceCount + options.deviceCount ≤ idCount
        ∧ ids = (List.range options.deviceCount).map fun i =>
          UInt32.ofNat (options.nodeId * options.deviceCount + i) := by
  have hidCount : idCount ≤ largestSize := by decide
  rw [deviceIds_eq]
  split
  · simp_all
  · split
    · refine iff_of_false (by rintro ⟨⟩) ?_
      rintro ⟨-, hfits, -⟩
      omega
    · split
      · rename_i hpos _ hfits
        simp [Nat.pos_of_ne_zero hpos, hfits, eq_comm]
      · rename_i hfits
        simp [hfits]

/-- **The ids of a client's devices are distinct.** -/
theorem nodup_deviceIds (h : options.deviceIds = .ok ids) : ids.Nodup := by
  obtain ⟨-, hfits, rfl⟩ := deviceIds_eq_ok.mp h
  refine (List.nodup_map_iff_inj_on List.nodup_range).mpr
    fun i hi j hj hij => ?_
  rw [List.mem_range] at hi hj
  have hnumber := congrArg UInt32.toNat hij
  have hsize : UInt32.size = idCount := rfl
  rw [UInt32.toNat_ofNat_of_lt' (by omega),
    UInt32.toNat_ofNat_of_lt' (by omega)] at hnumber
  exact Nat.add_left_cancel hnumber

end ClientOptions

namespace Client

variable {c c' : Client} {e : Executable} {l : Loaded} {device : UInt32}
  {place : Nat}

/-- A client finds the devices of its topology and no others. -/
theorem exists_place?_iff :
    (∃ place, c.place? device = some place)
      ↔ device ∈ c.topology.deviceIds := by
  rw [← Option.isSome_iff_exists, place?, Option.isSome_map,
    List.isSome_idxOf?]

/-- **A device that is found** stands as far behind the first one as its id
does in the topology. -/
theorem exists_index_of_place? (h : c.place? device = some place) :
    ∃ i, c.topology.deviceIds[i]? = some device
      ∧ place = c.firstPlace + i := by
  obtain ⟨i, hi, rfl⟩ := Option.map_eq_some_iff.mp h
  obtain ⟨hlt, hdevice, -⟩ := List.idxOf?_eq_some_iff.mp hi
  exact ⟨i, List.getElem?_eq_some_iff.mpr ⟨hlt, hdevice⟩, rfl⟩

/-- Each device of a client is found by its id, if no two have the same. -/
theorem place?_of_getElem? (hids : c.topology.deviceIds.Nodup) {i : Nat}
    (h : c.topology.deviceIds[i]? = some device) :
    c.place? device = some (c.firstPlace + i) := by
  obtain ⟨hlt, rfl⟩ := List.getElem?_eq_some_iff.mp h
  refine Option.map_eq_some_iff.mpr ⟨i, List.idxOf?_eq_some_iff.mpr
    ⟨hlt, rfl, fun j hj heq => ?_⟩, rfl⟩
  exact Nat.ne_of_lt hj (hids.getElem_inj_iff.mp heq)

theorem mem_places_of_place? (h : c.place? device = some place) :
    place ∈ c.places := by
  obtain ⟨i, hi, rfl⟩ := exists_index_of_place? h
  refine List.mem_range'_1.mpr ⟨Nat.le_add_right _ _, ?_⟩
  exact Nat.add_lt_add_left (List.getElem?_eq_some_iff.mp hi).1 _

/-- Devices of different ids are found at different places. -/
theorem eq_of_place?_eq {other : UInt32} (h : c.place? device = some place)
    (hother : c.place? other = some place) : device = other := by
  obtain ⟨i, hi, rfl⟩ := exists_index_of_place? h
  obtain ⟨j, hj, hij⟩ := exists_index_of_place? hother
  obtain rfl := Nat.add_left_cancel hij
  exact Option.some.inj (hi.symm.trans hj)

theorem resolve_eq_ok {name : String} :
    c.resolve name device = .ok place ↔ c.place? device = some place := by
  unfold resolve
  cases c.place? device <;> simp

/-- **An executable is loaded** if all devices it is assigned to are found,
and it gets the next number. -/
theorem load_eq_ok :
    c.load e = .ok (l, c') ↔ ∃ places,
      List.Forall₂ (fun device place => c.place? device = some place)
        e.assignment.devices places
      ∧ l = ⟨c.nextId, e.name, e.fingerprint, e.assignment, e.program,
        places⟩
      ∧ c' = { c with
        nextId := c.nextId + 1, bindings := c.bindings ++ [l] } := by
  unfold load
  simp only [Except.bind_eq_ok, List.mapM_eq_ok, resolve_eq_ok,
    Except.pure_eq_ok_iff, Prod.mk.injEq]
  constructor
  · rintro ⟨places, hplaces, rfl, rfl⟩
    exact ⟨places, hplaces, rfl, rfl⟩
  · rintro ⟨places, hplaces, rfl, rfl⟩
    exact ⟨places, hplaces, rfl, rfl⟩

/-- **Loading asks only for devices**: a client loads every executable that
is assigned to devices whose ids it has. -/
theorem exists_load_iff :
    (∃ l c', c.load e = .ok (l, c'))
      ↔ ∀ device ∈ e.assignment.devices, device ∈ c.topology.deviceIds := by
  constructor
  · rintro ⟨l, c', h⟩ device hdevice
    obtain ⟨places, hplaces, -, -⟩ := load_eq_ok.mp h
    obtain ⟨place, -, hplace⟩ := hplaces.exists_of_mem hdevice
    exact exists_place?_iff.mp ⟨place, hplace⟩
  · intro h
    obtain ⟨places, hplaces⟩ := List.exists_forall₂ fun device hdevice =>
      exists_place?_iff.mpr (h device hdevice)
    exact ⟨_, _, load_eq_ok.mpr ⟨places, hplaces, rfl, rfl⟩⟩

/-- **What is compiled for the topology of a client**, the client loads. -/
theorem exists_load_of_same {options : CompileOptions} {topology : Topology}
    (h : Assignment.ofOptions options topology = .ok e.assignment)
    (hsame : c.topology.same topology) : ∃ l c', c.load e = .ok (l, c') := by
  rw [exists_load_iff, (Topology.same_iff.mp hsame).2]
  exact (Assignment.sublist_devices h).subset

end Client

/-! ## Programs on devices -/

/-- **A program that is spread over the devices of a client**: it has an
invocation for each replica and partition, all partitions of a replica
before the next replica, and each runs on a device of its own. -/
structure Loaded.SpreadOver (l : Loaded) (c : Client)
    (options : CompileOptions) : Prop where
  /-- There is a device for each replica and partition. -/
  length_places :
    l.places.length = options.numReplicas * options.numPartitions
  /-- It is the device of the client at the position of the replica and
  the partition in the topology. -/
  exists_place : ∀ replica < options.numReplicas,
    ∀ partition < options.numPartitions, ∃ device place,
      l.assignment.device? replica partition = some device
      ∧ c.topology.deviceIds[options.position replica partition]?
        = some device
      ∧ c.place? device = some place
      ∧ l.places[replica * options.numPartitions + partition]? = some place
  /-- All devices are the client's. -/
  subset_places : l.places ⊆ c.places
  /-- No device is used twice. -/
  nodup_places : l.places.Nodup

/-- **What a client loads is spread over its devices**, if it was compiled
for its topology. -/
theorem Client.spreadOver_of_load {c c' : Client} {e : Executable}
    {l : Loaded} {options : CompileOptions} {topology : Topology}
    (h : c.load e = .ok (l, c'))
    (hassignment : Assignment.ofOptions options topology = .ok e.assignment)
    (hsame : c.topology.same topology)
    (hids : c.topology.deviceIds.Nodup) : l.SpreadOver c options := by
  obtain ⟨places, hplaces, rfl, -⟩ := load_eq_ok.mp h
  have hdeviceIds := (Topology.same_iff.mp hsame).2
  constructor
  · exact hplaces.length_eq ▸ Assignment.length_devices hassignment
  · intro replica hreplica partition hpartition
    obtain ⟨device, hdevice, hindex, hposition⟩ :=
      Assignment.device?_eq_some hassignment hreplica hpartition
    have hplace := hplaces.getElem?_bind
      (replica * options.numPartitions + partition)
    rw [hindex, Option.bind_some] at hplace
    obtain ⟨place, hfound⟩ := exists_place?_iff.mpr
      (hdeviceIds ▸ List.mem_of_getElem? hposition)
    exact ⟨device, place, hdevice, hdeviceIds ▸ hposition, hfound,
      hplace.symm.trans hfound⟩
  · intro place hplace
    obtain ⟨device, -, hfound⟩ := hplaces.flip.exists_of_mem hplace
    exact mem_places_of_place? hfound
  · have hdevices : e.assignment.devices.Nodup :=
      (hdeviceIds ▸ hids).sublist (Assignment.sublist_devices hassignment)
    refine (List.rel_nodup ⟨?_, ?_⟩ hplaces).mp hdevices
    · exact fun _ _ _ hplace hother => eq_of_place?_eq hplace hother
    · exact fun _ _ _ hplace hother =>
        Option.some.inj (hplace.symm.trans hother)

end TensorBind
