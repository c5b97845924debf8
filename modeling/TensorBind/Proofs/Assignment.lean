import TensorBind.Proofs.Client.Binding

/-!
# Every invocation has a device of its own

The invocations of a program are numbered, all partitions of a replica
before the next replica. Each number below their count is that of exactly
one replica and partition (`Assignment.existsUnique_invocation`), so the
list of devices is a table with a row for each replica: the device of a
replica and a partition is the one at their number, and there is none for
any other pair. Where the topology repeats no device, neither does the
table.

The number of an invocation is a product and a sum of words. Neither can
overflow once the count of all invocations does not: a replica or partition
that is too large is turned away before anything is computed
(`Assignment.countedDevice?_eq`).

The whole of it is `Assignment.ofOptions_replicaMajor`, with the exact
condition under which a program can be spread over a topology at all.
-/

namespace TensorBind.Assignment

variable {options : CompileOptions} {topology : Topology} {a : Assignment}
  {replica partition replicas partitions k : Nat}

/-- **The device of a replica and a partition**, looked up with sums and
products that must not overflow. -/
def countedDevice? (a : Assignment) (replica partition : Nat) :
    Option (Option UInt32) :=
  if a.replicaCount ≤ replica ∨ a.partitionCount ≤ partition then some none
  else do
    let first ← checkedMul? replica a.partitionCount
    let invocation ← checkedAdd? first partition
    return a.devices[invocation]?

/-- **Every number below the count is that of one invocation.** -/
theorem existsUnique_invocation (hk : k < replicas * partitions) :
    ∃! invocation : Nat × Nat, invocation.1 < replicas
      ∧ invocation.2 < partitions
      ∧ invocation.1 * partitions + invocation.2 = k := by
  have hpos : 0 < partitions :=
    Nat.pos_of_ne_zero fun hzero => by simp [hzero] at hk
  refine ⟨(k / partitions, k % partitions), ⟨?_, Nat.mod_lt k hpos,
    Nat.div_add_mod' k partitions⟩, ?_⟩
  · exact (Nat.div_lt_iff_lt_mul hpos).mpr hk
  · rintro ⟨replica, partition⟩ ⟨-, hpartition, rfl⟩
    rw [Nat.mul_comm replica, Nat.mul_add_div hpos,
      Nat.div_eq_of_lt hpartition, Nat.add_zero, Nat.mul_add_mod,
      Nat.mod_eq_of_lt hpartition]

/-- **A program can be spread over a topology** exactly if there are
replicas and partitions whose product can be counted, and the topology has
as many devices, or the one that is chosen for a single invocation. -/
theorem exists_ofOptions_iff :
    (∃ a, ofOptions options topology = .ok a)
      ↔ 0 < options.numReplicas ∧ 0 < options.numPartitions
        ∧ options.numReplicas * options.numPartitions < 2 ^ 64
        ∧ (options.deviceOrdinal = none
            ∧ options.numReplicas * options.numPartitions
              ≤ topology.deviceIds.length
          ∨ ∃ ordinal, options.deviceOrdinal = some ordinal
            ∧ ordinal < topology.deviceIds.length
            ∧ options.numReplicas * options.numPartitions = 1) := by
  simp only [ofOptions_eq_ok, devicesFor_eq_ok, le_largestSize_iff]
  constructor
  · rintro ⟨a, hreplicas, hpartitions, hcount, -, -,
      ⟨hnone, hroom, -⟩ | ⟨ordinal, device, hsome, hone, hdevice, -⟩⟩
    · exact ⟨hreplicas, hpartitions, hcount, .inl ⟨hnone, hroom⟩⟩
    · exact ⟨hreplicas, hpartitions, hcount, .inr ⟨ordinal, hsome,
        (List.getElem?_eq_some_iff.mp hdevice).1, hone⟩⟩
  · rintro ⟨hreplicas, hpartitions, hcount,
      ⟨hnone, hroom⟩ | ⟨ordinal, hsome, hlt, hone⟩⟩
    · exact ⟨⟨_, _, _⟩, hreplicas, hpartitions, hcount, rfl, rfl,
        .inl ⟨hnone, hroom, rfl⟩⟩
    · exact ⟨⟨_, _, _⟩, hreplicas, hpartitions, hcount, rfl, rfl,
        .inr ⟨ordinal, _, hsome, hone, List.getElem?_eq_getElem hlt, rfl⟩⟩

/-- Outside of the counts there is no device. -/
theorem device?_eq_none (h : ofOptions options topology = .ok a)
    (hout : ¬(replica < options.numReplicas
      ∧ partition < options.numPartitions)) :
    a.device? replica partition = none := by
  obtain ⟨-, -, -, hreplicas, hpartitions, -⟩ := ofOptions_eq_ok.mp h
  rw [device?, hreplicas, hpartitions, if_pos]
  rwa [not_and_or, Nat.not_lt, Nat.not_lt] at hout

/-- **The number of an invocation does not overflow**, whichever replica and
partition is asked for. -/
theorem countedDevice?_eq (h : ofOptions options topology = .ok a)
    (replica partition : Nat) :
    a.countedDevice? replica partition
      = some (a.device? replica partition) := by
  obtain ⟨-, -, hcount, hreplicas, hpartitions, -⟩ := ofOptions_eq_ok.mp h
  unfold countedDevice? device?
  split
  · rfl
  · rename_i hin
    rw [hreplicas, hpartitions, not_or, Nat.not_le, Nat.not_le] at hin
    have hlt := invocation_lt hin.1 hin.2
    rw [hpartitions, checkedMul?, if_pos (by omega), Option.bind_eq_bind,
      Option.bind_some, checkedAdd?, if_pos (by omega)]
    rfl

/-- **No device serves two invocations** of a program, if the topology
repeats none. -/
theorem invocation_eq_of_device? (h : ofOptions options topology = .ok a)
    (hids : topology.deviceIds.Nodup) {replica' partition' : Nat}
    {device : UInt32} (hdevice : a.device? replica partition = some device)
    (hdevice' : a.device? replica' partition' = some device) :
    replica = replica' ∧ partition = partition' := by
  have hin : ∀ {r p}, a.device? r p = some device →
      r < options.numReplicas ∧ p < options.numPartitions := by
    intro r p hfound
    by_contra hout
    rw [device?_eq_none h hout] at hfound
    cases hfound
  obtain ⟨hreplica, hpartition⟩ := hin hdevice
  obtain ⟨hreplica', hpartition'⟩ := hin hdevice'
  obtain ⟨d, hd, hindex, -⟩ := device?_eq_some h hreplica hpartition
  obtain ⟨d', hd', hindex', -⟩ := device?_eq_some h hreplica' hpartition'
  have hdd : d = d' := by
    rw [hdevice, Option.some.injEq] at hd
    rw [hdevice', Option.some.injEq] at hd'
    exact hd.symm.trans hd'
  have hnodup : a.devices.Nodup := hids.sublist (sublist_devices h)
  have hnumber : replica * options.numPartitions + partition
      = replica' * options.numPartitions + partition' := by
    have hlt := (List.getElem?_eq_some_iff.mp hindex).1
    exact (List.getElem?_inj hlt hnodup).mp
      (hindex.trans (hdd ▸ hindex'.symm))
  obtain ⟨_, -, hunique⟩ :=
    existsUnique_invocation (invocation_lt hreplica hpartition)
  have hpair := (hunique (replica, partition)
    ⟨hreplica, hpartition, rfl⟩).trans (hunique (replica', partition')
      ⟨hreplica', hpartition', hnumber.symm⟩).symm
  exact Prod.mk.inj hpair

/-- **A table of devices with a row for each replica.** -/
structure ReplicaMajor (options : CompileOptions) (topology : Topology)
    (a : Assignment) : Prop where
  /-- There is an invocation for each replica and partition. -/
  invocationCount_eq :
    a.invocationCount = options.numReplicas * options.numPartitions
  /-- Every number below the count is that of one of them. -/
  existsUnique : ∀ k < a.invocationCount,
    ∃! invocation : Nat × Nat, invocation.1 < options.numReplicas
      ∧ invocation.2 < options.numPartitions
      ∧ invocation.1 * options.numPartitions + invocation.2 = k
  /-- No other replica and partition has a device. -/
  isSome_iff : ∀ replica partition,
    (a.device? replica partition).isSome
      ↔ replica < options.numReplicas ∧ partition < options.numPartitions
  /-- The device is the one at their number, and it stands in the topology
  at that position or at the one that was chosen. -/
  device?_eq : ∀ replica < options.numReplicas,
    ∀ partition < options.numPartitions,
      a.device? replica partition
        = a.devices[replica * options.numPartitions + partition]?
      ∧ a.device? replica partition
        = topology.deviceIds[options.deviceOrdinal.getD
          (replica * options.numPartitions + partition)]?
  /-- Their number does not overflow. -/
  counted : ∀ replica partition,
    a.countedDevice? replica partition
      = some (a.device? replica partition)
  /-- No device serves two of them, unless the topology repeats one. -/
  injective : topology.deviceIds.Nodup →
    ∀ replica partition replica' partition' device,
      a.device? replica partition = some device →
      a.device? replica' partition' = some device →
      replica = replica' ∧ partition = partition'

/-- **Devices are assigned by replica, then by partition.** A program can be
spread over a topology exactly if its replicas and partitions are positive
in number, their product can be counted, and there is a device for each of
them, or a single one is put on a device that there is. The assignment is
then a table of devices of the topology with a row for each replica. -/
theorem ofOptions_replicaMajor (options : CompileOptions)
    (topology : Topology) :
    ((∃ a, ofOptions options topology = .ok a)
      ↔ 0 < options.numReplicas ∧ 0 < options.numPartitions
        ∧ options.numReplicas * options.numPartitions < 2 ^ 64
        ∧ (options.deviceOrdinal = none
            ∧ options.numReplicas * options.numPartitions
              ≤ topology.deviceIds.length
          ∨ ∃ ordinal, options.deviceOrdinal = some ordinal
            ∧ ordinal < topology.deviceIds.length
            ∧ options.numReplicas * options.numPartitions = 1))
    ∧ ∀ a, ofOptions options topology = .ok a →
      a.ReplicaMajor options topology := by
  refine ⟨exists_ofOptions_iff, fun a ha => ?_⟩
  have hcount := length_devices ha
  refine ⟨hcount, fun k hk => ?_, fun replica partition => ?_,
    fun replica hreplica partition hpartition => ?_, countedDevice?_eq ha,
    fun hids _ _ _ _ _ => invocation_eq_of_device? ha hids⟩
  · rw [invocationCount, hcount] at hk
    exact existsUnique_invocation hk
  · by_cases hin : replica < options.numReplicas
      ∧ partition < options.numPartitions
    · obtain ⟨device, hdevice, -⟩ := device?_eq_some ha hin.1 hin.2
      simp [hdevice, hin]
    · simp [device?_eq_none ha hin, hin]
  · obtain ⟨device, hdevice, hindex, hposition⟩ :=
      device?_eq_some ha hreplica hpartition
    exact ⟨hdevice.trans hindex.symm, hdevice.trans hposition.symm⟩

/-- Two replicas of two partitions on a host of five devices: the second
replica begins on the third device, and the last device is left over. -/
theorem twoByTwo_replicaMajor :
    (∃ a, ofOptions ⟨2, 2, none⟩ ⟨0, "host", "host_device", [9, 7, 5, 3, 1]⟩
        = .ok a ∧ a.invocationCount = 4 ∧ a.device? 1 0 = some 5
      ∧ a.device? 2 0 = none
      ∧ ∀ replica partition replica' partition' device,
        a.device? replica partition = some device →
        a.device? replica' partition' = some device →
        replica = replica' ∧ partition = partition')
    ∧ ¬∃ a, ofOptions ⟨2, 1, some 3⟩
      ⟨0, "host", "host_device", [9, 7, 5, 3, 1]⟩ = .ok a := by
  obtain ⟨hspread, htable⟩ := ofOptions_replicaMajor ⟨2, 2, none⟩
    ⟨0, "host", "host_device", [9, 7, 5, 3, 1]⟩
  obtain ⟨a, ha⟩ := hspread.mpr (by decide)
  have hmajor := htable a ha
  refine ⟨⟨a, ha, hmajor.invocationCount_eq,
    (hmajor.device?_eq 1 (by decide) 0 (by decide)).2, ?_,
    hmajor.injective (by decide)⟩, ?_⟩
  · rw [← Option.not_isSome_iff_eq_none, hmajor.isSome_iff]
    decide
  · rw [(ofOptions_replicaMajor ⟨2, 1, some 3⟩ _).1]
    rintro ⟨-, -, -, ⟨hnone, -⟩ | ⟨_, -, -, hone⟩⟩
    · cases hnone
    · cases hone

end TensorBind.Assignment
