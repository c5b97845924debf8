import TensorBind.Proofs.Device.Memory

/-!
# The ledger of device memory

A **ledger** is the memory of all devices together with the numbers of the
blocks that somebody holds, each as often as it is held. Few things are
ever done to a ledger (`Ledger.Step`): devices are added, bytes are placed,
a holder is added to a block that has one, and a holder is taken away.

That alone keeps the accounts. A ledger is **balanced**
(`Ledger.Balanced`) if each block counts its holders and each device has as
many bytes in use as the blocks held on it have, a block that is held twice
being counted once. Steps keep a ledger balanced (`Ledger.Step.balanced`),
and the bytes that are counted out with the last holder of a block are in
use (`Ledger.Step.memory`).

Along a whole course of steps (`Ledger.Course`) no meter passes its limit
(`Memory.sound_of_isChain`), and the largest count a meter remembers is the
largest count it ever had (`Memory.max?_inUse`).
-/

namespace TensorBind

/-! ## What meters do -/

namespace Meter

variable {m m' : Meter} {bytes : Nat}

/-- **What may happen to a meter**: nothing, a device may come to a place
where there was none, bytes that fit are counted in, and bytes are counted
out of at least as many. -/
inductive Counts : Meter → Meter → Prop
  | idle (m : Meter) : Counts m m
  | install (limit : Option Nat) : Counts (empty none) (empty limit)
  | reserve {m m' : Meter} {bytes : Nat} (h : m.reserve? bytes = some m') :
    Counts m m'
  | release {m : Meter} {bytes : Nat} (h : bytes ≤ m.inUse) :
    Counts m (m.release bytes)

/-- **A meter that can have come about**: it has not counted more than there
can be, nor more than it remembers. -/
structure Sound (m : Meter) : Prop where
  /-- The count is within the capacity. -/
  inUse_le_capacity : m.inUse ≤ m.capacity
  /-- The count is not above the largest one. -/
  inUse_le_peak : m.inUse ≤ m.peak

theorem sound_empty (limit : Option Nat) : (empty limit).Sound :=
  ⟨Nat.zero_le _, Nat.zero_le _⟩

theorem Counts.sound (h : m.Counts m') (hm : m.Sound) : m'.Sound := by
  cases h with
  | idle => exact hm
  | install limit => exact sound_empty limit
  | reserve h =>
    obtain ⟨hfits, rfl⟩ := reserve?_eq_some.mp h
    exact ⟨hfits, Nat.le_max_right _ _⟩
  | release h =>
    exact ⟨Nat.le_trans (Nat.sub_le _ _) hm.inUse_le_capacity,
      Nat.le_trans (Nat.sub_le _ _) hm.inUse_le_peak⟩

/-- **The largest count is brought up to date** by whatever happens. -/
theorem Counts.peak_eq (h : m.Counts m') (hm : m.Sound) :
    m'.peak = max m.peak m'.inUse := by
  cases h with
  | idle => exact (Nat.max_eq_left hm.inUse_le_peak).symm
  | install limit => rfl
  | reserve h =>
    obtain ⟨-, rfl⟩ := reserve?_eq_some.mp h
    rfl
  | release h =>
    exact (Nat.max_eq_left
      (Nat.le_trans (Nat.sub_le _ _) hm.inUse_le_peak)).symm

/-- The capacity is within the limit. -/
theorem Sound.inUse_le {limit : Nat} (h : m.Sound)
    (hlimit : m.limit = some limit) : m.inUse ≤ limit := by
  refine Nat.le_trans h.inUse_le_capacity ?_
  rw [capacity, hlimit, Option.getD_some]
  exact Nat.min_le_left _ _

end Meter

/-! ## What is read off memory -/

namespace Memory

variable {m m' : Memory} {place block : Nat} {bytes : List UInt8}

/-- The meter of the device at a place. Where there is none, nothing is in
use. -/
def meter (m : Memory) (place : Nat) : Meter :=
  match m.devices[place]? with
  | some device => device.meter
  | none => .empty none

/-- How many hold a block. -/
def holders (m : Memory) (block : Nat) : Nat :=
  match m.blocks[block]? with
  | some b => b.holders
  | none => 0

/-- How many bytes a block takes on the device at a place: none if it is
not there. -/
def bytesOn (m : Memory) (place block : Nat) : Nat :=
  match m.blocks[block]? with
  | some b => if b.place = place then b.bytes.length else 0
  | none => 0

/-- **Adding devices** leaves the meters there are alone, and a new one has
counted nothing. -/
theorem meter_addDevices (m : Memory) {devices : List Device}
    (h : ∀ device ∈ devices, device.meter = .empty device.meter.limit)
    (place : Nat) :
    (m.addDevices devices).meter place = m.meter place
      ∨ m.meter place = .empty none
        ∧ ∃ limit, (m.addDevices devices).meter place = .empty limit := by
  simp only [meter, addDevices]
  by_cases hplace : place < m.devices.length
  · rw [List.getElem?_append_left hplace]
    exact .inl rfl
  · have hle := Nat.le_of_not_lt hplace
    rw [List.getElem?_append_right hle, List.getElem?_eq_none hle]
    cases hdevice : devices[place - m.devices.length]? with
    | none => exact .inl rfl
    | some device =>
      exact .inr ⟨rfl, _, h device (List.mem_of_getElem? hdevice)⟩

/-- **Placing bytes** counts them in on their device and on no other. -/
theorem meter_allocate (h : m.allocate place bytes = .ok (block, m'))
    (other : Nat) :
    if other = place then
      (m.meter other).reserve? bytes.length = some (m'.meter other)
    else m'.meter other = m.meter other := by
  obtain ⟨device, meter, hdevice, hmeter, -, rfl⟩ := allocate_eq_ok.mp h
  simp only [Memory.meter]
  split
  · rename_i heq
    subst heq
    rw [List.getElem?_set_self (List.getElem?_eq_some_iff.mp hdevice).1,
      hdevice]
    exact hmeter
  · rename_i hne
    rw [List.getElem?_set_ne (Ne.symm hne)]

/-- A block is new that bytes are placed in. -/
theorem getElem?_blocks_allocate
    (h : m.allocate place bytes = .ok (block, m')) :
    m.blocks[block]? = none ∧ ∀ other, m'.blocks[other]?
      = if other = block then some ⟨place, bytes, 1⟩
        else m.blocks[other]? := by
  obtain ⟨device, meter, -, -, rfl, rfl⟩ := allocate_eq_ok.mp h
  refine ⟨List.getElem?_eq_none (Nat.le_refl _), fun other => ?_⟩
  rcases Nat.lt_trichotomy other m.blocks.length with hlt | rfl | hgt
  · rw [List.getElem?_append_left hlt, if_neg (Nat.ne_of_lt hlt)]
  · simp
  · rw [if_neg (Nat.ne_of_gt hgt), List.getElem?_eq_none (Nat.le_of_lt hgt),
      List.getElem?_eq_none (by rw [List.length_append]; exact hgt)]

/-- Bytes that are placed have one holder. -/
theorem holders_allocate (h : m.allocate place bytes = .ok (block, m'))
    (other : Nat) :
    m'.holders other = m.holders other + if other = block then 1 else 0 := by
  obtain ⟨hnew, hblocks⟩ := getElem?_blocks_allocate h
  simp only [holders, hblocks]
  by_cases heq : other = block
  · simp [heq, hnew]
  · simp [heq]

/-- Bytes that are placed take room on their device and on no other, and
what was placed before takes the room it did. -/
theorem bytesOn_allocate (h : m.allocate place bytes = .ok (block, m'))
    (device other : Nat) :
    m'.bytesOn device other
      = if other = block then if place = device then bytes.length else 0
        else m.bytesOn device other := by
  simp only [bytesOn, (getElem?_blocks_allocate h).2]
  by_cases heq : other = block
  · simp [heq]
  · simp [heq]

/-- A change of holders leaves the room a block takes. -/
theorem bytesOn_modify (devices : List Device) (change : Nat → Nat)
    (block place other : Nat) :
    bytesOn ⟨devices, m.blocks.modify block
      fun b => { b with holders := change b.holders }⟩ place other
      = m.bytesOn place other := by
  simp only [bytesOn, List.getElem?_modify]
  cases m.blocks[other]? with
  | none => rfl
  | some b =>
    by_cases h : block = other
    · simp [h]
    · simp [h]

theorem holders_modify (devices : List Device) (change : Nat → Nat)
    (hblock : block < m.blocks.length) (other : Nat) :
    holders ⟨devices, m.blocks.modify block
      fun b => { b with holders := change b.holders }⟩ other
      = if other = block then change (m.holders other)
        else m.holders other := by
  simp only [holders, List.getElem?_modify]
  by_cases h : other = block
  · subst h
    simp [List.getElem?_eq_getElem hblock]
  · rw [if_neg h]
    cases m.blocks[other]? with
    | none => rfl
    | some b => simp [Ne.symm h]

/-- **Taking a holder** counts the bytes of the block out with the last
one. -/
theorem meter_release {b : Block} (hb : m.blocks[block]? = some b)
    (place : Nat) :
    (m.release block).meter place
      = if b.holders = 1 ∧ b.place = place then
          (m.meter place).release b.bytes.length
        else m.meter place := by
  rw [release_eq hb]
  by_cases hlast : b.holders = 1
  · simp only [meter, hlast, true_and, if_true, List.getElem?_modify]
    cases m.devices[place]? with
    | none => simp [Meter.release, Meter.empty]
    | some device =>
      by_cases hplace : b.place = place
      · simp [hplace, Device.release]
      · simp [hplace]
  · simp only [meter, hlast, false_and, if_false]

/-- **What is done to memory**, with nothing counted out that had not been
counted in. -/
inductive Step : Memory → Memory → Prop
  /-- Nothing. -/
  | idle (m : Memory) : Step m m
  /-- Devices are added that have counted nothing. -/
  | grow {m : Memory} {devices : List Device}
    (h : ∀ device ∈ devices, device.meter = .empty device.meter.limit) :
    Step m (m.addDevices devices)
  /-- Bytes are placed. -/
  | place {m m' : Memory} {place block : Nat} {bytes : List UInt8}
    (h : m.allocate place bytes = .ok (block, m')) : Step m m'
  /-- A block gets one more holder. -/
  | retain (m : Memory) (block : Nat) : Step m (m.retain block)
  /-- One of the holders of a block releases it. If there is no other,
  the bytes of the block are in use. -/
  | release {m : Memory} {block : Nat} {b : Block}
    (hb : m.blocks[block]? = some b) (hheld : 0 < b.holders)
    (h : b.holders = 1 → b.bytes.length ≤ (m.meter b.place).inUse) :
    Step m (m.release block)

/-- **What is done to memory is done to a meter** as a meter may be
treated. -/
theorem Step.counts (h : m.Step m') (place : Nat) :
    (m.meter place).Counts (m'.meter place) := by
  cases h with
  | idle => exact .idle _
  | grow h =>
    rcases meter_addDevices m h place with heq | ⟨hnone, limit, hnew⟩
    · rw [heq]
      exact .idle _
    · rw [hnone, hnew]
      exact .install limit
  | place h =>
    have hmeter := meter_allocate h place
    split at hmeter
    · exact .reserve hmeter
    · rw [hmeter]
      exact .idle _
  | retain => exact .idle _
  | @release block b hb _ h =>
    rw [meter_release hb]
    by_cases hlast : b.holders = 1 ∧ b.place = place
    · rw [if_pos hlast]
      exact .release (hlast.2 ▸ h hlast.1)
    · rw [if_neg hlast]
      exact .idle _

/-- **Nothing that is done to memory** takes a block away or changes the
room it takes. -/
theorem Step.bytesOn_eq (h : m.Step m') (hblock : block < m.blocks.length) :
    block < m'.blocks.length
      ∧ ∀ place, m'.bytesOn place block = m.bytesOn place block := by
  cases h with
  | idle => exact ⟨hblock, fun _ => rfl⟩
  | grow => exact ⟨hblock, fun _ => rfl⟩
  | place h =>
    refine ⟨Nat.lt_of_lt_of_le hblock (Keeps.allocate h).length_le,
      fun place => ?_⟩
    rw [bytesOn_allocate h, if_neg]
    rintro rfl
    exact Nat.not_le_of_lt hblock
      (List.getElem?_eq_none_iff.mp (getElem?_blocks_allocate h).1)
  | retain other =>
    exact ⟨Nat.lt_of_lt_of_le hblock (Keeps.retain m other).length_le,
      fun place => bytesOn_modify m.devices (· + 1) other place block⟩
  | @release other b hb _ _ =>
    refine ⟨Nat.lt_of_lt_of_le hblock (Keeps.release m other).length_le,
      fun place => ?_⟩
    rw [release_eq hb]
    exact bytesOn_modify _ (· - 1) other place block

end Memory

/-! ## Ledgers -/

/-- **Memory and what is held of it**, each block as often as it is
held. -/
structure Ledger where
  /-- The memory of all devices. -/
  memory : Memory
  /-- The numbers of the blocks that are held. -/
  held : Multiset Nat

namespace Ledger

variable {l l' l'' : Ledger} {m : Memory} {held : Multiset Nat}
  {block : Nat}

/-- **How many bytes are held on a device**: those of the blocks on it that
are held, each counted once. -/
def bytesOn (l : Ledger) (place : Nat) : Nat :=
  ∑ block ∈ l.held.toFinset, l.memory.bytesOn place block

/-- **What is done to a ledger.** -/
inductive Step : Ledger → Ledger → Prop
  /-- Nothing. -/
  | idle (l : Ledger) : Step l l
  /-- Devices are added that have counted nothing. -/
  | grow {m : Memory} {held : Multiset Nat} {devices : List Device}
    (h : ∀ device ∈ devices, device.meter = .empty device.meter.limit) :
    Step ⟨m, held⟩ ⟨m.addDevices devices, held⟩
  /-- Bytes are placed, and whoever placed them holds the block. -/
  | place {m m' : Memory} {held : Multiset Nat} {place block : Nat}
    {bytes : List UInt8} (h : m.allocate place bytes = .ok (block, m')) :
    Step ⟨m, held⟩ ⟨m', block ::ₘ held⟩
  /-- A block that is held gets one more holder. -/
  | retain {m : Memory} {held : Multiset Nat} {block : Nat}
    (h : block ∈ held) : Step ⟨m, held⟩ ⟨m.retain block, block ::ₘ held⟩
  /-- A holder releases a block. -/
  | release {m : Memory} {held : Multiset Nat} {block : Nat} :
    Step ⟨m, block ::ₘ held⟩ ⟨m.release block, held⟩

/-- **A ledger whose accounts are right.** -/
structure Balanced (l : Ledger) : Prop where
  /-- Each block counts its holders. -/
  count_eq : ∀ block, l.held.count block = l.memory.holders block
  /-- Each device has in use what is held on it. -/
  inUse_eq : ∀ place, (l.memory.meter place).inUse = l.bytesOn place

/-- What is held is there. -/
theorem Balanced.exists_block (h : Balanced ⟨m, held⟩) (hblock : block ∈ held) :
    ∃ b, m.blocks[block]? = some b ∧ held.count block = b.holders := by
  have hcount : held.count block = m.holders block := h.count_eq block
  have hpos := Multiset.count_pos.mpr hblock
  unfold Memory.holders at hcount
  cases hb : m.blocks[block]? with
  | none =>
    simp only [hb] at hcount
    omega
  | some b =>
    simp only [hb] at hcount
    exact ⟨b, rfl, hcount⟩

/-- A block with one holder among those that hold it is held by no
other. -/
theorem Balanced.holders_eq_one_iff (h : Balanced ⟨m, block ::ₘ held⟩)
    {b : Block} (hb : m.blocks[block]? = some b) :
    b.holders = 1 ↔ block ∉ held := by
  obtain ⟨b', hb', hcount⟩ := h.exists_block (Multiset.mem_cons_self _ _)
  obtain rfl : b = b' := Option.some.inj (hb.symm.trans hb')
  rw [Multiset.count_cons_self] at hcount
  rw [← hcount, ← Multiset.count_eq_zero]
  omega

/-- A block that is held anyway adds nothing. -/
theorem bytesOn_cons_of_mem (h : block ∈ held) (place : Nat) :
    bytesOn ⟨m, block ::ₘ held⟩ place = bytesOn ⟨m, held⟩ place := by
  rw [bytesOn, Multiset.toFinset_cons,
    Finset.insert_eq_of_mem (Multiset.mem_toFinset.mpr h)]
  rfl

/-- A block that is not yet held adds its bytes. -/
theorem bytesOn_cons_of_notMem (h : block ∉ held) (place : Nat) :
    bytesOn ⟨m, block ::ₘ held⟩ place
      = m.bytesOn place block + bytesOn ⟨m, held⟩ place := by
  rw [bytesOn, Multiset.toFinset_cons,
    Finset.sum_insert (fun hmem => h (Multiset.mem_toFinset.mp hmem))]
  rfl

/-- The bytes held are the same in memories that agree on the room of the
blocks held. -/
theorem bytesOn_congr {m' : Memory} {place : Nat}
    (h : ∀ block ∈ held, m'.bytesOn place block = m.bytesOn place block) :
    bytesOn ⟨m', held⟩ place = bytesOn ⟨m, held⟩ place :=
  Finset.sum_congr rfl fun block hblock =>
    h block (Multiset.mem_toFinset.mp hblock)

/-- **With its last holder a block's bytes are counted out**, and they had
been counted in. -/
theorem Balanced.inUse_cons_of_notMem (h : Balanced ⟨m, block ::ₘ held⟩)
    {b : Block} (hb : m.blocks[block]? = some b) (hlast : block ∉ held) :
    (m.meter b.place).inUse
      = b.bytes.length + bytesOn ⟨m, held⟩ b.place := by
  have hinUse : (m.meter b.place).inUse = _ := h.inUse_eq b.place
  rw [hinUse, bytesOn_cons_of_notMem hlast]
  simp only [Memory.bytesOn, hb, if_true]

/-- **Where accounts are right**, only bytes that are in use are counted
out. -/
theorem Step.memory (h : l.Step l') (hl : l.Balanced) :
    l.memory.Step l'.memory := by
  cases h with
  | idle => exact .idle _
  | grow h => exact .grow h
  | place h => exact .place h
  | retain h => exact .retain _ _
  | @release m held block =>
    obtain ⟨b, hb, hcount⟩ := hl.exists_block (Multiset.mem_cons_self _ _)
    rw [Multiset.count_cons_self] at hcount
    refine .release hb (hcount ▸ Nat.succ_pos _) fun hone => ?_
    rw [hl.inUse_cons_of_notMem hb ((hl.holders_eq_one_iff hb).mp hone)]
    exact Nat.le_add_right _ _

/-- Placing bytes keeps the accounts. -/
theorem Balanced.place {m' : Memory} {place : Nat} {bytes : List UInt8}
    (hl : Balanced ⟨m, held⟩)
    (h : m.allocate place bytes = .ok (block, m')) :
    Balanced ⟨m', block ::ₘ held⟩ := by
  have hnew : block ∉ held := by
    intro hmem
    obtain ⟨b, hb, -⟩ := hl.exists_block hmem
    rw [(Memory.getElem?_blocks_allocate h).1] at hb
    cases hb
  have hkept : ∀ device, bytesOn ⟨m', held⟩ device
      = bytesOn ⟨m, held⟩ device := fun device =>
    bytesOn_congr fun other hother => by
      rw [Memory.bytesOn_allocate h, if_neg]
      rintro rfl
      exact hnew hother
  refine ⟨fun other => ?_, fun device => ?_⟩
  · rw [Multiset.count_cons, Memory.holders_allocate h, hl.count_eq other]
  · have hold : (m.meter device).inUse = _ := hl.inUse_eq device
    have hmeter := Memory.meter_allocate h device
    rw [bytesOn_cons_of_notMem hnew, hkept, ← hold,
      Memory.bytesOn_allocate h, if_pos rfl]
    split at hmeter
    · rename_i heq
      obtain ⟨-, hmeter⟩ := Meter.reserve?_eq_some.mp hmeter
      rw [hmeter, if_pos heq.symm, Nat.add_comm]
    · rename_i hne
      rw [hmeter, if_neg (Ne.symm hne), Nat.zero_add]

/-- Adding a holder to a block that is held keeps the accounts. -/
theorem Balanced.retain (hl : Balanced ⟨m, held⟩) (h : block ∈ held) :
    Balanced ⟨m.retain block, block ::ₘ held⟩ := by
  obtain ⟨b, hb, -⟩ := hl.exists_block h
  refine ⟨fun other => ?_, fun place => ?_⟩
  · rw [Multiset.count_cons, hl.count_eq other]
    refine Eq.trans ?_ (Memory.holders_modify m.devices (· + 1)
      (List.getElem?_eq_some_iff.mp hb).1 other).symm
    split <;> rfl
  · rw [bytesOn_cons_of_mem h]
    exact (hl.inUse_eq place).trans (bytesOn_congr fun other _ =>
      Memory.bytesOn_modify m.devices (· + 1) block place other).symm

/-- Taking a holder keeps the accounts. -/
theorem Balanced.release (hl : Balanced ⟨m, block ::ₘ held⟩) :
    Balanced ⟨m.release block, held⟩ := by
  obtain ⟨b, hb, -⟩ := hl.exists_block (Multiset.mem_cons_self _ _)
  refine ⟨fun other => ?_, fun place => ?_⟩
  · have hcount : (block ::ₘ held).count other = m.holders other :=
      hl.count_eq other
    show held.count other = (m.release block).holders other
    rw [Memory.release_eq hb, Memory.holders_modify _ (· - 1)
      (List.getElem?_eq_some_iff.mp hb).1, ← hcount, Multiset.count_cons]
    by_cases heq : other = block
    · simp [heq]
    · simp [heq]
  · have hkept : bytesOn ⟨m.release block, held⟩ place
        = bytesOn ⟨m, held⟩ place := by
      rw [Memory.release_eq hb]
      exact bytesOn_congr fun other _ =>
        Memory.bytesOn_modify _ (· - 1) block place other
    have hold : (m.meter place).inUse = _ := hl.inUse_eq place
    have hone := hl.holders_eq_one_iff hb
    rw [hkept, Memory.meter_release hb]
    by_cases hmem : block ∈ held
    · -- somebody else holds the block, and it goes on to count
      rw [if_neg (fun h => hone.mp h.1 hmem), hold, bytesOn_cons_of_mem hmem]
    · -- nobody does, and its bytes are counted out where they are
      by_cases hplace : b.place = place
      · subst hplace
        rw [if_pos ⟨hone.mpr hmem, rfl⟩, Meter.release,
          hl.inUse_cons_of_notMem hb hmem, Nat.add_sub_cancel_left]
      · rw [if_neg (fun h => hplace h.2), hold, bytesOn_cons_of_notMem hmem]
        simp only [Memory.bytesOn, hb, if_neg hplace, Nat.zero_add]

/-- **Steps keep the accounts.** -/
theorem Step.balanced (h : l.Step l') (hl : l.Balanced) : l'.Balanced := by
  cases h with
  | idle => exact hl
  | @grow m held devices h =>
    refine ⟨hl.count_eq, fun place => Eq.trans ?_ (hl.inUse_eq place)⟩
    rcases Memory.meter_addDevices m h place with heq | ⟨hnone, limit, hnew⟩
    · simp only [heq]
    · simp only [hnone, hnew, Meter.empty]
  | place h => exact hl.place h
  | retain h => exact hl.retain h
  | release => exact hl.release

/-- Nothing is held of no memory. -/
theorem balanced_empty : Balanced ⟨.empty, 0⟩ :=
  ⟨fun _ => rfl, fun _ => rfl⟩

/-! ## Courses of steps -/

/-- **A step keeps what is in memory**, and no device goes away. -/
theorem Step.keeps (h : l.Step l') : l.memory.Keeps l'.memory
    ∧ l.memory.devices.length ≤ l'.memory.devices.length := by
  cases h with
  | idle => exact ⟨.refl _, Nat.le_refl _⟩
  | grow h =>
    exact ⟨⟨Nat.le_refl _, fun _ _ => rfl⟩, by simp [Memory.addDevices]⟩
  | place h =>
    refine ⟨.allocate h, ?_⟩
    obtain ⟨device, meter, -, -, -, rfl⟩ := Memory.allocate_eq_ok.mp h
    simp
  | retain h => exact ⟨.retain _ _, Nat.le_refl _⟩
  | @release m held block =>
    refine ⟨.release m block, ?_⟩
    cases hb : m.blocks[block]? with
    | none => rw [Memory.release, hb]
    | some b =>
      rw [Memory.release_eq hb]
      split <;> simp

/-- **A course of steps**, with the memory after each of them. -/
inductive Course : Ledger → List Memory → Ledger → Prop
  | nil (l : Ledger) : Course l [] l
  | cons {l l' l'' : Ledger} {trace : List Memory} (h : l.Step l')
    (rest : Course l' trace l'') : Course l (l'.memory :: trace) l''

variable {trace trace' : List Memory}

theorem Step.course (h : l.Step l') : l.Course [l'.memory] l' :=
  .cons h (.nil l')

theorem Course.append (h : l.Course trace l')
    (h' : l'.Course trace' l'') : l.Course (trace ++ trace') l'' := by
  induction h with
  | nil => exact h'
  | cons hstep _ ih => exact .cons hstep (ih h')

theorem Course.balanced (h : l.Course trace l') (hl : l.Balanced) :
    l'.Balanced := by
  induction h with
  | nil => exact hl
  | cons hstep _ ih => exact ih (hstep.balanced hl)

/-- The memory after the last step is where the course leads. -/
theorem Course.getLast? (h : l.Course trace l') :
    (l.memory :: trace).getLast? = some l'.memory := by
  induction h with
  | nil => rfl
  | cons hstep _ ih => rw [List.getLast?_cons_cons, ih]

/-- **Along a course** only bytes that are in use are counted out. -/
theorem Course.isChain (h : l.Course trace l') (hl : l.Balanced) :
    (l.memory :: trace).IsChain Memory.Step := by
  induction h with
  | nil => exact .singleton _
  | cons hstep _ ih =>
    exact .cons_cons (hstep.memory hl) (ih (hstep.balanced hl))

theorem Course.keeps (h : l.Course trace l') : l.memory.Keeps l'.memory
    ∧ l.memory.devices.length ≤ l'.memory.devices.length := by
  induction h with
  | nil => exact ⟨.refl _, Nat.le_refl _⟩
  | cons hstep _ ih =>
    exact ⟨hstep.keeps.1.trans ih.1, Nat.le_trans hstep.keeps.2 ih.2⟩

/-- **What is held throughout a course** takes the room it took. -/
theorem Course.bytesOn_eq (h : l.Course trace l') (hl : l.Balanced)
    (place : Nat) :
    bytesOn ⟨l'.memory, l.held⟩ place = l.bytesOn place := by
  have hkept : ∀ block < l.memory.blocks.length,
      l'.memory.bytesOn place block = l.memory.bytesOn place block := by
    induction h with
    | nil => exact fun _ _ => rfl
    | cons hstep _ ih =>
      intro block hblock
      obtain ⟨hlt, heq⟩ := (hstep.memory hl).bytesOn_eq hblock
      rw [ih (hstep.balanced hl) block hlt, heq place]
  refine bytesOn_congr fun block hblock => hkept block ?_
  obtain ⟨b, hb, -⟩ := hl.exists_block hblock
  exact (List.getElem?_eq_some_iff.mp hb).1

end Ledger

namespace Memory

variable {m m' : Memory} {trace : List Memory} {place : Nat}

/-- Meters stay sound whatever is done to memory. -/
theorem sound_of_isChain (h : (m :: trace).IsChain Step)
    (hm : (m.meter place).Sound) :
    ∀ m' ∈ m :: trace, (m'.meter place).Sound := by
  induction trace generalizing m with
  | nil => simpa using hm
  | cons next trace ih =>
    obtain ⟨hstep, hrest⟩ := List.isChain_cons_cons.mp h
    rw [List.forall_mem_cons]
    exact ⟨hm, ih hrest ((hstep.counts place).sound hm)⟩

/-- Meters are sound at the end of a course, if they were at its start. -/
theorem sound_of_course {l l' : Ledger} (h : l.Course trace l') (hl : l.Balanced)
    (hm : (l.memory.meter place).Sound) : (l'.memory.meter place).Sound :=
  sound_of_isChain (h.isChain hl) hm l'.memory
    (List.mem_of_getLast? h.getLast?)

/-- The largest count at the end is the largest of the one at the start and
of the counts on the way. -/
theorem peak_eq_foldl (h : (m :: trace).IsChain Step)
    (hm : (m.meter place).Sound)
    (hlast : (m :: trace).getLast? = some m') :
    (m'.meter place).peak
      = (trace.map fun m => (m.meter place).inUse).foldl max
        (m.meter place).peak := by
  induction trace generalizing m with
  | nil =>
    obtain rfl : m = m' := by simpa using hlast
    rfl
  | cons next trace ih =>
    obtain ⟨hstep, hrest⟩ := List.isChain_cons_cons.mp h
    rw [List.getLast?_cons_cons] at hlast
    rw [ih hrest ((hstep.counts place).sound hm) hlast, (hstep.counts place).peak_eq hm]
    rfl

/-- **The largest count a meter remembers is the largest it ever had**, if
there was no memory at the start. -/
theorem max?_inUse (h : (Memory.empty :: trace).IsChain Step)
    (hlast : (Memory.empty :: trace).getLast? = some m') (place : Nat) :
    ((Memory.empty :: trace).map fun m => (m.meter place).inUse).max?
      = some (m'.meter place).peak := by
  rw [List.map_cons, List.max?_cons',
    peak_eq_foldl h (Meter.sound_empty none) hlast]
  rfl

end Memory

end TensorBind
