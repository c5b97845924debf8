import TensorBind.Proofs.Device.Memory

/-!
# Where blocks are

A block is placed on a device and stays there: adding and taking holders
and placing other blocks do not move it, and they leave the devices where
they stand (`Memory.Stays`). So an invocation, whether it succeeds or not,
moves nothing.

What an invocation gives out is one of its arguments or was placed on its
device (`SlotProgram.run_residence`). It does not look where its
arguments are.
-/

namespace TensorBind

namespace Memory

variable {m m' m'' : Memory} {place block : Nat} {bytes : List UInt8}

/-- The ids of the devices, by place. -/
def ids (m : Memory) : List UInt32 := m.devices.map (·.id)

/-- The places of the devices that blocks are on, by number. -/
def blockPlaces (m : Memory) : List Nat := m.blocks.map (·.place)

/-- The place of the device a block is on. -/
def placeOf? (m : Memory) (block : Nat) : Option Nat := m.blockPlaces[block]?

/-- **A memory whose blocks are on devices.** -/
def Grounded (m : Memory) : Prop :=
  ∀ place ∈ m.blockPlaces, place < m.ids.length

/-- **A memory in which nothing has moved** since an earlier one. -/
structure Stays (m m' : Memory) : Prop where
  /-- The devices are the same. -/
  ids_eq : m'.ids = m.ids
  /-- Blocks are where they were. -/
  places_prefix : m.blockPlaces <+: m'.blockPlaces
  /-- Blocks are on devices as before. -/
  grounded : m.Grounded → m'.Grounded

/-- **Bytes are placed** behind the blocks there are, and the devices stay
the same. -/
theorem allocate_residence (h : m.allocate place bytes = .ok (block, m')) :
    m'.ids = m.ids ∧ place < m.ids.length
      ∧ m'.blockPlaces = m.blockPlaces ++ [place]
      ∧ block = m.blockPlaces.length := by
  obtain ⟨device, meter, hdevice, -, rfl, rfl⟩ := allocate_eq_ok.mp h
  have hlt : place < m.ids.length := by
    rw [ids, List.length_map]
    exact (List.getElem?_eq_some_iff.mp hdevice).1
  exact ⟨List.map_set_eq hdevice rfl, hlt, List.map_append,
    (List.length_map _).symm⟩

/-- A block that was placed is on the device it was placed on. -/
theorem placeOf?_allocate (h : m.allocate place bytes = .ok (block, m')) :
    m'.placeOf? block = some place := by
  obtain ⟨-, -, hplaces, rfl⟩ := allocate_residence h
  rw [placeOf?, hplaces, List.getElem?_concat_length]

namespace Stays

theorem refl (m : Memory) : m.Stays m := ⟨rfl, List.prefix_rfl, id⟩

theorem trans (h : m.Stays m') (h' : m'.Stays m'') : m.Stays m'' :=
  ⟨h'.ids_eq.trans h.ids_eq, h.places_prefix.trans h'.places_prefix,
    h'.grounded ∘ h.grounded⟩

theorem placeOf?_eq (h : m.Stays m')
    (hplace : m.placeOf? block = some place) :
    m'.placeOf? block = some place :=
  h.places_prefix.getElem?_eq_some hplace

/-- Placing bytes moves nothing. -/
theorem allocate (h : m.allocate place bytes = .ok (block, m')) :
    m.Stays m' := by
  obtain ⟨hids, hplace, hplaces, -⟩ := allocate_residence h
  refine ⟨hids, hplaces ▸ List.prefix_append _ _, fun hm => ?_⟩
  rw [Grounded, hplaces, hids, List.forall_mem_append,
    List.forall_mem_singleton]
  exact ⟨hm, hplace⟩

/-- What changes neither ids nor places moves nothing. -/
theorem of_eq (hids : m'.ids = m.ids)
    (hplaces : m'.blockPlaces = m.blockPlaces) : m.Stays m' := by
  refine ⟨hids, hplaces ▸ List.prefix_rfl, fun hm => ?_⟩
  rw [Grounded, hids, hplaces]
  exact hm

/-- Adding a holder moves nothing. -/
theorem retain (m : Memory) (block : Nat) : m.Stays (m.retain block) := by
  refine of_eq rfl (List.map_modify_eq ?_ m.blocks block)
  exact fun _ => rfl

/-- Taking a holder moves nothing. -/
theorem release (m : Memory) (block : Nat) : m.Stays (m.release block) := by
  cases hb : m.blocks[block]? with
  | none =>
    rw [Memory.release, hb]
    exact refl m
  | some b =>
    rw [release_eq hb]
    refine of_eq ?_ (List.map_modify_eq ?_ m.blocks block)
    · unfold ids
      split
      · refine List.map_modify_eq ?_ m.devices b.place
        exact fun _ => rfl
      · rfl
    · exact fun _ => rfl

/-- Treating buffers in turn moves nothing if treating one does not. -/
theorem foldl {change : Memory → Buffer → Memory}
    (h : ∀ (m : Memory) b, m.Stays (change m b)) (buffers : List Buffer)
    (m : Memory) : m.Stays (buffers.foldl change m) := by
  induction buffers generalizing m with
  | nil => exact refl m
  | cons b buffers ih => exact (h m b).trans (ih _)

theorem releaseAll (buffers : List Buffer) (m : Memory) :
    m.Stays (Buffer.releaseAll buffers m) :=
  foldl (fun m b => release m b.block) buffers m

theorem retainAll (buffers : List Buffer) (m : Memory) :
    m.Stays (Run.retainAll buffers m) :=
  foldl (fun m b => retain m b.block) buffers m

end Stays

/-- **Devices that are added** come behind those there are, and no block is
moved. -/
theorem ids_addDevices (m : Memory) (devices : List Device) :
    (m.addDevices devices).ids = m.ids ++ devices.map (·.id) :=
  List.map_append

theorem Grounded.addDevices (hm : m.Grounded) (devices : List Device) :
    (m.addDevices devices).Grounded := by
  intro place hplace
  rw [ids_addDevices, List.length_append]
  exact Nat.lt_add_right _ (hm place hplace)

/-- **A buffer is on the device with its id**, if it is anywhere. -/
theorem deviceId_eq {b : Buffer} (hm : m.Grounded)
    (h : m.placeOf? b.block = some place) :
    m.ids[place]? = some (b.deviceId m) := by
  have hlt := hm place (List.mem_of_getElem? h)
  rw [placeOf?, blockPlaces, List.getElem?_map, Option.map_eq_some_iff] at h
  obtain ⟨found, hfound, rfl⟩ := h
  rw [ids, List.length_map] at hlt
  have hdevice := List.getElem?_eq_getElem hlt
  simp only [ids, List.getElem?_map, Buffer.deviceId, deviceOf?, hfound,
    hdevice, Option.map_some, Option.bind_eq_bind, Option.bind_some]

end Memory

/-! ## Invocations -/

namespace Run

variable {p : SlotProgram} {place : Nat} {arguments : List Buffer}
  {r : Run}

theorem exists_allocate_of_store {value : Literal} {buffer : Buffer}
    {memory : Memory} (h : r.store place value = .ok (buffer, memory)) :
    ∃ bytes, r.memory.allocate place bytes
      = .ok (buffer.block, memory) := by
  unfold store at h
  split at h
  · rename_i hplaced
    cases h
    exact ⟨_, hplaced⟩
  · cases h

/-- **What an instruction puts into its slot** is an argument, which gets
one more holder, or it is placed on the device. -/
theorem evaluate_cases {instruction : Instruction} {buffer : Buffer}
    {memory : Memory}
    (h : r.evaluate p place arguments instruction = .ok (buffer, memory)) :
    (buffer ∈ arguments ∧ memory = r.memory.retain buffer.block)
      ∨ ∃ bytes, r.memory.allocate place bytes
        = .ok (buffer.block, memory) := by
  cases instruction with
  | parameter dst index =>
    simp only [evaluate] at h
    split at h
    · rename_i argument hargument
      cases h
      exact .inl ⟨List.mem_of_getElem? hargument, rfl⟩
    · cases h
  | constant dst index =>
    simp only [evaluate] at h
    split at h
    · exact .inr (exists_allocate_of_store h)
    · cases h
  | unary op dst src =>
    obtain ⟨x, -, h⟩ := Except.bind_eq_ok.mp h
    obtain ⟨value, -, h⟩ := Except.bind_eq_ok.mp h
    exact .inr (exists_allocate_of_store h)
  | binary op dst lhs rhs =>
    obtain ⟨x, -, h⟩ := Except.bind_eq_ok.mp h
    obtain ⟨y, -, h⟩ := Except.bind_eq_ok.mp h
    obtain ⟨value, -, h⟩ := Except.bind_eq_ok.mp h
    exact .inr (exists_allocate_of_store h)

/-- Putting a buffer into a slot moves nothing. -/
theorem stays_write (slots : List (Option Buffer)) (slot : Nat)
    (buffer : Buffer) (memory : Memory) :
    memory.Stays (write slots slot buffer memory).memory := by
  unfold write
  split
  · exact .release memory _
  · exact .refl memory

/-- **The buffers of an invocation under way**: each is an argument or is
on the device of the invocation. -/
def Resident (place : Nat) (arguments : List Buffer) (r : Run) : Prop :=
  ∀ b ∈ r.held, b ∈ arguments ∨ r.memory.placeOf? b.block = some place

/-- **An instruction moves nothing**, and its value is an argument or is
placed on the device. -/
theorem Resident.step (hr : r.Resident place arguments)
    {instruction : Instruction} {buffer : Buffer} {memory : Memory}
    (h : r.evaluate p place arguments instruction = .ok (buffer, memory)) :
    r.memory.Stays (write r.slots instruction.dst buffer memory).memory
      ∧ (write r.slots instruction.dst buffer memory).Resident place
        arguments := by
  have hwrite := stays_write r.slots instruction.dst buffer memory
  have hstays : r.memory.Stays memory := by
    rcases evaluate_cases h with ⟨-, rfl⟩ | ⟨bytes, hplaced⟩
    · exact .retain _ _
    · exact .allocate hplaced
  have hbuffer : buffer ∈ arguments
      ∨ memory.placeOf? buffer.block = some place := by
    rcases evaluate_cases h with ⟨hargument, -⟩ | ⟨bytes, hplaced⟩
    · exact .inl hargument
    · exact .inr (Memory.placeOf?_allocate hplaced)
  refine ⟨hstays.trans hwrite, fun b hb => ?_⟩
  -- a slot holds what it held before, or it is the one that was written
  obtain ⟨cell, hcell, hb⟩ := List.mem_filterMap.mp hb
  rcases List.mem_or_eq_of_mem_set hcell with hold | rfl
  · exact (hr b (List.mem_filterMap.mpr ⟨cell, hold, hb⟩)).imp_right
      (hstays.trans hwrite).placeOf?_eq
  · cases hb
    exact hbuffer.imp_right hwrite.placeOf?_eq

/-- Where an invocation stands when its instructions have been run or one
of them has failed. -/
def reached : Except (RunError × Run) Run → Run
  | .ok r => r
  | .error (_, r) => r

/-- **Instructions move nothing**, whether they succeed or not. -/
theorem Resident.steps (hr : r.Resident place arguments)
    (instructions : List Instruction) :
    r.memory.Stays
        (reached (Run.steps p place arguments instructions r)).memory
      ∧ (reached (Run.steps p place arguments instructions r)).Resident
        place arguments := by
  induction instructions generalizing r with
  | nil => exact ⟨.refl _, hr⟩
  | cons instruction rest ih =>
    unfold Run.steps
    cases hvalue : r.evaluate p place arguments instruction with
    | error cause => exact ⟨.refl _, hr⟩
    | ok given =>
      obtain ⟨hstays, hnext⟩ := hr.step hvalue
      obtain ⟨hrest, hend⟩ := ih hnext
      exact ⟨hstays.trans hrest, hend⟩

/-- What is taken as an output is held in a slot. -/
theorem mem_held_of_outputs {buffers : List Buffer}
    (h : r.outputs p = .ok buffers) : ∀ b ∈ buffers, b ∈ r.held := by
  intro b hb
  obtain ⟨slot, -, hslot⟩ := (List.mapM_eq_ok.mp h).flip.exists_of_mem hb
  split at hslot
  · rename_i buffer hbuffer
    cases hslot
    rw [Option.join_eq_some_iff] at hbuffer
    exact List.mem_filterMap.mpr
      ⟨_, List.mem_of_getElem? hbuffer, rfl⟩
  · cases hslot

theorem stays_finish (r : Run) : r.memory.Stays r.finish :=
  .releaseAll r.held r.memory

end Run

namespace SlotProgram

/-- **Where an invocation leaves things**: nothing has moved, and what it
gives out is an argument or was placed on its device. -/
theorem run_residence (p : SlotProgram) (place : Nat)
    (arguments : List Buffer) (m : Memory) :
    m.Stays (p.run place arguments m).2
      ∧ ∀ outputs, (p.run place arguments m).1 = .ok outputs →
        ∀ b ∈ outputs, b ∈ arguments
          ∨ (p.run place arguments m).2.placeOf? b.block = some place := by
  have hstart : Run.Resident place arguments
      ⟨m, List.replicate p.slotCount none⟩ := by
    intro b hb
    simp [Run.held] at hb
  have hsteps := hstart.steps (p := p) p.instructions
  unfold run
  dsimp only
  generalize Run.steps p place arguments p.instructions
    ⟨m, List.replicate p.slotCount none⟩ = outcome at hsteps
  cases outcome with
  | error failure =>
    exact ⟨hsteps.1.trans (Run.stays_finish _), nofun⟩
  | ok r =>
    dsimp only
    cases houtputs : r.outputs p with
    | error cause => exact ⟨hsteps.1.trans (Run.stays_finish _), nofun⟩
    | ok buffers =>
      -- the outputs get holders before the slots are dropped
      have hend : r.memory.Stays
          (Run.finish ⟨Run.retainAll buffers r.memory, r.slots⟩) :=
        (Memory.Stays.retainAll buffers r.memory).trans
          (Run.stays_finish ⟨Run.retainAll buffers r.memory, r.slots⟩)
      refine ⟨hsteps.1.trans hend, fun outputs h b hb => ?_⟩
      cases h
      exact (hsteps.2 b (Run.mem_held_of_outputs houtputs b hb)).imp_right
        hend.placeOf?_eq

end SlotProgram

end TensorBind
