import TensorBind.Device.Run
import TensorBind.Proofs.Literal

/-!
# What device memory keeps

Blocks are never taken away and their bytes never change, so whatever a
block holds can be read from any later memory (`Memory.Keeps`). The three
things that are done to memory – placing bytes, adding a holder and taking
one – each keep what is there, and so do the two loops made of them.

A buffer **holds** a literal (`Buffer.Holds`) if its block has the bytes of
the literal and its shape is the literal's. What a buffer holds is what is
read back from it, now and later.
-/

namespace TensorBind

namespace Meter

/-- **Bytes are counted in** exactly if they fit, and the largest count is
brought up to date. -/
theorem reserve?_eq_some {m m' : Meter} {bytes : Nat} :
    m.reserve? bytes = some m' ↔ m.inUse + bytes ≤ m.capacity
      ∧ m' = ⟨m.limit, m.inUse + bytes, max m.peak (m.inUse + bytes)⟩ := by
  show (if _ then _ else _) = _ ↔ _
  split
  · rename_i hfits
    rw [Option.some.injEq, eq_comm]
    exact (and_iff_right hfits).symm
  · rename_i hfull
    simp [hfull]

theorem reserve?_eq_none {m : Meter} {bytes : Nat} :
    m.reserve? bytes = none ↔ m.capacity < m.inUse + bytes := by
  show (if _ then _ else _) = _ ↔ _
  split <;> simp <;> omega

end Meter

namespace Memory

variable {m m' m'' : Memory} {place block : Nat} {bytes : List UInt8}

/-- **Bytes are placed** exactly if there is a device at the place on which
they fit. They get the next number. -/
theorem allocate_eq_ok : m.allocate place bytes = .ok (block, m')
    ↔ ∃ device meter, m.devices[place]? = some device
      ∧ device.meter.reserve? bytes.length = some meter
      ∧ block = m.blocks.length
      ∧ m' = ⟨m.devices.set place { device with meter },
        m.blocks ++ [⟨place, bytes, 1⟩]⟩ := by
  unfold allocate Device.reserve
  cases m.devices[place]? with
  | none => simp
  | some device =>
    cases hreserve : device.meter.reserve? bytes.length with
    | none => simp [hreserve]
    | some meter =>
      simp only [hreserve, Except.ok.injEq, Prod.mk.injEq]
      constructor
      · rintro ⟨rfl, rfl⟩
        exact ⟨device, meter, rfl, hreserve, rfl, rfl⟩
      · rintro ⟨_, meter', ⟨⟩, hmeter, rfl, rfl⟩
        rw [hreserve, Option.some.injEq] at hmeter
        exact ⟨rfl, by rw [hmeter]⟩

/-- Bytes cannot be placed on a device on which they do not fit. -/
theorem allocate_eq_error {device : Device}
    (hdevice : m.devices[place]? = some device)
    (hfull : device.meter.reserve? bytes.length = none) :
    m.allocate place bytes = .error (.outOfMemory ⟨device.id, bytes.length,
      device.meter.inUse, device.meter.limit.getD largestSize⟩) := by
  simp only [allocate, hdevice, Device.reserve, hfull]

/-- **A holder is taken from a block**, and with the last one its bytes are
counted out. -/
theorem release_eq {b : Block} (hb : m.blocks[block]? = some b) :
    m.release block = ⟨if b.holders = 1 then
        m.devices.modify b.place (·.release b.bytes.length)
      else m.devices,
      m.blocks.modify block
        fun b => { b with holders := b.holders - 1 }⟩ := by
  have hblocks : m.blocks.set block { b with holders := b.holders - 1 }
      = m.blocks.modify block
        fun b => { b with holders := b.holders - 1 } := by
    rw [List.modify_eq_set_getElem?, hb]
    rfl
  simp only [release, hb, hblocks]
  split <;> rfl

/-- **A later memory** has all blocks of an earlier one, with the same
bytes. -/
structure Keeps (m m' : Memory) : Prop where
  /-- No block is gone. -/
  length_le : m.blocks.length ≤ m'.blocks.length
  /-- No bytes have changed. -/
  bytes_eq : ∀ block < m.blocks.length, m'.bytes block = m.bytes block

namespace Keeps

theorem refl (m : Memory) : m.Keeps m := ⟨Nat.le_refl _, fun _ _ => rfl⟩

theorem trans (h : m.Keeps m') (h' : m'.Keeps m'') : m.Keeps m'' :=
  ⟨Nat.le_trans h.length_le h'.length_le, fun block hblock =>
    (h'.bytes_eq block (Nat.lt_of_lt_of_le hblock h.length_le)).trans
      (h.bytes_eq block hblock)⟩

/-- Placing bytes keeps all blocks. -/
theorem allocate (h : m.allocate place bytes = .ok (block, m')) :
    m.Keeps m' := by
  obtain ⟨device, meter, -, -, -, rfl⟩ := allocate_eq_ok.mp h
  refine ⟨by simp, fun b hb => ?_⟩
  simp only [Memory.bytes, List.getElem?_append_left hb]

/-- A change of holders keeps all bytes. -/
theorem of_modify (devices : List Device) (change : Block → Block)
    (hchange : ∀ b, (change b).bytes = b.bytes) (block : Nat) :
    m.Keeps ⟨devices, m.blocks.modify block change⟩ := by
  refine ⟨by simp, fun b _ => ?_⟩
  simp only [Memory.bytes, List.getElem?_modify]
  cases m.blocks[b]? with
  | none => rfl
  | some old =>
    by_cases hb : block = b
    · simp [hb, hchange]
    · simp [hb]

/-- Adding a holder keeps all blocks. -/
theorem retain (m : Memory) (block : Nat) : m.Keeps (m.retain block) :=
  of_modify m.devices (fun b => { b with holders := b.holders + 1 })
    (fun _ => rfl) block

/-- Taking a holder keeps all blocks. -/
theorem release (m : Memory) (block : Nat) : m.Keeps (m.release block) := by
  cases hb : m.blocks[block]? with
  | none =>
    rw [Memory.release, hb]
    exact refl m
  | some b =>
    rw [release_eq hb]
    exact of_modify _ (fun b => { b with holders := b.holders - 1 })
      (fun _ => rfl) block

theorem releaseAll (buffers : List Buffer) (m : Memory) :
    m.Keeps (Buffer.releaseAll buffers m) := by
  induction buffers generalizing m with
  | nil => exact refl m
  | cons b buffers ih => exact (release m b.block).trans (ih _)

theorem retainAll (buffers : List Buffer) (m : Memory) :
    m.Keeps (Run.retainAll buffers m) := by
  induction buffers generalizing m with
  | nil => exact refl m
  | cons b buffers ih => exact (retain m b.block).trans (ih _)

end Keeps

end Memory

/-! ## What buffers hold -/

namespace Buffer

variable {b : Buffer} {m m' : Memory} {value : Literal}

/-- **A buffer that holds a literal**: its shape is the literal's, and its
block has the literal's bytes. -/
structure Holds (b : Buffer) (m : Memory) (value : Literal) : Prop where
  /-- The block is there. -/
  block_lt : b.block < m.blocks.length
  /-- The buffer has the shape of the literal. -/
  shape_eq : b.shape = value.shape
  /-- The block has its bytes. -/
  bytes_eq : m.bytes b.block = value.toBytes

/-- What a buffer holds, it goes on to hold. -/
theorem Holds.keeps (h : b.Holds m value) (hm : m.Keeps m') :
    b.Holds m' value :=
  ⟨Nat.lt_of_lt_of_le h.block_lt hm.length_le, h.shape_eq,
    (hm.bytes_eq b.block h.block_lt).trans h.bytes_eq⟩

/-- **Reading back what a buffer holds** gives the literal. -/
theorem Holds.toLiteral (h : b.Holds m value) :
    b.toLiteral m = .ok value := by
  rw [Buffer.toLiteral, h.bytes_eq, h.shape_eq, Literal.ofBytes_toBytes]

/-- Bytes that were placed are held. -/
theorem holds_of_allocate {place block : Nat}
    (h : m.allocate place value.toBytes = .ok (block, m')) :
    Buffer.Holds ⟨value.shape, block⟩ m' value := by
  obtain ⟨device, meter, -, -, rfl, rfl⟩ := Memory.allocate_eq_ok.mp h
  refine ⟨by simp, rfl, ?_⟩
  simp [Memory.bytes]

end Buffer

end TensorBind
