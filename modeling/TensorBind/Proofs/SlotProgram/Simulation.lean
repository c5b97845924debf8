import TensorBind.Proofs.Computation.Evaluation
import TensorBind.Proofs.Device.Memory
import TensorBind.Proofs.SlotProgram.Allocation

/-!
# Compiled programs compute the values of their computations

An invocation of a compiled program is followed along the nodes of the
computation. `Run.Simulates` relates the two at a position: the slot of
every value that is still needed there holds a buffer with that value. The
relation holds at the start, where nothing is needed; a live node keeps it,
its instruction putting the node's value into a slot that no needed value
has (`Run.Simulates.write`); and at the end the outputs are needed, so that
what is read from their slots are the values of the outputs.

One thing can go wrong on a device without a limit: the count of its bytes
would pass the largest size. `RunError.Overflow` says so of a cause of
failure, with a bound on what the count would have been, and the relation
carries the same bound. No other failure occurs, and if the bound is no
larger than the largest size, none does
(`Computation.toSlotProgram_preserves_values`).
-/

namespace TensorBind

/-! ## Devices without a limit -/

namespace Memory

variable {m m' : Memory} {place bound bound' block : Nat}

/-- **A device without a limit** is at the place, with a bounded number of
bytes in use. -/
def Within (m : Memory) (place bound : Nat) : Prop :=
  ∃ device, m.devices[place]? = some device ∧ device.meter.limit = none
    ∧ device.meter.inUse ≤ bound

theorem Within.mono (h : m.Within place bound) (hle : bound ≤ bound') :
    m.Within place bound' := by
  obtain ⟨device, hdevice, hlimit, hbound⟩ := h
  exact ⟨device, hdevice, hlimit, Nat.le_trans hbound hle⟩

theorem Within.retain (h : m.Within place bound) :
    (m.retain block).Within place bound := h

/-- Letting go of a block counts nothing in. -/
theorem Within.release (h : m.Within place bound) :
    (m.release block).Within place bound := by
  obtain ⟨device, hdevice, hlimit, hbound⟩ := h
  cases hb : m.blocks[block]? with
  | none =>
    rw [Memory.release, hb]
    exact ⟨device, hdevice, hlimit, hbound⟩
  | some b =>
    rw [release_eq hb]
    by_cases hlast : b.holders = 1 ∧ b.place = place
    · refine ⟨device.release b.bytes.length, ?_, hlimit, ?_⟩
      · simp [hlast, hdevice]
      · exact Nat.le_trans (Nat.sub_le _ _) hbound
    · refine ⟨device, ?_, hlimit, hbound⟩
      by_cases hholders : b.holders = 1
      · have hplace : b.place ≠ place := fun h => hlast ⟨hholders, h⟩
        simp [hholders, hplace, hdevice]
      · simp [hholders, hdevice]

end Memory

/-- **A failure because the count of bytes would pass the largest size**,
and how far it would have gone at most. -/
def RunError.Overflow (bound : Nat) (cause : RunError) : Prop :=
  ∃ oom, cause = .allocation (.outOfMemory oom)
    ∧ largestSize < oom.inUse + oom.requested
    ∧ oom.inUse + oom.requested ≤ bound

theorem RunError.Overflow.mono {cause : RunError} {bound bound' : Nat}
    (h : cause.Overflow bound) (hle : bound ≤ bound') :
    cause.Overflow bound' := by
  obtain ⟨oom, hcause, hlarge, hbound⟩ := h
  exact ⟨oom, hcause, hlarge, Nat.le_trans hbound hle⟩

namespace Run

variable {r : Run} {place bound slot : Nat} {value : Literal}

/-- **What an instruction is to give for a value**: a buffer that holds it
in a later memory, or a failure because the count would overflow. -/
def Gives (r : Run) (place bound : Nat) (value : Literal) :
    Except RunError (Buffer × Memory) → Prop
  | .ok (buffer, memory) => buffer.Holds memory value
      ∧ r.memory.Keeps memory ∧ memory.Within place bound
  | .error cause => cause.Overflow bound

/-- **Placing a value** on a device without a limit. -/
theorem gives_store (h : r.memory.Within place bound) :
    r.Gives place (bound + value.shape.byteSize) value
      (r.store place value) := by
  obtain ⟨device, hdevice, hlimit, hbound⟩ := h
  have hlength := value.length_toBytes
  unfold store
  cases hmeter : device.meter.reserve? value.toBytes.length with
  | none =>
    have hfull := Meter.reserve?_eq_none.mp hmeter
    rw [Meter.capacity, hlimit, Option.getD_none, Nat.min_self] at hfull
    rw [Memory.allocate_eq_error hdevice hmeter]
    exact ⟨_, rfl, hfull, by dsimp only; omega⟩
  | some meter =>
    obtain ⟨-, rfl⟩ := Meter.reserve?_eq_some.mp hmeter
    have hplaced := Memory.allocate_eq_ok.mpr
      ⟨device, _, hdevice, hmeter, rfl, rfl⟩
    rw [hplaced]
    refine ⟨Buffer.holds_of_allocate hplaced, .allocate hplaced, _,
      List.getElem?_set_self (List.getElem?_eq_some_iff.mp hdevice).1,
      hlimit, ?_⟩
    dsimp only
    omega

/-- Reading a slot with a buffer that holds a value. -/
theorem read_eq_ok {buffer : Buffer}
    (hslot : r.slots[slot]? = some (some buffer))
    (hholds : buffer.Holds r.memory value) :
    r.read slot = .ok value := by
  rw [read, hslot, Option.join_some]
  simp only [hholds.toLiteral]
  rfl

/-- **The instruction of a node gives the node's value**, if its operands
can be read from their slots. -/
theorem gives_evaluate {p : SlotProgram} {buffers : List Buffer}
    {arguments values : List Literal} {op : NodeOp} {constant : Nat}
    {operandSlots : List Nat} (dst : Nat)
    (hbuffers : List.Forall₂ (fun b l => b.Holds r.memory l) buffers
      arguments)
    (hoperands : List.Forall₂ (fun x slot => ∀ value,
      values[x]? = some value → r.read slot = .ok value) op.operands
      operandSlots)
    (hconstant : ∀ literal, op = .constant literal →
      p.constants[constant]? = some literal)
    (hnode : Computation.evaluateNode arguments values op = .ok value)
    (h : r.memory.Within place bound) :
    r.Gives place (bound + value.shape.byteSize) value
      (r.evaluate p place buffers
        (Emission.instructionOf op dst constant operandSlots)) := by
  cases op with
  | parameter number =>
    rw [Computation.evaluateNode_parameter_eq_ok] at hnode
    obtain ⟨hlt, hget⟩ := List.getElem?_eq_some_iff.mp hnode
    have hlt' : number < buffers.length := by
      rw [hbuffers.length_eq]
      exact hlt
    have hholds : buffers[number].Holds r.memory value :=
      hget ▸ hbuffers.get hlt' hlt
    simp only [Emission.instructionOf, evaluate,
      List.getElem?_eq_getElem hlt']
    exact ⟨hholds.keeps (.retain _ _), .retain _ _,
      (h.mono (Nat.le_add_right _ _)).retain⟩
  | constant literal =>
    obtain rfl : literal = value := Except.ok.inj hnode
    simp only [Emission.instructionOf, evaluate, hconstant literal rfl]
    exact gives_store h
  | unary op x =>
    obtain ⟨slot, _, hx, hrest, rfl⟩ := List.forall₂_cons_left_iff.mp hoperands
    obtain ⟨operand, hoperand, hresult⟩ := Except.bind_eq_ok.mp hnode
    rw [Except.mapError_eq_ok] at hresult
    have hread := hx operand (Computation.valueAt_eq_ok.mp hoperand)
    simp only [Emission.instructionOf, List.getElem?_cons_zero,
      Option.getD_some, evaluate, hread, Except.ok_bind,
      Except.mapError_eq_ok.mpr hresult]
    exact gives_store h
  | binary op x y =>
    obtain ⟨slot, _, hx, hrest, rfl⟩ := List.forall₂_cons_left_iff.mp hoperands
    obtain ⟨slot', _, hy, -, rfl⟩ := List.forall₂_cons_left_iff.mp hrest
    obtain ⟨left, hleft, hrest⟩ := Except.bind_eq_ok.mp hnode
    obtain ⟨right, hright, hresult⟩ := Except.bind_eq_ok.mp hrest
    rw [Except.mapError_eq_ok] at hresult
    have hreadx := hx left (Computation.valueAt_eq_ok.mp hleft)
    have hready := hy right (Computation.valueAt_eq_ok.mp hright)
    simp only [Emission.instructionOf, List.getElem?_cons_zero,
      List.getElem?_cons_succ, Option.getD_some, evaluate, hreadx, hready,
      Except.ok_bind, Except.mapError_eq_ok.mpr hresult]
    exact gives_store h

/-! ## Following an invocation -/

variable {c : Computation} {values : List Literal} {m : Memory}
  {slotCount position : Nat} {e : Emission}

/-- **An invocation agrees with a computation at a position**: what is
still needed of the nodes before it is held in the slots. -/
structure Simulates (c : Computation) (values : List Literal) (m : Memory)
    (place bound slotCount position : Nat) (e : Emission) (r : Run) :
    Prop where
  /-- There are as many slots as there were. -/
  length_slots : r.slots.length = slotCount
  /-- What was in memory at the start still is. -/
  keeps : m.Keeps r.memory
  /-- The device has not counted more than the nodes took. -/
  within : r.memory.Within place bound
  /-- The slot of a needed value holds it. -/
  holds : e.Finds c position r.slots fun id buffer =>
    ∀ value, values[id]? = some value → buffer.Holds r.memory value

/-- Nothing is needed at the start. -/
theorem simulates_start (h : m.Within place bound) :
    Simulates c values m place bound slotCount 0 .start
      ⟨m, List.replicate slotCount none⟩ where
  length_slots := List.length_replicate
  keeps := .refl m
  within := h
  holds := Emission.finds_start .start

/-- Passing over a dead node asks nothing of the invocation. -/
theorem Simulates.skip
    (h : r.Simulates c values m place bound slotCount position e)
    (hdead : ¬c.liveness.isLive position) :
    r.Simulates c values m place bound slotCount (position + 1) e.skip where
  length_slots := h.length_slots
  keeps := h.keeps
  within := h.within
  holds := h.holds.skip hdead

theorem keeps_write (slots : List (Option Buffer)) (slot : Nat)
    (buffer : Buffer) (memory : Memory) :
    memory.Keeps (write slots slot buffer memory).memory := by
  unfold write
  cases slots[slot]?.join with
  | none => exact .refl memory
  | some old => exact .release memory old.block

theorem within_write {slots : List (Option Buffer)} {buffer : Buffer}
    {memory : Memory} (h : memory.Within place bound) :
    (write slots slot buffer memory).memory.Within place bound := by
  unfold write
  cases slots[slot]?.join with
  | none => exact h
  | some old => exact h.release

/-- **Writing the value of a live node into its slot** keeps what is needed
behind it. -/
theorem Simulates.write {bound' : Nat} {op : NodeOp}
    {operandSlots : List Nat} {buffer : Buffer} {memory : Memory}
    (h : r.Simulates c values m place bound slotCount position e)
    (he : e.Sound c position)
    (hneeded : ∀ x ∈ op.operands, c.Needed position x)
    (hslots : List.Forall₂ (fun x slot => e.slotOf? x = some slot)
      op.operands operandSlots)
    (hdst : (e.takeSlot c.liveness op position operandSlots).1 < slotCount)
    (hvalue : values[position]? = some value)
    (hgives : r.Gives place bound' value (.ok (buffer, memory))) :
    (Run.write r.slots (e.takeSlot c.liveness op position operandSlots).1
      buffer memory).Simulates c values m place bound' slotCount
      (position + 1) (e.extend c.liveness op position operandSlots) := by
  obtain ⟨hholds, hkeeps, hwithin⟩ := hgives
  have hkeeps' := keeps_write r.slots
    (e.takeSlot c.liveness op position operandSlots).1 buffer memory
  refine ⟨?_, (h.keeps.trans hkeeps).trans hkeeps', within_write hwithin, ?_⟩
  · rw [Run.write, List.length_set, h.length_slots]
  · have hkept := h.holds.mono fun id b hb value hvalue =>
      (hb value hvalue).keeps (hkeeps.trans hkeeps')
    refine hkept.extend he hneeded hslots (h.length_slots ▸ hdst) ?_
    intro value' hvalue'
    rw [hvalue, Option.some.injEq] at hvalue'
    exact hvalue' ▸ hholds.keeps hkeeps'

/-- Running instructions in two parts. -/
theorem steps_append (p : SlotProgram) (place : Nat)
    (buffers : List Buffer) (first second : List Instruction) (r : Run) :
    steps p place buffers (first ++ second) r
      = steps p place buffers first r >>= steps p place buffers second := by
  induction first generalizing r with
  | nil => rfl
  | cons i first ih =>
    rw [List.cons_append, steps, steps]
    cases r.evaluate p place buffers i with
    | error cause => rfl
    | ok given => exact ih _

/-- **Where instructions are to lead**: to an invocation that agrees with
the computation, or to a failure because the count would overflow. -/
def Reaches (c : Computation) (values : List Literal) (m : Memory)
    (place bound slotCount position : Nat) (e : Emission) :
    Except (RunError × Run) Run → Prop
  | .ok r => r.Simulates c values m place bound slotCount position e
  | .error (cause, _) => cause.Overflow bound

theorem Reaches.skip {outcome : Except (RunError × Run) Run}
    (h : Reaches c values m place bound slotCount position e outcome)
    (hdead : ¬c.liveness.isLive position) :
    Reaches c values m place bound slotCount (position + 1) e.skip
      outcome := by
  cases outcome with
  | ok r => exact Simulates.skip h hdead
  | error failure => exact h

theorem Reaches.mono {outcome : Except (RunError × Run) Run} {bound' : Nat}
    (h : Reaches c values m place bound slotCount position e outcome)
    (hle : bound ≤ bound') :
    Reaches c values m place bound' slotCount position e outcome := by
  cases outcome with
  | ok r =>
    obtain ⟨hlength, hkeeps, hwithin, hholds⟩ := h
    exact ⟨hlength, hkeeps, hwithin.mono hle, hholds⟩
  | error failure => exact RunError.Overflow.mono h hle

/-- **The instruction of a live node leads on.** -/
theorem Reaches.extend {p : SlotProgram} {buffers : List Buffer}
    {arguments : List Literal} {node : Node} {start : Run}
    {operandSlots : List Nat} (hc : c.WellFormed)
    (hvalues : c.Valuation arguments values)
    (hbuffers : List.Forall₂ (fun b l => b.Holds m l) buffers arguments)
    (hnode : c.nodes[position]? = some node)
    (hlive : c.liveness.isLive position) (he : e.Sound c position)
    (hslots : List.Forall₂ (fun x slot => e.slotOf? x = some slot)
      node.op.operands operandSlots)
    (hconstants : (e.extend c.liveness node.op position
      operandSlots).constants <+: p.constants)
    (hcount : (e.extend c.liveness node.op position
      operandSlots).pool.highWater ≤ p.slotCount)
    (h : Reaches c values m place bound p.slotCount position e
      (steps p place buffers e.instructions start)) :
    Reaches c values m place (bound + node.shape.byteSize) p.slotCount
      (position + 1) (e.extend c.liveness node.op position operandSlots)
      (steps p place buffers (e.extend c.liveness node.op position
        operandSlots).instructions start) := by
  have hneeded : ∀ x ∈ node.op.operands, c.Needed position x :=
    fun x hx => hc.needed_of_mem_operands hnode hlive hx
  obtain ⟨value, hvalue⟩ :=
    hvalues.exists_value (Computation.lt_length_of_isLive hlive)
  have hshape := hvalues.shape hnode hvalue
  show Reaches _ _ _ _ _ _ _ _ (steps p place buffers (e.instructions
    ++ [Emission.instructionOf node.op (e.takeSlot c.liveness node.op
      position operandSlots).1 e.constants.length operandSlots]) start)
  rw [steps_append]
  cases hrun : steps p place buffers e.instructions start with
  | error failure =>
    -- the instruction is not reached
    rw [hrun] at h
    exact RunError.Overflow.mono h (Nat.le_add_right _ _)
  | ok r =>
    rw [hrun] at h
    have hreads : List.Forall₂ (fun x slot => ∀ value,
        values[x]? = some value → r.read slot = .ok value)
        node.op.operands operandSlots := by
      refine List.forall₂_iff_zip.mpr ⟨hslots.length_eq, fun hx v hv => ?_⟩
      obtain ⟨buffer, hslot, hholds⟩ := h.holds _ _
        (hneeded _ (List.of_mem_zip hx).1)
        ((List.forall₂_iff_zip.mp hslots).2 hx)
      exact read_eq_ok hslot (hholds v hv)
    have hconstant : ∀ literal, node.op = .constant literal →
        p.constants[e.constants.length]? = some literal := by
      intro literal hop
      obtain ⟨rest, hrest⟩ := hconstants
      rw [← hrest]
      simp [Emission.extend, hop, Emission.constantOf]
    have hgives := gives_evaluate
      (e.takeSlot c.liveness node.op position operandSlots).1
      (hbuffers.imp fun _ _ hb => hb.keeps h.keeps) hreads hconstant
      (hvalues.evaluateNode hnode hvalue) h.within
    rw [Except.ok_bind, steps, ← hshape]
    split
    · rename_i cause hcause
      rw [hcause] at hgives
      exact hgives
    · rename_i buffer memory hok
      rw [hok] at hgives
      rw [Emission.dst_instructionOf]
      exact h.write he hneeded hslots
        (Nat.lt_of_lt_of_le (he.bounded.takeSlot_lt hslots) hcount) hvalue
        hgives

end Run

namespace Computation

variable {c : Computation} {arguments values : List Literal}
  {buffers : List Buffer} {m : Memory} {place : Nat}

/-- How many bytes the values of all nodes take. -/
def totalBytes (c : Computation) : Nat :=
  (c.nodes.map (·.shape.byteSize)).sum

/-- **A well-formed computation is compiled, and an invocation follows
it** to the end. -/
theorem WellFormed.exists_emission (hc : c.WellFormed)
    (hvalues : c.Valuation arguments values)
    (hbuffers : List.Forall₂ (fun b l => b.Holds m l) buffers arguments)
    {base : Nat} (hbase : m.Within place base) :
    ∃ e, c.nodes.zipIdx.foldlM (Emission.step c.liveness) .start = .ok e
      ∧ e.Sound c c.nodes.length
      ∧ ∀ p : SlotProgram, e.constants <+: p.constants →
        e.pool.highWater ≤ p.slotCount →
        Run.Reaches c values m place (base + c.totalBytes) p.slotCount
          c.nodes.length e (Run.steps p place buffers e.instructions
            ⟨m, List.replicate p.slotCount none⟩) := by
  let bytes (k : Nat) := base + ((c.nodes.take k).map (·.shape.byteSize)).sum
  let P (k : Nat) (e : Emission) : Prop := e.Sound c k
    ∧ ∀ p : SlotProgram, e.constants <+: p.constants →
      e.pool.highWater ≤ p.slotCount →
      Run.Reaches c values m place (bytes k) p.slotCount k e
        (Run.steps p place buffers e.instructions
          ⟨m, List.replicate p.slotCount none⟩)
  have hstart : P 0 .start := ⟨Emission.sound_start c, fun p _ _ =>
    Run.simulates_start (hbase.mono (Nat.le_add_right _ _))⟩
  have hbytes : ∀ {k : Nat} (hk : k < c.nodes.length),
      bytes (k + 1) = bytes k + c.nodes[k].shape.byteSize := by
    intro k hk
    simp only [bytes]
    rw [List.take_succ_eq_append_getElem hk, List.map_append,
      List.sum_append, List.map_singleton, List.sum_singleton, Nat.add_assoc]
  have hstep : ∀ k (hk : k < c.nodes.zipIdx.length) e, P k e →
      ∃ e', Emission.step c.liveness e c.nodes.zipIdx[k] = .ok e'
        ∧ P (k + 1) e' := by
    intro k hk e ⟨he, hreach⟩
    rw [List.length_zipIdx] at hk
    have hnode := List.getElem?_eq_getElem hk
    simp only [List.getElem_zipIdx, Nat.zero_add, Emission.step]
    by_cases hlive : c.liveness.isLive k
    · -- what a live node reads is still in slots, so that it is emitted
      have hneeded : ∀ x ∈ c.nodes[k].op.operands, c.Needed k x :=
        fun x hx => hc.needed_of_mem_operands hnode hlive hx
      obtain ⟨operandSlots, hslots⟩ := he.exists_operandSlots hneeded
      rw [if_pos hlive]
      refine ⟨_, Emission.emit_eq_ok.mpr ⟨operandSlots, hslots, rfl⟩,
        he.extend hneeded hslots, fun p hconstants hcount => ?_⟩
      rw [hbytes hk]
      exact .extend hc hvalues hbuffers hnode hlive he hslots hconstants
        hcount (hreach p
          ((List.prefix_append _ _).trans hconstants)
          (Nat.le_trans Emission.highWater_le_extend hcount))
    · -- a dead node only adds to the bound
      rw [if_neg hlive]
      refine ⟨_, rfl, he.skip hlive, fun p hconstants hcount => ?_⟩
      rw [hbytes hk]
      exact ((hreach p hconstants hcount).skip hlive).mono
        (Nat.le_add_right _ _)
  obtain ⟨e, hemit, he, hreach⟩ :=
    List.foldlM_eq_ok_of_step P hstart hstep
  rw [List.length_zipIdx] at he hreach
  refine ⟨e, hemit, he, fun p hconstants hcount => ?_⟩
  have htotal : bytes c.nodes.length = base + c.totalBytes := by
    simp only [bytes, List.take_length, totalBytes]
  rw [← htotal]
  exact hreach p hconstants hcount

/-- **The buffers of the outputs** hold the values of the outputs. -/
theorem WellFormed.exists_outputs (hc : c.WellFormed) {r : Run}
    {bound : Nat} {p : SlotProgram} {e : Emission}
    (he : e.Sound c c.nodes.length)
    (h : r.Simulates c values m place bound p.slotCount c.nodes.length e)
    (hslots : List.Forall₂ (fun id slot => e.slotOf? id = some slot)
      c.outputs p.outputSlots) :
    ∃ outputs, r.outputs p = .ok outputs
      ∧ List.Forall₂ (fun id (b : Buffer) => ∀ value,
        values[id]? = some value → b.Holds r.memory value)
        c.outputs outputs := by
  have hholds : ∀ id ∈ c.outputs, ∃ b : Buffer,
      (∀ slot, e.slotOf? id = some slot → r.slots[slot]? = some (some b))
      ∧ ∀ value, values[id]? = some value → b.Holds r.memory value := by
    intro id hid
    have hneeded := needed_of_mem_outputs (hc.output_lt id hid) hid
    obtain ⟨slot, hslot⟩ := he.exists_slot hneeded.lt hneeded.live
    obtain ⟨b, hb, hholds⟩ := h.holds id slot hneeded hslot
    refine ⟨b, fun slot' hslot' => ?_, hholds⟩
    rw [hslot, Option.some.injEq] at hslot'
    exact hslot' ▸ hb
  obtain ⟨outputs, houtputs⟩ := List.exists_forall₂ hholds
  refine ⟨outputs, List.mapM_eq_ok.mpr ?_, houtputs.imp fun _ _ hb => hb.2⟩
  refine hslots.join houtputs fun id slot b _ hslot hb => ?_
  rw [hb.1 slot hslot]
  rfl

/-- Buffers that hold the values of the outputs have their shapes. -/
theorem WellFormed.map_shape_eq (hc : c.WellFormed)
    (hvalues : c.Valuation arguments values) {outputs : List Buffer}
    (h : List.Forall₂ (fun id (b : Buffer) => ∀ value,
      values[id]? = some value → b.Holds m value) c.outputs outputs) :
    outputs.map Buffer.shape = c.outputShapes := by
  rw [hc.outputShapes_eq_iff, List.forall₂_map_left_iff]
  refine List.Forall₂.flip ?_
  obtain ⟨hlength, hzip⟩ := List.forall₂_iff_zip.mp h
  refine List.forall₂_iff_zip.mpr ⟨hlength, fun {id b} hid => ?_⟩
  have hlt := hc.output_lt id (List.of_mem_zip hid).1
  obtain ⟨value, hvalue⟩ := hvalues.exists_value hlt
  rw [flip, shape?_eq_some hlt, (hzip hid value hvalue).shape_eq,
    hvalues.shape (List.getElem?_eq_getElem hlt) hvalue]

/-- **A well-formed computation is compiled to a program that leads to its
end**, with the outputs in slots. -/
theorem WellFormed.exists_program (hc : c.WellFormed)
    (hvalues : c.Valuation arguments values)
    (hbuffers : List.Forall₂ (fun b l => b.Holds m l) buffers arguments)
    {base : Nat} (hbase : m.Within place base) :
    ∃ p stats e, c.toSlotProgram = .ok (p, stats)
      ∧ e.Sound c c.nodes.length
      ∧ List.Forall₂ (fun id slot => e.slotOf? id = some slot) c.outputs
        p.outputSlots
      ∧ Run.Reaches c values m place (base + c.totalBytes) p.slotCount
        c.nodes.length e (Run.steps p place buffers p.instructions
          ⟨m, List.replicate p.slotCount none⟩) := by
  obtain ⟨e, hemission, he, hreach⟩ :=
    hc.exists_emission hvalues hbuffers hbase
  obtain ⟨outputSlots, hslots⟩ := List.exists_forall₂ fun id hid =>
    have hneeded := needed_of_mem_outputs (hc.output_lt id hid) hid
    he.exists_slot hneeded.lt hneeded.live
  have houtputs : c.outputs.mapM e.outputSlot = .ok outputSlots :=
    List.mapM_eq_ok.mpr
      (hslots.imp fun _ _ => Emission.outputSlot_eq_ok.mpr)
  have hprogram : ∃ stats, c.toSlotProgram = .ok (⟨e.instructions,
      e.constants, c.parameterShapes, outputSlots, c.outputShapes,
      e.pool.highWater⟩, stats) := by
    rw [toSlotProgram, hemission, Except.ok_bind, houtputs]
    exact ⟨_, rfl⟩
  obtain ⟨stats, hprogram⟩ := hprogram
  exact ⟨_, stats, e, hprogram, he, hslots,
    hreach _ List.prefix_rfl (Nat.le_refl _)⟩

/-- **Compiling and running a computation gives the values of its
outputs.** A computation is compiled, it has values on arguments that match
its parameters, and an invocation on a device without a limit gives one
buffer for each output, with its shape and its value. The invocation can
only fail if the bytes of all nodes, with those in use before, are more
than the largest size, and then because the count of bytes would pass it. -/
theorem toSlotProgram_preserves_values {device : Device} (hc : c.Built)
    (hdevice : m.devices[place]? = some device)
    (hlimit : device.meter.limit = none)
    (harguments : c.Accepts arguments)
    (hbuffers : List.Forall₂ (fun b l => b.Holds m l) buffers arguments) :
    ∃ p stats values, c.toSlotProgram = .ok (p, stats)
      ∧ c.evaluate arguments = .ok values
      ∧ ((∃ outputs m', p.run place buffers m = (.ok outputs, m')
          ∧ outputs.length = c.outputs.length
          ∧ outputs.map Buffer.shape = c.outputShapes
          ∧ outputs.mapM (·.toLiteral m') = .ok values)
        ∨ largestSize < device.meter.inUse + c.totalBytes
          ∧ ∃ oom m', p.run place buffers m
              = (.error (.allocation (.outOfMemory oom)), m')
            ∧ largestSize < oom.inUse + oom.requested) := by
  have hc := hc.wellFormed
  obtain ⟨values, hnodes, hvalues⟩ := hc.exists_valuation harguments
  obtain ⟨results, hresults⟩ := List.exists_forall₂ fun id hid =>
    hvalues.exists_value (hc.output_lt id hid)
  have hevaluate : c.evaluate arguments = .ok results := by
    rw [evaluate, hnodes, Except.ok_bind, List.mapM_eq_ok]
    exact hresults.imp fun _ _ => valueAt_eq_ok.mpr
  obtain ⟨p, stats, e, hprogram, he, hslots, hreach⟩ :=
    hc.exists_program hvalues hbuffers
      ⟨device, hdevice, hlimit, Nat.le_refl _⟩
  refine ⟨p, stats, results, hprogram, hevaluate, ?_⟩
  cases hsteps : Run.steps p place buffers p.instructions
      ⟨m, List.replicate p.slotCount none⟩ with
  | error failure =>
    obtain ⟨cause, r⟩ := failure
    rw [hsteps] at hreach
    obtain ⟨oom, rfl, hlarge, hbound⟩ := hreach
    refine .inr ⟨Nat.lt_of_lt_of_le hlarge hbound, oom, r.finish, ?_, hlarge⟩
    simp only [SlotProgram.run, hsteps]
  | ok r =>
    rw [hsteps] at hreach
    obtain ⟨outputs, houtputs, hholds⟩ :=
      hc.exists_outputs he hreach hslots
    have hkeeps : r.memory.Keeps
        (Run.finish ⟨Run.retainAll outputs r.memory, r.slots⟩) :=
      (Memory.Keeps.retainAll outputs r.memory).trans (.releaseAll _ _)
    have hholds' := hholds.imp fun _ _ hb value hvalue =>
      Buffer.Holds.keeps (hb value hvalue) hkeeps
    have hrun : p.run place buffers m = (.ok outputs,
        Run.finish ⟨Run.retainAll outputs r.memory, r.slots⟩) := by
      simp only [SlotProgram.run, hsteps, houtputs]
    refine .inl ⟨outputs, _, hrun, hholds.length_eq.symm,
      hc.map_shape_eq hvalues hholds', List.mapM_eq_ok.mpr ?_⟩
    exact hholds'.join hresults fun id b value _ hb hvalue =>
      (hb value hvalue).toLiteral

/-- Twice a parameter, negated and given out twice behind the parameter
itself, with a node that nothing depends on. -/
def negatedDouble : Computation :=
  ⟨"f", [⟨.parameter 0, ⟨.s32, [2]⟩⟩, ⟨.binary .add 0 0, ⟨.s32, [2]⟩⟩,
    ⟨.unary .abs 1, ⟨.s32, [2]⟩⟩, ⟨.unary .negate 1, ⟨.s32, [2]⟩⟩],
    [0], [0, 3, 3]⟩

/-- A device without a limit, with the bytes of two integers. -/
def twoIntegers : Memory :=
  ⟨[⟨0, "cpu", ⟨none, 8, 8⟩⟩], [⟨0, [7, 0, 0, 0, 255, 255, 255, 255], 1⟩]⟩

/-- A computation in which a result takes the slot of its operand, an
operand occurs twice and an output is repeated. -/
theorem negatedDouble_preserves_values :
    ∃ p stats values, negatedDouble.toSlotProgram = .ok (p, stats)
      ∧ negatedDouble.evaluate [.vector .s32 [(7 : Int32), (-1 : Int32)]]
        = .ok values
      ∧ ((∃ outputs m', p.run 0 [⟨⟨.s32, [2]⟩, 0⟩] twoIntegers
            = (.ok outputs, m')
          ∧ outputs.length = 3
          ∧ outputs.map Buffer.shape = negatedDouble.outputShapes
          ∧ outputs.mapM (·.toLiteral m') = .ok values)
        ∨ largestSize < 8 + negatedDouble.totalBytes
          ∧ ∃ oom m', p.run 0 [⟨⟨.s32, [2]⟩, 0⟩] twoIntegers
              = (.error (.allocation (.outOfMemory oom)), m')
            ∧ largestSize < oom.inUse + oom.requested) := by
  have hbuilt : negatedDouble.Built :=
    ⟨"f", [.parameter 0 ⟨.s32, [2]⟩, .binary .add 0 0, .unary .abs 1,
      .unary .negate 1], [0, 3, 3], rfl⟩
  have haccepts : negatedDouble.Accepts
      [.vector .s32 [(7 : Int32), (-1 : Int32)]] := rfl
  have hholds : Buffer.Holds ⟨⟨.s32, [2]⟩, 0⟩ twoIntegers
      (.vector .s32 [(7 : Int32), (-1 : Int32)]) :=
    ⟨by decide, rfl, by decide⟩
  have hdevice : twoIntegers.devices[0]? = some ⟨0, "cpu", ⟨none, 8, 8⟩⟩ :=
    rfl
  exact toSlotProgram_preserves_values hbuilt hdevice rfl haccepts
    (.cons hholds .nil)

end Computation

end TensorBind
