import TensorBind.Proofs.SlotProgram.Simulation

/-!
# Outputs that share memory

An invocation does not copy what it gives out. A parameter that is an
output is given out as the very buffer that was passed for it, and an
output that is listed twice is given out as one buffer twice
(`Computation.outputs_of_run`). This holds of every invocation that
succeeds, whatever the limits of the device.

The compiled program is followed as in the simulation, but what is kept of
the slots is only which of them hold arguments.
-/

namespace TensorBind

namespace Run

variable {p : SlotProgram} {place : Nat} {buffers : List Buffer} {r r' : Run}

/-- **One instruction succeeds** exactly if its value can be computed, and
then the value is put into its slot. -/
theorem steps_singleton_eq_ok {instruction : Instruction} :
    steps p place buffers [instruction] r = .ok r'
      ↔ ∃ buffer memory,
        r.evaluate p place buffers instruction = .ok (buffer, memory)
        ∧ write r.slots instruction.dst buffer memory = r' := by
  unfold steps
  cases r.evaluate p place buffers instruction with
  | error cause => simp
  | ok given =>
    obtain ⟨buffer, memory⟩ := given
    simp [steps]

/-- The instruction of a parameter gives the argument itself. -/
theorem eq_argument_of_evaluate {op : NodeOp} {number dst constant : Nat}
    {operandSlots : List Nat} {buffer : Buffer} {memory : Memory}
    (hop : op = .parameter number)
    (h : r.evaluate p place buffers
      (Emission.instructionOf op dst constant operandSlots)
      = .ok (buffer, memory)) :
    buffers[number]? = some buffer := by
  subst hop
  simp only [Emission.instructionOf, evaluate] at h
  split at h
  · rename_i argument hargument
    cases h
    exact hargument
  · cases h

end Run

/-- **An invocation succeeds** exactly if its instructions do and its
outputs are in slots. -/
theorem SlotProgram.run_eq_ok {p : SlotProgram} {place : Nat}
    {buffers outputs : List Buffer} {m m' : Memory} :
    p.run place buffers m = (.ok outputs, m')
      ↔ ∃ r, Run.steps p place buffers p.instructions
          ⟨m, List.replicate p.slotCount none⟩ = .ok r
        ∧ r.outputs p = .ok outputs
        ∧ Run.finish ⟨Run.retainAll outputs r.memory, r.slots⟩ = m' := by
  unfold run
  dsimp only
  cases Run.steps p place buffers p.instructions
      ⟨m, List.replicate p.slotCount none⟩ with
  | error failure => simp
  | ok r =>
    dsimp only
    cases houtputs : r.outputs p with
    | error cause => simp [houtputs]
    | ok taken =>
      simp only [Prod.mk.injEq, Except.ok.injEq, exists_eq_left', houtputs]
      constructor
      · rintro ⟨rfl, h⟩
        exact ⟨rfl, h⟩
      · rintro ⟨rfl, h⟩
        exact ⟨rfl, h⟩

namespace Computation

variable {c : Computation} {p : SlotProgram} {place : Nat}
  {buffers : List Buffer} {m : Memory}

/-- **What is known of a slot** that holds the value of a node: if the node
is a parameter, it holds the argument. -/
def IsArgument (c : Computation) (buffers : List Buffer) (id : Nat)
    (buffer : Buffer) : Prop :=
  ∀ number shape, c.nodes[id]? = some ⟨.parameter number, shape⟩ →
    buffers[number]? = some buffer

/-- **Emitting the instruction of a node** keeps track of the arguments in
slots. -/
theorem finds_argument_extend {position : Nat} {e : Emission} {node : Node}
    {operandSlots : List Nat} {start r : Run}
    (hnode : c.nodes[position]? = some node)
    (hlive : c.liveness.isLive position) (he : e.Sound c position)
    (hslots : List.Forall₂ (fun x slot => e.slotOf? x = some slot)
      node.op.operands operandSlots)
    (hcount : (e.extend c.liveness node.op position
      operandSlots).pool.highWater ≤ p.slotCount)
    (h : ∀ r, Run.steps p place buffers e.instructions start = .ok r →
      r.slots.length = p.slotCount
        ∧ e.Finds c position r.slots (c.IsArgument buffers))
    (hr : Run.steps p place buffers (e.extend c.liveness node.op position
      operandSlots).instructions start = .ok r) :
    r.slots.length = p.slotCount
      ∧ (e.extend c.liveness node.op position operandSlots).Finds c
        (position + 1) r.slots (c.IsArgument buffers) := by
  rw [show (e.extend c.liveness node.op position operandSlots).instructions
      = e.instructions ++ [Emission.instructionOf node.op (e.takeSlot
        c.liveness node.op position operandSlots).1 e.constants.length
        operandSlots] from rfl,
    Run.steps_append, Except.bind_eq_ok] at hr
  obtain ⟨before, hbefore, hr⟩ := hr
  obtain ⟨buffer, memory, hbuffer, rfl⟩ := Run.steps_singleton_eq_ok.mp hr
  obtain ⟨hlength, hfinds⟩ := h before hbefore
  have hdst := Nat.lt_of_lt_of_le (he.bounded.takeSlot_lt hslots) hcount
  rw [Emission.dst_instructionOf]
  refine ⟨by rw [Run.write, List.length_set, hlength], ?_⟩
  refine hfinds.extend he (he.needed_of_forall₂ hnode hlive hslots) hslots
    (hlength ▸ hdst) fun number shape hparameter => ?_
  rw [hnode, Option.some.injEq] at hparameter
  exact Run.eq_argument_of_evaluate (congrArg Node.op hparameter) hbuffer

/-- **A compiled program keeps track of its arguments** to the end. -/
theorem finds_argument {e : Emission}
    (he : c.nodes.zipIdx.foldlM (Emission.step c.liveness) .start = .ok e)
    (hcount : e.pool.highWater ≤ p.slotCount) {r : Run}
    (hr : Run.steps p place buffers e.instructions
      ⟨m, List.replicate p.slotCount none⟩ = .ok r) :
    e.Sound c c.nodes.length
      ∧ e.Finds c c.nodes.length r.slots (c.IsArgument buffers) := by
  -- carried along the emission: what the instructions emitted so far leave
  -- in the slots of the whole program
  obtain ⟨hsound, hend⟩ := Emission.sound_and_of_foldlM
    (Q := fun k e => e.pool.highWater ≤ p.slotCount → ∀ r,
      Run.steps p place buffers e.instructions
        ⟨m, List.replicate p.slotCount none⟩ = .ok r →
      r.slots.length = p.slotCount
        ∧ e.Finds c k r.slots (c.IsArgument buffers))
    (fun _ r hr => by
      obtain rfl : _ = r := Except.ok.inj hr
      exact ⟨List.length_replicate, Emission.finds_start _⟩)
    (fun _ hdead hfinds hcount r hr =>
      (hfinds hcount r hr).imp_right (·.skip hdead))
    (fun hsound hnode hlive hslots hfinds hcount r hr =>
      finds_argument_extend hnode hlive hsound hslots hcount
        (hfinds (Nat.le_trans Emission.highWater_le_extend hcount)) hr) he
  exact ⟨hsound, (hend hcount r hr).2⟩

/-- **What an invocation gives out is not copied.** Each node that is an
output stands for one buffer, however often it is listed, and a parameter
stands for the argument that was passed for it. -/
theorem outputs_of_run {stats : CompileStats} {outputs : List Buffer}
    {m' : Memory} (hp : c.toSlotProgram = .ok (p, stats))
    (hrun : p.run place buffers m = (.ok outputs, m')) :
    ∃ bufferOf : Nat → Buffer, outputs = c.outputs.map bufferOf
      ∧ ∀ id ∈ c.outputs, ∀ number shape,
        c.nodes[id]? = some ⟨.parameter number, shape⟩ →
        buffers[number]? = some (bufferOf id) := by
  obtain ⟨e, he, hrest⟩ := Except.bind_eq_ok.mp hp
  obtain ⟨outputSlots, houtputSlots, hp⟩ := Except.bind_eq_ok.mp hrest
  cases hp
  obtain ⟨r, hr, houtputs, -⟩ := SlotProgram.run_eq_ok.mp hrun
  obtain ⟨hsound, hfinds⟩ := finds_argument he (Nat.le_refl _) hr
  have hslots : List.Forall₂ (fun id slot => e.slotOf? id = some slot)
      c.outputs outputSlots :=
    (List.mapM_eq_ok.mp houtputSlots).imp
      fun _ _ => Emission.outputSlot_eq_ok.mp
  let bufferOf? (id : Nat) : Option Buffer :=
    (e.slotOf? id).bind fun slot => r.slots[slot]?.join
  -- what a node without a slot stands for does not matter
  refine ⟨fun id => (bufferOf? id).getD ⟨⟨.pred, []⟩, 0⟩,
    ?_, fun id hid number shape hnode => ?_⟩
  · rw [← List.forall₂_eq_eq_eq, List.forall₂_map_right_iff]
    refine List.Forall₂.flip ?_
    refine hslots.flip.join (List.mapM_eq_ok.mp houtputs)
      fun slot id b _ hslot hb => ?_
    split at hb
    · rename_i buffer hbuffer
      cases hb
      simp only [flip, bufferOf?, hslot, Option.bind_some, hbuffer,
        Option.getD_some]
    · cases hb
  · obtain ⟨slot, -, hslot⟩ := hslots.exists_of_mem hid
    have hlt : id < c.nodes.length :=
      hsound.length_eq ▸ Emission.lt_length_of_slotOf? hslot
    obtain ⟨b, hb, hargument⟩ := hfinds id slot
      (needed_of_mem_outputs hlt hid) hslot
    simp only [bufferOf?, hslot, Option.bind_some, hb, Option.join_some,
      Option.getD_some]
    exact hargument number shape hnode

end Computation

end TensorBind
