import TensorBind.Proofs.SlotProgram.Allocation

/-!
# What the instructions of a program determine

A compiled program lists how many slots it has and what shapes its outputs
are, but both follow from its instructions. A slot is made only when an
instruction writes it, so there are as many slots as are written
(`Computation.slotCount_eq`). And the instructions can be run on shapes
instead of values: a parameter has the shape that is listed for it, a
constant its own, and an operation that of its operands. What is found in
the slots of the outputs at the end are their shapes
(`Computation.WellFormed.forall₂_outputShapes`).
-/

namespace TensorBind

/-! ## Slots that are written -/

/-- A slot that there is once one was taken was there before or is the one
taken. -/
theorem SlotPool.lt_highWater_or_eq {pool : SlotPool} {slot : Nat}
    (h : slot < pool.take.2.highWater) :
    slot < pool.highWater ∨ slot = pool.take.1 := by
  obtain ⟨first, free, -, htake⟩ | ⟨-, htake⟩ := pool.take_cases
  · rw [htake] at h
    exact .inl h
  · rw [htake] at h ⊢
    exact Nat.lt_succ_iff_lt_or_eq.mp h

namespace Emission

variable {liveness : Liveness} {e e' : Emission} {op : NodeOp}
  {position : Nat} {operandSlots : List Nat}

/-- **Every slot that was made is written** by some instruction. -/
def Tight (e : Emission) : Prop :=
  ∀ slot < e.pool.highWater, ∃ i ∈ e.instructions, i.dst = slot

theorem tight_start : start.Tight :=
  fun _ h => absurd h (Nat.not_lt_zero _)

/-- A slot that comes with an instruction is the one it writes. -/
theorem Tight.extend (h : e.Tight) :
    (e.extend liveness op position operandSlots).Tight := by
  intro slot hslot
  obtain hold | hnew := SlotPool.lt_highWater_or_eq hslot
  · rw [releaseOperands_eq] at hold
    obtain ⟨i, hi, hdst⟩ := h slot hold
    exact ⟨i, List.mem_append_left _ hi, hdst⟩
  · refine ⟨_, List.mem_append_right _ (List.mem_singleton_self _), ?_⟩
    rw [dst_instructionOf, hnew]
    rfl

theorem Tight.step (h : e.Tight) {node : Node × Nat}
    (hstep : Emission.step liveness e node = .ok e') : e'.Tight := by
  unfold Emission.step at hstep
  split at hstep
  · obtain ⟨operandSlots, -, rfl⟩ := emit_eq_ok.mp hstep
    exact h.extend
  · cases hstep
    exact h

end Emission

namespace Computation

variable {c d : Computation} {p q : SlotProgram}
  {stats stats' : CompileStats}

/-- Every slot of a compiled program is written. -/
theorem exists_dst_of_lt_slotCount
    (h : c.toSlotProgram = .ok (p, stats)) :
    ∀ slot < p.slotCount, ∃ i ∈ p.instructions, i.dst = slot := by
  obtain ⟨e, he, hrest⟩ := Except.bind_eq_ok.mp h
  obtain ⟨outputSlots, -, hp⟩ := Except.bind_eq_ok.mp hrest
  have htight : e.Tight :=
    List.foldlM_invariant (fun _ e => e.Tight) Emission.tight_start
      (fun _ _ _ _ ht hstep => ht.step hstep) he
  cases hp
  exact htight

theorem slotCount_le (hp : c.toSlotProgram = .ok (p, stats))
    (hq : d.toSlotProgram = .ok (q, stats'))
    (h : p.instructions = q.instructions) : p.slotCount ≤ q.slotCount := by
  by_contra hlt
  obtain ⟨i, hi, hdst⟩ :=
    exists_dst_of_lt_slotCount hp q.slotCount (Nat.not_le.mp hlt)
  have hbelow := dst_lt_slotCount hq i (h ▸ hi)
  omega

/-- **The instructions determine how many slots there are.** -/
theorem slotCount_eq (hp : c.toSlotProgram = .ok (p, stats))
    (hq : d.toSlotProgram = .ok (q, stats'))
    (h : p.instructions = q.instructions) : p.slotCount = q.slotCount :=
  Nat.le_antisymm (slotCount_le hp hq h) (slotCount_le hq hp h.symm)

end Computation

/-! ## Running on shapes -/

namespace SlotProgram

variable {p q : SlotProgram}

/-- The shape an instruction computes, from the shapes in the slots. -/
def shapeIn (p : SlotProgram) (slots : List (Option Shape)) :
    Instruction → Option Shape
  | .parameter _ index => p.parameterShapes[index]?
  | .constant _ index => (p.constants.map Literal.shape)[index]?
  | .unary _ _ src => slots[src]?.join
  | .binary _ _ lhs _ => slots[lhs]?.join

/-- **The shapes in the slots** after some instructions. -/
def shapesAfter (p : SlotProgram) (instructions : List Instruction) :
    List (Option Shape) :=
  instructions.foldl (fun slots i => slots.set i.dst (p.shapeIn slots i))
    (List.replicate p.slotCount none)

theorem shapesAfter_concat (instructions : List Instruction)
    (i : Instruction) :
    p.shapesAfter (instructions ++ [i])
      = (p.shapesAfter instructions).set i.dst
        (p.shapeIn (p.shapesAfter instructions) i) := by
  simp [shapesAfter]

theorem length_shapesAfter (instructions : List Instruction) :
    (p.shapesAfter instructions).length = p.slotCount := by
  induction instructions using List.reverseRecOn with
  | nil => exact List.length_replicate
  | append_singleton instructions i ih =>
    rw [shapesAfter_concat, List.length_set, ih]

/-- **Instructions compute the same shapes** from parameters and constants
of the same shapes. -/
theorem shapesAfter_congr {instructions : List Instruction}
    (hcount : p.slotCount = q.slotCount)
    (hconstants : p.constants.map Literal.shape
      = q.constants.map Literal.shape)
    (hparameters : ∀ dst index, .parameter dst index ∈ instructions →
      p.parameterShapes[index]? = q.parameterShapes[index]?) :
    p.shapesAfter instructions = q.shapesAfter instructions := by
  induction instructions using List.reverseRecOn with
  | nil =>
    show List.replicate p.slotCount none = List.replicate q.slotCount none
    rw [hcount]
  | append_singleton instructions i ih =>
    have hrest := ih fun dst index hmem =>
      hparameters dst index (List.mem_append_left _ hmem)
    rw [shapesAfter_concat, shapesAfter_concat, hrest]
    refine congrArg _ ?_
    cases i with
    | parameter dst index => exact hparameters dst index (by simp)
    | constant dst index => rw [shapeIn, shapeIn, hconstants]
    | unary op dst src => rfl
    | binary op dst lhs rhs => rfl

end SlotProgram

namespace Computation

variable {c : Computation} {p : SlotProgram}

/-- **The instruction of a node computes the shape of the node**, if the
shapes of its operands are in their slots. -/
theorem WellFormed.shapeIn_instructionOf (hc : c.WellFormed)
    (hparameters : p.parameterShapes = c.parameterShapes) {position : Nat}
    {node : Node} (hnode : c.nodes[position]? = some node) {e : Emission}
    {slots : List (Option Shape)} {operandSlots : List Nat} {dst : Nat}
    (hfinds : e.Finds c position slots
      fun id shape => c.shape? id = some shape)
    (hneeded : ∀ x ∈ node.op.operands, c.Needed position x)
    (hslots : List.Forall₂ (fun x slot => e.slotOf? x = some slot)
      node.op.operands operandSlots)
    (hconstants : e.constants ++ Emission.constantOf node.op <+: p.constants) :
    p.shapeIn slots (Emission.instructionOf node.op dst e.constants.length
      operandSlots) = some node.shape := by
  have hfits := hc.fits hnode
  -- what is in the slot of an operand
  have hoperand : ∀ x ∈ node.op.operands, ∀ slot,
      e.slotOf? x = some slot → slots[slot]?.join = some node.shape := by
    intro x hx slot hslot
    obtain ⟨shape, hshape, hx'⟩ := hfinds x slot (hneeded x hx) hslot
    rw [Computation.shape?, hfits.operand_shape x hx] at hx'
    rw [hshape, Option.join_some, hx']
  obtain ⟨op, shape⟩ := node
  cases op with
  | parameter number =>
    rw [Emission.instructionOf, SlotProgram.shapeIn, hparameters]
    exact hc.getElem?_parameterShapes hnode
  | constant value =>
    have hvalue : p.constants[e.constants.length]? = some value := by
      refine hconstants.getElem?_eq_some ?_
      exact List.getElem?_concat_length
    rw [Emission.instructionOf, SlotProgram.shapeIn, List.getElem?_map,
      hvalue]
    exact congrArg some hfits.definedOn
  | unary op x =>
    obtain ⟨slot, _, hslot, -, rfl⟩ := List.forall₂_cons_left_iff.mp hslots
    exact hoperand x List.mem_cons_self slot hslot
  | binary op x y =>
    obtain ⟨slot, _, hslot, -, rfl⟩ := List.forall₂_cons_left_iff.mp hslots
    exact hoperand x List.mem_cons_self slot hslot

/-- **The instructions leave the shapes of all that is needed** in the
slots. -/
theorem WellFormed.finds_shapes (hc : c.WellFormed)
    (hparameters : p.parameterShapes = c.parameterShapes) {e : Emission}
    (he : c.nodes.zipIdx.foldlM (Emission.step c.liveness) .start = .ok e)
    (hcount : e.pool.highWater ≤ p.slotCount)
    (hconstants : e.constants <+: p.constants) :
    e.Finds c c.nodes.length (p.shapesAfter e.instructions)
      fun id shape => c.shape? id = some shape := by
  -- carried along the emission: what the instructions emitted so far leave
  -- in the slots of the whole program
  refine (Emission.sound_and_of_foldlM
    (Q := fun k e => e.pool.highWater ≤ p.slotCount →
      e.constants <+: p.constants →
      e.Finds c k (p.shapesAfter e.instructions)
        fun id shape => c.shape? id = some shape)
    (fun _ _ => Emission.finds_start _)
    (fun _ hdead hfinds hcount hconstants =>
      (hfinds hcount hconstants).skip hdead) ?_ he).2 hcount hconstants
  intro k e node operandSlots hsound hnode hlive hslots hfinds hcount
    hconstants
  have hneeded := hsound.needed_of_forall₂ hnode hlive hslots
  have hbefore := hfinds (Nat.le_trans Emission.highWater_le_extend hcount)
    ((List.prefix_append _ _).trans hconstants)
  have hdst := Nat.lt_of_lt_of_le (hsound.bounded.takeSlot_lt hslots) hcount
  rw [← p.length_shapesAfter e.instructions] at hdst
  have hshape : c.shape? k = some node.shape := by
    rw [shape?, hnode, Option.map_some]
  have hextend := hbefore.extend hsound hneeded hslots hdst hshape
  show Emission.Finds c (k + 1) _ (p.shapesAfter (e.instructions ++ [_])) _
  rwa [SlotProgram.shapesAfter_concat, Emission.dst_instructionOf,
    hc.shapeIn_instructionOf hparameters hnode hbefore hneeded hslots
      hconstants]

/-- **The shapes of the outputs** are those that the instructions leave in
their slots. -/
theorem WellFormed.forall₂_outputShapes (hc : c.WellFormed)
    {stats : CompileStats} (h : c.toSlotProgram = .ok (p, stats)) :
    List.Forall₂ (fun slot shape =>
      (p.shapesAfter p.instructions)[slot]? = some (some shape))
      p.outputSlots p.outputShapes := by
  obtain ⟨e, he, hrest⟩ := Except.bind_eq_ok.mp h
  obtain ⟨outputSlots, houtputs, hp⟩ := Except.bind_eq_ok.mp hrest
  cases hp
  have hfinds := hc.finds_shapes (p := ⟨e.instructions, e.constants,
      c.parameterShapes, outputSlots, c.outputShapes, e.pool.highWater⟩)
    rfl he (Nat.le_refl _) List.prefix_rfl
  have hslots := (List.mapM_eq_ok.mp houtputs).imp
    fun _ _ => Emission.outputSlot_eq_ok.mp
  refine hslots.join (hc.outputShapes_eq_iff.mp rfl).flip
    fun id slot shape hid hslot hshape => ?_
  obtain ⟨found, hfound, hid'⟩ := hfinds id slot
    (needed_of_mem_outputs (hc.output_lt id hid) hid) hslot
  rw [hfound, ← hid', ← hshape]

end Computation

end TensorBind
