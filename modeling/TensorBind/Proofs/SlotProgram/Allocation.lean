import TensorBind.Proofs.Liveness
import TensorBind.SlotProgram.Emission

/-!
# Slots never clash

While a computation is compiled, the values that are still needed sit in
slots of their own. **Needed** at a position is a value that was computed
before it and is an output or is read at it or behind it
(`Computation.Needed`). `Emission.Sound` is what holds after each node: a
needed value has a slot that no other needed value has and that is not
free, and no slot is free twice.

The step over a live node is the heart of it. The slots that are given back
are those of operands that die there, so they are not those of values
needed afterwards; the slot of the result is one of those, or one that was
free, or a new one (`Emission.Sound.extend`). The operands of a live node
have slots, so that the step always succeeds
(`Emission.Sound.exists_operandSlots`).

Whatever the computation, the slots of a program are below the number of
slots it says it has (`Computation.dst_lt_slotCount`).
-/

namespace TensorBind

/-! ## The pool of slots -/

namespace SlotPool

variable {pool : SlotPool} {slot : Nat}

/-- **A slot that is taken** was the first free one, or none was free and
it is new. -/
theorem take_cases (pool : SlotPool) :
    (∃ slot free, pool = ⟨slot :: free, pool.highWater⟩
      ∧ pool.take = (slot, ⟨free, pool.highWater⟩))
    ∨ pool = ⟨[], pool.highWater⟩
      ∧ pool.take = (pool.highWater, ⟨[], pool.highWater + 1⟩) := by
  obtain ⟨free, highWater⟩ := pool
  cases free with
  | nil => exact .inr ⟨rfl, rfl⟩
  | cons slot free => exact .inl ⟨slot, free, rfl, rfl⟩

/-- Slots are made and never unmade. -/
theorem highWater_le_take (pool : SlotPool) :
    pool.highWater ≤ pool.take.2.highWater := by
  obtain ⟨slot, free, -, h⟩ | ⟨-, h⟩ := pool.take_cases
  · exact Nat.le_of_eq (by rw [h])
  · exact Nat.le_trans (Nat.le_succ _) (Nat.le_of_eq (by rw [h]))

/-- Taking a slot makes no other slot free. -/
theorem mem_free_of_mem_take (h : slot ∈ pool.take.2.free) :
    slot ∈ pool.free := by
  obtain ⟨first, free, hpool, htake⟩ | ⟨-, htake⟩ := pool.take_cases
  · rw [htake] at h
    rw [hpool]
    exact List.mem_cons_of_mem _ h
  · rw [htake] at h
    exact absurd h List.not_mem_nil

/-- The slot that is taken was free, or it is new. -/
theorem take_mem_free_or_eq (pool : SlotPool) :
    pool.take.1 ∈ pool.free ∨ pool.take.1 = pool.highWater := by
  obtain ⟨slot, free, hpool, htake⟩ | ⟨-, htake⟩ := pool.take_cases
  · rw [htake, hpool]
    exact .inl List.mem_cons_self
  · exact .inr (by rw [htake])

/-- The slot that is taken has been made. -/
theorem take_lt (h : ∀ slot ∈ pool.free, slot < pool.highWater) :
    pool.take.1 < pool.take.2.highWater := by
  obtain ⟨slot, free, hpool, htake⟩ | ⟨-, htake⟩ := pool.take_cases
  · rw [htake]
    exact h slot (by rw [hpool]; exact List.mem_cons_self)
  · rw [htake]
    exact Nat.lt_succ_self _

/-- **No slot is free twice** after one was taken, nor is that one free. -/
theorem nodup_take (h : pool.free.Nodup) :
    (pool.take.1 :: pool.take.2.free).Nodup := by
  obtain ⟨slot, free, hpool, htake⟩ | ⟨-, htake⟩ := pool.take_cases
  · rw [htake]
    rwa [hpool] at h
  · rw [htake]
    exact List.nodup_singleton _

end SlotPool

namespace Emission

/-- The slots that are given back at a position, in the order in which they
are. -/
def dyingSlots (liveness : Liveness) (position : Nat)
    (operands : List (Nat × Nat)) : List Nat :=
  (operands.eraseDups.filter fun operand =>
    liveness.diesAt operand.1 position).map Prod.snd

/-- Giving back the operands that die puts their slots in front. -/
theorem releaseOperands_eq (liveness : Liveness) (position : Nat)
    (operands : List (Nat × Nat)) (pool : SlotPool) :
    releaseOperands liveness position operands pool
      = ⟨(dyingSlots liveness position operands).reverse ++ pool.free,
        pool.highWater⟩ := by
  unfold releaseOperands dyingSlots
  generalize operands.eraseDups = operands
  induction operands generalizing pool with
  | nil => rfl
  | cons operand operands ih =>
    rw [List.foldl_cons, ih, List.filter_cons]
    by_cases hdies : liveness.diesAt operand.1 position
    · simp [hdies, SlotPool.release]
    · simp [hdies]

/-- **A slot is given back** exactly if it is that of an operand that
dies. -/
theorem mem_dyingSlots {liveness : Liveness} {position slot : Nat}
    {operands : List (Nat × Nat)} :
    slot ∈ dyingSlots liveness position operands
      ↔ ∃ operand, (operand, slot) ∈ operands
        ∧ liveness.diesAt operand position := by
  simp [dyingSlots]

/-- What is left after leaving out repetitions has none. -/
theorem nodup_eraseDups {α : Type} [BEq α] [LawfulBEq α] (l : List α) :
    l.eraseDups.Nodup := by
  match l with
  | [] => exact List.nodup_nil
  | a :: l =>
    rw [List.eraseDups_cons, List.nodup_cons, List.mem_eraseDups]
    exact ⟨by simp, nodup_eraseDups _⟩
termination_by l.length
decreasing_by exact Nat.lt_succ_of_le (List.length_filter_le _ _)

/-- Slots that tell their operands apart are given back once each. -/
theorem nodup_dyingSlots {liveness : Liveness} {position : Nat}
    {operands : List (Nat × Nat)}
    (hinj : ∀ x ∈ operands, ∀ y ∈ operands, x.2 = y.2 → x = y) :
    (dyingSlots liveness position operands).Nodup := by
  refine List.Nodup.map_on (fun x hx y hy => ?_)
    ((nodup_eraseDups _).filter _)
  rw [List.mem_filter, List.mem_eraseDups] at hx hy
  exact hinj x hx.1 y hy.1

/-! ## One node -/

variable {liveness : Liveness} {e e' : Emission} {op : NodeOp}
  {position id slot : Nat} {operandSlots : List Nat}

theorem operandSlot_eq_ok :
    e.operandSlot position id = .ok slot ↔ e.slotOf? id = some slot := by
  unfold operandSlot
  cases e.slotOf? id <;> simp

theorem outputSlot_eq_ok :
    e.outputSlot id = .ok slot ↔ e.slotOf? id = some slot := by
  unfold outputSlot
  cases e.slotOf? id <;> simp

/-- **A node is emitted** exactly if its operands have slots. -/
theorem emit_eq_ok {node : Node} :
    e.emit liveness node position = .ok e' ↔ ∃ operandSlots,
      List.Forall₂ (fun x slot => e.slotOf? x = some slot)
        node.op.operands operandSlots
      ∧ e' = e.extend liveness node.op position operandSlots := by
  unfold emit
  simp only [Except.bind_eq_ok, List.mapM_eq_ok, operandSlot_eq_ok,
    Except.pure_eq_ok_iff]
  exact exists_congr fun _ => and_congr_right' eq_comm

/-- Only nodes that the pass has visited have slots. -/
theorem lt_length_of_slotOf? (h : e.slotOf? id = some slot) :
    id < e.slots.length := by
  rw [slotOf?, Option.join_eq_some_iff] at h
  exact (List.getElem?_eq_some_iff.mp h).1

/-- The node that was emitted last gets the slot that was taken, and all
others keep theirs. -/
theorem slotOf?_extend :
    (e.extend liveness op position operandSlots).slotOf? id
      = if id = e.slots.length then
          some (e.takeSlot liveness op position operandSlots).1
        else e.slotOf? id := by
  show (e.slots
    ++ [some (e.takeSlot liveness op position operandSlots).1])[id]?.join = _
  rw [List.getElem?_append, List.getElem?_singleton, slotOf?]
  rcases Nat.lt_trichotomy id e.slots.length with h | h | h
  · rw [if_pos h, if_neg (by omega)]
  · subst h
    simp
  · rw [if_neg (by omega), if_neg (by omega), if_neg (by omega),
      List.getElem?_eq_none (by omega)]

/-- A node that is passed over has no slot, and all others keep theirs. -/
theorem slotOf?_skip : e.skip.slotOf? id = e.slotOf? id := by
  show (e.slots ++ [none])[id]?.join = e.slots[id]?.join
  rcases Nat.lt_or_ge id e.slots.length with h | h
  · rw [List.getElem?_append_left h]
  · rw [List.getElem?_append_right h, List.getElem?_eq_none h,
      List.getElem?_singleton]
    split <;> rfl

/-- Free once the operands that die have given their slots back are those
slots and those that were free. -/
theorem mem_free_releaseOperands {pool : SlotPool}
    (hslots : List.Forall₂ (fun x slot => e.slotOf? x = some slot)
      op.operands operandSlots)
    (h : slot ∈ (releaseOperands liveness position
      (op.operands.zip operandSlots) pool).free) :
    slot ∈ pool.free ∨ ∃ x ∈ op.operands, e.slotOf? x = some slot
      ∧ liveness.diesAt x position := by
  rw [releaseOperands_eq, List.mem_append, List.mem_reverse] at h
  refine h.symm.imp_right fun hdying => ?_
  obtain ⟨x, hzip, hdies⟩ := mem_dyingSlots.mp hdying
  exact ⟨x, (List.of_mem_zip hzip).1,
    (List.forall₂_iff_zip.mp hslots).2 hzip, hdies⟩

/-! ## Slots below the number of slots -/

/-- **Only slots that have been made are in use**, whatever the
computation. -/
structure Bounded (e : Emission) : Prop where
  /-- Free slots have been made. -/
  free_lt : ∀ slot ∈ e.pool.free, slot < e.pool.highWater
  /-- Slots of nodes have been made. -/
  slot_lt : ∀ {id slot : Nat}, e.slotOf? id = some slot →
    slot < e.pool.highWater
  /-- Slots that instructions write have been made. -/
  dst_lt : ∀ i ∈ e.instructions, i.dst < e.pool.highWater

theorem bounded_start : start.Bounded :=
  ⟨fun _ h => absurd h List.not_mem_nil,
    fun h => absurd (lt_length_of_slotOf? h) (Nat.not_lt_zero _),
    fun _ h => absurd h List.not_mem_nil⟩

theorem dst_instructionOf (op : NodeOp) (dst constant : Nat)
    (operands : List Nat) :
    (instructionOf op dst constant operands).dst = dst := by
  cases op <;> rfl

/-- Going back to the pool gives no slot that was not made. -/
theorem Bounded.release (h : e.Bounded)
    (hslots : List.Forall₂ (fun x slot => e.slotOf? x = some slot)
      op.operands operandSlots) :
    ∀ slot ∈ (releaseOperands liveness position
      (op.operands.zip operandSlots) e.pool).free,
      slot < e.pool.highWater := by
  intro slot hslot
  obtain hfree | ⟨x, -, hx, -⟩ := mem_free_releaseOperands hslots hslot
  · exact h.free_lt slot hfree
  · exact h.slot_lt hx

theorem highWater_le_extend :
    e.pool.highWater
      ≤ (e.extend liveness op position operandSlots).pool.highWater := by
  refine Nat.le_trans (Nat.le_of_eq ?_) (SlotPool.highWater_le_take _)
  rw [releaseOperands_eq]

/-- The slot that is taken has been made. -/
theorem Bounded.takeSlot_lt (h : e.Bounded)
    (hslots : List.Forall₂ (fun x slot => e.slotOf? x = some slot)
      op.operands operandSlots) :
    (e.takeSlot liveness op position operandSlots).1
      < (e.extend liveness op position operandSlots).pool.highWater := by
  refine SlotPool.take_lt fun slot hslot => ?_
  rw [show (releaseOperands liveness position (op.operands.zip operandSlots)
    e.pool).highWater = e.pool.highWater by rw [releaseOperands_eq]]
  exact h.release hslots slot hslot

/-- Emitting a node keeps the bound. -/
theorem Bounded.extend (h : e.Bounded)
    (hslots : List.Forall₂ (fun x slot => e.slotOf? x = some slot)
      op.operands operandSlots) :
    (e.extend liveness op position operandSlots).Bounded := by
  have hle : e.pool.highWater
      ≤ (e.extend liveness op position operandSlots).pool.highWater :=
    highWater_le_extend
  have hdst : (e.takeSlot liveness op position operandSlots).1
      < (e.extend liveness op position operandSlots).pool.highWater :=
    h.takeSlot_lt hslots
  constructor
  · intro slot hslot
    exact Nat.lt_of_lt_of_le
      (h.release hslots slot (SlotPool.mem_free_of_mem_take hslot)) hle
  · intro id slot hslot
    rw [slotOf?_extend] at hslot
    split at hslot
    · cases hslot
      exact hdst
    · exact Nat.lt_of_lt_of_le (h.slot_lt hslot) hle
  · intro i hi
    rcases List.mem_append.mp hi with hi | hi
    · exact Nat.lt_of_lt_of_le (h.dst_lt i hi) hle
    · rw [List.mem_singleton.mp hi, dst_instructionOf]
      exact hdst

/-- Passing over a node keeps the bound. -/
theorem Bounded.skip (h : e.Bounded) : e.skip.Bounded :=
  ⟨h.free_lt, fun hslot => h.slot_lt (slotOf?_skip ▸ hslot), h.dst_lt⟩

/-- **Every step keeps the bound.** -/
theorem Bounded.step (h : e.Bounded) {node : Node × Nat}
    (hstep : Emission.step liveness e node = .ok e') : e'.Bounded := by
  unfold Emission.step at hstep
  split at hstep
  · obtain ⟨operandSlots, hslots, rfl⟩ := emit_eq_ok.mp hstep
    exact h.extend hslots
  · cases hstep
    exact h.skip

/-- Every step goes past one node. -/
theorem length_slots_step {node : Node × Nat}
    (h : step liveness e node = .ok e') :
    e'.slots.length = e.slots.length + 1 := by
  unfold step at h
  split at h
  · obtain ⟨operandSlots, -, rfl⟩ := emit_eq_ok.mp h
    exact List.length_append
  · cases h
    exact List.length_append

end Emission

namespace Computation

variable {c : Computation} {position id : Nat}

/-- **The instructions of a compiled program write slots it has.** -/
theorem dst_lt_slotCount {p : SlotProgram} {stats : CompileStats}
    (h : c.toSlotProgram = .ok (p, stats)) :
    ∀ i ∈ p.instructions, i.dst < p.slotCount := by
  obtain ⟨e, he, hrest⟩ := Except.bind_eq_ok.mp h
  obtain ⟨outputSlots, -, hp⟩ := Except.bind_eq_ok.mp hrest
  have hbounded : e.Bounded :=
    List.foldlM_invariant (fun _ e => e.Bounded) Emission.bounded_start
      (fun _ _ _ _ hb hstep => hb.step hstep) he
  cases hp
  exact hbounded.dst_lt

/-- **A compiled program has a shape for each output** of the
computation. -/
theorem length_outputShapes {p : SlotProgram} {stats : CompileStats}
    (h : c.toSlotProgram = .ok (p, stats)) :
    p.outputShapes.length = c.outputs.length := by
  obtain ⟨e, he, hrest⟩ := Except.bind_eq_ok.mp h
  obtain ⟨outputSlots, hslots, hp⟩ := Except.bind_eq_ok.mp hrest
  have hlength : e.slots.length = c.nodes.zipIdx.length :=
    List.foldlM_invariant (fun k e => e.slots.length = k) rfl
      (fun _ _ _ _ hk hstep =>
        (Emission.length_slots_step hstep).trans (congrArg (· + 1) hk)) he
  rw [List.length_zipIdx] at hlength
  -- an output has a slot, so it is one of the nodes
  have hlt : ∀ id ∈ c.outputs, id < c.nodes.length := by
    intro id hid
    obtain ⟨slot, -, hslot⟩ := (List.mapM_eq_ok.mp hslots).exists_of_mem hid
    exact hlength ▸ Emission.lt_length_of_slotOf?
      (Emission.outputSlot_eq_ok.mp hslot)
  cases hp
  have hshapes := congrArg List.length (filterMap_shape? hlt)
  rw [List.length_map, List.length_map] at hshapes
  exact hshapes

/-! ## Values that are needed -/

/-- **A value that is needed** at a position: it was computed before, and
it is an output or is read there or behind. -/
structure Needed (c : Computation) (position id : Nat) : Prop where
  /-- It was computed before. -/
  lt : id < position
  /-- It was computed, some output depending on it. -/
  live : c.liveness.isLive id
  /-- It is kept, or a live node has yet to read it. -/
  used : id ∈ c.outputs ∨ ∃ reader, position ≤ reader
    ∧ c.liveness.isLive reader ∧ id ∈ c.operandsOf reader

/-- What is needed behind a node was needed at it, unless it is its own
value, and does not die at it. -/
theorem Needed.of_succ (h : c.Needed (position + 1) id)
    (hlt : id < position) :
    c.Needed position id ∧ ¬c.liveness.diesAt id position := by
  refine ⟨⟨hlt, h.live, h.used.imp_right ?_⟩, fun hdies => ?_⟩
  · rintro ⟨reader, hle, hreader⟩
    exact ⟨reader, by omega, hreader⟩
  · obtain hout | ⟨reader, hle, hlive, hread⟩ := h.used
    · exact notMem_outputs_of_diesAt hdies hout
    · have := le_of_diesAt hdies hlive hread
      omega

/-- What a live node reads is needed at it, if it was computed before. -/
theorem needed_of_mem_operands {node : Node}
    (hnode : c.nodes[position]? = some node)
    (hlive : c.liveness.isLive position) (h : id ∈ node.op.operands)
    (hlt : id < position) : c.Needed position id := by
  have hread : id ∈ c.operandsOf position := by
    rw [operandsOf, hnode]
    exact h
  have hposition := lt_length_of_isLive hlive
  exact ⟨hlt, isLive_of_mem_operandsOf (by omega) hlive hread,
    .inr ⟨position, Nat.le_refl _, hlive, hread⟩⟩

/-- In a well-formed computation, what a live node reads is needed at
it. -/
theorem WellFormed.needed_of_mem_operands (hc : c.WellFormed)
    {node : Node} (hnode : c.nodes[position]? = some node)
    (hlive : c.liveness.isLive position) (h : id ∈ node.op.operands) :
    c.Needed position id :=
  Computation.needed_of_mem_operands hnode hlive h
    ((hc.fits hnode).operand_lt id h)

/-- An output is needed to the end. -/
theorem needed_of_mem_outputs (hlt : id < c.nodes.length)
    (h : id ∈ c.outputs) : c.Needed c.nodes.length id :=
  ⟨hlt, isLive_of_mem_outputs hlt h, .inl h⟩

end Computation

namespace Emission

variable {c : Computation} {e : Emission} {op : NodeOp}
  {position id slot : Nat} {operandSlots : List Nat}

/-- **What holds after the nodes before a position.** -/
structure Sound (c : Computation) (position : Nat) (e : Emission) :
    Prop where
  /-- Each node has been visited. -/
  length_eq : e.slots.length = position
  /-- A live node has a slot. -/
  exists_slot : ∀ {id : Nat}, id < position → c.liveness.isLive id →
    ∃ slot, e.slotOf? id = some slot
  /-- All slots have been made. -/
  bounded : e.Bounded
  /-- No slot is free twice. -/
  nodup_free : e.pool.free.Nodup
  /-- The slot of a value that is needed is not free. -/
  notMem_free : ∀ {id slot : Nat}, c.Needed position id →
    e.slotOf? id = some slot → slot ∉ e.pool.free
  /-- Two values that are needed have different slots. -/
  slot_injective : ∀ {id id' slot : Nat}, c.Needed position id →
    c.Needed position id' → e.slotOf? id = some slot →
    e.slotOf? id' = some slot → id = id'

theorem sound_start (c : Computation) : start.Sound c 0 where
  length_eq := rfl
  exists_slot := fun h => absurd h (Nat.not_lt_zero _)
  bounded := bounded_start
  nodup_free := List.nodup_nil
  notMem_free := fun h => absurd h.lt (Nat.not_lt_zero _)
  slot_injective := fun h => absurd h.lt (Nat.not_lt_zero _)

/-- Passing over a dead node changes nothing for the values needed. -/
theorem Sound.skip (h : e.Sound c position)
    (hdead : ¬c.liveness.isLive position) : e.skip.Sound c (position + 1) := by
  have hneeded : ∀ {id}, c.Needed (position + 1) id →
      c.Needed position id := by
    intro id hid
    have hne : id ≠ position := fun heq => hdead (heq ▸ hid.live)
    have := hid.lt
    exact (hid.of_succ (by omega)).1
  refine ⟨?_, ?_, h.bounded.skip, h.nodup_free, ?_, ?_⟩
  · simp [Emission.skip, h.length_eq]
  · intro id hid hlive
    have hne : id ≠ position := fun heq => hdead (heq ▸ hlive)
    rw [slotOf?_skip]
    exact h.exists_slot (by omega) hlive
  · intro id slot hid hslot
    rw [slotOf?_skip] at hslot
    exact h.notMem_free (hneeded hid) hslot
  · intro id id' slot hid hid' hslot hslot'
    rw [slotOf?_skip] at hslot hslot'
    exact h.slot_injective (hneeded hid) (hneeded hid') hslot hslot'

/-- **The operands of a live node have slots.** -/
theorem Sound.exists_operandSlots (h : e.Sound c position)
    (hneeded : ∀ x ∈ op.operands, c.Needed position x) :
    ∃ operandSlots, List.Forall₂ (fun x slot => e.slotOf? x = some slot)
      op.operands operandSlots := by
  refine List.exists_forall₂ fun x hx => ?_
  exact h.exists_slot (hneeded x hx).lt (hneeded x hx).live

/-- No slot is free twice once the operands that die have given theirs
back. -/
theorem Sound.nodup_release (h : e.Sound c position)
    (hneeded : ∀ x ∈ op.operands, c.Needed position x)
    (hslots : List.Forall₂ (fun x slot => e.slotOf? x = some slot)
      op.operands operandSlots) :
    (releaseOperands c.liveness position (op.operands.zip operandSlots)
      e.pool).free.Nodup := by
  have hzip : ∀ x ∈ op.operands.zip operandSlots,
      c.Needed position x.1 ∧ e.slotOf? x.1 = some x.2 := fun x hx =>
    ⟨hneeded _ (List.of_mem_zip hx).1, (List.forall₂_iff_zip.mp hslots).2 hx⟩
  rw [releaseOperands_eq, List.nodup_append', List.nodup_reverse]
  refine ⟨nodup_dyingSlots fun x hx y hy heq => ?_, h.nodup_free, ?_⟩
  · have hy2 := heq ▸ (hzip y hy).2
    exact Prod.ext
      (h.slot_injective (hzip x hx).1 (hzip y hy).1 (hzip x hx).2 hy2) heq
  · intro slot hdying hfree
    rw [List.mem_reverse, mem_dyingSlots] at hdying
    obtain ⟨x, hx, -⟩ := hdying
    exact h.notMem_free (hzip _ hx).1 (hzip _ hx).2 hfree

/-- The slot of a value that is needed behind a node is not given back at
it. -/
theorem Sound.notMem_release (h : e.Sound c position)
    (hneeded : ∀ x ∈ op.operands, c.Needed position x)
    (hslots : List.Forall₂ (fun x slot => e.slotOf? x = some slot)
      op.operands operandSlots)
    (hid : c.Needed (position + 1) id) (hlt : id < position)
    (hslot : e.slotOf? id = some slot) :
    slot ∉ (releaseOperands c.liveness position
      (op.operands.zip operandSlots) e.pool).free := by
  obtain ⟨hold, hkept⟩ := hid.of_succ hlt
  intro hmem
  obtain hfree | ⟨x, hx, hxslot, hdies⟩ :=
    mem_free_releaseOperands hslots hmem
  · exact h.notMem_free hold hslot hfree
  · obtain rfl : id = x :=
      h.slot_injective hold (hneeded x hx) hslot hxslot
    exact hkept hdies

/-- **The slot of a result** is not that of a value needed behind it. -/
theorem Sound.takeSlot_ne (h : e.Sound c position)
    (hneeded : ∀ x ∈ op.operands, c.Needed position x)
    (hslots : List.Forall₂ (fun x slot => e.slotOf? x = some slot)
      op.operands operandSlots)
    (hid : c.Needed (position + 1) id) (hlt : id < position)
    (hslot : e.slotOf? id = some slot) :
    (e.takeSlot c.liveness op position operandSlots).1 ≠ slot := by
  rintro rfl
  rcases SlotPool.take_mem_free_or_eq (releaseOperands c.liveness position
    (op.operands.zip operandSlots) e.pool) with hfree | hnew
  · exact h.notMem_release hneeded hslots hid hlt hslot hfree
  · refine Nat.lt_irrefl _ (Nat.lt_of_lt_of_eq (h.bounded.slot_lt hslot) ?_)
    rw [takeSlot, hnew, releaseOperands_eq]

/-- **Emitting a live node keeps the slots of needed values apart.** -/
theorem Sound.extend (h : e.Sound c position)
    (hneeded : ∀ x ∈ op.operands, c.Needed position x)
    (hslots : List.Forall₂ (fun x slot => e.slotOf? x = some slot)
      op.operands operandSlots) :
    (e.extend c.liveness op position operandSlots).Sound c
      (position + 1) := by
  have htaken := SlotPool.nodup_take (h.nodup_release hneeded hslots)
  rw [List.nodup_cons] at htaken
  -- each node is the one just emitted or one with the slot it had
  have hslotOf : ∀ {id slot}, id < position + 1 →
      (e.extend c.liveness op position operandSlots).slotOf? id = some slot →
      id = position
        ∧ (e.takeSlot c.liveness op position operandSlots).1 = slot
      ∨ id < position ∧ e.slotOf? id = some slot := by
    intro id slot hid hslot
    rw [slotOf?_extend, h.length_eq] at hslot
    split at hslot
    · rename_i heq
      exact .inl ⟨heq, Option.some.inj hslot⟩
    · exact .inr ⟨by omega, hslot⟩
  refine ⟨?_, ?_, h.bounded.extend hslots, htaken.2, ?_, ?_⟩
  · simp [Emission.extend, h.length_eq]
  · intro id hid hlive
    rw [slotOf?_extend, h.length_eq]
    split
    · exact ⟨_, rfl⟩
    · exact h.exists_slot (by omega) hlive
  · intro id slot hid hslot
    obtain ⟨-, rfl⟩ | ⟨hlt, hold⟩ := hslotOf hid.lt hslot
    · exact htaken.1
    · exact fun hmem => h.notMem_release hneeded hslots hid hlt hold
        (SlotPool.mem_free_of_mem_take hmem)
  · intro id id' slot hid hid' hslot hslot'
    obtain ⟨heq, hdst⟩ | ⟨hlt, hold⟩ := hslotOf hid.lt hslot
    · obtain ⟨heq', -⟩ | ⟨hlt', hold'⟩ := hslotOf hid'.lt hslot'
      · exact heq.trans heq'.symm
      · exact absurd hdst (h.takeSlot_ne hneeded hslots hid' hlt' hold')
    · obtain ⟨-, hdst'⟩ | ⟨hlt', hold'⟩ := hslotOf hid'.lt hslot'
      · exact absurd hdst' (h.takeSlot_ne hneeded hslots hid hlt hold)
      · exact h.slot_injective (hid.of_succ hlt).1 (hid'.of_succ hlt').1
          hold hold'

/-- What has slots was computed before. -/
theorem Sound.needed_of_forall₂ (h : e.Sound c position) {node : Node}
    (hnode : c.nodes[position]? = some node)
    (hlive : c.liveness.isLive position)
    (hslots : List.Forall₂ (fun x slot => e.slotOf? x = some slot)
      node.op.operands operandSlots) :
    ∀ x ∈ node.op.operands, c.Needed position x := by
  intro x hx
  obtain ⟨slot, -, hslot⟩ := hslots.exists_of_mem hx
  exact Computation.needed_of_mem_operands hnode hlive hx
    (h.length_eq ▸ lt_length_of_slotOf? hslot)

/-- **A property that emitting a live node and passing over a dead one
keep** holds at the end, and the slots are kept apart. -/
theorem sound_and_of_foldlM {Q : Nat → Emission → Prop} (hstart : Q 0 start)
    (hskip : ∀ {k : Nat} {e : Emission}, e.Sound c k →
      ¬c.liveness.isLive k → Q k e → Q (k + 1) e.skip)
    (hextend : ∀ {k : Nat} {e : Emission} {node : Node}
      {operandSlots : List Nat}, e.Sound c k → c.nodes[k]? = some node →
      c.liveness.isLive k →
      List.Forall₂ (fun x slot => e.slotOf? x = some slot) node.op.operands
        operandSlots →
      Q k e → Q (k + 1) (e.extend c.liveness node.op k operandSlots))
    (he : c.nodes.zipIdx.foldlM (step c.liveness) start = .ok e) :
    e.Sound c c.nodes.length ∧ Q c.nodes.length e := by
  have hend := List.foldlM_invariant (fun k e => e.Sound c k ∧ Q k e)
    ⟨sound_start c, hstart⟩ ?_ he
  · rwa [List.length_zipIdx] at hend
  · rintro k hk e e' ⟨hsound, hQ⟩ hstep
    rw [List.length_zipIdx] at hk
    have hnode := List.getElem?_eq_getElem hk
    simp only [List.getElem_zipIdx, Nat.zero_add, step] at hstep
    by_cases hlive : c.liveness.isLive k
    · rw [if_pos hlive] at hstep
      obtain ⟨operandSlots, hslots, rfl⟩ := emit_eq_ok.mp hstep
      exact ⟨hsound.extend (hsound.needed_of_forall₂ hnode hlive hslots)
        hslots, hextend hsound hnode hlive hslots hQ⟩
    · rw [if_neg hlive, Except.ok.injEq] at hstep
      subst hstep
      exact ⟨hsound.skip hlive, hskip hsound hlive hQ⟩

/-! ## Finding what is needed -/

variable {α : Type} {slots : List (Option α)} {P Q : Nat → α → Prop}

/-- **Slots in which all that is needed is found**: the slot of each needed
value holds something that stands for it. -/
def Finds (c : Computation) (position : Nat) (e : Emission)
    (slots : List (Option α)) (P : Nat → α → Prop) : Prop :=
  ∀ id slot, c.Needed position id → e.slotOf? id = some slot →
    ∃ a, slots[slot]? = some (some a) ∧ P id a

/-- Nothing is needed at the start. -/
theorem finds_start (e : Emission) : e.Finds c 0 slots P :=
  fun _ _ h => absurd h.lt (Nat.not_lt_zero _)

theorem Finds.mono (h : e.Finds c position slots P)
    (hPQ : ∀ id a, P id a → Q id a) : e.Finds c position slots Q := by
  intro id slot hid hslot
  obtain ⟨a, ha, hP⟩ := h id slot hid hslot
  exact ⟨a, ha, hPQ id a hP⟩

/-- Passing over a dead node asks nothing of the slots. -/
theorem Finds.skip (h : e.Finds c position slots P)
    (hdead : ¬c.liveness.isLive position) :
    e.skip.Finds c (position + 1) slots P := by
  intro id slot hid hslot
  have hne : id ≠ position := fun heq => hdead (heq ▸ hid.live)
  have := hid.lt
  rw [slotOf?_skip] at hslot
  exact h id slot (hid.of_succ (by omega)).1 hslot

/-- **Writing what stands for a live node into its slot** keeps all that is
needed behind it. -/
theorem Finds.extend (h : e.Finds c position slots P)
    (he : e.Sound c position)
    (hneeded : ∀ x ∈ op.operands, c.Needed position x)
    (hslots : List.Forall₂ (fun x slot => e.slotOf? x = some slot)
      op.operands operandSlots)
    (hdst : (e.takeSlot c.liveness op position operandSlots).1
      < slots.length) {a : α} (ha : P position a) :
    (e.extend c.liveness op position operandSlots).Finds c (position + 1)
      (slots.set (e.takeSlot c.liveness op position operandSlots).1
        (some a)) P := by
  intro id slot hid hslot
  rw [slotOf?_extend, he.length_eq] at hslot
  split at hslot
  · -- the value just computed
    rename_i heq
    subst heq
    rw [Option.some.injEq] at hslot
    subst hslot
    exact ⟨a, List.getElem?_set_self hdst, ha⟩
  · -- a value that was there, and whose slot is another
    rename_i hne
    have hlt : id < position := by
      have := hid.lt
      omega
    obtain ⟨old, hold, hP⟩ := h id slot (hid.of_succ hlt).1 hslot
    refine ⟨old, ?_, hP⟩
    rw [List.getElem?_set_ne
      (he.takeSlot_ne hneeded hslots hid hlt hslot), hold]

end Emission

end TensorBind
