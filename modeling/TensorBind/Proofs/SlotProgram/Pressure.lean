import TensorBind.Proofs.Liveness.Exact
import TensorBind.Proofs.SlotProgram.Shapes

/-!
# No slot is wasted

Behind each node, some of the values computed so far are still needed. How
many is the **pressure** there (`Computation.pressure`), and a program needs
at least as many slots as the largest pressure. It is compiled to exactly
that many (`Computation.toSlotProgram_slots_optimal`).

What makes it so is that the pool accounts for all slots at every moment
(`SlotPool.Partition`): a slot that was made holds a needed value or is free,
and never both. A value that is needed at a node and not behind it is an
operand that dies there, so its slot is given back; and a new slot is made
only when none is free, that is, when all slots hold needed values.
-/

namespace TensorBind

/-! ## What is needed behind a node -/

namespace Computation

variable {c : Computation} {position id : Nat}

/-- Only nodes can have yet to read a value. -/
theorem needed_iff : c.Needed position id
    ↔ id < position ∧ c.liveness.isLive id
      ∧ (id ∈ c.outputs ∨ ∃ reader ∈ List.range c.nodes.length,
        position ≤ reader ∧ c.liveness.isLive reader
          ∧ id ∈ c.operandsOf reader) := by
  constructor
  · rintro ⟨hlt, hlive, hused⟩
    refine ⟨hlt, hlive, hused.imp_right ?_⟩
    rintro ⟨reader, hle, hreader, hread⟩
    exact ⟨reader, List.mem_range.mpr (lt_length_of_isLive hreader), hle,
      hreader, hread⟩
  · rintro ⟨hlt, hlive, hused⟩
    refine ⟨hlt, hlive, hused.imp_right ?_⟩
    rintro ⟨reader, -, hreader⟩
    exact ⟨reader, hreader⟩

instance (c : Computation) (position id : Nat) :
    Decidable (c.Needed position id) :=
  decidable_of_iff _ needed_iff.symm

/-- **The nodes whose values are needed behind a position**: live nodes up
to it that are outputs or that a live node behind it reads. -/
def neededBehind (c : Computation) (position : Nat) : Finset Nat :=
  (Finset.range (position + 1)).filter (c.Needed (position + 1))

/-- **The pressure at a position**: how many values are needed behind it. -/
def pressure (c : Computation) (position : Nat) : Nat :=
  (c.neededBehind position).card

/-- The live nodes before a position. -/
def liveBefore (c : Computation) (position : Nat) : Finset Nat :=
  (Finset.range position).filter fun id => c.liveness.isLive id

/-- **An assignment of slots without interference**: two values that are
needed behind the same node have different slots. -/
def InterferenceFree (c : Computation) (slot : Nat → Nat) : Prop :=
  ∀ p, Set.InjOn slot (c.neededBehind p)

@[simp] theorem mem_neededBehind :
    id ∈ c.neededBehind position ↔ c.Needed (position + 1) id := by
  rw [neededBehind, Finset.mem_filter, Finset.mem_range]
  exact and_iff_right_of_imp Needed.lt

@[simp] theorem mem_liveBefore : id ∈ c.liveBefore position
    ↔ id < position ∧ c.liveness.isLive id := by
  rw [liveBefore, Finset.mem_filter, Finset.mem_range]

/-- **What is needed at a node is needed behind it**, unless the node reads
it and it dies there. -/
theorem WellFormed.needed_succ_or_diesAt (hc : c.WellFormed)
    (h : c.Needed position id) :
    c.Needed (position + 1) id
      ∨ id ∈ c.operandsOf position ∧ c.liveness.diesAt id position := by
  by_cases hlater : c.Needed (position + 1) id
  · exact .inl hlater
  have hunused : ∀ reader ∈ c.readers id, reader ≤ position := by
    intro reader hreader
    by_contra hlt
    obtain ⟨hlive, hread⟩ := mem_readers.mp hreader
    exact hlater ⟨Nat.lt_succ_of_lt h.lt, h.live,
      .inr ⟨reader, Nat.lt_of_not_le hlt, hlive, hread⟩⟩
  have hout : id ∉ c.outputs := fun hout =>
    hlater ⟨Nat.lt_succ_of_lt h.lt, h.live, .inl hout⟩
  obtain ⟨reader, hle, hlive, hread⟩ := h.used.resolve_left hout
  have hreader : reader ∈ c.readers id := mem_readers.mpr ⟨hlive, hread⟩
  obtain rfl : reader = position :=
    Nat.le_antisymm (hunused reader hreader) hle
  exact .inr ⟨hread, hc.diesAt_iff_isGreatest.mpr
    ⟨h.live, hout, hreader, hunused⟩⟩

/-- **The value of a live node is needed behind it.** -/
theorem WellFormed.needed_self (hc : c.WellFormed)
    (hlive : c.liveness.isLive position) :
    c.Needed (position + 1) position := by
  refine ⟨Nat.lt_succ_self _, hlive, ?_⟩
  by_cases hout : position ∈ c.outputs
  · exact .inl hout
  · obtain ⟨reader, hreader⟩ := readers_nonempty hlive hout
    obtain ⟨hrlive, hread⟩ := mem_readers.mp hreader
    exact .inr ⟨reader, hc.lt_of_mem_operandsOf hread, hrlive, hread⟩

/-- A dead node takes nothing away from what is needed. -/
theorem Needed.succ_of_dead (h : c.Needed position id)
    (hdead : ¬c.liveness.isLive position) : c.Needed (position + 1) id := by
  refine ⟨Nat.lt_succ_of_lt h.lt, h.live, h.used.imp_right ?_⟩
  rintro ⟨reader, hle, hlive, hread⟩
  refine ⟨reader, Nat.lt_of_le_of_ne hle ?_, hlive, hread⟩
  rintro rfl
  exact hdead hlive

/-- Behind the last node, what is needed is needed at the end. -/
theorem Needed.of_length_le (h : c.Needed (position + 1) id)
    (hle : c.nodes.length ≤ position) : c.Needed c.nodes.length id := by
  refine ⟨lt_length_of_isLive h.live, h.live, h.used.imp_right ?_⟩
  rintro ⟨reader, hlt, hreader⟩
  exact ⟨reader, by omega, hreader⟩

/-- **An assignment without interference has a slot for each of the values
that are needed at once.** -/
theorem InterferenceFree.sup_pressure_le {slot : Nat → Nat}
    (h : c.InterferenceFree slot) :
    (c.liveBefore c.nodes.length).sup c.pressure
      ≤ ((c.liveBefore c.nodes.length).image slot).card := by
  refine Finset.sup_le fun p _ => ?_
  rw [pressure, ← Finset.card_image_of_injOn (h p)]
  refine Finset.card_le_card (Finset.image_subset_image fun id hid => ?_)
  have hlive := (mem_neededBehind.mp hid).live
  exact mem_liveBefore.mpr ⟨lt_length_of_isLive hlive, hlive⟩

theorem liveBefore_succ (hlive : c.liveness.isLive position) :
    c.liveBefore (position + 1) = insert position (c.liveBefore position) := by
  ext id
  simp only [mem_liveBefore, Finset.mem_insert]
  constructor
  · rintro ⟨hlt, hid⟩
    exact (Nat.lt_succ_iff_lt_or_eq.mp hlt).symm.imp_right fun h => ⟨h, hid⟩
  · rintro (rfl | ⟨hlt, hid⟩)
    · exact ⟨Nat.lt_succ_self _, hlive⟩
    · exact ⟨Nat.lt_succ_of_lt hlt, hid⟩

theorem liveBefore_succ_of_dead (hdead : ¬c.liveness.isLive position) :
    c.liveBefore (position + 1) = c.liveBefore position := by
  ext id
  simp only [mem_liveBefore]
  refine and_congr_left fun hid => ?_
  have hne : id ≠ position := fun heq => hdead (heq ▸ hid)
  omega

end Computation

/-! ## Pools that account for all slots -/

namespace SlotPool

variable {pool : SlotPool} {slotOf? : Nat → Option Nat}
  {needed : Nat → Prop}

/-- **A pool that accounts for all slots**, some nodes being in slots and the
values of some of them being needed. -/
structure Partition (pool : SlotPool) (slotOf? : Nat → Option Nat)
    (needed : Nat → Prop) : Prop where
  /-- A needed value is in a slot that was made and is not free. -/
  occupied : ∀ {id : Nat}, needed id → ∃ slot, slotOf? id = some slot
    ∧ slot < pool.highWater ∧ slot ∉ pool.free
  /-- Two needed values are in different slots. -/
  injective : ∀ {id id' slot : Nat}, needed id → needed id' →
    slotOf? id = some slot → slotOf? id' = some slot → id = id'
  /-- No slot is free twice. -/
  nodup_free : pool.free.Nodup
  /-- Free slots have been made. -/
  free_lt : ∀ slot ∈ pool.free, slot < pool.highWater
  /-- Every slot that was made is free or holds a needed value. -/
  covered : ∀ slot < pool.highWater, slot ∈ pool.free
    ∨ ∃ id, needed id ∧ slotOf? id = some slot

/-- **The slots are as many as the needed values and the free slots
together.** -/
theorem Partition.highWater_eq (h : pool.Partition slotOf? needed)
    (values : Finset Nat) (hvalues : ∀ id, id ∈ values ↔ needed id) :
    pool.highWater = values.card + pool.free.length := by
  let slot (id : Nat) : Nat := (slotOf? id).getD 0
  have hslot : ∀ {id}, id ∈ values → slotOf? id = some (slot id)
      ∧ slot id < pool.highWater ∧ slot id ∉ pool.free := by
    intro id hid
    obtain ⟨s, hs, hlt, hfree⟩ := h.occupied ((hvalues id).mp hid)
    have heq : slot id = s := by
      show (slotOf? id).getD 0 = s
      rw [hs, Option.getD_some]
    rw [heq]
    exact ⟨hs, hlt, hfree⟩
  have hinj : Set.InjOn slot values := by
    intro id hid id' hid' heq
    exact h.injective ((hvalues id).mp hid) ((hvalues id').mp hid')
      (hslot hid).1 (heq ▸ (hslot hid').1)
  have hdisjoint : Disjoint (values.image slot) pool.free.toFinset := by
    refine Finset.disjoint_left.mpr fun s hs hfree => ?_
    obtain ⟨id, hid, rfl⟩ := Finset.mem_image.mp hs
    exact (hslot hid).2.2 (List.mem_toFinset.mp hfree)
  have hall : Finset.range pool.highWater
      = values.image slot ∪ pool.free.toFinset := by
    ext s
    rw [Finset.mem_range, Finset.mem_union, Finset.mem_image,
      List.mem_toFinset]
    constructor
    · intro hs
      refine (h.covered s hs).symm.imp_left ?_
      rintro ⟨id, hid, hsome⟩
      have hvalue := (hvalues id).mpr hid
      exact ⟨id, hvalue, Option.some.inj ((hslot hvalue).1.symm.trans hsome)⟩
    · rintro (⟨id, hid, rfl⟩ | hs)
      · exact (hslot hid).2.1
      · exact h.free_lt s hs
  calc pool.highWater = (Finset.range pool.highWater).card :=
        (Finset.card_range _).symm
    _ = (values.image slot).card + pool.free.toFinset.card := by
        rw [hall, Finset.card_union_of_disjoint hdisjoint]
    _ = values.card + pool.free.length := by
        rw [Finset.card_image_of_injOn hinj,
          List.toFinset_card_of_nodup h.nodup_free]

/-- A free slot is the one taken, or it stays free. -/
theorem eq_take_or_mem {slot : Nat} (h : slot ∈ pool.free) :
    slot = pool.take.1 ∨ slot ∈ pool.take.2.free := by
  obtain ⟨first, free, hpool, htake⟩ | ⟨hpool, -⟩ := pool.take_cases
  · rw [hpool] at h
    rw [htake]
    exact List.mem_cons.mp h
  · rw [hpool] at h
    exact absurd h List.not_mem_nil

/-- **A new slot is made only when none is free.** -/
theorem highWater_take_cases (pool : SlotPool) :
    pool.take.2.highWater = pool.highWater ∨ pool.take.2.free = [] := by
  obtain ⟨first, free, -, htake⟩ | ⟨-, htake⟩ := pool.take_cases
  · exact .inl (by rw [htake])
  · exact .inr (by rw [htake])

/-- Gives back a slot that must not be free. -/
def release? (pool : SlotPool) (slot : Nat) : Option SlotPool :=
  if slot ∈ pool.free then none else some (pool.release slot)

end SlotPool

namespace Emission

variable {c : Computation} {e : Emission} {node : Node} {op : NodeOp}
  {position id slot : Nat} {operandSlots : List Nat}

/-- Gives back the slots of the operands that are read for the last time,
none of which must be free when it is given back. -/
def releaseOperands? (liveness : Liveness) (position : Nat)
    (operands : List (Nat × Nat)) (pool : SlotPool) : Option SlotPool :=
  operands.eraseDups.foldlM (fun pool operand =>
    if liveness.diesAt operand.1 position then pool.release? operand.2
    else some pool) pool

/-- **No slot is given back that is free**, if in the end none is free
twice. -/
theorem releaseOperands?_eq_some {liveness : Liveness}
    {operands : List (Nat × Nat)} {pool : SlotPool}
    (h : (releaseOperands liveness position operands pool).free.Nodup) :
    releaseOperands? liveness position operands pool
      = some (releaseOperands liveness position operands pool) := by
  rw [releaseOperands_eq] at h ⊢
  unfold dyingSlots at h ⊢
  unfold releaseOperands?
  generalize operands.eraseDups = operands at h ⊢
  induction operands generalizing pool with
  | nil => rfl
  | cons operand operands ih =>
    rw [List.foldlM_cons]
    rw [List.filter_cons] at h ⊢
    by_cases hdies : liveness.diesAt operand.1 position
    · simp only [if_pos hdies, List.map_cons, List.reverse_cons,
        List.append_assoc] at h ⊢
      have hfree : operand.2 ∉ pool.free :=
        (List.nodup_cons.mp (List.Nodup.of_append_right h)).1
      rw [SlotPool.release?, if_neg hfree]
      exact ih h
    · simp only [if_neg hdies] at h ⊢
      exact ih h

/-! ## Along the emission -/

/-- Every operand stands beside its slot. -/
theorem mem_zip_operandSlots
    (hslots : List.Forall₂ (fun x slot => e.slotOf? x = some slot)
      op.operands operandSlots)
    (hid : id ∈ op.operands) (hslot : e.slotOf? id = some slot) :
    (id, slot) ∈ op.operands.zip operandSlots := by
  rw [← List.map_fst_zip (Nat.le_of_eq hslots.length_eq)] at hid
  obtain ⟨⟨x, s⟩, hzip, rfl⟩ := List.mem_map.mp hid
  have hs := (List.forall₂_iff_zip.mp hslots).2 hzip
  rw [hslot, Option.some.injEq] at hs
  rwa [hs]

/-- **The slot of each node that has one.** -/
def assignment (e : Emission) (id : Nat) : Nat := (e.slotOf? id).getD 0

/-- **What holds of the slots after the nodes before a position**, beyond
that they do not clash. -/
structure Economical (c : Computation) (position : Nat) (e : Emission) :
    Prop where
  /-- Every slot that was made is free or holds a needed value. -/
  covered : ∀ slot < e.pool.highWater, slot ∈ e.pool.free
    ∨ ∃ id, c.Needed position id ∧ e.slotOf? id = some slot
  /-- As many slots were made as values were ever needed at once. -/
  highWater_eq : e.pool.highWater = (c.liveBefore position).sup c.pressure
  /-- Each live node was given the slot that its instruction writes. -/
  dsts_eq : e.instructions.map Instruction.dst
    = ((List.range position).filter c.liveness.isLive).map e.assignment
  /-- Values that were needed at once have different slots. -/
  apart : ∀ {p id id' : Nat}, p < position → c.Needed (p + 1) id →
    c.Needed (p + 1) id' → e.slotOf? id = e.slotOf? id' → id = id'

theorem economical_start (c : Computation) : start.Economical c 0 where
  covered := fun _ h => absurd h (Nat.not_lt_zero _)
  highWater_eq := rfl
  dsts_eq := rfl
  apart := fun h => absurd h (Nat.not_lt_zero _)

/-- The pool accounts for all slots between two nodes. -/
theorem Sound.partition (h : e.Sound c position)
    (hcovered : ∀ slot < e.pool.highWater, slot ∈ e.pool.free
      ∨ ∃ id, c.Needed position id ∧ e.slotOf? id = some slot) :
    e.pool.Partition e.slotOf? (c.Needed position) where
  occupied := by
    intro id hid
    obtain ⟨slot, hslot⟩ := h.exists_slot hid.lt hid.live
    exact ⟨slot, hslot, h.bounded.slot_lt hslot, h.notMem_free hid hslot⟩
  injective := h.slot_injective
  nodup_free := h.nodup_free
  free_lt := h.bounded.free_lt
  covered := hcovered

/-- **The pool accounts for all slots when the operands that die have given
theirs back**: what is needed then is what is needed behind the node, but
for its own value. -/
theorem Economical.partition_release (h : e.Economical c position)
    (hc : c.WellFormed) (hsound : e.Sound c position)
    (hnode : c.nodes[position]? = some node)
    (hlive : c.liveness.isLive position)
    (hslots : List.Forall₂ (fun x slot => e.slotOf? x = some slot)
      node.op.operands operandSlots) :
    (releaseOperands c.liveness position (node.op.operands.zip operandSlots)
      e.pool).Partition e.slotOf?
      fun id => id < position ∧ c.Needed (position + 1) id := by
  have hneeded := hsound.needed_of_forall₂ hnode hlive hslots
  have hwater : (releaseOperands c.liveness position
      (node.op.operands.zip operandSlots) e.pool).highWater
      = e.pool.highWater := by rw [releaseOperands_eq]
  constructor
  · rintro id ⟨hlt, hid⟩
    obtain ⟨slot, hslot⟩ := hsound.exists_slot hlt hid.live
    refine ⟨slot, hslot, ?_,
      hsound.notMem_release hneeded hslots hid hlt hslot⟩
    rw [hwater]
    exact hsound.bounded.slot_lt hslot
  · rintro id id' slot ⟨hlt, hid⟩ ⟨hlt', hid'⟩ hslot hslot'
    exact hsound.slot_injective (hid.of_succ hlt).1 (hid'.of_succ hlt').1
      hslot hslot'
  · exact hsound.nodup_release hneeded hslots
  · rw [hwater]
    exact hsound.bounded.release hslots
  · rw [hwater]
    intro slot hslot
    rw [releaseOperands_eq, List.mem_append, List.mem_reverse]
    rcases h.covered slot hslot with hfree | ⟨id, hid, hsome⟩
    · exact .inl (.inr hfree)
    rcases hc.needed_succ_or_diesAt hid with hlater | ⟨hread, hdies⟩
    · exact .inr ⟨id, ⟨hid.lt, hlater⟩, hsome⟩
    · -- a value that is needed no more has given its slot back
      rw [Computation.operandsOf_eq hnode] at hread
      exact .inl (.inl (mem_dyingSlots.mpr
        ⟨id, mem_zip_operandSlots hslots hread hsome, hdies⟩))

/-- Needed values that have the same slot are the same. -/
theorem Sound.eq_of_slotOf?_eq (h : e.Sound c position) {id' : Nat}
    (hid : c.Needed position id) (hid' : c.Needed position id')
    (heq : e.slotOf? id = e.slotOf? id') : id = id' := by
  obtain ⟨slot, hslot⟩ := h.exists_slot hid.lt hid.live
  exact h.slot_injective hid hid' hslot (heq ▸ hslot)

/-- **Passing over a dead node** changes nothing. -/
theorem Economical.skip (h : e.Economical c position)
    (hsound : e.Sound c position) (hdead : ¬c.liveness.isLive position) :
    e.skip.Economical c (position + 1) where
  covered := by
    intro slot hslot
    refine (h.covered slot hslot).imp_right ?_
    rintro ⟨id, hid, hsome⟩
    exact ⟨id, hid.succ_of_dead hdead, slotOf?_skip.trans hsome⟩
  highWater_eq := by
    rw [Computation.liveBefore_succ_of_dead hdead]
    exact h.highWater_eq
  dsts_eq := by
    rw [List.range_succ, List.filter_append, List.filter_cons_of_neg hdead,
      List.filter_nil, List.append_nil]
    refine h.dsts_eq.trans (List.map_congr_left fun id _ => ?_)
    rw [assignment, assignment, slotOf?_skip]
  apart := by
    intro p id id' hp hid hid' heq
    rcases Nat.lt_succ_iff_lt_or_eq.mp hp with hp | rfl
    · rw [slotOf?_skip, slotOf?_skip] at heq
      exact h.apart hp hid hid' heq
    · exact (hsound.skip hdead).eq_of_slotOf?_eq hid hid' heq

/-- A node that was visited keeps its slot. -/
theorem Sound.slotOf?_extend_of_lt (h : e.Sound c position)
    (hid : id < position) :
    (e.extend c.liveness op position operandSlots).slotOf? id
      = e.slotOf? id := by
  rw [slotOf?_extend, h.length_eq, if_neg (Nat.ne_of_lt hid)]

/-- The node that was emitted last is in the slot that was taken. -/
theorem Sound.slotOf?_extend_self (h : e.Sound c position) :
    (e.extend c.liveness op position operandSlots).slotOf? position
      = some (e.takeSlot c.liveness op position operandSlots).1 := by
  rw [slotOf?_extend, h.length_eq, if_pos rfl]

/-- **The slot of a result is accounted for**: it holds the result, which is
needed, and all other slots are as they were once the operands that die had
given theirs back. -/
theorem Economical.covered_extend (h : e.Economical c position)
    (hc : c.WellFormed) (hsound : e.Sound c position)
    (hnode : c.nodes[position]? = some node)
    (hlive : c.liveness.isLive position)
    (hslots : List.Forall₂ (fun x slot => e.slotOf? x = some slot)
      node.op.operands operandSlots) :
    let e' := e.extend c.liveness node.op position operandSlots
    ∀ slot < e'.pool.highWater, slot ∈ e'.pool.free
      ∨ ∃ id, c.Needed (position + 1) id ∧ e'.slotOf? id = some slot := by
  intro e' slot hslot
  have hresult : e'.slotOf? position
      = some (e.takeSlot c.liveness node.op position operandSlots).1 :=
    hsound.slotOf?_extend_self
  rcases SlotPool.lt_highWater_or_eq hslot with hold | htaken
  · have hpartition := h.partition_release hc hsound hnode hlive hslots
    rcases hpartition.covered slot hold with hfree | ⟨id, ⟨hlt, hid⟩, hsome⟩
    · rcases SlotPool.eq_take_or_mem hfree with htaken | hfree
      · exact .inr ⟨position, hc.needed_self hlive, htaken ▸ hresult⟩
      · exact .inl hfree
    · exact .inr ⟨id, hid, (hsound.slotOf?_extend_of_lt hlt).trans hsome⟩
  · exact .inr ⟨position, hc.needed_self hlive, htaken ▸ hresult⟩

/-- **A slot is made only where the pressure asks for it.** -/
theorem highWater_extend
    (hpartition : (e.extend c.liveness op position
      operandSlots).pool.Partition
        (e.extend c.liveness op position operandSlots).slotOf?
        (c.Needed (position + 1))) :
    (e.extend c.liveness op position operandSlots).pool.highWater
      = max (c.pressure position) e.pool.highWater := by
  have hcount := hpartition.highWater_eq (c.neededBehind position)
    fun _ => Computation.mem_neededBehind
  have hle : e.pool.highWater
      ≤ (e.extend c.liveness op position operandSlots).pool.highWater :=
    highWater_le_extend
  rw [← Computation.pressure] at hcount
  rcases SlotPool.highWater_take_cases (releaseOperands c.liveness position
    (op.operands.zip operandSlots) e.pool) with hsame | hnone
  · have hsame : (e.extend c.liveness op position
        operandSlots).pool.highWater = e.pool.highWater := by
      rw [releaseOperands_eq] at hsame
      rw [← hsame, ← releaseOperands_eq]
      rfl
    omega
  · have hnone : (e.extend c.liveness op position
        operandSlots).pool.free = [] := hnone
    rw [hnone, List.length_nil] at hcount
    omega

theorem instructions_extend {liveness : Liveness} :
    (e.extend liveness op position operandSlots).instructions
      = e.instructions ++ [instructionOf op
        (e.takeSlot liveness op position operandSlots).1 e.constants.length
        operandSlots] := rfl

/-- **Emitting a live node wastes no slot.** -/
theorem Economical.extend (h : e.Economical c position)
    (hc : c.WellFormed) (hsound : e.Sound c position)
    (hnode : c.nodes[position]? = some node)
    (hlive : c.liveness.isLive position)
    (hslots : List.Forall₂ (fun x slot => e.slotOf? x = some slot)
      node.op.operands operandSlots) :
    (e.extend c.liveness node.op position operandSlots).Economical c
      (position + 1) := by
  have hsound' := hsound.extend
    (hsound.needed_of_forall₂ hnode hlive hslots) hslots
  have hcovered := h.covered_extend hc hsound hnode hlive hslots
  refine ⟨hcovered, ?_, ?_, ?_⟩
  · rw [highWater_extend (hsound'.partition hcovered), h.highWater_eq,
      Computation.liveBefore_succ hlive, Finset.sup_insert]
  · rw [instructions_extend, List.map_append, List.map_singleton,
      dst_instructionOf, h.dsts_eq, List.range_succ, List.filter_append,
      List.filter_cons_of_pos hlive, List.filter_nil, List.map_append,
      List.map_singleton]
    refine congrArg₂ (· ++ [·]) (List.map_congr_left fun id hid => ?_) ?_
    · rw [assignment, assignment, hsound.slotOf?_extend_of_lt
        (List.mem_range.mp (List.mem_filter.mp hid).1)]
    · rw [assignment, hsound.slotOf?_extend_self, Option.getD_some]
  · intro p id id' hp hid hid' heq
    rcases Nat.lt_succ_iff_lt_or_eq.mp hp with hp | rfl
    · have hlt : ∀ {id}, c.Needed (p + 1) id → id < position :=
        fun hid => Nat.lt_of_lt_of_le hid.lt hp
      rw [hsound.slotOf?_extend_of_lt (hlt hid),
        hsound.slotOf?_extend_of_lt (hlt hid')] at heq
      exact h.apart hp hid hid' heq
    · exact hsound'.eq_of_slotOf?_eq hid hid' heq

/-- **Going past one node succeeds**, keeps the slots apart and wastes
none. -/
theorem Economical.exists_step (h : e.Economical c position)
    (hc : c.WellFormed) (hsound : e.Sound c position)
    (hnode : c.nodes[position]? = some node) :
    ∃ e', e.step c.liveness (node, position) = .ok e'
      ∧ e'.Sound c (position + 1) ∧ e'.Economical c (position + 1) := by
  unfold step
  by_cases hlive : c.liveness.isLive position
  · have hneeded : ∀ x ∈ node.op.operands, c.Needed position x :=
      fun x hx => hc.needed_of_mem_operands hnode hlive hx
    obtain ⟨operandSlots, hslots⟩ := hsound.exists_operandSlots hneeded
    refine ⟨_, ?_, hsound.extend hneeded hslots,
      h.extend hc hsound hnode hlive hslots⟩
    rw [if_pos hlive]
    exact emit_eq_ok.mpr ⟨operandSlots, hslots, rfl⟩
  · rw [if_neg hlive]
    exact ⟨_, rfl, hsound.skip hlive, h.skip hsound hlive⟩

/-- At the end, every live node is in its slot. -/
theorem Sound.slotOf?_eq_assignment (h : e.Sound c c.nodes.length)
    (hlive : c.liveness.isLive id) :
    e.slotOf? id = some (e.assignment id) := by
  obtain ⟨slot, hslot⟩ :=
    h.exists_slot (Computation.lt_length_of_isLive hlive) hlive
  rw [assignment, hslot, Option.getD_some]

/-- **The slots at the end are an assignment without interference.** -/
theorem Economical.interferenceFree (h : e.Economical c c.nodes.length)
    (hsound : e.Sound c c.nodes.length) :
    c.InterferenceFree e.assignment := by
  intro p id hid id' hid' heq
  have hid := Computation.mem_neededBehind.mp hid
  have hid' := Computation.mem_neededBehind.mp hid'
  have hslot : e.slotOf? id = e.slotOf? id' := by
    rw [hsound.slotOf?_eq_assignment hid.live,
      hsound.slotOf?_eq_assignment hid'.live, heq]
  rcases Nat.lt_or_ge p c.nodes.length with hp | hp
  · exact h.apart hp hid hid' hslot
  · exact hsound.eq_of_slotOf?_eq (hid.of_length_le hp) (hid'.of_length_le hp)
      hslot

/-- **Every slot that was made is the slot of a live node**, and no live
node has another. -/
theorem Economical.image_assignment (h : e.Economical c c.nodes.length)
    (hsound : e.Sound c c.nodes.length) :
    (c.liveBefore c.nodes.length).image e.assignment
      = Finset.range e.pool.highWater := by
  refine Finset.eq_of_subset_of_card_le (fun slot hslot => ?_) ?_
  · obtain ⟨id, hid, rfl⟩ := Finset.mem_image.mp hslot
    obtain ⟨-, hlive⟩ := Computation.mem_liveBefore.mp hid
    exact Finset.mem_range.mpr
      (hsound.bounded.slot_lt (hsound.slotOf?_eq_assignment hlive))
  · rw [Finset.card_range, h.highWater_eq]
    exact (h.interferenceFree hsound).sup_pressure_le

end Emission

/-! ## The slots of a program -/

namespace Computation

variable {c : Computation} {k : Nat}

/-- **The program under way** when the nodes before a position have been
visited. -/
def emissionBefore (c : Computation) (position : Nat) :
    Except EmissionError Emission :=
  (c.nodes.zipIdx.take position).foldlM (Emission.step c.liveness) .start

theorem emissionBefore_succ (hk : k < c.nodes.length) :
    c.emissionBefore (k + 1) = c.emissionBefore k
      >>= fun e => e.step c.liveness (c.nodes[k], k) := by
  have hzip : k < c.nodes.zipIdx.length := by rwa [List.length_zipIdx]
  rw [emissionBefore, List.foldlM_take_succ hzip, List.getElem_zipIdx,
    Nat.zero_add]
  rfl

/-- **No node is stuck**, and at each the slots are kept apart and none is
wasted. -/
theorem WellFormed.exists_emissionBefore (hc : c.WellFormed)
    (hk : k ≤ c.nodes.length) :
    ∃ e, c.emissionBefore k = .ok e ∧ e.Sound c k ∧ e.Economical c k := by
  induction k with
  | zero =>
    exact ⟨.start, rfl, Emission.sound_start c, Emission.economical_start c⟩
  | succ k ih =>
    obtain ⟨e, he, hsound, heconomical⟩ := ih (Nat.le_of_succ_le hk)
    obtain ⟨e', hstep, hnext⟩ := heconomical.exists_step hc hsound
      (List.getElem?_eq_getElem hk)
    refine ⟨e', ?_, hnext⟩
    rw [emissionBefore_succ hk, he, Except.ok_bind, hstep]

/-- **A well-formed computation is compiled** to what there is when all
nodes have been visited. -/
theorem WellFormed.toSlotProgram_eq (hc : c.WellFormed) {e : Emission}
    (he : c.emissionBefore c.nodes.length = .ok e)
    (hsound : e.Sound c c.nodes.length) :
    c.toSlotProgram = .ok (
      { instructions := e.instructions
        constants := e.constants
        parameterShapes := c.parameterShapes
        outputSlots := c.outputs.map e.assignment
        outputShapes := c.outputShapes
        slotCount := e.pool.highWater },
      { e.stats with
        deadNodesDropped := c.liveness.deadCount
        instructionsEmitted := e.instructions.length
        slotsUsed := e.pool.highWater }) := by
  have hfold : c.nodes.zipIdx.foldlM (Emission.step c.liveness) .start
      = .ok e := by
    rw [← he, emissionBefore, List.take_of_length_le]
    rw [List.length_zipIdx]
  have houtputs : c.outputs.mapM e.outputSlot
      = .ok (c.outputs.map e.assignment) := by
    refine List.mapM_eq_ok.mpr (List.forall₂_map_right_iff.mpr ?_)
    refine List.forall₂_same.mpr fun id hid => ?_
    exact Emission.outputSlot_eq_ok.mpr (hsound.slotOf?_eq_assignment
      (isLive_of_mem_outputs (hc.output_lt id hid) hid))
  rw [toSlotProgram, hfold, Except.ok_bind, houtputs]
  rfl

/-- **Slots are assigned without interference, and as few as possible.**
Whenever a node is about to be visited, the pool accounts for all
slots: the needed values are in slots of their own, and the other slots are
free. It does so again when the operands that die at a live node have given
theirs back, and none of these was free. The program has as many slots as
values are ever needed at once, and no assignment without interference has
fewer. -/
theorem toSlotProgram_slots_optimal (hc : c.Built) :
    (∀ k ≤ c.nodes.length, ∃ e, c.emissionBefore k = .ok e
      ∧ e.pool.Partition e.slotOf? (c.Needed k)
      ∧ ∀ node, c.nodes[k]? = some node → c.liveness.isLive k →
        ∃ operandSlots,
          node.op.operands.mapM (e.operandSlot k) = .ok operandSlots
          ∧ let operands := node.op.operands.zip operandSlots
            let released :=
              Emission.releaseOperands c.liveness k operands e.pool
            Emission.releaseOperands? c.liveness k operands e.pool
              = some released
            ∧ released.Partition e.slotOf?
              fun id => id < k ∧ c.Needed (k + 1) id)
    ∧ ∃ p stats, c.toSlotProgram = .ok (p, stats)
      ∧ p.slotCount = (c.liveBefore c.nodes.length).sup c.pressure
      ∧ (∀ slot, c.InterferenceFree slot →
        p.slotCount ≤ ((c.liveBefore c.nodes.length).image slot).card)
      ∧ ∃ slot, c.InterferenceFree slot
        ∧ (c.liveBefore c.nodes.length).image slot
          = Finset.range p.slotCount
        ∧ p.instructions.map Instruction.dst
          = ((List.range c.nodes.length).filter c.liveness.isLive).map slot
        ∧ p.outputSlots = c.outputs.map slot := by
  have hc := hc.wellFormed
  constructor
  · intro k hk
    obtain ⟨e, he, hsound, heconomical⟩ := hc.exists_emissionBefore hk
    refine ⟨e, he, hsound.partition heconomical.covered, ?_⟩
    intro node hnode hlive
    have hneeded : ∀ x ∈ node.op.operands, c.Needed k x :=
      fun x hx => hc.needed_of_mem_operands hnode hlive hx
    obtain ⟨operandSlots, hslots⟩ := hsound.exists_operandSlots hneeded
    refine ⟨operandSlots, List.mapM_eq_ok.mpr
      (hslots.imp fun _ _ => Emission.operandSlot_eq_ok.mpr), ?_, ?_⟩
    · exact Emission.releaseOperands?_eq_some
        (hsound.nodup_release hneeded hslots)
    · exact heconomical.partition_release hc hsound hnode hlive hslots
  · obtain ⟨e, he, hsound, heconomical⟩ :=
      hc.exists_emissionBefore (Nat.le_refl _)
    refine ⟨_, _, hc.toSlotProgram_eq he hsound, heconomical.highWater_eq,
      ?_, e.assignment, heconomical.interferenceFree hsound,
      heconomical.image_assignment hsound, heconomical.dsts_eq, rfl⟩
    intro slot hslot
    rw [heconomical.highWater_eq]
    exact hslot.sup_pressure_le

/-- The sum of two parameters times the second of them, less the first. -/
def productLessFirst : Computation :=
  ⟨"f", [⟨.parameter 0, ⟨.s32, []⟩⟩, ⟨.parameter 1, ⟨.s32, []⟩⟩,
    ⟨.binary .add 0 1, ⟨.s32, []⟩⟩, ⟨.binary .multiply 2 1, ⟨.s32, []⟩⟩,
    ⟨.binary .subtract 3 0, ⟨.s32, []⟩⟩], [0, 1], [4]⟩

/-- Both parameters are needed behind their sum, so there are three slots;
the product finds two of them free again. -/
theorem productLessFirst_slots_optimal :
    (∃ e, productLessFirst.emissionBefore 3 = .ok e
      ∧ e.pool.Partition e.slotOf? (productLessFirst.Needed 3)
      ∧ ∃ operandSlots, [2, 1].mapM (e.operandSlot 3) = .ok operandSlots
        ∧ (Emission.releaseOperands productLessFirst.liveness 3
          ([2, 1].zip operandSlots) e.pool).Partition e.slotOf?
            fun id => id < 3 ∧ productLessFirst.Needed 4 id)
    ∧ (productLessFirst.liveBefore 5).sup productLessFirst.pressure = 3
    ∧ ∀ slot, productLessFirst.InterferenceFree slot →
      3 ≤ ((productLessFirst.liveBefore 5).image slot).card := by
  have hbuilt : productLessFirst.Built :=
    ⟨"f", [.parameter 0 ⟨.s32, []⟩, .parameter 1 ⟨.s32, []⟩,
      .binary .add 0 1, .binary .multiply 2 1, .binary .subtract 3 0], [4],
      rfl⟩
  have hlive : productLessFirst.liveness.isLive 3 := by cbv
  have hthree : (productLessFirst.toSlotProgram.map fun result =>
      result.1.slotCount) = .ok 3 := by cbv
  obtain ⟨hbefore, p, stats, hp, hcount, hleast, -⟩ :=
    toSlotProgram_slots_optimal hbuilt
  obtain ⟨e, he, hpartition, hreleased⟩ := hbefore 3 (by decide)
  obtain ⟨operandSlots, hslots, -, hafter⟩ := hreleased _ rfl hlive
  rw [hp] at hthree
  have hthree : p.slotCount = 3 := Except.ok.inj hthree
  rw [hthree] at hcount hleast
  exact ⟨⟨e, he, hpartition, operandSlots, hslots, hafter⟩, hcount.symm,
    hleast⟩

end Computation

end TensorBind
