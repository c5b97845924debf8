import TensorBind.Proofs.SlotProgram.DeadCode

/-!
# What is counted is what is there

While a program is made, its nodes, its instructions by name and the bytes
of its constants are counted, and each constant is given the next place in
the pool. The counts are kept beside the program and never looked at by it,
so that they are right has to be shown of every step
(`Emission.Counted`): an instruction is counted once under its own name,
and a constant is referred to by the one instruction that came with it.

The slots need no count of their own. No slot is made that nothing is
written to, so their number is one more than the largest slot that is
written (`Emission.Economical.isGreatest_dst`).
-/

namespace TensorBind

/-! ## Tables of counts -/

namespace CompileStats

variable {name other : String} {counts : List (String × Nat)}

/-- **One more of a name is one more of that name only.** -/
theorem lookup_bump :
    ((bump name counts).lookup other).getD 0
      = (counts.lookup other).getD 0 + if other = name then 1 else 0 := by
  induction counts with
  | nil =>
    by_cases h : other = name
    · simp [bump, h]
    · simp [bump, List.lookup_cons, beq_eq_false_iff_ne.mpr h, h]
  | cons entry rest ih =>
    obtain ⟨listed, count⟩ := entry
    rw [bump]
    by_cases h : other = listed
    · subst h
      by_cases hname : other = name
      · simp [hname]
      · simp [hname]
    · have hne : (other == listed) = false := beq_eq_false_iff_ne.mpr h
      by_cases hname : listed = name
      · have hother : ¬other = name := hname ▸ h
        simp [List.lookup_cons, hname, hother, hname ▸ hne]
      · rw [if_neg hname, List.lookup_cons, List.lookup_cons, hne]
        exact ih

theorem sum_bump :
    ((bump name counts).map Prod.snd).sum
      = (counts.map Prod.snd).sum + 1 := by
  induction counts with
  | nil => rfl
  | cons entry rest ih =>
    obtain ⟨listed, count⟩ := entry
    by_cases hlisted : listed = name
    · rw [bump, if_pos hlisted]
      simp only [List.map_cons, List.sum_cons]
      omega
    · rw [bump, if_neg hlisted]
      simp only [List.map_cons, List.sum_cons, ih]
      omega

theorem mem_names_bump (h : other ∈ (bump name counts).map Prod.fst) :
    other = name ∨ other ∈ counts.map Prod.fst := by
  induction counts with
  | nil => exact .inl (List.mem_singleton.mp h)
  | cons entry rest ih =>
    obtain ⟨listed, count⟩ := entry
    by_cases hlisted : listed = name
    · rw [bump, if_pos hlisted] at h
      exact .inr h
    · rw [bump, if_neg hlisted, List.map_cons, List.mem_cons] at h
      rw [List.map_cons, List.mem_cons]
      rcases h with h | h
      · exact .inr (.inl h)
      · exact (ih h).imp_right .inr

/-- No name is listed twice. -/
theorem nodup_bump (h : (counts.map Prod.fst).Nodup) :
    ((bump name counts).map Prod.fst).Nodup := by
  induction counts with
  | nil => exact List.nodup_singleton name
  | cons entry rest ih =>
    obtain ⟨listed, count⟩ := entry
    obtain ⟨hlisted, hrest⟩ := List.nodup_cons.mp h
    by_cases hname : listed = name
    · rw [bump, if_pos hname]
      exact h
    · rw [bump, if_neg hname, List.map_cons, List.nodup_cons]
      refine ⟨fun hmem => ?_, ih hrest⟩
      exact (mem_names_bump hmem).elim hname hlisted

end CompileStats

/-! ## Constants -/

/-- The place in the pool that an instruction refers to. -/
def Instruction.reference? : Instruction → Option Nat
  | constant _ index => some index
  | _ => none

/-- Only the instruction of a constant refers to the pool. -/
theorem Instruction.reference?_eq_some {i : Instruction} {index : Nat} :
    i.reference? = some index ↔ ∃ dst, i = .constant dst index := by
  cases i <;> simp [reference?]

namespace Computation

variable {c : Computation} {position : Nat}

/-- The literal of a node that is a constant. -/
def constant? (c : Computation) (id : Nat) : Option Literal :=
  match c.nodes[id]? with
  | some ⟨.constant value, _⟩ => some value
  | _ => none

/-- **The literals of the live constants** before a position, in the order
of the nodes. -/
def liveConstants (c : Computation) (position : Nat) : List Literal :=
  ((List.range position).filter c.liveness.isLive).filterMap c.constant?

theorem liveConstants_succ_of_dead (hdead : ¬c.liveness.isLive position) :
    c.liveConstants (position + 1) = c.liveConstants position := by
  rw [liveConstants, List.range_succ, List.filter_append,
    List.filter_cons_of_neg hdead, List.filter_nil, List.append_nil]
  rfl

/-- A live node brings its constant along. -/
theorem liveConstants_succ {node : Node}
    (hnode : c.nodes[position]? = some node)
    (hlive : c.liveness.isLive position) :
    c.liveConstants (position + 1)
      = c.liveConstants position ++ Emission.constantOf node.op := by
  have hconstant : [position].filterMap c.constant?
      = Emission.constantOf node.op := by
    obtain ⟨op, shape⟩ := node
    cases op <;> simp [constant?, hnode, Emission.constantOf]
  rw [liveConstants, List.range_succ, List.filter_append,
    List.filter_cons_of_pos hlive, List.filter_nil, List.filterMap_append,
    hconstant]
  rfl

end Computation

/-! ## Along the emission -/

namespace Emission

variable {c : Computation} {e e' : Emission} {node : Node} {k : Nat}
  {operandSlots : List Nat}

/-- **A program under way with the right counts**, after the nodes before a
position. -/
structure Counted (c : Computation) (position : Nat) (e : Emission) :
    Prop where
  /-- Every node that was lowered became an instruction. -/
  nodesLowered_eq : e.stats.nodesLowered = e.instructions.length
  /-- Every instruction was counted once. -/
  sum_eq : (e.stats.instructionCounts.map Prod.snd).sum
    = e.instructions.length
  /-- It was counted under its name. -/
  count_eq : ∀ name, e.stats.instructionCount name
    = (e.instructions.map Instruction.name).count name
  /-- No name is listed twice. -/
  nodup_names : (e.stats.instructionCounts.map Prod.fst).Nodup
  /-- The constants are those of the live nodes. -/
  constants_eq : e.constants = c.liveConstants position
  /-- Their bytes were counted. -/
  constantBytes_eq : e.stats.constantBytes
    = (e.constants.map (·.shape.byteSize)).sum
  /-- They are referred to one after another. -/
  references_eq : e.instructions.filterMap Instruction.reference?
    = List.range e.constants.length

theorem counted_start (c : Computation) : start.Counted c 0 where
  nodesLowered_eq := rfl
  sum_eq := rfl
  count_eq := fun _ => rfl
  nodup_names := List.nodup_nil
  constants_eq := rfl
  constantBytes_eq := rfl
  references_eq := rfl

/-- **Passing over a dead node** counts nothing. -/
theorem Counted.skip (h : e.Counted c k)
    (hdead : ¬c.liveness.isLive k) : e.skip.Counted c (k + 1) where
  nodesLowered_eq := h.nodesLowered_eq
  sum_eq := h.sum_eq
  count_eq := h.count_eq
  nodup_names := h.nodup_names
  constants_eq := by
    rw [Computation.liveConstants_succ_of_dead hdead]
    exact h.constants_eq
  constantBytes_eq := h.constantBytes_eq
  references_eq := h.references_eq

/-- A node refers to the constant that it brings along. -/
theorem range_add_constantOf (op : NodeOp) (dst constant : Nat)
    (operands : List Nat) :
    List.range constant
        ++ [instructionOf op dst constant operands].filterMap
          Instruction.reference?
      = List.range (constant + (constantOf op).length) := by
  cases op with
  | constant value => exact List.range_succ.symm
  | parameter number => exact List.append_nil _
  | unary op x => exact List.append_nil _
  | binary op x y => exact List.append_nil _

/-- **A live node is counted** with its instruction and its constant. -/
theorem Counted.extend (h : e.Counted c k)
    (hnode : c.nodes[k]? = some node) (hlive : c.liveness.isLive k) :
    (e.extend c.liveness node.op k operandSlots).Counted c (k + 1) := by
  have hconstants : (e.extend c.liveness node.op k operandSlots).constants
      = e.constants ++ constantOf node.op := rfl
  constructor
  · rw [stats_extend, instructions_extend, List.length_append]
    exact congrArg (· + 1) h.nodesLowered_eq
  · rw [stats_extend, instructions_extend, List.length_append,
      CompileStats.sum_bump, h.sum_eq]
    rfl
  · intro name
    rw [stats_extend, instructions_extend, List.map_append, List.count_append,
      ← h.count_eq, CompileStats.instructionCount,
      CompileStats.lookup_bump, List.map_singleton, List.count_singleton]
    refine congrArg _ (if_congr ?_ rfl rfl)
    rw [beq_iff_eq, eq_comm]
  · rw [stats_extend]
    exact CompileStats.nodup_bump h.nodup_names
  · rw [hconstants, h.constants_eq, Computation.liveConstants_succ hnode hlive]
  · rw [stats_extend, hconstants, List.map_append, List.sum_append,
      ← h.constantBytes_eq]
  · rw [instructions_extend, hconstants, List.filterMap_append,
      h.references_eq, range_add_constantOf, List.length_append]

/-- **Going past a node keeps the counts right.** -/
theorem Counted.step (h : e.Counted c k)
    (hnode : c.nodes[k]? = some node)
    (hstep : e.step c.liveness (node, k) = .ok e') :
    e'.Counted c (k + 1) := by
  unfold Emission.step at hstep
  split at hstep
  · rename_i hlive
    obtain ⟨operandSlots, -, rfl⟩ := emit_eq_ok.mp hstep
    exact h.extend hnode hlive
  · rename_i hdead
    cases hstep
    exact h.skip hdead

/-- **Each constant is referred to by one instruction.** -/
theorem Counted.existsUnique_reference (h : e.Counted c k) {index : Nat}
    (hindex : index < e.constants.length) :
    ∃! k : Nat, ∃ dst, e.instructions[k]? = some (.constant dst index) := by
  have hnodup := List.nodup_range (n := e.constants.length)
  have hmem := List.mem_range.mpr hindex
  rw [← h.references_eq] at hnodup hmem
  refine (existsUnique_congr fun k => ?_).mp
    (List.existsUnique_of_nodup_filterMap hnodup hmem)
  constructor
  · rintro ⟨i, hi, hreference⟩
    obtain ⟨dst, rfl⟩ := Instruction.reference?_eq_some.mp hreference
    exact ⟨dst, hi⟩
  · rintro ⟨dst, hi⟩
    exact ⟨_, hi, rfl⟩

/-- Instructions refer to constants that there are. -/
theorem Counted.reference_lt (h : e.Counted c k) {dst index : Nat}
    (hi : .constant dst index ∈ e.instructions) :
    index < e.constants.length := by
  have hreferred : index
      ∈ e.instructions.filterMap Instruction.reference? :=
    List.mem_filterMap.mpr ⟨_, hi, rfl⟩
  rw [h.references_eq] at hreferred
  exact List.mem_range.mp hreferred

/-- **All slots are written to**: the largest slot that is written is the
last one there is. -/
theorem Economical.isGreatest_dst (h : e.Economical c c.nodes.length)
    (hsound : e.Sound c c.nodes.length) (hne : e.instructions ≠ []) :
    ∃ largest, IsGreatest {slot | ∃ i ∈ e.instructions, i.dst = slot} largest
      ∧ e.pool.highWater = 1 + largest := by
  have hwritten : ∀ slot, (∃ i ∈ e.instructions, i.dst = slot)
      ↔ slot < e.pool.highWater := by
    intro slot
    rw [← Finset.mem_range, ← h.image_assignment hsound, ← List.mem_map,
      h.dsts_eq, List.mem_map, Finset.mem_image]
    refine exists_congr fun id => and_congr_left fun _ => ?_
    rw [List.mem_filter, List.mem_range, Computation.mem_liveBefore]
  obtain ⟨i, hi⟩ := List.exists_mem_of_ne_nil _ hne
  have hpos := (hwritten i.dst).mp ⟨i, hi, rfl⟩
  refine ⟨e.pool.highWater - 1, ⟨(hwritten _).mpr (by omega), ?_⟩, by omega⟩
  intro slot hslot
  have hlt := (hwritten slot).mp hslot
  omega

end Emission

namespace Computation

variable {c : Computation} {e : Emission} {k : Nat}

/-- **The counts are right after each node.** -/
theorem counted_of_emissionBefore (hk : k ≤ c.nodes.length)
    (he : c.emissionBefore k = .ok e) : e.Counted c k := by
  induction k generalizing e with
  | zero =>
    cases he
    exact Emission.counted_start c
  | succ k ih =>
    rw [emissionBefore_succ hk] at he
    obtain ⟨e', he', hstep⟩ := Except.bind_eq_ok.mp he
    exact (ih (Nat.le_of_succ_le hk) he').step
      (List.getElem?_eq_getElem hk) hstep

/-- There is an instruction, since there is an output. -/
theorem WellFormed.instructions_ne_nil (hc : c.WellFormed)
    (h : e.Economical c c.nodes.length) : e.instructions ≠ [] := by
  obtain ⟨id, hid⟩ := List.exists_mem_of_ne_nil _ hc.outputs_ne_nil
  have hlt := hc.output_lt id hid
  have hwritten : e.assignment id
      ∈ e.instructions.map Instruction.dst := by
    rw [h.dsts_eq]
    exact List.mem_map_of_mem (List.mem_filter.mpr
      ⟨List.mem_range.mpr hlt, isLive_of_mem_outputs hlt hid⟩)
  exact List.ne_nil_of_mem (List.mem_map.mp hwritten).choose_spec.1

end Computation

/-! ## The counts of a program -/

/-- **Counts that describe a program** and the computation it was made
from. -/
structure CompileStats.Describes (c : Computation) (p : SlotProgram)
    (stats : CompileStats) : Prop where
  /-- Every node was lowered or dropped. -/
  nodes_eq : stats.nodesLowered + stats.deadNodesDropped = c.nodes.length
  /-- The live nodes were lowered. -/
  live_eq : stats.nodesLowered
    = ((List.range c.nodes.length).filter c.liveness.isLive).length
  /-- Each of them became an instruction. -/
  nodesLowered_eq : stats.nodesLowered = stats.instructionsEmitted
  /-- These are the instructions of the program. -/
  instructionsEmitted_eq : stats.instructionsEmitted = p.instructions.length
  /-- Together the counts by name are all of them. -/
  sum_eq : (stats.instructionCounts.map Prod.snd).sum
    = p.instructions.length
  /-- Each name is counted as often as instructions bear it. -/
  count_eq : ∀ name, stats.instructionCount name
    = (p.instructions.map Instruction.name).count name
  /-- No name is listed twice. -/
  nodup_names : (stats.instructionCounts.map Prod.fst).Nodup
  /-- The slots are those of the program. -/
  slotsUsed_eq : stats.slotsUsed = p.slotCount
  /-- The last of them is the largest that is written. -/
  isGreatest_dst : ∃ largest,
    IsGreatest {slot | ∃ i ∈ p.instructions, i.dst = slot} largest
      ∧ p.slotCount = 1 + largest
  /-- The constants are those of the live nodes, in their order. -/
  constants_eq : p.constants = c.liveConstants c.nodes.length
  /-- Each is referred to by one instruction. -/
  existsUnique_reference : ∀ index < p.constants.length,
    ∃! k : Nat, ∃ dst, p.instructions[k]? = some (.constant dst index)
  /-- No instruction refers to anything else. -/
  reference_lt : ∀ dst index, .constant dst index ∈ p.instructions →
    index < p.constants.length
  /-- The bytes are those that the constants ask for. -/
  constantBytes_eq : stats.constantBytes
    = (p.constants.map (·.shape.byteSize)).sum
  /-- They take as many. -/
  length_toBytes : ∀ value ∈ p.constants,
    value.toBytes.length = value.shape.byteSize

namespace Computation

/-- **The counts that come with a program describe it.** A computation that
can be built is compiled. Its nodes are lowered or dropped, the lowered ones
are the instructions, and these are counted by name. There is one slot more
than the largest that is written. The constants are those of the live nodes
in their order, each referred to by exactly one instruction, and their bytes
are counted. -/
theorem toSlotProgram_statistics {c : Computation} (hc : c.Built) :
    ∃ p stats, c.toSlotProgram = .ok (p, stats) ∧ stats.Describes c p := by
  have hc := hc.wellFormed
  obtain ⟨e, he, hsound, heconomical⟩ :=
    hc.exists_emissionBefore (Nat.le_refl _)
  have hcounted := counted_of_emissionBefore (Nat.le_refl _) he
  have hlength := heconomical.length_instructions
  refine ⟨_, _, hc.toSlotProgram_eq he hsound, {
    nodes_eq := ?_
    live_eq := ?_
    nodesLowered_eq := hcounted.nodesLowered_eq
    instructionsEmitted_eq := rfl
    sum_eq := hcounted.sum_eq
    count_eq := hcounted.count_eq
    nodup_names := hcounted.nodup_names
    slotsUsed_eq := rfl
    isGreatest_dst := heconomical.isGreatest_dst hsound
      (hc.instructions_ne_nil heconomical)
    constants_eq := hcounted.constants_eq
    existsUnique_reference := fun _ => hcounted.existsUnique_reference
    reference_lt := fun _ _ => hcounted.reference_lt
    constantBytes_eq := hcounted.constantBytes_eq
    length_toBytes := fun value _ => value.length_toBytes }⟩
  · show e.stats.nodesLowered + c.liveness.deadCount = _
    rw [hcounted.nodesLowered_eq, hlength, Liveness.liveCount_add_deadCount,
      length_live]
  · show e.stats.nodesLowered = _
    rw [hcounted.nodesLowered_eq, hlength, liveCount_eq]

/-- The number `5` is added to a parameter and the sum multiplied by the
number `5` again. The number `7` is there for nothing. -/
def scaledSum : Computation :=
  ⟨"f", [⟨.parameter 0, ⟨.s32, []⟩⟩,
    ⟨.constant (.scalar .s32 (7 : Int32)), ⟨.s32, []⟩⟩,
    ⟨.constant (.scalar .s32 (5 : Int32)), ⟨.s32, []⟩⟩,
    ⟨.binary .add 0 2, ⟨.s32, []⟩⟩,
    ⟨.constant (.scalar .s32 (5 : Int32)), ⟨.s32, []⟩⟩,
    ⟨.binary .multiply 3 4, ⟨.s32, []⟩⟩], [0], [5]⟩

/-- Five nodes are lowered and one is dropped. The constant that occurs
twice is in the pool twice, and two slots are enough. -/
theorem scaledSum_statistics :
    scaledSum.Built
    ∧ ∃ p stats, scaledSum.toSlotProgram = .ok (p, stats)
      ∧ stats.nodesLowered = 5 ∧ stats.deadNodesDropped = 1
      ∧ stats.instructionCount "constant" = 2
      ∧ p.slotCount = 2 ∧ stats.constantBytes = 8
      ∧ p.constants.length = 2
      ∧ ∀ index < 2, ∃! k : Nat,
        ∃ dst, p.instructions[k]? = some (.constant dst index) := by
  have hbuilt : scaledSum.Built :=
    ⟨"f", [.parameter 0 ⟨.s32, []⟩,
      .constant (.scalar .s32 (7 : Int32)),
      .constant (.scalar .s32 (5 : Int32)),
      .binary .add 0 2,
      .constant (.scalar .s32 (5 : Int32)),
      .binary .multiply 3 4], [5], rfl⟩
  obtain ⟨p, stats, hp, hdescribes⟩ := toSlotProgram_statistics hbuilt
  have hrun : scaledSum.toSlotProgram = .ok (
      ⟨[.parameter 0 0, .constant 1 0, .binary .add 1 0 1, .constant 0 1,
          .binary .multiply 0 1 0],
        [.scalar .s32 (5 : Int32), .scalar .s32 (5 : Int32)],
        [⟨.s32, []⟩], [0], [⟨.s32, []⟩], 2⟩,
      ⟨5, 1, 5, 2, 8, [("parameter", 1), ("constant", 2), ("add", 1),
        ("multiply", 1)]⟩) := by cbv
  have hindex := hdescribes.existsUnique_reference
  rw [hrun] at hp
  cases hp
  exact ⟨hbuilt, _, _, hrun, rfl, rfl, rfl, rfl, rfl, rfl, hindex⟩

end Computation

end TensorBind
