import TensorBind.Proofs.Computation.Removal
import TensorBind.Proofs.SlotProgram.Pressure

/-!
# Dead code leaves no trace

A node that no output depends on gets no instruction and no slot. That it
is there at all still moves every node behind it to another position, and
positions are what the analysis works on. Here two compilations are set
side by side, of a computation and of what is left when such nodes are
taken out, and they are shown to end in the same program
(`Computation.toSlotProgram_without`).

Which nodes are live and where a value dies is said by what reads what, so
it is the same at the new places (`Removable.isLive_without`,
`Removable.diesAt_without`). The two programs under way then agree after
each node (`Emission.Agrees`): a node that was taken out is passed over by
the one and not seen by the other, and every other node does the same to
both.
-/

namespace TensorBind

/-! ## Liveness -/

/-- The live nodes are counted one by one. -/
theorem Computation.liveCount_eq {c : Computation} : c.liveness.liveCount
    = ((List.range c.nodes.length).filter c.liveness.isLive).length := by
  have hlive : c.liveness.live
      = (List.range c.nodes.length).map c.liveness.isLive := by
    refine List.ext_getElem (by simp) fun id hid _ => ?_
    rw [List.getElem_map, List.getElem_range, Liveness.isLive,
      List.getElem?_eq_getElem hid, Option.getD_some]
  rw [Liveness.liveCount, hlive, List.count, List.countP_map,
    ← List.countP_eq_length_filter]
  refine List.countP_congr fun id _ => ?_
  rw [Function.comp_apply, beq_true]

namespace Computation.Removable

variable {c : Computation} {removed : Finset Nat} {id position : Nat}

/-- **The same nodes are live.** -/
theorem isLive_without (h : c.Removable removed) (hc : c.WellFormed)
    (hid : id ∉ removed) :
    (c.without removed).liveness.isLive (placeWithout removed id)
      = c.liveness.isLive id := by
  rw [Bool.eq_iff_iff, (h.wellFormed hc).isLive_iff_reachable,
    hc.isLive_iff_reachable, h.reachable_without_iff hid]

/-- A node has the readers it had. -/
theorem readers_without (h : c.Removable removed) (hid : id ∉ removed) :
    (c.without removed).readers (placeWithout removed id)
      = placeWithout removed '' c.readers id := by
  ext p
  constructor
  · rintro ⟨hp, hread⟩
    obtain ⟨reader, hreader, rfl⟩ := h.exists_of_reachable_without hp
    have hstays := h.notMem_of_reachable hreader
    rw [operandsOf_without hstays] at hread
    obtain ⟨x, hx, hplace⟩ := List.mem_map.mp hread
    rw [placeWithout_inj (h.operand_notMem hstays x hx) hid] at hplace
    exact ⟨reader, ⟨hreader, hplace ▸ hx⟩, rfl⟩
  · rintro ⟨reader, ⟨hreader, hread⟩, rfl⟩
    refine ⟨h.reachable_without hreader, ?_⟩
    rw [operandsOf_without (h.notMem_of_reachable hreader)]
    exact List.mem_map_of_mem hread

/-- **Values die at the same nodes.** -/
theorem diesAt_without (h : c.Removable removed) (hc : c.WellFormed)
    (hid : id ∉ removed) (hposition : position ∉ removed) :
    (c.without removed).liveness.diesAt (placeWithout removed id)
        (placeWithout removed position)
      = c.liveness.diesAt id position := by
  have houtputs : placeWithout removed id ∈ (c.without removed).outputs
      ↔ id ∈ c.outputs := by
    refine ⟨fun hmem => ?_, fun hmem => List.mem_map_of_mem hmem⟩
    obtain ⟨output, houtput, hplace⟩ := List.mem_map.mp hmem
    rw [placeWithout_inj (h.output_notMem output houtput) hid] at hplace
    exact hplace ▸ houtput
  have hgreatest : IsGreatest (placeWithout removed '' c.readers id)
        (placeWithout removed position)
      ↔ IsGreatest (c.readers id) position := by
    constructor
    · rintro ⟨⟨reader, hreader, hplace⟩, hlast⟩
      rw [placeWithout_inj (h.notMem_of_reachable hreader.1) hposition]
        at hplace
      refine ⟨hplace ▸ hreader, fun other hother => ?_⟩
      rw [← Nat.not_lt, ← placeWithout_lt_iff hposition, Nat.not_lt]
      exact hlast (Set.mem_image_of_mem _ hother)
    · rintro ⟨hreader, hlast⟩
      refine ⟨Set.mem_image_of_mem _ hreader, ?_⟩
      rintro _ ⟨other, hother, rfl⟩
      exact Nat.count_monotone _ (hlast hother)
  rw [Bool.eq_iff_iff, (h.wellFormed hc).diesAt_iff_isGreatest,
    hc.diesAt_iff_isGreatest, h.isLive_without hc hid, houtputs,
    h.readers_without hid, hgreatest]

end Computation.Removable

/-! ## Programs under way -/

/-- Repetitions are the same after a change that tells all members
apart. -/
theorem eraseDups_map {α β : Type} [BEq α] [LawfulBEq α] [BEq β]
    [LawfulBEq β] {f : α → β} {l : List α}
    (h : ∀ a ∈ l, ∀ b ∈ l, f a = f b → a = b) :
    (l.map f).eraseDups = l.eraseDups.map f := by
  match l with
  | [] => rfl
  | a :: l =>
    obtain ⟨-, hl⟩ := List.forall_mem_cons.mp h
    have hfilter : (l.map f).filter (fun b => !b == f a)
        = (l.filter fun b => !b == a).map f := by
      rw [List.filter_map]
      refine congrArg _ (List.filter_congr fun b hb => ?_)
      have hiff : f b = f a ↔ b = a :=
        ⟨h b (List.mem_cons_of_mem _ hb) a List.mem_cons_self, congrArg f⟩
      rw [Function.comp_apply, Bool.eq_iff_iff]
      simp [hiff]
    rw [List.map_cons, List.eraseDups_cons, List.eraseDups_cons, hfilter,
      List.map_cons, eraseDups_map]
    intro b hb b' hb'
    exact hl b (List.mem_filter.mp hb).1 b'
      (List.mem_cons_of_mem _ (List.mem_filter.mp hb').1)
termination_by l.length
decreasing_by exact Nat.lt_succ_of_le (List.length_filter_le _ _)

namespace Emission

variable {c : Computation} {removed : Finset Nat} {e e' : Emission}
  {node : Node} {op : NodeOp} {k : Nat} {operandSlots : List Nat}

theorem instructionOf_renumber (place : Nat → Nat) (op : NodeOp)
    (dst constant : Nat) (operands : List Nat) :
    instructionOf (op.renumber place) dst constant operands
      = instructionOf op dst constant operands := by
  cases op <;> rfl

theorem constantOf_renumber (place : Nat → Nat) (op : NodeOp) :
    constantOf (op.renumber place) = constantOf op := by
  cases op <;> rfl

theorem stats_extend {liveness : Liveness} :
    (e.extend liveness op k operandSlots).stats
      = { e.stats with
          nodesLowered := e.stats.nodesLowered + 1
          constantBytes := e.stats.constantBytes
            + ((constantOf op).map (·.shape.byteSize)).sum
          instructionCounts := CompileStats.bump (instructionOf op
            (e.takeSlot liveness op k operandSlots).1 e.constants.length
            operandSlots).name e.stats.instructionCounts } := rfl

/-- **The same slots are given back**, in the same order. -/
theorem releaseOperands_without (h : c.Removable removed)
    (hc : c.WellFormed) (hk : k ∉ removed)
    (hoperands : ∀ x ∈ op.operands, x ∉ removed) (pool : SlotPool) :
    releaseOperands (c.without removed).liveness (placeWithout removed k)
        ((op.renumber (placeWithout removed)).operands.zip operandSlots) pool
      = releaseOperands c.liveness k (op.operands.zip operandSlots) pool := by
  have hstays : ∀ a ∈ op.operands.zip operandSlots, a.1 ∉ removed :=
    fun a ha => hoperands a.1 (List.of_mem_zip ha).1
  have hinj : ∀ a ∈ op.operands.zip operandSlots,
      ∀ b ∈ op.operands.zip operandSlots,
      Prod.map (placeWithout removed) id a
        = Prod.map (placeWithout removed) id b → a = b := by
    intro a ha b hb heq
    obtain ⟨hplace, hslot⟩ := Prod.mk.inj heq
    exact Prod.ext
      ((placeWithout_inj (hstays a ha) (hstays b hb)).mp hplace) hslot
  have hdying : dyingSlots (c.without removed).liveness
        (placeWithout removed k)
        ((op.renumber (placeWithout removed)).operands.zip operandSlots)
      = dyingSlots c.liveness k (op.operands.zip operandSlots) := by
    unfold dyingSlots
    rw [NodeOp.operands_renumber, List.zip_map_left, eraseDups_map hinj,
      List.filter_map, List.map_map]
    refine congrArg _ (List.filter_congr fun a ha => ?_)
    exact h.diesAt_without hc (hstays a (List.mem_eraseDups.mp ha)) hk
  rw [releaseOperands_eq, releaseOperands_eq, hdying]

/-- **Each live node has one instruction.** -/
theorem Economical.length_instructions (h : e.Economical c c.nodes.length) :
    e.instructions.length = c.liveness.liveCount := by
  have hlength := congrArg List.length h.dsts_eq
  rwa [List.length_map, List.length_map, ← Computation.liveCount_eq]
    at hlength

/-- **Programs under way that agree**, the second one of a computation with
nodes taken out. -/
structure Agrees (removed : Finset Nat) (e e' : Emission) : Prop where
  /-- The same slots are free, and as many were made. -/
  pool : e'.pool = e.pool
  /-- The instructions are the same. -/
  instructions : e'.instructions = e.instructions
  /-- The constants are the same. -/
  constants : e'.constants = e.constants
  /-- The same was counted. -/
  stats : e'.stats = e.stats
  /-- A node that stays is in the same slot. -/
  slotOf? : ∀ {id : Nat}, id ∉ removed →
    e'.slotOf? (placeWithout removed id) = e.slotOf? id

theorem agrees_start (removed : Finset Nat) : start.Agrees removed start :=
  ⟨rfl, rfl, rfl, rfl, fun _ => rfl⟩

/-- A node may be passed over by the first alone. -/
theorem Agrees.skip_left (h : e.Agrees removed e') :
    e.skip.Agrees removed e' :=
  ⟨h.pool, h.instructions, h.constants, h.stats,
    fun hid => (h.slotOf? hid).trans slotOf?_skip.symm⟩

/-- A node may be passed over by the second alone. -/
theorem Agrees.skip_right (h : e.Agrees removed e') :
    e.Agrees removed e'.skip :=
  ⟨h.pool, h.instructions, h.constants, h.stats,
    fun hid => slotOf?_skip.trans (h.slotOf? hid)⟩

/-- **Emitting a node does the same to both.** -/
theorem Agrees.extend (h : e.Agrees removed e') (hD : c.Removable removed)
    (hc : c.WellFormed) (hk : k ∉ removed)
    (hoperands : ∀ x ∈ op.operands, x ∉ removed)
    (hlength : e.slots.length = k)
    (hlength' : e'.slots.length = placeWithout removed k) :
    (e.extend c.liveness op k operandSlots).Agrees removed
      (e'.extend (c.without removed).liveness
        (op.renumber (placeWithout removed)) (placeWithout removed k)
        operandSlots) := by
  have htake : e'.takeSlot (c.without removed).liveness
        (op.renumber (placeWithout removed)) (placeWithout removed k)
        operandSlots
      = e.takeSlot c.liveness op k operandSlots := by
    unfold takeSlot
    rw [h.pool, releaseOperands_without hD hc hk hoperands]
  constructor
  · exact congrArg Prod.snd htake
  · rw [instructions_extend, instructions_extend, instructionOf_renumber,
      htake, h.instructions, h.constants]
  · show e'.constants ++ _ = e.constants ++ _
    rw [constantOf_renumber, h.constants]
  · rw [stats_extend, stats_extend, instructionOf_renumber,
      constantOf_renumber, htake, h.stats, h.constants]
  · intro id hid
    rw [slotOf?_extend, slotOf?_extend, hlength, hlength', htake,
      h.slotOf? hid]
    exact if_congr (placeWithout_inj hid hk) rfl rfl

/-- **Going past a node that stays does the same to both.** -/
theorem Agrees.exists_step (h : e.Agrees removed e')
    (hD : c.Removable removed) (hc : c.WellFormed) (hk : k ∉ removed)
    (hnode : c.nodes[k]? = some node) (hsound : e.Sound c k)
    (hsound' : e'.Sound (c.without removed) (placeWithout removed k)) :
    ∃ t t', e.step c.liveness (node, k) = .ok t
      ∧ e'.step (c.without removed).liveness
        (node.renumber (placeWithout removed), placeWithout removed k)
          = .ok t'
      ∧ t.Agrees removed t' := by
  unfold step
  rw [hD.isLive_without hc hk]
  by_cases hlive : c.liveness.isLive k
  · rw [if_pos hlive, if_pos hlive]
    have hneeded : ∀ x ∈ node.op.operands, c.Needed k x :=
      fun x hx => hc.needed_of_mem_operands hnode hlive hx
    have hstays : ∀ x ∈ node.op.operands, x ∉ removed := by
      rw [← Computation.operandsOf_eq hnode]
      exact hD.operand_notMem hk
    obtain ⟨operandSlots, hslots⟩ := hsound.exists_operandSlots hneeded
    have hslots' : List.Forall₂ (fun x slot => e'.slotOf? x = some slot)
        (node.op.renumber (placeWithout removed)).operands
        operandSlots := by
      rw [NodeOp.operands_renumber, List.forall₂_map_left_iff]
      obtain ⟨hlength, hzip⟩ := List.forall₂_iff_zip.mp hslots
      refine List.forall₂_iff_zip.mpr ⟨hlength, fun {x slot} hx => ?_⟩
      rw [h.slotOf? (hstays x (List.of_mem_zip hx).1)]
      exact hzip hx
    exact ⟨_, _, emit_eq_ok.mpr ⟨operandSlots, hslots, rfl⟩,
      emit_eq_ok.mpr ⟨operandSlots, hslots', rfl⟩,
      h.extend hD hc hk hstays hsound.length_eq hsound'.length_eq⟩
  · rw [if_neg hlive, if_neg hlive]
    exact ⟨_, _, rfl, rfl, h.skip_left.skip_right⟩

end Emission

/-! ## The same program -/

namespace Computation

variable {c : Computation} {removed : Finset Nat} {k : Nat}

/-- What there is between two nodes is known to be sound. -/
theorem WellFormed.sound_of_emissionBefore (hc : c.WellFormed)
    {e : Emission} (hk : k ≤ c.nodes.length)
    (he : c.emissionBefore k = .ok e) :
    e.Sound c k ∧ e.Economical c k := by
  obtain ⟨e', he', hsound⟩ := hc.exists_emissionBefore hk
  rw [he, Except.ok.injEq] at he'
  exact he' ▸ hsound

/-- **Programs under way agree after each node.** -/
theorem Removable.exists_agrees (h : c.Removable removed)
    (hc : c.WellFormed) (hk : k ≤ c.nodes.length) :
    ∃ e e', c.emissionBefore k = .ok e
      ∧ (c.without removed).emissionBefore (placeWithout removed k) = .ok e'
      ∧ e.Agrees removed e' := by
  induction k with
  | zero => exact ⟨.start, .start, rfl, rfl, Emission.agrees_start removed⟩
  | succ k ih =>
    obtain ⟨e, e', he, he', hagrees⟩ := ih (Nat.le_of_succ_le hk)
    rw [emissionBefore_succ hk, he, Except.ok_bind]
    by_cases hmem : k ∈ removed
    · -- the node is not there, and it is dead
      have hdead : ¬c.liveness.isLive k :=
        fun hlive => h.not_reachable k hmem (reachable_of_isLive hlive)
      rw [Emission.step, if_neg hdead, placeWithout_succ_of_mem hmem]
      exact ⟨_, e', rfl, he', hagrees.skip_left⟩
    · have hlt : placeWithout removed k
          < (c.without removed).nodes.length := by
        rw [length_nodes_without]
        exact (placeWithout_lt_iff hmem).mpr hk
      have hnode := List.getElem?_eq_getElem hk
      have hnode' : (c.without removed).nodes[placeWithout removed k]
          = c.nodes[k].renumber (placeWithout removed) := by
        have hfound := getElem?_nodes_without (c := c) hmem
        rwa [hnode, Option.map_some, List.getElem?_eq_getElem hlt,
          Option.some.injEq] at hfound
      rw [placeWithout_succ hmem, emissionBefore_succ hlt, he',
        Except.ok_bind, hnode']
      exact hagrees.exists_step h hc hmem hnode
        (hc.sound_of_emissionBefore (Nat.le_of_succ_le hk) he).1
        ((h.wellFormed hc).sound_of_emissionBefore
          (Nat.le_of_lt hlt) he').1

/-- **As many nodes fewer are dead as were taken out**, since the
instructions are the same. -/
theorem Removable.deadCount_eq (h : c.Removable removed) {e e' : Emission}
    (he : e.Economical c c.nodes.length)
    (he' : e'.Economical (c.without removed)
      (c.without removed).nodes.length)
    (hagrees : e.Agrees removed e') :
    c.liveness.deadCount
      = (c.without removed).liveness.deadCount + removed.card := by
  have hlive := he.length_instructions
  have hlive' := he'.length_instructions
  rw [hagrees.instructions] at hlive'
  have hcount := c.liveness.liveCount_add_deadCount
  have hcount' := (c.without removed).liveness.liveCount_add_deadCount
  rw [length_live] at hcount hcount'
  have hlength := placeWithout_add_card h.lt_length
  rw [← length_nodes_without] at hlength
  omega

/-- **Dead code does not influence the program.** If nodes are taken out of
a computation that no output depends on, none of which takes a parameter,
together with whatever reads them, and the others are renumbered in order,
then what is left is well-formed and is compiled to the same program. What
is counted on the way is the same but for the dead nodes, which are fewer
by those taken out. -/
theorem toSlotProgram_without (hc : c.Built) (h : c.Removable removed) :
    (c.without removed).WellFormed
    ∧ ∃ p stats stats', c.toSlotProgram = .ok (p, stats)
      ∧ (c.without removed).toSlotProgram = .ok (p, stats')
      ∧ stats = { stats' with
          deadNodesDropped := stats'.deadNodesDropped + removed.card } := by
  have hc := hc.wellFormed
  have hc' := h.wellFormed hc
  obtain ⟨e, e', he, he', hagrees⟩ := h.exists_agrees hc (Nat.le_refl _)
  rw [← length_nodes_without] at he'
  obtain ⟨hsound, heconomical⟩ :=
    hc.sound_of_emissionBefore (Nat.le_refl _) he
  obtain ⟨hsound', heconomical'⟩ :=
    hc'.sound_of_emissionBefore (Nat.le_refl _) he'
  have houtputs : (c.without removed).outputs.map e'.assignment
      = c.outputs.map e.assignment := by
    show (c.outputs.map _).map _ = _
    rw [List.map_map]
    refine List.map_congr_left fun id hid => ?_
    rw [Function.comp_apply, Emission.assignment, Emission.assignment,
      hagrees.slotOf? (h.output_notMem id hid)]
  have hprogram := hc'.toSlotProgram_eq he' hsound'
  rw [hagrees.instructions, hagrees.constants, hagrees.pool, hagrees.stats,
    h.parameterShapes hc, h.outputShapes, houtputs] at hprogram
  refine ⟨hc', _, _, _, hc.toSlotProgram_eq he hsound, hprogram, ?_⟩
  rw [h.deadCount_eq heconomical heconomical' hagrees]

/-- The sum of two parameters times the second of them, among dead nodes:
both parameters are negated, and one of the negations is read. -/
def sumAmongDead : Computation :=
  ⟨"f", [⟨.parameter 0, ⟨.s32, []⟩⟩, ⟨.parameter 1, ⟨.s32, []⟩⟩,
    ⟨.unary .negate 1, ⟨.s32, []⟩⟩, ⟨.binary .add 0 1, ⟨.s32, []⟩⟩,
    ⟨.binary .add 2 3, ⟨.s32, []⟩⟩, ⟨.unary .negate 0, ⟨.s32, []⟩⟩,
    ⟨.binary .multiply 3 1, ⟨.s32, []⟩⟩], [0, 1], [6]⟩

/-- Two of the three dead nodes are taken out, and the third is moved. -/
theorem sumAmongDead_without :
    sumAmongDead.without {2, 4}
      = ⟨"f", [⟨.parameter 0, ⟨.s32, []⟩⟩, ⟨.parameter 1, ⟨.s32, []⟩⟩,
        ⟨.binary .add 0 1, ⟨.s32, []⟩⟩, ⟨.unary .negate 0, ⟨.s32, []⟩⟩,
        ⟨.binary .multiply 2 1, ⟨.s32, []⟩⟩], [0, 1], [4]⟩
    ∧ ∃ p stats stats', sumAmongDead.toSlotProgram = .ok (p, stats)
      ∧ (sumAmongDead.without {2, 4}).toSlotProgram = .ok (p, stats')
      ∧ stats.slotsUsed = stats'.slotsUsed
      ∧ stats.deadNodesDropped = stats'.deadNodesDropped + 2 := by
  have hbuilt : sumAmongDead.Built :=
    ⟨"f", [.parameter 0 ⟨.s32, []⟩, .parameter 1 ⟨.s32, []⟩,
      .unary .negate 1, .binary .add 0 1, .binary .add 2 3,
      .unary .negate 0, .binary .multiply 3 1], [6], rfl⟩
  have hdead : ∀ id ∈ ({2, 4} : Finset Nat),
      ¬sumAmongDead.liveness.isLive id := by
    intro id hid
    rcases Finset.mem_insert.mp hid with rfl | hid
    · exact Bool.eq_false_iff.mp (by cbv)
    · rw [Finset.mem_singleton.mp hid]
      exact Bool.eq_false_iff.mp (by cbv)
  have hreaders : ∀ id ∈ ({2, 4} : Finset Nat), ∀ reader < 7,
      id ∈ sumAmongDead.operandsOf reader →
      reader ∈ ({2, 4} : Finset Nat) := by decide
  have hremovable : sumAmongDead.Removable {2, 4} := by
    refine ⟨by decide, fun id hid number shape hnode => ?_,
      fun id hid hreachable => ?_, fun id hid reader hread => ?_⟩
    · have hparameter :=
        hbuilt.wellFormed.getElem?_parameters.mpr ⟨shape, hnode⟩
      have hlisted : id ∈ [0, 1] := List.mem_of_getElem? hparameter
      have hapart : ∀ id ∈ ({2, 4} : Finset Nat), id ∉ [0, 1] := by decide
      exact hapart id hid hlisted
    · exact hdead id hid
        (hbuilt.wellFormed.isLive_iff_reachable.mpr hreachable)
    · exact hreaders id hid reader (lt_length_of_mem_operandsOf hread) hread
  obtain ⟨-, p, stats, stats', hp, hp', hstats⟩ :=
    toSlotProgram_without hbuilt hremovable
  refine ⟨by decide, p, stats, stats', hp, hp', ?_, ?_⟩
  · rw [hstats]
  · rw [hstats]
    rfl

end Computation

end TensorBind
