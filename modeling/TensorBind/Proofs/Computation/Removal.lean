import TensorBind.Proofs.Liveness.Exact

/-!
# Computations with nodes taken out

Nodes can be taken out of a computation if no output depends on them, none
of them takes a parameter and whatever reads one of them goes with it
(`Computation.Removable`). The nodes that stay close up and are renumbered
in order (`Computation.without`).

What stays is the same in all but the numbers. A node that stays is found
at its new place with its operands at theirs
(`Computation.getElem?_nodes_without`), so what is left is well-formed, and
an output depends on a node before exactly if it does after
(`Computation.Removable.reachable_without_iff`).
-/

namespace TensorBind

/-- A node with its operands at other places. -/
def NodeOp.renumber (place : Nat → Nat) : NodeOp → NodeOp
  | .parameter number => .parameter number
  | .constant value => .constant value
  | .unary op x => .unary op (place x)
  | .binary op x y => .binary op (place x) (place y)

/-- A node with its operands at other places. -/
def Node.renumber (place : Nat → Nat) (node : Node) : Node :=
  ⟨node.op.renumber place, node.shape⟩

/-- **The place of a node when some are taken out**: how many stay before
it. -/
def placeWithout (removed : Finset Nat) (id : Nat) : Nat :=
  Nat.count (fun other => other ∉ removed) id

/-- **A computation with some nodes taken out**, the others renumbered in
order. -/
def Computation.without (c : Computation) (removed : Finset Nat) :
    Computation where
  name := c.name
  nodes := (c.nodes.zipIdx.filter fun node => node.2 ∉ removed).map
    fun node => node.1.renumber (placeWithout removed)
  parameters := c.parameters.map (placeWithout removed)
  outputs := c.outputs.map (placeWithout removed)

/-- **Nodes that can be taken out of a computation.** -/
structure Computation.Removable (c : Computation) (removed : Finset Nat) :
    Prop where
  /-- They are nodes. -/
  lt_length : ∀ id ∈ removed, id < c.nodes.length
  /-- None of them takes a parameter. -/
  ne_parameter : ∀ id ∈ removed, ∀ number shape,
    c.nodes[id]? ≠ some ⟨.parameter number, shape⟩
  /-- No output depends on any of them. -/
  not_reachable : ∀ id ∈ removed, ¬c.Reachable id
  /-- What reads one of them is one of them. -/
  reader_mem : ∀ id ∈ removed, ∀ reader, id ∈ c.operandsOf reader →
    reader ∈ removed

/-! ## Places -/

section Places

variable {removed : Finset Nat} {id id' : Nat}

theorem placeWithout_succ (hid : id ∉ removed) :
    placeWithout removed (id + 1) = placeWithout removed id + 1 :=
  Nat.count_succ_eq_succ_count_iff.mpr hid

theorem placeWithout_succ_of_mem (hid : id ∈ removed) :
    placeWithout removed (id + 1) = placeWithout removed id :=
  Nat.count_succ_eq_count_iff.mpr (not_not.mpr hid)

/-- **The order stays.** -/
theorem placeWithout_lt_iff (hid : id ∉ removed) :
    placeWithout removed id < placeWithout removed id' ↔ id < id' :=
  ⟨Nat.lt_of_count_lt_count, Nat.count_strict_mono hid⟩

/-- Nodes that stay do not share a place. -/
theorem placeWithout_inj (hid : id ∉ removed) (hid' : id' ∉ removed) :
    placeWithout removed id = placeWithout removed id' ↔ id = id' :=
  ⟨Nat.count_injective hid hid', congrArg _⟩

/-- Every place is that of a node that stays. -/
theorem exists_placeWithout (removed : Finset Nat) (k : Nat) :
    ∃ id, id ∉ removed ∧ placeWithout removed id = k := by
  have hinfinite : (Set.ofPred fun other => other ∉ removed).Infinite :=
    removed.finite_toSet.infinite_compl
  exact ⟨_, Nat.nth_mem_of_infinite hinfinite k,
    Nat.count_nth_of_infinite hinfinite k⟩

/-- **The nodes taken out are missing at the end.** -/
theorem placeWithout_add_card {n : Nat} (h : ∀ id ∈ removed, id < n) :
    placeWithout removed n + removed.card = n := by
  have hremoved : (Finset.range n).filter (· ∈ removed) = removed := by
    ext id
    rw [Finset.mem_filter, Finset.mem_range]
    exact and_iff_right_of_imp (h id)
  calc placeWithout removed n + removed.card
      = ((Finset.range n).filter (· ∉ removed)).card
        + ((Finset.range n).filter (· ∈ removed)).card := by
          rw [hremoved, placeWithout, Nat.count_eq_card_filter_range]
    _ = n := by
          rw [Nat.add_comm, Finset.card_filter_add_card_filter_not,
            Finset.card_range]

variable {α : Type}

/-- As many members of a list stay as there are places before its end. -/
theorem length_filter_zipIdx (removed : Finset Nat) (l : List α) :
    (l.zipIdx.filter fun a => a.2 ∉ removed).length
      = placeWithout removed l.length := by
  rw [← List.countP_eq_length_filter, placeWithout, Nat.count,
    List.range_eq_range', ← List.zipIdx_map_snd 0 l, List.countP_map]
  rfl

/-- **A member that stays is found at its place.** -/
theorem getElem?_filter_zipIdx {l : List α} (hid : id ∉ removed) :
    (l.zipIdx.filter fun a => a.2 ∉ removed)[placeWithout removed id]?
      = l[id]?.map fun a => (a, id) := by
  rcases Nat.lt_or_ge id l.length with hlt | hge
  · -- what stands before it leaves just as many members as its place says
    have hlength : (l.take id).length = id := List.length_take_of_le
      (Nat.le_of_lt hlt)
    have hbefore := length_filter_zipIdx removed (l.take id)
    rw [hlength] at hbefore
    have hsplit : l.zipIdx = (l.take id).zipIdx
        ++ (l[id], id) :: (l.drop (id + 1)).zipIdx (id + 1) := by
      conv_lhs => rw [← List.take_append_drop id l, List.zipIdx_append,
        List.drop_eq_getElem_cons hlt, hlength, Nat.zero_add]
      rfl
    rw [hsplit, List.filter_append, List.getElem?_append_right
      (Nat.le_of_eq hbefore), hbefore, Nat.sub_self, List.filter_cons,
      if_pos (decide_eq_true hid), List.getElem?_cons_zero,
      List.getElem?_eq_getElem hlt, Option.map_some]
  · rw [List.getElem?_eq_none, List.getElem?_eq_none hge, Option.map_none]
    rw [length_filter_zipIdx]
    exact Nat.count_monotone _ hge

end Places

namespace NodeOp

variable {place : Nat → Nat} {op : NodeOp}

theorem operands_renumber :
    (op.renumber place).operands = op.operands.map place := by
  cases op <;> rfl

/-- A node goes on to take the parameter it takes. -/
theorem renumber_eq_parameter {number : Nat} :
    op.renumber place = .parameter number ↔ op = .parameter number := by
  cases op <;> simp [renumber]

theorem DefinedOn.renumber {shape : Shape} (h : op.DefinedOn shape) :
    (op.renumber place).DefinedOn shape := by
  cases op <;> exact h

end NodeOp

namespace Computation

variable {c : Computation} {removed : Finset Nat} {id : Nat}

/-! ## What is left -/

/-- **A node that stays is at its place**, with its operands at theirs. -/
theorem getElem?_nodes_without (hid : id ∉ removed) :
    (c.without removed).nodes[placeWithout removed id]?
      = c.nodes[id]?.map (Node.renumber (placeWithout removed)) := by
  show (List.map _ _)[_]? = _
  rw [List.getElem?_map, getElem?_filter_zipIdx hid, Option.map_map]
  rfl

theorem length_nodes_without :
    (c.without removed).nodes.length
      = placeWithout removed c.nodes.length := by
  show (List.map _ _).length = _
  rw [List.length_map, length_filter_zipIdx]

/-- **All that is left are nodes that stay.** -/
theorem exists_of_getElem?_nodes_without {k : Nat} {node : Node}
    (h : (c.without removed).nodes[k]? = some node) :
    ∃ id old, id ∉ removed ∧ placeWithout removed id = k
      ∧ c.nodes[id]? = some old
      ∧ old.renumber (placeWithout removed) = node := by
  obtain ⟨id, hid, rfl⟩ := exists_placeWithout removed k
  rw [getElem?_nodes_without hid] at h
  obtain ⟨old, hold, hnode⟩ := Option.map_eq_some_iff.mp h
  exact ⟨id, old, hid, rfl, hold, hnode⟩

theorem operandsOf_without (hid : id ∉ removed) :
    (c.without removed).operandsOf (placeWithout removed id)
      = (c.operandsOf id).map (placeWithout removed) := by
  unfold operandsOf
  rw [getElem?_nodes_without hid]
  cases c.nodes[id]? with
  | none => rfl
  | some node => exact NodeOp.operands_renumber

theorem shape?_without (hid : id ∉ removed) :
    (c.without removed).shape? (placeWithout removed id) = c.shape? id := by
  rw [shape?, shape?, getElem?_nodes_without hid, Option.map_map]
  rfl

/-- The shapes of nodes that stay are the same. -/
theorem filterMap_shape?_without {ids : List Nat}
    (h : ∀ id ∈ ids, id ∉ removed) :
    (ids.map (placeWithout removed)).filterMap (c.without removed).shape?
      = ids.filterMap c.shape? := by
  rw [List.filterMap_map]
  exact List.filterMap_congr fun id hid => shape?_without (h id hid)

namespace Removable

variable (h : c.Removable removed)
include h

/-- What an output depends on stays. -/
theorem notMem_of_reachable (hid : c.Reachable id) : id ∉ removed :=
  fun hmem => h.not_reachable id hmem hid

theorem output_notMem : ∀ id ∈ c.outputs, id ∉ removed :=
  fun _ hid => h.notMem_of_reachable (reachable_of_mem_outputs hid)

/-- What a node that stays reads stays. -/
theorem operand_notMem (hid : id ∉ removed) :
    ∀ x ∈ c.operandsOf id, x ∉ removed :=
  fun x hx hmem => hid (h.reader_mem x hmem id hx)

/-- Parameters stay. -/
theorem parameter_notMem (hc : c.WellFormed) :
    ∀ id ∈ c.parameters, id ∉ removed := by
  intro id hid hmem
  obtain ⟨number, hnumber⟩ := List.mem_iff_getElem?.mp hid
  obtain ⟨shape, hnode⟩ := hc.getElem?_parameters.mp hnumber
  exact h.ne_parameter id hmem number shape hnode

/-- **What is left is well-formed.** -/
theorem wellFormed (hc : c.WellFormed) : (c.without removed).WellFormed where
  fits := by
    intro k node hnode
    obtain ⟨id, old, hid, rfl, hold, rfl⟩ :=
      exists_of_getElem?_nodes_without hnode
    have hfits := hc.fits hold
    have hstays : ∀ x ∈ old.op.operands, x ∉ removed := by
      rw [← operandsOf_eq hold]
      exact h.operand_notMem hid
    refine ⟨?_, ?_, hfits.definedOn.renumber⟩
    · show ∀ x ∈ (old.op.renumber _).operands, _
      rw [NodeOp.operands_renumber, List.forall_mem_map]
      exact fun x hx => (placeWithout_lt_iff (hstays x hx)).mpr
        (hfits.operand_lt x hx)
    · show ∀ x ∈ (old.op.renumber _).operands, _
      rw [NodeOp.operands_renumber, List.forall_mem_map]
      exact fun x hx => (shape?_without (hstays x hx)).trans
        (hfits.operand_shape x hx)
  outputs_ne_nil := by
    show c.outputs.map _ ≠ []
    rw [Ne, List.map_eq_nil_iff]
    exact hc.outputs_ne_nil
  output_lt := by
    show ∀ k ∈ c.outputs.map _, _
    rw [List.forall_mem_map, length_nodes_without]
    exact fun id hid => (placeWithout_lt_iff (h.output_notMem id hid)).mpr
      (hc.output_lt id hid)
  getElem?_parameters := by
    intro number k
    show (c.parameters.map _)[number]? = some k ↔ _
    rw [List.getElem?_map, Option.map_eq_some_iff]
    constructor
    · rintro ⟨id, hnumber, rfl⟩
      obtain ⟨shape, hnode⟩ := hc.getElem?_parameters.mp hnumber
      have hid := h.parameter_notMem hc id (List.mem_of_getElem? hnumber)
      exact ⟨shape, by rw [getElem?_nodes_without hid, hnode]; rfl⟩
    · rintro ⟨shape, hnode⟩
      obtain ⟨id, old, -, rfl, hold, hnode⟩ :=
        exists_of_getElem?_nodes_without hnode
      obtain ⟨hop, -⟩ := Node.mk.inj hnode
      rw [NodeOp.renumber_eq_parameter] at hop
      exact ⟨id, hc.getElem?_parameters.mpr ⟨old.shape, hop ▸ hold⟩, rfl⟩

theorem parameterShapes (hc : c.WellFormed) :
    (c.without removed).parameterShapes = c.parameterShapes :=
  filterMap_shape?_without (h.parameter_notMem hc)

theorem outputShapes : (c.without removed).outputShapes = c.outputShapes :=
  filterMap_shape?_without h.output_notMem

/-! ## What outputs depend on -/

/-- What an output depends on, it still depends on. -/
theorem reachable_without (hid : c.Reachable id) :
    (c.without removed).Reachable (placeWithout removed id) := by
  obtain ⟨output, houtput, hpath⟩ := hid
  induction hpath with
  | refl => exact reachable_of_mem_outputs (List.mem_map_of_mem houtput)
  | @tail reader x hreader hread ih =>
    have hstays := h.notMem_of_reachable ⟨output, houtput, hreader⟩
    refine ih.operand ?_
    rw [operandsOf_without hstays]
    exact List.mem_map_of_mem hread

/-- An output depends on nothing that it did not depend on. -/
theorem exists_of_reachable_without {k : Nat}
    (hk : (c.without removed).Reachable k) :
    ∃ id, c.Reachable id ∧ placeWithout removed id = k := by
  obtain ⟨output, houtput, hpath⟩ := hk
  induction hpath with
  | refl =>
    obtain ⟨id, hid, rfl⟩ := List.mem_map.mp houtput
    exact ⟨id, reachable_of_mem_outputs hid, rfl⟩
  | @tail reader x _ hread ih =>
    obtain ⟨id, hid, rfl⟩ := ih
    rw [operandsOf_without (h.notMem_of_reachable hid)] at hread
    obtain ⟨x, hx, rfl⟩ := List.mem_map.mp hread
    exact ⟨x, hid.operand hx, rfl⟩

/-- **Outputs depend on the same nodes.** -/
theorem reachable_without_iff (hid : id ∉ removed) :
    (c.without removed).Reachable (placeWithout removed id)
      ↔ c.Reachable id := by
  refine ⟨fun hreachable => ?_, h.reachable_without⟩
  obtain ⟨id', hid', hplace⟩ := h.exists_of_reachable_without hreachable
  rwa [← (placeWithout_inj (h.notMem_of_reachable hid') hid).mp hplace]

end Removable

end Computation

end TensorBind
