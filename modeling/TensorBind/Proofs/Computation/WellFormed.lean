import TensorBind.Computation.Builder
import TensorBind.Proofs.Literal

/-!
# Well-formed computations

A builder refuses what would not make sense, so what it lets through can be
relied on. `Computation.WellFormed` says what that is: a node reads only
earlier nodes, which have its own shape, its operation is defined on their
elements, a constant has the shape of its literal, every output is a node,
and each parameter number below the count of parameters is taken by exactly
one node.

`Computation.Built` are the computations that some calls of a builder
(`Builder.Call`), whether they succeed or not, can end in. All of them are
well-formed (`Computation.Built.wellFormed`). What each call adds is said
once, in the lemmas named `…_eq_ok`, and the two program forms share them.
-/

namespace TensorBind

/-- What an operation asks of the shape of its node, beyond its
operands. -/
def NodeOp.DefinedOn (shape : Shape) : NodeOp → Prop
  | .parameter _ => True
  | .constant value => value.shape = shape
  | .unary op _ => op.definedOn shape.elementType
  | .binary op _ _ => op.definedOn shape.elementType

/-- **What a node at a position may be.** -/
structure Node.FitsAt (nodes : List Node) (position : Nat) (node : Node) :
    Prop where
  /-- It reads earlier nodes only. -/
  operand_lt : ∀ x ∈ node.op.operands, x < position
  /-- They have its own shape. -/
  operand_shape : ∀ x ∈ node.op.operands,
    nodes[x]?.map Node.shape = some node.shape
  /-- What it does is defined on that shape. -/
  definedOn : node.op.DefinedOn node.shape

/-- A node goes on to fit when nodes are added behind it. -/
theorem Node.FitsAt.append {nodes : List Node} {position : Nat}
    {node : Node} (h : node.FitsAt nodes position) (more : List Node) :
    node.FitsAt (nodes ++ more) position := by
  refine ⟨h.operand_lt, fun x hx => ?_, h.definedOn⟩
  obtain ⟨n, hn, hshape⟩ := Option.map_eq_some_iff.mp (h.operand_shape x hx)
  rw [List.getElem?_append_left (List.getElem?_eq_some_iff.mp hn).1, hn,
    Option.map_some, hshape]

namespace Builder

variable {b b' : Builder} {id : Nat}

/-! ## What each call adds -/

/-- The builder with one more node. -/
def append (b : Builder) (op : NodeOp) (shape : Shape) : Builder :=
  ⟨b.name, b.nodes ++ [⟨op, shape⟩]⟩

@[simp] theorem append_nodes (op : NodeOp) (shape : Shape) :
    (b.append op shape).nodes = b.nodes ++ [⟨op, shape⟩] := rfl

theorem push_eq (b : Builder) (op : NodeOp) (shape : Shape) :
    b.push op shape = (b.nodes.length, b.append op shape) := rfl

/-- The shape of a node is found exactly if there is such a node. -/
theorem operandShape_eq_ok {shape : Shape} :
    b.operandShape id = .ok shape
      ↔ b.nodes[id]?.map Node.shape = some shape := by
  unfold operandShape
  cases b.nodes[id]? with
  | none => simp
  | some node => simp

/-- **A parameter is added** exactly if its number can be counted and is
not taken. -/
theorem parameter_eq_ok {number : Nat} {shape : Shape} :
    b.parameter number shape = .ok (id, b')
      ↔ number < largestSize ∧ b.parameterNode? number = none
        ∧ id = b.nodes.length ∧ b' = b.append (.parameter number) shape := by
  unfold parameter hasParameter
  rw [push_eq]
  split
  · simp
    omega
  · split
    · rename_i htaken
      simp only [reduceCtorEq, false_iff]
      rintro ⟨-, hnone, -⟩
      rw [hnone] at htaken
      exact Bool.false_ne_true htaken
    · rename_i hlarge htaken
      rw [Option.not_isSome_iff_eq_none] at htaken
      simp only [Except.ok.injEq, Prod.mk.injEq, htaken, true_and,
        Nat.not_le.mp hlarge]
      exact and_congr eq_comm eq_comm

/-- **An operation with one operand is added** exactly if the operand is a
node on whose elements it is defined. -/
theorem unary_eq_ok {op : UnaryOp} {x : Nat} :
    b.unary op x = .ok (id, b')
      ↔ ∃ shape, b.nodes[x]?.map Node.shape = some shape
        ∧ op.definedOn shape.elementType
        ∧ id = b.nodes.length ∧ b' = b.append (.unary op x) shape := by
  unfold unary
  rw [Except.bind_eq_ok]
  refine exists_congr fun shape => ?_
  rw [operandShape_eq_ok, push_eq]
  refine and_congr_right fun _ => ?_
  split
  · rename_i hop
    rw [Except.pure_eq_ok_iff, Prod.mk.injEq]
    simp only [hop, true_and]
    exact and_congr eq_comm eq_comm
  · rename_i hop
    simp [hop]

/-- **An operation with two operands is added** exactly if they are nodes
of one shape, on whose elements it is defined. -/
theorem binary_eq_ok {op : BinaryOp} {x y : Nat} :
    b.binary op x y = .ok (id, b')
      ↔ ∃ shape, b.nodes[x]?.map Node.shape = some shape
        ∧ b.nodes[y]?.map Node.shape = some shape
        ∧ op.definedOn shape.elementType
        ∧ id = b.nodes.length ∧ b' = b.append (.binary op x y) shape := by
  unfold binary
  rw [Except.bind_eq_ok]
  refine exists_congr fun left => ?_
  rw [operandShape_eq_ok]
  refine and_congr_right fun _ => ?_
  rw [Except.bind_eq_ok]
  simp only [operandShape_eq_ok, push_eq]
  constructor
  · rintro ⟨right, hright, h⟩
    split at h
    · exact absurd h (by simp)
    · rename_i heq
      rw [not_not] at heq
      split at h
      · rename_i hop
        rw [Except.pure_eq_ok_iff, Prod.mk.injEq] at h
        exact ⟨heq ▸ hright, hop, h.1.symm, h.2.symm⟩
      · exact absurd h (by simp)
  · rintro ⟨hright, hop, rfl, rfl⟩
    refine ⟨left, hright, ?_⟩
    rw [if_neg (not_not.mpr rfl), if_pos hop]
    rfl

/-- **A declared shape passes** exactly if it is the shape of the node. -/
theorem expectShape_eq_ok {declared : Shape} {what : String} :
    b.expectShape id declared what = .ok ()
      ↔ b.nodes[id]?.map Node.shape = some declared := by
  unfold expectShape
  rw [Except.bind_eq_ok]
  simp only [operandShape_eq_ok]
  constructor
  · rintro ⟨computed, hcomputed, h⟩
    split at h
    · rename_i heq
      exact heq ▸ hcomputed
    · exact absurd h (by simp)
  · intro h
    exact ⟨declared, h, by rw [if_pos rfl]; rfl⟩

/-! ## What a builder holds -/

/-- The number of a parameter leads to a node that takes it. -/
theorem getElem?_of_parameterNode? {number : Nat}
    (h : b.parameterNode? number = some id) :
    ∃ shape, b.nodes[id]? = some ⟨.parameter number, shape⟩ := by
  obtain ⟨hlt, hop, -⟩ := List.findIdx?_eq_some_iff_getElem.mp h
  refine ⟨b.nodes[id].shape, ?_⟩
  rw [List.getElem?_eq_getElem hlt, ← of_decide_eq_true hop]

/-- A number that leads to no node is taken by none. -/
theorem ne_parameter_of_parameterNode? {number : Nat} {node : Node}
    (h : b.parameterNode? number = none) (hnode : b.nodes[id]? = some node) :
    node.op ≠ .parameter number := by
  have hall := List.findIdx?_eq_none_iff.mp h node
    (List.mem_of_getElem? hnode)
  exact of_decide_eq_false hall

/-- **A well-formed builder**: its nodes fit, and no two take the same
parameter. -/
structure WellFormed (b : Builder) : Prop where
  /-- Every node fits its position. -/
  fits : ∀ {id : Nat} {node : Node}, b.nodes[id]? = some node →
    node.FitsAt b.nodes id
  /-- A parameter is taken by one node at most. -/
  parameter_unique : ∀ {i j number : Nat} {s t : Shape},
    b.nodes[i]? = some (Node.mk (.parameter number) s) →
    b.nodes[j]? = some (Node.mk (.parameter number) t) → i = j

theorem wellFormed_empty (name : String) : (empty name).WellFormed := by
  constructor <;> simp [empty]

/-- **A node that fits may be added**, if it takes no parameter that is
taken already. -/
theorem WellFormed.append {op : NodeOp} {shape : Shape} (h : b.WellFormed)
    (hfits : Node.FitsAt b.nodes b.nodes.length ⟨op, shape⟩)
    (hfree : ∀ number, op = .parameter number →
      b.parameterNode? number = none) :
    (b.append op shape).WellFormed := by
  have hcases : ∀ {id node}, (b.append op shape).nodes[id]? = some node →
      b.nodes[id]? = some node
        ∨ (id = b.nodes.length ∧ ⟨op, shape⟩ = node) :=
    List.getElem?_concat_eq_some.mp
  constructor
  · intro id node hnode
    rcases hcases hnode with hold | ⟨rfl, rfl⟩
    · exact (h.fits hold).append _
    · exact hfits.append _
  · intro i j number s t hi hj
    rcases hcases hi with hi | ⟨hi, heq⟩
    · rcases hcases hj with hj | ⟨hj, heq⟩
      · exact h.parameter_unique hi hj
      · rw [Node.mk.injEq] at heq
        exact absurd rfl
          (ne_parameter_of_parameterNode? (hfree number heq.1) hi)
    · rcases hcases hj with hj | ⟨hj, -⟩
      · rw [Node.mk.injEq] at heq
        exact absurd rfl
          (ne_parameter_of_parameterNode? (hfree number heq.1) hj)
      · rw [hi, hj]

/-- An operand that has a shape stands before what is added. -/
theorem lt_length_of_shape {nodes : List Node} {x : Nat} {shape : Shape}
    (h : nodes[x]?.map Node.shape = some shape) : x < nodes.length := by
  obtain ⟨_, hnode, -⟩ := Option.map_eq_some_iff.mp h
  exact (List.getElem?_eq_some_iff.mp hnode).1

theorem WellFormed.parameter {number : Nat} {shape : Shape}
    (h : b.WellFormed) (hb : b.parameter number shape = .ok (id, b')) :
    b'.WellFormed := by
  obtain ⟨-, hfree, -, rfl⟩ := parameter_eq_ok.mp hb
  refine h.append ⟨by simp [NodeOp.operands], by simp [NodeOp.operands],
    trivial⟩ ?_
  rintro _ ⟨⟩
  exact hfree

theorem WellFormed.constant (h : b.WellFormed) (value : Literal) :
    (b.constant value).2.WellFormed :=
  h.append ⟨by simp [NodeOp.operands], by simp [NodeOp.operands], rfl⟩
    (by simp)

theorem WellFormed.unary {op : UnaryOp} {x : Nat} (h : b.WellFormed)
    (hb : b.unary op x = .ok (id, b')) : b'.WellFormed := by
  obtain ⟨shape, hx, hop, -, rfl⟩ := unary_eq_ok.mp hb
  refine h.append ⟨?_, ?_, hop⟩ (by simp)
  · rintro _ (_ | ⟨_, ⟨⟩⟩)
    exact lt_length_of_shape hx
  · rintro _ (_ | ⟨_, ⟨⟩⟩)
    exact hx

theorem WellFormed.binary {op : BinaryOp} {x y : Nat} (h : b.WellFormed)
    (hb : b.binary op x y = .ok (id, b')) : b'.WellFormed := by
  obtain ⟨shape, hx, hy, hop, -, rfl⟩ := binary_eq_ok.mp hb
  refine h.append ⟨?_, ?_, hop⟩ (by simp)
  · rintro _ (_ | ⟨_, _ | ⟨_, ⟨⟩⟩⟩)
    · exact lt_length_of_shape hx
    · exact lt_length_of_shape hy
  · rintro _ (_ | ⟨_, _ | ⟨_, ⟨⟩⟩⟩)
    · exact hx
    · exact hy

end Builder

/-! ## Finished computations -/

/-- **A well-formed computation.** -/
structure Computation.WellFormed (c : Computation) : Prop where
  /-- Every node fits its position. -/
  fits : ∀ {id : Nat} {node : Node}, c.nodes[id]? = some node →
    node.FitsAt c.nodes id
  /-- There is an output. -/
  outputs_ne_nil : c.outputs ≠ []
  /-- Every output is a node. -/
  output_lt : ∀ id ∈ c.outputs, id < c.nodes.length
  /-- The parameters are listed by number, each of them and no other
  node. -/
  getElem?_parameters : ∀ {number id : Nat},
    c.parameters[number]? = some id
      ↔ ∃ shape, c.nodes[id]? = some (Node.mk (.parameter number) shape)

namespace Builder

variable {b : Builder}

/-- The nodes found for consecutive parameter numbers. -/
theorem getElem?_parametersFrom {number count : Nat} {ids : List Nat}
    (h : b.parametersFrom number count = .ok ids) {k : Nat} :
    ids[k]? = if k < count then b.parameterNode? (number + k) else none := by
  induction count generalizing number ids k with
  | zero =>
    rw [parametersFrom, Except.ok.injEq] at h
    simp [← h]
  | succ count ih =>
    rw [parametersFrom] at h
    split at h
    · rename_i id hid
      obtain ⟨rest, hrest, hids⟩ := Except.bind_eq_ok.mp h
      rw [Except.pure_eq_ok_iff] at hids
      subst hids
      cases k with
      | zero => simp [hid]
      | succ k =>
        rw [List.getElem?_cons_succ, ih hrest, Nat.add_right_comm,
          Nat.add_assoc]
        simp
    · exact absurd h (by simp)

/-- A parameter that a node takes is below the count of parameters. -/
theorem lt_parameterCount {number : Nat} {shape : Shape}
    (h : ⟨.parameter number, shape⟩ ∈ b.nodes) :
    number < b.parameterCount := by
  unfold parameterCount
  obtain ⟨before, after, heq⟩ := List.append_of_mem h
  rw [heq, List.foldl_append, List.foldl_cons]
  -- The count passes the number at its node and does not go down after it.
  refine List.foldlRecOn (motive := fun count => number < count) after _
    (Nat.lt_of_lt_of_le (Nat.lt_succ_self number) (Nat.le_max_right _ _)) ?_
  intro count hcount node _
  split
  · exact Nat.lt_of_lt_of_le hcount (Nat.le_max_left _ _)
  · exact hcount

/-- **A computation is finished** if there are outputs, all of them nodes,
and the parameters can be listed. -/
theorem build_eq_ok {outputs : List Nat} {c : Computation} :
    b.build outputs = .ok c
      ↔ outputs ≠ [] ∧ (∀ id ∈ outputs, id < b.nodes.length)
        ∧ ∃ parameters, b.parametersFrom 0 b.parameterCount = .ok parameters
          ∧ c = ⟨b.name, b.nodes, parameters, outputs⟩ := by
  unfold build
  split
  · rename_i hempty
    simp [List.isEmpty_iff.mp hempty]
  · rename_i hne
    rw [List.isEmpty_iff] at hne
    rw [and_iff_right hne]
    split
    · rename_i id hfind
      have hid := List.find?_some hfind
      rw [decide_eq_true_eq] at hid
      simp only [reduceCtorEq, false_iff, not_and]
      exact fun hlt => absurd (hlt id (List.mem_of_find?_eq_some hfind))
        (Nat.not_lt.mpr hid)
    · rename_i hfind
      rw [List.find?_eq_none] at hfind
      rw [and_iff_right fun id hid => by simpa using hfind id hid]
      simp only [Except.bind_eq_ok, Except.pure_eq_ok_iff,
        eq_comm (a := c)]

/-- **A finished computation is well-formed.** -/
theorem WellFormed.build {outputs : List Nat} {c : Computation}
    (h : b.WellFormed) (hc : b.build outputs = .ok c) :
    c.WellFormed ∧ c.name = b.name ∧ c.nodes = b.nodes
      ∧ c.outputs = outputs := by
  obtain ⟨hne, hlt, ids, hids, rfl⟩ := build_eq_ok.mp hc
  refine ⟨⟨h.fits, hne, hlt, ?_⟩, rfl, rfl, rfl⟩
  intro number id
  rw [getElem?_parametersFrom hids, Nat.zero_add]
  constructor
  · intro hnumber
    split at hnumber
    · exact getElem?_of_parameterNode? hnumber
    · exact absurd hnumber (by simp)
  · rintro ⟨shape, hnode⟩
    rw [if_pos (lt_parameterCount (List.mem_of_getElem? hnode))]
    cases hfound : b.parameterNode? number with
    | none =>
      exact absurd rfl (ne_parameter_of_parameterNode? hfound hnode)
    | some id' =>
      obtain ⟨shape', hnode'⟩ := getElem?_of_parameterNode? hfound
      rw [h.parameter_unique hnode' hnode]

/-! ## Computations that can be built -/

/-- **A call of a builder.** -/
inductive Call where
  /-- Adds a parameter. -/
  | parameter (number : Nat) (shape : Shape)
  /-- Adds a constant. -/
  | constant (value : Literal)
  /-- Adds an operation with one operand. -/
  | unary (op : UnaryOp) (x : Nat)
  /-- Adds an operation with two operands. -/
  | binary (op : BinaryOp) (x y : Nat)
  /-- Checks a declared shape. -/
  | expectShape (id : Nat) (declared : Shape) (what : String)
deriving DecidableEq

/-- What a call makes of a builder. -/
def perform (b : Builder) : Call → Except BuildError Builder
  | .parameter number shape => (b.parameter number shape).map Prod.snd
  | .constant value => .ok (b.constant value).2
  | .unary op x => (b.unary op x).map Prod.snd
  | .binary op x y => (b.binary op x y).map Prod.snd
  | .expectShape id declared what =>
    (b.expectShape id declared what).map fun _ => b

/-- **The builder after some calls.** A call that fails leaves it as it
was. -/
def after (b : Builder) : List Call → Builder
  | [] => b
  | call :: calls =>
    match b.perform call with
    | .ok next => next.after calls
    | .error _ => b.after calls

/-- A call keeps a builder well-formed. -/
theorem WellFormed.perform {next : Builder} {call : Call}
    (h : b.WellFormed) (hcall : b.perform call = .ok next) :
    next.WellFormed := by
  cases call with
  | parameter number shape =>
    obtain ⟨⟨id, b'⟩, hb, rfl⟩ := Except.map_eq_ok.mp hcall
    exact h.parameter hb
  | constant value =>
    rw [Builder.perform, Except.ok.injEq] at hcall
    exact hcall ▸ h.constant value
  | unary op x =>
    obtain ⟨⟨id, b'⟩, hb, rfl⟩ := Except.map_eq_ok.mp hcall
    exact h.unary hb
  | binary op x y =>
    obtain ⟨⟨id, b'⟩, hb, rfl⟩ := Except.map_eq_ok.mp hcall
    exact h.binary hb
  | expectShape id declared what =>
    obtain ⟨-, -, rfl⟩ := Except.map_eq_ok.mp hcall
    exact h

/-- Calls keep a builder well-formed, whether they succeed or not. -/
theorem WellFormed.after (h : b.WellFormed) (calls : List Call) :
    (b.after calls).WellFormed := by
  induction calls generalizing b with
  | nil => exact h
  | cons call calls ih =>
    rw [Builder.after]
    split
    · rename_i next hcall
      exact ih (h.perform hcall)
    · exact ih h

end Builder

namespace Computation

/-- **A computation that some calls of a builder end in.** -/
def Built (c : Computation) : Prop :=
  ∃ name calls outputs,
    ((Builder.empty name).after calls).build outputs = .ok c

/-- **What can be built is well-formed.** -/
theorem Built.wellFormed {c : Computation} (h : c.Built) :
    c.WellFormed := by
  obtain ⟨name, calls, outputs, hc⟩ := h
  exact (((Builder.wellFormed_empty name).after calls).build hc).1

variable {c : Computation}

/-- A position below the number of nodes has a shape. -/
theorem shape?_eq_some {id : Nat} (h : id < c.nodes.length) :
    c.shape? id = some c.nodes[id].shape := by
  rw [shape?, List.getElem?_eq_getElem h, Option.map_some]

/-- Of nodes that all exist, the shapes are listed one by one. -/
theorem filterMap_shape? {ids : List Nat}
    (h : ∀ id ∈ ids, id < c.nodes.length) :
    (ids.filterMap c.shape?).map some = ids.map c.shape? := by
  induction ids with
  | nil => rfl
  | cons id ids ih =>
    obtain ⟨hid, hids⟩ := List.forall_mem_cons.mp h
    rw [List.filterMap_cons, List.map_cons, shape?_eq_some hid,
      List.map_cons, ih hids]

/-- **The shapes of the outputs** are found node by node. -/
theorem WellFormed.outputShapes_eq_iff (h : c.WellFormed)
    {shapes : List Shape} :
    shapes = c.outputShapes ↔ List.Forall₂
      (fun shape id => c.shape? id = some shape) shapes c.outputs := by
  rw [← (List.map_injective_iff.mpr fun _ _ => Option.some.inj).eq_iff,
    outputShapes, filterMap_shape? h.output_lt, ← List.forall₂_eq_eq_eq,
    List.forall₂_map_left_iff, List.forall₂_map_right_iff]
  simp only [eq_comm]

/-- The parameters are nodes. -/
theorem WellFormed.parameter_lt (h : c.WellFormed) :
    ∀ id ∈ c.parameters, id < c.nodes.length := by
  intro id hid
  obtain ⟨number, hnumber⟩ := List.mem_iff_getElem?.mp hid
  obtain ⟨shape, hnode⟩ := h.getElem?_parameters.mp hnumber
  exact (List.getElem?_eq_some_iff.mp hnode).1

/-- **A parameter has the shape that is listed for its number.** -/
theorem WellFormed.getElem?_parameterShapes (h : c.WellFormed)
    {number id : Nat} {shape : Shape}
    (hnode : c.nodes[id]? = some ⟨.parameter number, shape⟩) :
    c.parameterShapes[number]? = some shape := by
  have hparameter := h.getElem?_parameters.mpr ⟨shape, hnode⟩
  have hlist := congrArg (·[number]?) (filterMap_shape? h.parameter_lt)
  simp only [List.getElem?_map, hparameter, Option.map_some, shape?, hnode]
    at hlist
  obtain ⟨s, hs, heq⟩ := Option.map_eq_some_iff.mp hlist
  rw [parameterShapes, hs, ← Option.some.inj heq]

/-- There is one shape for each parameter. -/
theorem WellFormed.length_parameterShapes (h : c.WellFormed) :
    c.parameterShapes.length = c.parameters.length := by
  have hlist := congrArg List.length (filterMap_shape? h.parameter_lt)
  rwa [List.length_map, List.length_map] at hlist

/-- **The nodes that take parameters** are those listed, with the shapes
listed. -/
theorem WellFormed.getElem?_parameter_iff (h : c.WellFormed)
    {number id : Nat} {shape : Shape} :
    c.nodes[id]? = some ⟨.parameter number, shape⟩
      ↔ c.parameters[number]? = some id
        ∧ c.parameterShapes[number]? = some shape := by
  constructor
  · intro hnode
    exact ⟨h.getElem?_parameters.mpr ⟨shape, hnode⟩,
      h.getElem?_parameterShapes hnode⟩
  · rintro ⟨hparameter, hshape⟩
    obtain ⟨shape', hnode⟩ := h.getElem?_parameters.mp hparameter
    rw [h.getElem?_parameterShapes hnode, Option.some.injEq] at hshape
    exact hshape ▸ hnode

end Computation

end TensorBind
