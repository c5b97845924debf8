import TensorBind.Proofs.Graph.Lowering

/-!
# Which declared shapes are compared

Every instruction of a program in graph form is declared with a shape, and
so may be the result. A program that is lowered to a computation computes
shapes of its own: each instruction but a tuple adds one node, in
order, so the node of an instruction is found by counting
(`Entry.nodeOf?`), and with it the shape it computes
(`Entry.computedShape?`).

Not all declarations are compared with what is computed. A value that is no
parameter may be declared as any tuple, and the tuple that is the root may
be declared as anything (`Instruction.Exempt`). The declared result is
compared with the outputs, so that one array and a tuple of one array are
the same there. These are the only liberties, and every program has them:
whether a program is lowered to a computation depends on its declarations
only through `Entry.Accepted`.
-/

namespace TensorBind.Graph

/-! ## What is declared and what is computed -/

/-- **An instruction whose declared shape is not compared** with the shape
it computes: a tuple, or a value other than a parameter that is declared as
a tuple. -/
def Instruction.Exempt (i : Instruction) : Prop :=
  i.opcode = .tuple ∨
    (∃ shapes, i.shape = .tuple shapes)
      ∧ ∀ number, i.opcode ≠ .parameter number

namespace Entry

/-- The number of nodes that the instructions before a position add:
one each, but none for a tuple. -/
def nodeCount (e : Entry) (k : Nat) : Nat :=
  (e.instructions.take k).countP fun i => i.opcode ≠ .tuple

/-- **The node of an instruction**, none for a tuple. -/
def nodeOf? (e : Entry) (k : Nat) : Option Nat :=
  e.instructions[k]?.bind fun i =>
    if i.opcode = .tuple then none else some (e.nodeCount k)

/-- **The shape an instruction computes**: that of its node, or for a tuple
those of the nodes of its operands. -/
def computedShape? (e : Entry) (c : Computation) (k : Nat) :
    Option DeclaredShape :=
  e.instructions[k]?.bind fun i =>
    if i.opcode = .tuple then
      (i.operands.mapM fun operand => (e.nodeOf? operand).bind c.shape?).map
        .tuple
    else ((e.nodeOf? k).bind c.shape?).map .array

/-- **The declarations of an entry are true** of a computation: each
instruction computes the shape it is declared with, and the result is
declared with the shape of the root. -/
structure Truthful (e : Entry) (c : Computation) : Prop where
  /-- Each instruction computes the shape it is declared with. -/
  instruction : ∀ {k : Nat} {i : Instruction},
    e.instructions[k]? = some i → e.computedShape? c k = some i.shape
  /-- The result is declared with the shape of the root. -/
  result : ∀ {result : DeclaredShape}, e.resultShape = some result →
    e.rootInstruction?.map Instruction.shape = some result

/-- **The declarations of an entry are accepted** for a computation: those
that are compared are true, and the result has the arrays of the root. -/
structure Accepted (e : Entry) (c : Computation) : Prop where
  /-- An instruction computes the shape it is declared with, or is
  exempt. -/
  instruction : ∀ {k : Nat} {i : Instruction},
    e.instructions[k]? = some i →
    e.computedShape? c k = some i.shape ∨ i.Exempt
  /-- The result has the arrays of the root. -/
  result : ∀ {result : DeclaredShape}, e.resultShape = some result →
    (e.computedShape? c e.root).map DeclaredShape.arrays
      = some result.arrays

variable {e e' : Entry} {c : Computation} {k : Nat} {i : Instruction}

theorem nodeCount_succ (hi : e.instructions[k]? = some i) :
    e.nodeCount (k + 1)
      = e.nodeCount k + if i.opcode = .tuple then 0 else 1 := by
  simp only [nodeCount, List.take_add_one, hi, Option.toList_some,
    List.countP_append, List.countP_singleton]
  by_cases htuple : i.opcode = .tuple <;> simp [htuple]

theorem nodeOf?_of_tuple (hi : e.instructions[k]? = some i)
    (htuple : i.opcode = .tuple) : e.nodeOf? k = none := by
  simp [nodeOf?, hi, htuple]

theorem nodeOf?_of_ne_tuple (hi : e.instructions[k]? = some i)
    (htuple : i.opcode ≠ .tuple) : e.nodeOf? k = some (e.nodeCount k) := by
  simp [nodeOf?, hi, htuple]

/-- The nodes of the instructions before a position. -/
def nodesBefore (e : Entry) (k : Nat) : List (Option Nat) :=
  (List.range k).map e.nodeOf?

theorem nodesBefore_succ :
    e.nodesBefore (k + 1) = e.nodesBefore k ++ [e.nodeOf? k] := by
  simp [nodesBefore, List.range_succ]

/-- All instructions together list the node of each. -/
theorem join_getElem?_nodesBefore :
    (e.nodesBefore e.instructions.length)[k]?.join = e.nodeOf? k := by
  rcases Nat.lt_or_ge k e.instructions.length with hk | hk
  · simp [nodesBefore, hk]
  · simp [nodesBefore, nodeOf?, hk]

end Entry

/-! ## Declarations that are compared -/

namespace Lowering

/-- **What holds of the declarations checked**, up to a position. -/
structure Declared (e : Entry) (position : Nat) (l : Lowering) : Prop where
  /-- The nodes are found by counting. -/
  nodes_eq : l.nodes = e.nodesBefore position
  /-- There are as many nodes as instructions that lay one down. -/
  length_eq : l.builder.nodes.length = e.nodeCount position
  /-- The node of an instruction does what the instruction does, with the
  shape declared unless the instruction is exempt. -/
  node : ∀ {k : Nat} {i : Instruction}, k < position →
    e.instructions[k]? = some i → i.opcode ≠ .tuple →
    ∃ node, l.builder.nodes[e.nodeCount k]? = some node
      ∧ i.Implemented (e.nodesBefore k) node.op
      ∧ (i.shape = .array node.shape ∨ i.Exempt)
  /-- A tuple is the root. -/
  tuple : ∀ {k : Nat} {i : Instruction}, k < position →
    e.instructions[k]? = some i → i.opcode = .tuple → k = e.root

variable {e : Entry} {l l' : Lowering} {position : Nat} {i : Instruction}

theorem declared_start (e : Entry) :
    Declared e 0 ⟨Builder.empty e.name, []⟩ where
  nodes_eq := rfl
  length_eq := by simp [Builder.empty, Entry.nodeCount]
  node := fun hk => absurd hk (Nat.not_lt_zero _)
  tuple := fun hk => absurd hk (Nat.not_lt_zero _)

theorem lt_or_eq_of_lt_succ (hi : e.instructions[position]? = some i)
    {k : Nat} {j : Instruction} (hk : k < position + 1)
    (hj : e.instructions[k]? = some j) :
    k < position ∨ k = position ∧ j = i := by
  rcases Nat.lt_succ_iff_lt_or_eq.mp hk with hk | rfl
  · exact .inl hk
  · exact .inr ⟨rfl, Option.some.inj (hj.symm.trans hi)⟩

/-- A tuple adds no node. -/
theorem Declared.skip (h : l.Declared e position)
    (hi : e.instructions[position]? = some i) (hop : i.opcode = .tuple)
    (hroot : position = e.root) :
    Declared e (position + 1) ⟨l.builder, l.nodes ++ [none]⟩ where
  nodes_eq := by
    rw [Entry.nodesBefore_succ, Entry.nodeOf?_of_tuple hi hop, h.nodes_eq]
  length_eq := by
    rw [Entry.nodeCount_succ hi, if_pos hop, h.length_eq, Nat.add_zero]
  node := by
    intro k j hk hj hne
    obtain hk | ⟨rfl, rfl⟩ := lt_or_eq_of_lt_succ hi hk hj
    · exact h.node hk hj hne
    · exact absurd hop hne
  tuple := by
    intro k j hk hj hop
    obtain hk | ⟨rfl, -⟩ := lt_or_eq_of_lt_succ hi hk hj
    · exact h.tuple hk hj hop
    · exact hroot

/-- A value adds a node. -/
theorem Declared.append (h : l.Declared e position)
    (hi : e.instructions[position]? = some i) {op : NodeOp} {shape : Shape}
    (himpl : i.Implemented l.nodes op)
    (hshape : i.shape = .array shape ∨ i.Exempt) :
    Declared e (position + 1)
      ⟨l.builder.append op shape,
        l.nodes ++ [some l.builder.nodes.length]⟩ where
  nodes_eq := by
    rw [Entry.nodesBefore_succ,
      Entry.nodeOf?_of_ne_tuple hi himpl.opcode_ne_tuple, h.nodes_eq,
      h.length_eq]
  length_eq := by
    rw [Builder.append_nodes, List.length_append, h.length_eq,
      Entry.nodeCount_succ hi, if_neg himpl.opcode_ne_tuple,
      List.length_singleton]
  node := by
    intro k j hk hj hne
    obtain hk | ⟨rfl, rfl⟩ := lt_or_eq_of_lt_succ hi hk hj
    · obtain ⟨node, hnode, hdoes⟩ := h.node hk hj hne
      refine ⟨node, ?_, hdoes⟩
      rw [Builder.append_nodes, List.getElem?_append_left
        (List.getElem?_eq_some_iff.mp hnode).1, hnode]
    · refine ⟨⟨op, shape⟩, ?_, h.nodes_eq ▸ himpl, hshape⟩
      rw [← h.length_eq, Builder.append_nodes, List.getElem?_concat_length]
  tuple := by
    intro k j hk hj hop
    obtain hk | ⟨rfl, rfl⟩ := lt_or_eq_of_lt_succ hi hk hj
    · exact h.tuple hk hj hop
    · exact absurd hop himpl.opcode_ne_tuple

/-- **Going through one more declaration.** -/
theorem Declared.step (h : l.Declared e position)
    (hi : e.instructions[position]? = some i)
    (hstep : e.lowerInstruction l (i, position) = .ok l') :
    l'.Declared e (position + 1) := by
  obtain ⟨hroot, ⟨hvalue, rfl⟩ | ⟨id, b', hvalue, hcheck, rfl⟩⟩ :=
    Entry.lowerInstruction_eq_ok.mp hstep
  · have htuple := Entry.opcode_of_lowerValue hvalue
    exact h.skip hi htuple (hroot htuple)
  · obtain ⟨-, op, shape, himpl, hparameter, rfl, rfl⟩ :=
      Entry.implemented_of_lowerValue hvalue
    refine h.append hi himpl ?_
    cases hshape : i.shape with
    | array declared =>
      rw [Entry.checkDeclared_eq_ok hshape, Builder.append_nodes,
        List.getElem?_concat_length] at hcheck
      exact .inl (congrArg _ (Option.some.inj hcheck).symm)
    | tuple shapes =>
      refine .inr (.inr ⟨⟨shapes, hshape⟩, fun number hop => ?_⟩)
      exact nomatch hshape.symm.trans (hparameter number hop)

/-- New nodes are added behind the others. -/
theorem prefix_of_lowerInstruction {instruction : Instruction × Nat}
    (h : e.lowerInstruction l instruction = .ok l') :
    l.builder.nodes <+: l'.builder.nodes := by
  obtain ⟨-, ⟨-, rfl⟩ | ⟨id, b', hvalue, -, rfl⟩⟩ :=
    Entry.lowerInstruction_eq_ok.mp h
  · exact List.prefix_rfl
  · obtain ⟨-, op, shape, -, -, -, rfl⟩ :=
      Entry.implemented_of_lowerValue hvalue
    exact List.prefix_append _ _

theorem prefix_of_lowerInstructions
    {instructions : List (Instruction × Nat)}
    (h : instructions.foldlM e.lowerInstruction l = .ok l') :
    l.builder.nodes <+: l'.builder.nodes :=
  List.foldlM_invariant
    (fun _ l' => l.builder.nodes <+: l'.builder.nodes) List.prefix_rfl
    (fun _ _ _ _ hs hstep => hs.trans (prefix_of_lowerInstruction hstep)) h

end Lowering

namespace Entry

variable {e e' : Entry} {c : Computation} {k : Nat} {i i' : Instruction}

/-- **What is found of an entry** in the computation it is lowered to. -/
structure Realized (e : Entry) (c : Computation) : Prop where
  /-- The node of an instruction does what the instruction does, with the
  shape declared unless the instruction is exempt. -/
  node : ∀ {k : Nat} {i : Instruction},
    e.instructions[k]? = some i → i.opcode ≠ .tuple →
    ∃ node, c.nodes[e.nodeCount k]? = some node
      ∧ i.Implemented (e.nodesBefore k) node.op
      ∧ (i.shape = .array node.shape ∨ i.Exempt)
  /-- A tuple is the root. -/
  tuple : ∀ {k : Nat} {i : Instruction},
    e.instructions[k]? = some i → i.opcode = .tuple → k = e.root
  /-- The outputs are nodes. -/
  output_lt : ∀ id ∈ c.outputs, id < c.nodes.length
  /-- The outputs are read off the root. -/
  outputs : e.outputNodes (e.nodesBefore e.instructions.length)
    = .ok c.outputs

theorem declared_of_lowerInstructions {l : Lowering}
    (h : e.instructions.zipIdx.foldlM e.lowerInstruction
      ⟨Builder.empty e.name, []⟩ = .ok l) :
    l.Declared e e.instructions.length := by
  have hfold := List.foldlM_invariant (fun k l => Lowering.Declared e k l)
    (Lowering.declared_start e) ?_ h
  · rwa [List.length_zipIdx] at hfold
  · intro k hk l l' hl hstep
    rw [List.length_zipIdx] at hk
    rw [List.getElem_zipIdx, Nat.zero_add] at hstep
    exact hl.step (List.getElem?_eq_getElem hk) hstep

theorem realized_of_toComputation (h : e.toComputation = .ok c) :
    e.Realized c := by
  obtain ⟨l, builder, outputs, hl, hbuilder, houtputs, hc, -, -⟩ :=
    toComputation_eq_ok.mp h
  have hdeclared := declared_of_lowerInstructions hl
  have hmore := (prefix_of_addParameters hbuilder).2
  obtain ⟨-, hlt, parameters, -, rfl⟩ := Builder.build_eq_ok.mp hc
  refine ⟨fun hi hne => ?_, fun hi => ?_, hlt, ?_⟩
  · obtain ⟨node, hnode, hdoes⟩ :=
      hdeclared.node (List.getElem?_eq_some_iff.mp hi).1 hi hne
    exact ⟨node, hmore.getElem?_eq_some hnode, hdoes⟩
  · exact hdeclared.tuple (List.getElem?_eq_some_iff.mp hi).1 hi
  · rw [← hdeclared.nodes_eq, houtputs]

theorem computedShape?_of_ne_tuple (hi : e.instructions[k]? = some i)
    (hne : i.opcode ≠ .tuple) :
    e.computedShape? c k = (c.shape? (e.nodeCount k)).map .array := by
  simp [computedShape?, hi, hne, nodeOf?_of_ne_tuple hi hne]

/-- The shapes of the nodes of operands are those of the outputs they
become. -/
theorem mapM_shape?_of_forall₂ {operands ids : List Nat}
    (h : List.Forall₂ (fun operand id => e.nodeOf? operand = some id)
      operands ids) (hlt : ∀ id ∈ ids, id < c.nodes.length) :
    (operands.mapM fun operand => (e.nodeOf? operand).bind c.shape?)
      = some (ids.filterMap c.shape?) := by
  induction h with
  | nil => rfl
  | cons hid _ ih =>
    obtain ⟨hlt, hrest⟩ := List.forall_mem_cons.mp hlt
    simp [hid, Computation.shape?_eq_some hlt, ih hrest]

/-- **The root computes the shapes of the outputs**, as a tuple or as one
array. -/
theorem Realized.computedShape?_root (h : e.Realized c) :
    ∃ root, e.instructions[e.root]? = some root
      ∧ ((root.opcode = .tuple
          ∧ e.computedShape? c e.root = some (.tuple c.outputShapes))
        ∨ root.opcode ≠ .tuple ∧ ∃ shape, c.outputShapes = [shape]
          ∧ e.computedShape? c e.root = some (.array shape)) := by
  have houtputs := outputNodes_eq_ok.mp h.outputs
  simp only [join_getElem?_nodesBefore] at houtputs
  obtain ⟨root, hroot, ⟨hop, houtputs⟩ | ⟨hop, id, hid, houtputs⟩⟩ :=
    houtputs
  · refine ⟨root, hroot, .inl ⟨hop, ?_⟩⟩
    simp [computedShape?, hroot, hop,
      mapM_shape?_of_forall₂ houtputs h.output_lt, Computation.outputShapes]
  · have hlt := h.output_lt id (by simp [houtputs])
    rw [nodeOf?_of_ne_tuple hroot hop, Option.some.injEq] at hid
    refine ⟨root, hroot, .inr ⟨hop, c.nodes[id].shape, ?_, ?_⟩⟩
    · simp [Computation.outputShapes, houtputs,
        Computation.shape?_eq_some hlt]
    · rw [computedShape?_of_ne_tuple hroot hop, hid,
        Computation.shape?_eq_some hlt, Option.map_some]

theorem Realized.map_arrays_root (h : e.Realized c) :
    (e.computedShape? c e.root).map DeclaredShape.arrays
      = some c.outputShapes := by
  obtain ⟨root, -, ⟨-, hshape⟩ | ⟨-, shape, houtputs, hshape⟩⟩ :=
    h.computedShape?_root
  · rw [hshape, Option.map_some, DeclaredShape.arrays]
  · rw [hshape, Option.map_some, DeclaredShape.arrays, houtputs]

/-- Every instruction computes a shape. -/
theorem Realized.exists_computedShape? (h : e.Realized c)
    (hi : e.instructions[k]? = some i) :
    ∃ computed, e.computedShape? c k = some computed := by
  by_cases hop : i.opcode = .tuple
  · obtain rfl := h.tuple hi hop
    obtain ⟨root, -, ⟨-, hshape⟩ | ⟨-, shape, -, hshape⟩⟩ :=
      h.computedShape?_root
    · exact ⟨_, hshape⟩
    · exact ⟨_, hshape⟩
  · obtain ⟨node, hnode, -⟩ := h.node hi hop
    rw [computedShape?_of_ne_tuple hi hop, Computation.shape?, hnode]
    exact ⟨_, rfl⟩

/-- The declared result is accepted if it has the arrays of the outputs. -/
theorem checkResult_eq_ok : e.checkResult c = .ok ()
    ↔ ∀ result, e.resultShape = some result →
      result.arrays = c.outputShapes := by
  unfold checkResult
  cases e.resultShape with
  | none => simp
  | some result =>
    cases result <;> simp [resultMatches, DeclaredShape.arrays, eq_comm]

/-- The declared parameters are accepted if they are those there are. -/
theorem checkParameters_eq_ok : e.checkParameters c = .ok ()
    ↔ ∀ signature, e.signature = some signature →
      signature.map Prod.snd = c.parameterShapes := by
  unfold checkParameters
  cases e.signature with
  | none => simp
  | some signature => simp

/-- **The declarations of an entry that has a computation are accepted.** -/
theorem accepted_of_toComputation (h : e.toComputation = .ok c) :
    e.Accepted c := by
  have hrealized := realized_of_toComputation h
  obtain ⟨l, builder, outputs, -, -, -, -, -, hresult⟩ :=
    toComputation_eq_ok.mp h
  constructor
  · intro k i hi
    by_cases hop : i.opcode = .tuple
    · exact .inr (.inl hop)
    · obtain ⟨node, hnode, -, hshape⟩ := hrealized.node hi hop
      refine hshape.imp_left fun hshape => ?_
      rw [computedShape?_of_ne_tuple hi hop, Computation.shape?, hnode,
        hshape]
      rfl
  · intro result hdeclared
    rw [hrealized.map_arrays_root,
      checkResult_eq_ok.mp hresult result hdeclared]

/-! ## Declarations that make no difference -/

/-- **An entry without its declared shapes.** -/
def undeclared (e : Entry) : Entry :=
  { e with
    resultShape := none
    instructions := e.instructions.map fun i => { i with shape := .tuple [] } }

theorem nodeOf?_undeclared : e.undeclared.nodeOf? = e.nodeOf? := by
  funext k
  simp [nodeOf?, nodeCount, undeclared, ← List.map_take, List.countP_map,
    Function.comp_def, Option.bind_map]

theorem computedShape?_undeclared :
    e.undeclared.computedShape? c k = e.computedShape? c k := by
  simp only [computedShape?, nodeOf?_undeclared]
  simp [undeclared, Option.bind_map]

/-- What is computed does not depend on what is declared. -/
theorem computedShape?_congr (h : e'.undeclared = e.undeclared) :
    e'.computedShape? c k = e.computedShape? c k := by
  rw [← computedShape?_undeclared, h, computedShape?_undeclared]

theorem length_of_undeclared_eq (h : e'.undeclared = e.undeclared) :
    e'.instructions.length = e.instructions.length := by
  simpa [undeclared] using
    congrArg (fun e : Entry => e.instructions.length) h

/-- Entries that differ in declared shapes only have instructions that do
the same. -/
theorem instruction_of_undeclared_eq (h : e'.undeclared = e.undeclared)
    (hi : e.instructions[k]? = some i)
    (hi' : e'.instructions[k]? = some i') :
    i'.opcode = i.opcode ∧ i'.operands = i.operands := by
  have hk := congrArg (fun e : Entry => e.instructions[k]?) h
  simp only [undeclared, List.getElem?_map, hi, hi', Option.map_some,
    Option.some.injEq, Instruction.mk.injEq] at hk
  exact hk.2.2

/-- Lowering a value looks at no declared shape but that of a
parameter. -/
theorem lowerValue_congr {l : Lowering} {r : Option (Nat × Builder)}
    (hop : i'.opcode = i.opcode) (hoperands : i'.operands = i.operands)
    (hshape : ∀ number, i.opcode = .parameter number → i'.shape = i.shape) :
    e'.lowerValue l i' = .ok r ↔ e.lowerValue l i = .ok r := by
  have hnode : ∀ position id, e'.operandNode l.nodes i' position = .ok id
      ↔ e.operandNode l.nodes i position = .ok id := by
    intro position id
    rw [operandNode_eq_ok, operandNode_eq_ok, hoperands]
  unfold lowerValue
  rw [hop]
  cases hi : i.opcode with
  | tuple => exact Iff.rfl
  | parameter number =>
    simp only [Except.bind_eq_ok, parameterShape_eq_ok, hshape number hi]
  | constant value => exact Iff.rfl
  | unary op => simp only [Except.bind_eq_ok, hnode]
  | binary op => simp only [Except.bind_eq_ok, hnode]

/-- **An instruction that is declared differently is lowered alike** if
its shape is that of the node or the instruction is exempt. -/
theorem lowerInstruction_of_redeclared {l l' : Lowering}
    (hroot : e'.root = e.root) (hop : i'.opcode = i.opcode)
    (hoperands : i'.operands = i.operands)
    (hstep : e.lowerInstruction l (i, k) = .ok l')
    (hshape : ∀ node, l'.builder.nodes[l.builder.nodes.length]? = some node →
      i'.shape = .array node.shape ∨ i'.Exempt) :
    e'.lowerInstruction l (i', k) = .ok l' := by
  rw [lowerInstruction_eq_ok] at hstep ⊢
  rw [hop, hroot]
  refine ⟨hstep.1, ?_⟩
  obtain ⟨-, ⟨hvalue, rfl⟩ | ⟨id, b', hvalue, hcheck, rfl⟩⟩ := hstep
  · have htuple := opcode_of_lowerValue hvalue
    refine .inl ⟨(lowerValue_congr hop hoperands ?_).mpr hvalue, rfl⟩
    simp [htuple]
  · obtain ⟨-, op, shape, himpl, hparameter, rfl, rfl⟩ :=
      implemented_of_lowerValue hvalue
    have hnode : (l.builder.append op shape).nodes[l.builder.nodes.length]?
        = some ⟨op, shape⟩ := by
      rw [Builder.append_nodes, List.getElem?_concat_length]
    replace hshape := hshape ⟨op, shape⟩ hnode
    refine .inr ⟨_, _, (lowerValue_congr hop hoperands ?_).mpr hvalue, ?_,
      rfl⟩
    · -- the shape of a parameter is always compared
      intro number hnumber
      rw [hparameter number hnumber]
      obtain hshape | htuple | ⟨-, hne⟩ := hshape
      · exact hshape
      · exact nomatch (hop.symm.trans htuple).symm.trans hnumber
      · exact absurd (hop.trans hnumber) (hne number)
    · cases hdeclared : i'.shape with
      | tuple shapes => rw [checkDeclared, hdeclared]
      | array declared =>
        rw [checkDeclared_eq_ok hdeclared, hnode, Option.map_some,
          Option.some.injEq]
        obtain hshape | htuple | ⟨⟨shapes, htuple⟩, -⟩ := hshape
        · rw [hdeclared, DeclaredShape.array.injEq] at hshape
          exact hshape.symm
        · exact absurd (hop.symm.trans htuple) himpl.opcode_ne_tuple
        · exact nomatch hdeclared.symm.trans htuple

/-- An instruction whose declaration is accepted is lowered alike. -/
theorem lowerInstruction_of_accepted {l l' : Lowering}
    (hsame : e'.undeclared = e.undeclared) (haccepted : e'.Accepted c)
    (hl : l.Declared e k) (hi : e.instructions[k]? = some i)
    (hi' : e'.instructions[k]? = some i')
    (hstep : e.lowerInstruction l (i, k) = .ok l')
    (hc : l'.builder.nodes <+: c.nodes) :
    e'.lowerInstruction l (i', k) = .ok l' := by
  have hroot : e'.root = e.root := (Entry.mk.inj hsame).2.2.2.2
  obtain ⟨hop, hoperands⟩ := instruction_of_undeclared_eq hsame hi hi'
  refine lowerInstruction_of_redeclared hroot hop hoperands hstep ?_
  intro node hnode
  have hcnode := hc.getElem?_eq_some hnode
  rw [hl.length_eq] at hcnode
  by_cases htuple : i'.opcode = .tuple
  · exact .inr (.inl htuple)
  · refine (haccepted.instruction hi').imp_left fun hcomputed => ?_
    rw [computedShape?_congr hsame, computedShape?_of_ne_tuple hi
      (hop ▸ htuple), Computation.shape?, hcnode] at hcomputed
    exact (Option.some.inj hcomputed).symm

/-- **Instructions whose declarations are accepted are lowered alike.** -/
theorem lowerInstructions_of_accepted {l : Lowering}
    (hsame : e'.undeclared = e.undeclared) (haccepted : e'.Accepted c)
    (hc : l.builder.nodes <+: c.nodes)
    (h : e.instructions.zipIdx.foldlM e.lowerInstruction
      ⟨Builder.empty e.name, []⟩ = .ok l) :
    e'.instructions.zipIdx.foldlM e'.lowerInstruction
      ⟨Builder.empty e'.name, []⟩ = .ok l := by
  have hname : e'.name = e.name := (Entry.mk.inj hsame).1
  have hlength := length_of_undeclared_eq hsame
  rw [hname]
  -- The states are those of the first run: what is left of it leads from
  -- each of them to its end.
  have hrun := List.foldlM_eq_ok_of_step (f := e'.lowerInstruction)
    (l := e'.instructions.zipIdx)
    (fun k s => (e.instructions.zipIdx.drop k).foldlM e.lowerInstruction s
      = .ok l ∧ s.Declared e k)
    ⟨h, Lowering.declared_start e⟩ ?_
  · obtain ⟨t, ht, hend, -⟩ := hrun
    rw [List.length_zipIdx, List.drop_eq_nil_of_le (by simp [hlength]),
      List.foldlM_nil, Except.pure_eq_ok_iff] at hend
    rw [ht, hend]
  · rintro k hk s ⟨hrest, hs⟩
    rw [List.length_zipIdx] at hk
    have hi := List.getElem?_eq_getElem (hlength ▸ hk)
    rw [List.drop_eq_getElem_cons (by simpa [hlength] using hk),
      List.foldlM_cons, Except.bind_eq_ok] at hrest
    obtain ⟨t, hstep, hrest⟩ := hrest
    rw [List.getElem_zipIdx, Nat.zero_add] at hstep
    refine ⟨t, ?_, hrest, hs.step hi hstep⟩
    rw [List.getElem_zipIdx, Nat.zero_add]
    exact lowerInstruction_of_accepted hsame haccepted hs hi
      (List.getElem?_eq_getElem hk) hstep
      ((Lowering.prefix_of_lowerInstructions hrest).trans hc)

/-- **Declarations that are accepted make no difference.** -/
theorem toComputation_of_accepted (h : e.toComputation = .ok c)
    (hsame : e'.undeclared = e.undeclared) (haccepted : e'.Accepted c) :
    e'.toComputation = .ok c := by
  have hrealized := realized_of_toComputation h
  obtain ⟨l, builder, outputs, hl, hbuilder, houtputs, hc, hparameters, -⟩ :=
    toComputation_eq_ok.mp h
  have hnodes : builder.nodes = c.nodes := by
    obtain ⟨-, -, parameters, -, rfl⟩ := Builder.build_eq_ok.mp hc
    rfl
  have hsignature : e'.signature = e.signature := (Entry.mk.inj hsame).2.1
  have hroot : e'.root = e.root := (Entry.mk.inj hsame).2.2.2.2
  refine toComputation_eq_ok.mpr ⟨l, builder, outputs,
    lowerInstructions_of_accepted hsame haccepted ?_ hl, ?_, ?_, hc, ?_, ?_⟩
  · exact hnodes ▸ (prefix_of_addParameters hbuilder).2
  · rw [hsignature, hbuilder]
  · rw [outputNodes_eq_ok] at houtputs ⊢
    rw [hroot]
    obtain ⟨root, hi, hcases⟩ := houtputs
    have hlt := (List.getElem?_eq_some_iff.mp hi).1
    rw [← length_of_undeclared_eq hsame] at hlt
    have hi' := List.getElem?_eq_getElem hlt
    obtain ⟨hop, hoperands⟩ := instruction_of_undeclared_eq hsame hi hi'
    rw [← hop, ← hoperands] at hcases
    exact ⟨_, hi', hcases⟩
  · rw [checkParameters_eq_ok, hsignature]
    exact checkParameters_eq_ok.mp hparameters
  · rw [checkResult_eq_ok]
    intro result hresult
    have harrays := haccepted.result hresult
    rw [computedShape?_congr hsame, hroot, hrealized.map_arrays_root,
      Option.some.injEq] at harrays
    exact harrays.symm

end Entry

namespace Module

/-- **Which declared shapes are true.** In the computation that a program
is lowered to, each instruction but a tuple has a node that does what the
instruction does, and every instruction computes a shape. That is the shape
it is declared with, unless it is the tuple that is the root or a value
other than a parameter that is declared as a tuple; and a declared result
has the arrays that the root computes. Nothing else is asked of the
declarations: with any others the same program is lowered to the same
computation exactly if these conditions hold of them. -/
theorem toComputation_iff_accepted {m : Module} {c : Computation}
    (h : m.toComputation = .ok c) :
    (∀ k i, m.entry.instructions[k]? = some i →
      (∃ computed, m.entry.computedShape? c k = some computed)
      ∧ (i.opcode ≠ .tuple → ∃ id node, m.entry.nodeOf? k = some id
        ∧ c.nodes[id]? = some node
        ∧ i.Implemented (m.entry.nodesBefore k) node.op))
    ∧ m.entry.Accepted c
    ∧ ∀ m' : Module, m'.entry.undeclared = m.entry.undeclared →
      (m'.toComputation = .ok c ↔ m'.entry.Accepted c) := by
  have hrealized := Entry.realized_of_toComputation h
  refine ⟨fun k i hi => ⟨hrealized.exists_computedShape? hi, fun hop => ?_⟩,
    Entry.accepted_of_toComputation h, fun m' hsame => ?_⟩
  · obtain ⟨node, hnode, himpl, -⟩ := hrealized.node hi hop
    exact ⟨_, node, Entry.nodeOf?_of_ne_tuple hi hop, hnode, himpl⟩
  · exact ⟨Entry.accepted_of_toComputation,
      Entry.toComputation_of_accepted h hsame⟩

/-- A program whose declarations are mostly untrue: a negated integer is
declared as a tuple of a truth value, a tuple as an array, and the result
as one array where the root is a tuple. -/
def misdeclared : Module where
  name := "m"
  entry :=
    { name := "f"
      signature := some [("x", ⟨.s32, []⟩)]
      resultShape := some (.array ⟨.s32, []⟩)
      instructions :=
        [⟨"x", .array ⟨.s32, []⟩, .parameter 0, []⟩,
          ⟨"y", .tuple [⟨.pred, []⟩], .unary .negate, [0]⟩,
          ⟨"t", .array ⟨.f32, [9]⟩, .tuple, [1]⟩]
      root := 2 }

/-- The computation of `misdeclared`. -/
def negation : Computation where
  name := "f"
  nodes := [⟨.parameter 0, ⟨.s32, []⟩⟩, ⟨.unary .negate 0, ⟨.s32, []⟩⟩]
  parameters := [0]
  outputs := [1]

theorem misdeclared_toComputation_iff_accepted :
    misdeclared.toComputation = .ok negation
    ∧ (∀ k i, misdeclared.entry.instructions[k]? = some i →
      (∃ computed, misdeclared.entry.computedShape? negation k
        = some computed)
      ∧ (i.opcode ≠ .tuple → ∃ id node,
        misdeclared.entry.nodeOf? k = some id
        ∧ negation.nodes[id]? = some node
        ∧ i.Implemented (misdeclared.entry.nodesBefore k) node.op))
    ∧ misdeclared.entry.Accepted negation
    ∧ ∀ m' : Module, m'.entry.undeclared = misdeclared.entry.undeclared →
      (m'.toComputation = .ok negation ↔ m'.entry.Accepted negation) := by
  have h : misdeclared.toComputation = .ok negation := rfl
  exact ⟨h, toComputation_iff_accepted h⟩

/-- **Declarations can be untrue.** None of the shapes that `misdeclared`
declares for its negation, its tuple and its result is the one computed. -/
theorem misdeclared_not_truthful :
    misdeclared.toComputation = .ok negation
    ∧ misdeclared.entry.computedShape? negation 1
      = some (.array ⟨.s32, []⟩)
    ∧ misdeclared.entry.computedShape? negation 2
      = some (.tuple [⟨.s32, []⟩])
    ∧ ¬misdeclared.entry.Truthful negation := by
  refine ⟨rfl, rfl, rfl, fun htrue => ?_⟩
  have hfirst := htrue.instruction (k := 1) rfl
  exact absurd hfirst (by decide)

end Module

end TensorBind.Graph
