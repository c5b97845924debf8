import TensorBind.Graph.Evaluation
import TensorBind.Graph.Lowering
import TensorBind.Proofs.Computation.Evaluation
import TensorBind.Proofs.Graph.Reading

/-!
# Graph programs keep their meaning

Instructions and nodes are numbered differently. A tuple has no node, and
parameters that the signature declares but no instruction takes come behind
all others. What ties the two together is the list of the nodes of the
instructions: the node of an instruction does what the instruction does, on
the nodes of its operands (`Instruction.Implemented`). This holds of each
instruction when it is lowered, and no instruction that is lowered later
changes it (`Lowering.Sound`).

Given the values of all nodes, the values of the instructions can therefore
be read off (`Entry.Lowered.exists_values`), and they are what evaluating
the instructions in order gives. With that a program that was read and the
computation it is lowered to have the same results
(`Module.toComputation_preserves_values`).
-/

namespace TensorBind.Graph

/-! ## Lowering one instruction -/

/-- **A node operation that does what an instruction does**, given the
nodes of the instructions before it. -/
def Instruction.Implemented (nodes : List (Option Nat)) (i : Instruction) :
    NodeOp → Prop
  | .parameter number => i.opcode = .parameter number
  | .constant value => i.opcode = .constant value
  | .unary op x => i.opcode = .unary op
      ∧ ∃ j, i.operands[0]? = some j ∧ nodes[j]? = some (some x)
  | .binary op x y => i.opcode = .binary op
      ∧ (∃ j, i.operands[0]? = some j ∧ nodes[j]? = some (some x))
      ∧ ∃ j, i.operands[1]? = some j ∧ nodes[j]? = some (some y)

/-- A tuple has no node. -/
theorem Instruction.Implemented.opcode_ne_tuple
    {nodes : List (Option Nat)} {i : Instruction} {op : NodeOp}
    (h : i.Implemented nodes op) : i.opcode ≠ .tuple := by
  intro htuple
  cases op with
  | parameter number => exact nomatch htuple.symm.trans h
  | constant value => exact nomatch htuple.symm.trans h
  | unary op x => exact nomatch htuple.symm.trans h.1
  | binary op x y => exact nomatch htuple.symm.trans h.1

namespace Entry

variable {e : Entry} {l l' : Lowering} {i : Instruction}
  {b b' : Builder} {position id : Nat}

/-- An operand has a node exactly if it is there and its instruction
does. -/
theorem operandNode_eq_ok {nodes : List (Option Nat)} :
    e.operandNode nodes i position = .ok id
      ↔ ∃ j, i.operands[position]? = some j
        ∧ nodes[j]? = some (some id) := by
  unfold operandNode
  cases i.operands[position]? with
  | none => simp
  | some j =>
    rcases hnode : nodes[j]? with _ | _ | x <;> simp [hnode]

/-- The shape of a parameter is the array it is declared as. -/
theorem parameterShape_eq_ok {shape : Shape} :
    parameterShape i = .ok shape ↔ i.shape = .array shape := by
  unfold parameterShape
  cases i.shape <;> simp

/-- **The node of an instruction** does what the instruction does, and that of
a parameter has the declared shape. Adding it leaves a builder well-formed. -/
theorem implemented_of_lowerValue
    (h : e.lowerValue l i = .ok (some (id, b'))) :
    (l.builder.WellFormed → b'.WellFormed)
    ∧ ∃ op shape, i.Implemented l.nodes op
      ∧ (∀ number, i.opcode = .parameter number → i.shape = .array shape)
      ∧ id = l.builder.nodes.length ∧ b' = l.builder.append op shape := by
  unfold lowerValue at h
  cases hop : i.opcode with
  | tuple =>
    rw [hop] at h
    cases h
  | parameter number =>
    simp only [hop] at h
    obtain ⟨shape, hshape, hrest⟩ := Except.bind_eq_ok.mp h
    obtain ⟨_, hb, ⟨⟩⟩ := Except.bind_eq_ok.mp hrest
    rw [Except.mapError_eq_ok] at hb
    obtain ⟨-, -, hid, heq⟩ := Builder.parameter_eq_ok.mp hb
    exact ⟨fun hl => hl.parameter hb, .parameter number, shape, hop,
      fun _ _ => parameterShape_eq_ok.mp hshape, hid, heq⟩
  | constant value =>
    simp only [hop] at h
    cases h
    exact ⟨fun hl => hl.constant value, .constant value, value.shape, hop,
      by simp, rfl, rfl⟩
  | unary op =>
    simp only [hop] at h
    obtain ⟨x, hx, hrest⟩ := Except.bind_eq_ok.mp h
    obtain ⟨_, hb, ⟨⟩⟩ := Except.bind_eq_ok.mp hrest
    rw [Except.mapError_eq_ok] at hb
    obtain ⟨shape, -, -, hid, heq⟩ := Builder.unary_eq_ok.mp hb
    exact ⟨fun hl => hl.unary hb, .unary op x, shape,
      ⟨hop, operandNode_eq_ok.mp hx⟩, by simp, hid, heq⟩
  | binary op =>
    simp only [hop] at h
    obtain ⟨x, hx, hrest⟩ := Except.bind_eq_ok.mp h
    obtain ⟨y, hy, hrest⟩ := Except.bind_eq_ok.mp hrest
    obtain ⟨_, hb, ⟨⟩⟩ := Except.bind_eq_ok.mp hrest
    rw [Except.mapError_eq_ok] at hb
    obtain ⟨shape, -, -, -, hid, heq⟩ := Builder.binary_eq_ok.mp hb
    exact ⟨fun hl => hl.binary hb, .binary op x y, shape,
      ⟨hop, operandNode_eq_ok.mp hx, operandNode_eq_ok.mp hy⟩, by simp, hid,
      heq⟩

/-- Only a tuple has no node. -/
theorem opcode_of_lowerValue (h : e.lowerValue l i = .ok none) :
    i.opcode = .tuple := by
  unfold lowerValue at h
  cases hop : i.opcode with
  | tuple => rfl
  | constant value =>
    simp only [hop] at h
    cases h
  | parameter number =>
    simp only [hop] at h
    obtain ⟨shape, -, hrest⟩ := Except.bind_eq_ok.mp h
    obtain ⟨_, -, ⟨⟩⟩ := Except.bind_eq_ok.mp hrest
  | unary op =>
    simp only [hop] at h
    obtain ⟨x, -, hrest⟩ := Except.bind_eq_ok.mp h
    obtain ⟨_, -, ⟨⟩⟩ := Except.bind_eq_ok.mp hrest
  | binary op =>
    simp only [hop] at h
    obtain ⟨x, -, hrest⟩ := Except.bind_eq_ok.mp h
    obtain ⟨y, -, hrest⟩ := Except.bind_eq_ok.mp hrest
    obtain ⟨_, -, ⟨⟩⟩ := Except.bind_eq_ok.mp hrest

/-- **An instruction is lowered** as a tuple that is the root, or as a
node of the shape it is declared with. -/
theorem lowerInstruction_eq_ok :
    e.lowerInstruction l (i, position) = .ok l'
      ↔ (i.opcode = .tuple → position = e.root)
        ∧ ((e.lowerValue l i = .ok none
            ∧ l' = ⟨l.builder, l.nodes ++ [none]⟩)
          ∨ ∃ id b', e.lowerValue l i = .ok (some (id, b'))
            ∧ checkDeclared i id b' = .ok ()
            ∧ l' = ⟨b', l.nodes ++ [some id]⟩) := by
  unfold lowerInstruction
  dsimp only
  split
  · rename_i hbad
    simp [hbad]
  · rename_i hgood
    have hroot : i.opcode = .tuple → position = e.root := fun hop =>
      Decidable.byContradiction fun hne => hgood ⟨hop, hne⟩
    rw [Except.bind_eq_ok, and_iff_right hroot]
    constructor
    · rintro ⟨_ | ⟨id, b'⟩, hvalue, hrest⟩
      · cases hrest
        exact .inl ⟨hvalue, rfl⟩
      · obtain ⟨_, hcheck, ⟨⟩⟩ := Except.bind_eq_ok.mp hrest
        exact .inr ⟨id, b', hvalue, hcheck, rfl⟩
    · rintro (⟨hvalue, rfl⟩ | ⟨id, b', hvalue, hcheck, rfl⟩)
      · exact ⟨none, hvalue, rfl⟩
      · exact ⟨some (id, b'), hvalue,
          Except.bind_eq_ok.mpr ⟨(), hcheck, rfl⟩⟩

/-- An instruction that is no tuple is lowered to a node. -/
theorem lowerInstruction_eq_ok_of_ne_tuple (hop : i.opcode ≠ .tuple) :
    e.lowerInstruction l (i, position) = .ok l'
      ↔ ∃ id b', e.lowerValue l i = .ok (some (id, b'))
        ∧ checkDeclared i id b' = .ok ()
        ∧ l' = ⟨b', l.nodes ++ [some id]⟩ := by
  rw [lowerInstruction_eq_ok, and_iff_right fun h => absurd h hop]
  refine or_iff_right fun ⟨hvalue, _⟩ => ?_
  exact hop (opcode_of_lowerValue hvalue)

/-- A declared array is compared with the shape of the node. -/
theorem checkDeclared_eq_ok {declared : Shape}
    (hshape : i.shape = .array declared) :
    checkDeclared i id b = .ok ()
      ↔ b.nodes[id]?.map Node.shape = some declared := by
  unfold checkDeclared
  rw [hshape]
  dsimp only
  rw [Except.mapError_eq_ok, Builder.expectShape_eq_ok]

end Entry

/-! ## Lowering all instructions -/

namespace Lowering

/-- **What holds of the instructions lowered**, up to a position. -/
structure Sound (e : Entry) (position : Nat) (l : Lowering) : Prop where
  /-- The builder is well-formed. -/
  wellFormed : l.builder.WellFormed
  /-- Each instruction has been lowered. -/
  length_eq : l.nodes.length = position
  /-- The node of an instruction does what the instruction does. -/
  implemented : ∀ {k id : Nat} {i : Instruction},
    e.instructions[k]? = some i → l.nodes[k]? = some (some id) →
    ∃ node, l.builder.nodes[id]? = some node
      ∧ i.Implemented (l.nodes.take k) node.op
  /-- An instruction without a node is a tuple and the root. -/
  tuple : ∀ {k : Nat} {i : Instruction},
    e.instructions[k]? = some i → l.nodes[k]? = some none →
    i.opcode = .tuple ∧ k = e.root

variable {e : Entry} {l l' : Lowering} {position : Nat}

theorem sound_start (e : Entry) :
    Sound e 0 ⟨Builder.empty e.name, []⟩ where
  wellFormed := Builder.wellFormed_empty e.name
  length_eq := rfl
  implemented := fun _ h => absurd h (by simp)
  tuple := fun _ h => absurd h (by simp)

/-- **Lowering one more instruction.** -/
theorem Sound.step {i : Instruction} (h : l.Sound e position)
    (hi : e.instructions[position]? = some i)
    (hstep : e.lowerInstruction l (i, position) = .ok l') :
    l'.Sound e (position + 1) := by
  obtain ⟨hroot, hstep⟩ := Entry.lowerInstruction_eq_ok.mp hstep
  have hcases : ∀ {k : Nat} {added node : Option Nat},
      (l.nodes ++ [added])[k]? = some node →
      (k < position ∧ l.nodes[k]? = some node)
        ∨ (k = position ∧ added = node) := by
    intro k added node hk
    obtain hk | ⟨hk, hnode⟩ := List.getElem?_concat_eq_some.mp hk
    · exact .inl ⟨h.length_eq ▸ (List.getElem?_eq_some_iff.mp hk).1, hk⟩
    · exact .inr ⟨h.length_eq ▸ hk, hnode⟩
  have htake : ∀ {k : Nat} {added : Option Nat}, k ≤ position →
      (l.nodes ++ [added]).take k = l.nodes.take k := fun hk =>
    List.take_append_of_le_length (by rw [h.length_eq]; exact hk)
  rcases hstep with ⟨hvalue, rfl⟩ | ⟨id, b', hvalue, -, rfl⟩
  · -- a tuple brings no node
    refine ⟨h.wellFormed, by simp [h.length_eq], ?_, ?_⟩
    · intro k x j hj hx
      rcases hcases hx with ⟨hlt, hx⟩ | ⟨-, hx⟩
      · rw [htake (Nat.le_of_lt hlt)]
        exact h.implemented hj hx
      · cases hx
    · intro k j hj hx
      rcases hcases hx with ⟨-, hx⟩ | ⟨rfl, -⟩
      · exact h.tuple hj hx
      · rw [hi, Option.some.injEq] at hj
        have hop := Entry.opcode_of_lowerValue hvalue
        exact ⟨hj ▸ hop, hroot hop⟩
  · obtain ⟨hb, op, shape, himpl, -, rfl, rfl⟩ :=
      Entry.implemented_of_lowerValue hvalue
    refine ⟨hb h.wellFormed, by simp [h.length_eq], ?_, ?_⟩
    · intro k x j hj hx
      rcases hcases hx with ⟨hlt, hx⟩ | ⟨rfl, hx⟩
      · obtain ⟨node, hnode, himpl'⟩ := h.implemented hj hx
        rw [htake (Nat.le_of_lt hlt)]
        refine ⟨node, ?_, himpl'⟩
        rw [Builder.append_nodes, List.getElem?_append_left
          (List.getElem?_eq_some_iff.mp hnode).1, hnode]
      · rw [hi, Option.some.injEq] at hj
        cases hx
        refine ⟨⟨op, shape⟩, by simp, ?_⟩
        rw [htake (Nat.le_refl _), ← h.length_eq, List.take_length, ← hj]
        exact himpl
    · intro k j hj hx
      rcases hcases hx with ⟨-, hx⟩ | ⟨-, hx⟩
      · exact h.tuple hj hx
      · cases hx

/-- **Lowering the next instruction.** -/
theorem Sound.step_zipIdx {k : Nat}
    (hk : k < e.instructions.zipIdx.length) (h : l.Sound e k)
    (hstep : e.lowerInstruction l e.instructions.zipIdx[k] = .ok l') :
    l'.Sound e (k + 1) := by
  rw [List.length_zipIdx] at hk
  rw [List.getElem_zipIdx, Nat.zero_add] at hstep
  exact h.step (List.getElem?_eq_getElem hk) hstep

/-- **Lowering all instructions.** -/
theorem sound_of_foldlM
    (h : e.instructions.zipIdx.foldlM e.lowerInstruction
      ⟨Builder.empty e.name, []⟩ = .ok l) :
    l.Sound e e.instructions.length := by
  have hfold := List.foldlM_invariant
    (fun k l => Sound e k l) (sound_start e)
    (fun _ hk _ _ hl hstep => hl.step_zipIdx hk hstep) h
  rwa [List.length_zipIdx] at hfold

end Lowering

namespace Entry

variable {e : Entry} {c : Computation} {b b' : Builder}

/-- A parameter of the signature comes behind the nodes there are, or not
at all. -/
theorem prefix_of_addParameter {parameter : (String × Shape) × Nat}
    (h : addParameter b parameter = .ok b') :
    (b.WellFormed → b'.WellFormed) ∧ b.nodes <+: b'.nodes := by
  unfold addParameter at h
  split at h
  · cases h
    exact ⟨id, List.prefix_rfl⟩
  · obtain ⟨⟨id, b'⟩, hadd, ⟨⟩⟩ := Except.bind_eq_ok.mp h
    rw [Except.mapError_eq_ok] at hadd
    refine ⟨fun hb => hb.parameter hadd, ?_⟩
    obtain ⟨-, -, -, rfl⟩ := Builder.parameter_eq_ok.mp hadd
    exact List.prefix_append _ _

/-- The parameters of the signature come behind the nodes there are. -/
theorem prefix_of_addParameters {parameters : List ((String × Shape) × Nat)}
    (h : parameters.foldlM addParameter b = .ok b') :
    (b.WellFormed → b'.WellFormed) ∧ b.nodes <+: b'.nodes := by
  refine List.foldlM_invariant
    (fun _ b' => (b.WellFormed → b'.WellFormed) ∧ b.nodes <+: b'.nodes)
    ⟨id, List.prefix_rfl⟩ ?_ h
  rintro k hk s t ⟨hs, hprefix⟩ hstep
  obtain ⟨ht, hmore⟩ := prefix_of_addParameter hstep
  exact ⟨fun hb => ht (hs hb), hprefix.trans hmore⟩

/-- **A computation of an entry** is what its parts make and its header
declares. -/
theorem toComputation_eq_ok : e.toComputation = .ok c
    ↔ ∃ l builder outputs,
      e.instructions.zipIdx.foldlM e.lowerInstruction
        ⟨Builder.empty e.name, []⟩ = .ok l
      ∧ (e.signature.getD []).zipIdx.foldlM addParameter l.builder
        = .ok builder
      ∧ e.outputNodes l.nodes = .ok outputs
      ∧ builder.build outputs = .ok c
      ∧ e.checkParameters c = .ok () ∧ e.checkResult c = .ok () := by
  unfold toComputation
  simp only [Except.bind_eq_ok, Except.mapError_eq_ok,
    Except.pure_eq_ok_iff]
  constructor
  · rintro ⟨l, hl, builder, hbuilder, outputs, houtputs, c, hc, _, hp, _, hr,
      rfl⟩
    exact ⟨l, builder, outputs, hl, hbuilder, houtputs, hc, hp, hr⟩
  · rintro ⟨l, builder, outputs, hl, hbuilder, houtputs, hc, hp, hr⟩
    exact ⟨l, hl, builder, hbuilder, outputs, houtputs, c, hc, (), hp, (),
      hr, rfl⟩

/-- **An entry and the computation it is lowered to**, with the nodes of
its instructions. -/
structure Lowered (e : Entry) (nodes : List (Option Nat))
    (c : Computation) : Prop where
  /-- The computation is well-formed. -/
  wellFormed : c.WellFormed
  /-- Every instruction has been lowered. -/
  length_eq : nodes.length = e.instructions.length
  /-- The node of an instruction does what the instruction does. -/
  implemented : ∀ {k id : Nat} {i : Instruction},
    e.instructions[k]? = some i → nodes[k]? = some (some id) →
    ∃ node, c.nodes[id]? = some node
      ∧ i.Implemented (nodes.take k) node.op
  /-- An instruction without a node is a tuple and the root. -/
  tuple : ∀ {k : Nat} {i : Instruction},
    e.instructions[k]? = some i → nodes[k]? = some none →
    i.opcode = .tuple ∧ k = e.root
  /-- The outputs are read off the root. -/
  outputs : e.outputNodes nodes = .ok c.outputs

/-- **A computation stands for the entry** that is lowered to it. -/
theorem exists_lowered (h : e.toComputation = .ok c) :
    ∃ nodes, e.Lowered nodes c := by
  obtain ⟨l, builder, outputs, hl, hbuilder, houtputs, hc, -, -⟩ :=
    toComputation_eq_ok.mp h
  have hsound := Lowering.sound_of_foldlM hl
  obtain ⟨hwf, more, hmore⟩ := prefix_of_addParameters hbuilder
  obtain ⟨hcwf, -, hnodes, rfl⟩ := (hwf hsound.wellFormed).build hc
  refine ⟨l.nodes, hcwf, hsound.length_eq, ?_, hsound.tuple, houtputs⟩
  intro k id i hi hid
  obtain ⟨node, hnode, himpl⟩ := hsound.implemented hi hid
  refine ⟨node, ?_, himpl⟩
  rw [hnodes, ← hmore,
    List.getElem?_append_left (List.getElem?_eq_some_iff.mp hnode).1, hnode]

/-! ## The values of instructions -/

variable {nodes : List (Option Nat)} {arguments values : List Literal}
  {results : List (List Literal)} {k : Nat} {i : Instruction}

/-- **The value an instruction stands for**: that of its node, or for a
tuple those of the nodes of its operands. -/
def Denotes (nodes : List (Option Nat)) (values : List Literal)
    (i : Instruction × Nat) (result : List Literal) : Prop :=
  match nodes[i.2]?.join with
  | some id => ∃ value, values[id]? = some value ∧ result = [value]
  | none => List.Forall₂ (fun operand value => ∃ id,
      nodes[operand]?.join = some id ∧ values[id]? = some value)
      i.1.operands result

/-- The nodes of the outputs are those of the operands of a tuple, or that
of the root itself. -/
theorem outputNodes_eq_ok {outputs : List Nat} :
    e.outputNodes nodes = .ok outputs
      ↔ ∃ root, e.instructions[e.root]? = some root
        ∧ ((root.opcode = .tuple
            ∧ List.Forall₂ (fun operand id => nodes[operand]?.join = some id)
              root.operands outputs)
          ∨ root.opcode ≠ .tuple ∧ ∃ id, nodes[e.root]?.join = some id
            ∧ outputs = [id]) := by
  unfold outputNodes rootInstruction?
  cases hroot : e.instructions[e.root]? with
  | none => simp
  | some root =>
    cases hop : root.opcode with
    | tuple =>
      simp only [hop, List.mapM_eq_ok, Option.some.injEq, exists_eq_left',
        true_and, ne_eq, not_true_eq_false, false_and, or_false]
      refine iff_of_eq (congrArg (List.Forall₂ · root.operands outputs) ?_)
      funext operand id
      cases nodes[operand]?.join <;> simp
    | _ =>
      cases nodes[e.root]?.join with
      | none => simp [hop]
      | some id => simp [hop, eq_comm]

/-- **Every instruction stands for a value.** -/
theorem Lowered.exists_values (h : e.Lowered nodes c)
    (hvalues : c.Valuation arguments values) :
    ∃ results, List.Forall₂ (Denotes nodes values) e.instructions.zipIdx
      results := by
  refine List.exists_forall₂ ?_
  rintro ⟨i, k⟩ hi
  rw [List.mem_zipIdx_iff_getElem?] at hi
  have hk : k < nodes.length := by
    rw [h.length_eq]
    exact (List.getElem?_eq_some_iff.mp hi).1
  unfold Denotes
  cases hnode : nodes[k] with
  | some id =>
    have hid : nodes[k]? = some (some id) := by
      rw [List.getElem?_eq_getElem hk, hnode]
    obtain ⟨node, hnode, -⟩ := h.implemented hi hid
    obtain ⟨value, hvalue⟩ :=
      hvalues.exists_value (List.getElem?_eq_some_iff.mp hnode).1
    rw [hid]
    exact ⟨[value], value, hvalue, rfl⟩
  | none =>
    have hid : nodes[k]? = some none := by
      rw [List.getElem?_eq_getElem hk, hnode]
    obtain ⟨hop, rfl⟩ := h.tuple hi hid
    -- the operands of a tuple are outputs, so that they have nodes
    obtain ⟨root, hroot, hcases⟩ := outputNodes_eq_ok.mp h.outputs
    rw [hi, Option.some.injEq] at hroot
    subst hroot
    obtain ⟨-, houtputs⟩ | ⟨hne, -⟩ := hcases
    · rw [hid]
      have hflip : List.Forall₂ (fun id operand =>
          nodes[operand]?.join = some id) c.outputs i.operands :=
        houtputs.flip
      obtain ⟨result, hresult⟩ := List.exists_forall₂ fun id hid =>
        hvalues.exists_value (h.wellFormed.output_lt id hid)
      exact ⟨result, hflip.join hresult fun id operand value _ hnode hvalue =>
        ⟨id, hnode, hvalue⟩⟩
    · exact absurd hop hne

/-- The value that stands at the place of an instruction. -/
theorem exists_denotes
    (hresults : List.Forall₂ (Denotes nodes values) e.instructions.zipIdx
      results) (hi : e.instructions[k]? = some i) :
    ∃ result, results[k]? = some result
      ∧ Denotes nodes values (i, k) result := by
  obtain ⟨hlt, hget⟩ := List.getElem?_eq_some_iff.mp hi
  have hlt' : k < e.instructions.zipIdx.length := by
    rwa [List.length_zipIdx]
  have hk : k < results.length := hresults.length_eq ▸ hlt'
  have hdenotes := hresults.get hlt' hk
  simp only [List.get_eq_getElem, List.getElem_zipIdx, Nat.zero_add,
    hget] at hdenotes
  exact ⟨results[k], List.getElem?_eq_getElem hk, hdenotes⟩

/-- The value of an operand, which stands before its reader. -/
theorem operandValue_eq_ok
    (hresults : List.Forall₂ (Denotes nodes values) e.instructions.zipIdx
      results) {position operand id : Nat} {value : Literal}
    (hoperand : i.operands[position]? = some operand) (hlt : operand < k)
    (hid : nodes[operand]?.join = some id)
    (hk : k ≤ e.instructions.length)
    (hvalue : values[id]? = some value) :
    operandValue (results.take k) i position = .ok value := by
  obtain ⟨result, hresult, hdenotes⟩ := exists_denotes hresults
    (List.getElem?_eq_getElem (Nat.lt_of_lt_of_le hlt hk))
  simp only [Denotes, hid] at hdenotes
  obtain ⟨v, hv, rfl⟩ := hdenotes
  rw [hvalue, Option.some.injEq] at hv
  subst hv
  rw [← List.getElem?_take_of_lt hlt] at hresult
  simp only [operandValue, hoperand, hresult]

/-- **Evaluating an instruction with a node** gives the value of the
node. -/
theorem evaluateInstruction_of_implemented
    (hresults : List.Forall₂ (Denotes nodes values) e.instructions.zipIdx
      results) (hk : k ≤ e.instructions.length) {op : NodeOp}
    {value : Literal} (h : i.Implemented (nodes.take k) op)
    (hnode : Computation.evaluateNode arguments values op = .ok value) :
    evaluateInstruction arguments (results.take k) i = .ok [value] := by
  have hoperand : ∀ {position j x : Nat} {v : Literal},
      i.operands[position]? = some j →
      (nodes.take k)[j]? = some (some x) →
      Computation.valueAt values x = .ok v →
      operandValue (results.take k) i position = .ok v := by
    intro position j x v hj hx hv
    have hlt : j < k := by
      have := (List.getElem?_eq_some_iff.mp hx).1
      rw [List.length_take] at this
      omega
    rw [List.getElem?_take_of_lt hlt] at hx
    exact operandValue_eq_ok hresults hj hlt
      (Option.join_eq_some_iff.mpr hx) hk (Computation.valueAt_eq_ok.mp hv)
  unfold evaluateInstruction
  cases op with
  | parameter number =>
    have hop : i.opcode = .parameter number := h
    rw [Computation.evaluateNode_parameter_eq_ok] at hnode
    simp only [hop, hnode]
    rfl
  | constant literal =>
    have hop : i.opcode = .constant literal := h
    cases hnode
    simp only [hop]
    rfl
  | unary op x =>
    obtain ⟨hop, j, hj, hx⟩ := h
    obtain ⟨v, hv, hresult⟩ := Except.bind_eq_ok.mp hnode
    simp only [hop, hoperand hj hx hv, Except.ok_bind, hresult]
    rfl
  | binary op x y =>
    obtain ⟨hop, ⟨j, hj, hx⟩, j', hj', hy⟩ := h
    obtain ⟨v, hv, hrest⟩ := Except.bind_eq_ok.mp hnode
    obtain ⟨w, hw, hresult⟩ := Except.bind_eq_ok.mp hrest
    simp only [hop, hoperand hj hx hv, hoperand hj' hy hw, Except.ok_bind,
      hresult]
    rfl

/-- **Evaluating a tuple** gives the values of its operands. -/
theorem evaluateInstruction_of_tuple
    (hresults : List.Forall₂ (Denotes nodes values) e.instructions.zipIdx
      results) (hk : k ≤ e.instructions.length) {result : List Literal}
    (hop : i.opcode = .tuple) (hordered : i.OrderedAt k)
    (h : List.Forall₂ (fun operand value => ∃ id,
      nodes[operand]?.join = some id ∧ values[id]? = some value)
      i.operands result) :
    evaluateInstruction arguments (results.take k) i = .ok result := by
  unfold evaluateInstruction
  simp only [hop, List.mapM_eq_ok]
  refine List.forall₂_iff_get.mpr
    ⟨by rw [List.length_range, h.length_eq], fun p hp hp' => ?_⟩
  rw [List.length_range] at hp
  obtain ⟨id, hid, hvalue⟩ := h.get hp hp'
  simp only [List.get_eq_getElem, List.getElem_range]
  exact operandValue_eq_ok hresults (List.getElem?_eq_getElem hp)
    (hordered _ (List.getElem_mem hp)) hid hk hvalue

/-- **The instructions are evaluated to the values they stand for.** -/
theorem Lowered.evaluateInstructions_eq_ok (h : e.Lowered nodes c)
    (hvalues : c.Valuation arguments values)
    (hordered : Ordered e.instructions)
    (hresults : List.Forall₂ (Denotes nodes values) e.instructions.zipIdx
      results) :
    evaluateInstructions arguments e.instructions = .ok results := by
  have hlength : results.length = e.instructions.length := by
    rw [← hresults.length_eq, List.length_zipIdx]
  refine List.foldlM_concat_eq_ok.mpr ⟨hlength, fun k i r hi hr => ?_⟩
  obtain ⟨result, hresult, hdenotes⟩ := exists_denotes hresults hi
  rw [hresult, Option.some.injEq] at hr
  subst hr
  have hlt := (List.getElem?_eq_some_iff.mp hi).1
  have hk := Nat.le_of_lt hlt
  unfold Denotes at hdenotes
  cases hnode : nodes[k]?.join with
  | some id =>
    simp only [hnode] at hdenotes
    obtain ⟨value, hvalue, rfl⟩ := hdenotes
    obtain ⟨node, hnode, himpl⟩ :=
      h.implemented hi (Option.join_eq_some_iff.mp hnode)
    exact evaluateInstruction_of_implemented hresults hk himpl
      (hvalues.evaluateNode hnode hvalue)
  | none =>
    simp only [hnode] at hdenotes
    have hnone : nodes[k]? = some none := by
      rw [← h.length_eq] at hlt
      rw [List.getElem?_eq_getElem hlt] at hnode ⊢
      exact congrArg some hnode
    exact evaluateInstruction_of_tuple hresults hk (h.tuple hi hnone).1
      (hordered k i hi) hdenotes

/-- **The results of an entry** are the values of the outputs. -/
theorem Lowered.exists_evaluate (h : e.Lowered nodes c)
    (hordered : Ordered e.instructions) (ha : c.Accepts arguments) :
    ∃ result, e.evaluate arguments = .ok result
      ∧ c.evaluate arguments = .ok result := by
  obtain ⟨values, hnodes, hvalues⟩ := h.wellFormed.exists_valuation ha
  obtain ⟨results, hresults⟩ := h.exists_values hvalues
  have hinstructions :=
    h.evaluateInstructions_eq_ok hvalues hordered hresults
  obtain ⟨root, hroot, hcases⟩ := outputNodes_eq_ok.mp h.outputs
  obtain ⟨result, hresult, hdenotes⟩ := exists_denotes hresults hroot
  refine ⟨result, ?_, ?_⟩
  · rw [evaluate, hinstructions, Except.ok_bind, hresult]
    rfl
  rw [Computation.evaluate, hnodes, Except.ok_bind, List.mapM_eq_ok]
  simp only [Computation.valueAt_eq_ok]
  unfold Denotes at hdenotes
  obtain ⟨hop, houtputs⟩ | ⟨-, id, hid, houtputs⟩ := hcases
  · have hnone : nodes[e.root]?.join = none := by
      rw [Option.eq_none_iff_forall_ne_some]
      intro id hid
      obtain ⟨node, -, himpl⟩ :=
        h.implemented hroot (Option.join_eq_some_iff.mp hid)
      exact himpl.opcode_ne_tuple hop
    simp only [hnone] at hdenotes
    refine houtputs.join hdenotes fun operand id value _ hid hvalue => ?_
    obtain ⟨id', hid', hvalue⟩ := hvalue
    rw [hid, Option.some.injEq] at hid'
    exact hid' ▸ hvalue
  · simp only [hid] at hdenotes
    obtain ⟨value, hvalue, rfl⟩ := hdenotes
    rw [houtputs]
    exact .cons hvalue .nil

/-- The parameters of a computation are those its header declares. -/
theorem parameterShapes_of_signature (h : e.toComputation = .ok c)
    {signature : List (String × Shape)}
    (hsignature : e.signature = some signature) :
    c.parameterShapes = signature.map Prod.snd := by
  obtain ⟨l, builder, outputs, -, -, -, -, hcheck, -⟩ :=
    toComputation_eq_ok.mp h
  unfold checkParameters at hcheck
  rw [hsignature] at hcheck
  dsimp only at hcheck
  split at hcheck
  · rename_i heq
    exact heq.symm
  · cases hcheck

end Entry

namespace Module

/-- **Bringing a graph program into the form that is compiled keeps its
meaning.** For a program that was read from a text and has a computation,
evaluating the instructions one after another and reading the root gives
the same results as evaluating the computation, on all arguments that match
its parameters. If the program has a signature, the computation has one
parameter for each entry of it, in order and with the shape declared. -/
theorem toComputation_preserves_values {text : String} {m : Module}
    {c : Computation} (hm : parse text = .ok m)
    (hc : m.toComputation = .ok c) :
    (∀ arguments, c.Accepts arguments →
      ∃ result, m.entry.evaluate arguments = .ok result
        ∧ c.evaluate arguments = .ok result)
    ∧ ∀ signature, m.entry.signature = some signature →
      c.parameters.length = signature.length
      ∧ c.parameterShapes = signature.map Prod.snd
      ∧ ∀ (number id : Nat) (shape : Shape),
        c.nodes[id]? = some ⟨.parameter number, shape⟩
          ↔ c.parameters[number]? = some id
            ∧ (signature.map Prod.snd)[number]? = some shape := by
  have hordered := ordered_of_parse hm
  obtain ⟨nodes, hlowered⟩ := Entry.exists_lowered hc
  refine ⟨fun arguments ha => hlowered.exists_evaluate hordered ha,
    fun signature hsignature => ?_⟩
  have hshapes := Entry.parameterShapes_of_signature hc hsignature
  have hwf := hlowered.wellFormed
  refine ⟨?_, hshapes, fun number id shape => ?_⟩
  · rw [← hwf.length_parameterShapes, hshapes, List.length_map]
  · rw [← hshapes]
    exact hwf.getElem?_parameter_iff

/-- A program whose root is a tuple in the middle, and whose instructions
take the second of three parameters before the first and the third not at
all. -/
def tupleInTheMiddle : String :=
  "HloModule m\n"
    ++ "ENTRY f (a: s32[2], b: s32[2], c: s32[]) -> (s32[2], s32[2]) \x7b\n"
    ++ "  x = s32[2] parameter(1)\n"
    ++ "  y = s32[2] parameter(0)\n"
    ++ "  ROOT t = (s32[2], s32[2]) tuple(y, x)\n"
    ++ "  z = s32[2] subtract(y, x)\n"
    ++ "\x7d"

/-- The nodes and the instructions of the program are numbered
differently. -/
theorem tupleInTheMiddle_preserves_values :
    ∃ m c, parse tupleInTheMiddle = .ok m ∧ m.toComputation = .ok c
      ∧ (∀ arguments, c.Accepts arguments →
        ∃ result, m.entry.evaluate arguments = .ok result
          ∧ c.evaluate arguments = .ok result)
      ∧ ∀ signature, m.entry.signature = some signature →
        c.parameters.length = signature.length
        ∧ c.parameterShapes = signature.map Prod.snd
        ∧ ∀ (number id : Nat) (shape : Shape),
          c.nodes[id]? = some ⟨.parameter number, shape⟩
            ↔ c.parameters[number]? = some id
              ∧ (signature.map Prod.snd)[number]? = some shape := by
  have hm : parse tupleInTheMiddle = .ok ⟨"m", "f",
      some [("a", ⟨.s32, [2]⟩), ("b", ⟨.s32, [2]⟩), ("c", ⟨.s32, []⟩)],
      some (.tuple [⟨.s32, [2]⟩, ⟨.s32, [2]⟩]),
      [⟨"x", .array ⟨.s32, [2]⟩, .parameter 1, []⟩,
        ⟨"y", .array ⟨.s32, [2]⟩, .parameter 0, []⟩,
        ⟨"t", .tuple [⟨.s32, [2]⟩, ⟨.s32, [2]⟩], .tuple, [1, 0]⟩,
        ⟨"z", .array ⟨.s32, [2]⟩, .binary .subtract, [1, 0]⟩], 2⟩ := by
    decide +kernel
  refine ⟨_, ⟨"f", [⟨.parameter 1, ⟨.s32, [2]⟩⟩, ⟨.parameter 0, ⟨.s32, [2]⟩⟩,
    ⟨.binary .subtract 1 0, ⟨.s32, [2]⟩⟩, ⟨.parameter 2, ⟨.s32, []⟩⟩],
    [1, 0, 3], [1, 0]⟩, hm, rfl, ?_⟩
  exact toComputation_preserves_values hm rfl

end Module

end TensorBind.Graph
