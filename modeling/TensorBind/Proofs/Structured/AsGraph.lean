import TensorBind.Proofs.Graph.Lowering
import TensorBind.Proofs.Structured.Dense
import TensorBind.Structured.AsGraph
import TensorBind.Structured.Lowering

/-!
# Both forms of a program have one computation

A function can be compiled as it stands or in its graph form. The two ways
are lowered by different code, which checks types, operands and results at
different moments, and they come to the same computation or to none
(`Module.toComputation_eq_ok_iff_toGraph`).

They go in lockstep. The graph form has one instruction for each value of
the function, so the nodes of the instructions are those of the values
(`Lowering.asGraph`), and an argument or an operation is lowered in one
way exactly if it is in the other (`Func.lowerInstruction_argument`,
`Func.lowerInstruction_operation`). What is left is the header of the graph
form: its parameters are there already, since every argument has been laid
down as one, and its result is what the returned values were compared with.
-/

namespace TensorBind.Structured

/-! ## One value in both forms -/

/-- **The state of the graph form** that a state of the structured form
goes with. -/
def Lowering.asGraph (l : Lowering) : Graph.Lowering :=
  ⟨l.builder, l.nodes.map some⟩

namespace Func

variable {g : Graph.Entry} {l s : Lowering} {op : Operation}
  {i : Graph.Instruction} {t : Graph.Lowering} {position id : Nat}
  {b' : Builder}

/-- An argument is lowered exactly if its parameter is added. -/
theorem lowerArgument_eq_ok {type : Shape} {number : Nat} :
    lowerArgument l (type, number) = .ok s
      ↔ ∃ id b', l.builder.parameter number type = .ok (id, b')
        ∧ s = ⟨b', l.nodes ++ [id]⟩ := by
  unfold lowerArgument
  simp only [Except.bind_eq_ok, Except.mapError_eq_ok,
    Except.pure_eq_ok_iff, Prod.exists]
  exact exists_congr fun _ => exists_congr fun _ => and_congr_right' eq_comm

/-- **An argument is lowered in both forms or in none.** -/
theorem lowerInstruction_argument {argument : Shape × Nat} :
    g.lowerInstruction l.asGraph (argumentInstruction argument, position)
        = .ok t
      ↔ ∃ s, lowerArgument l argument = .ok s ∧ s.asGraph = t := by
  obtain ⟨type, number⟩ := argument
  have hvalue : ∀ {id b'}, g.lowerValue l.asGraph
      (argumentInstruction (type, number)) = .ok (some (id, b'))
      ↔ l.builder.parameter number type = .ok (id, b') := by
    intro id b'
    show ((l.builder.parameter number type).mapError _ >>= fun added =>
      pure (some added)) = _ ↔ _
    simp only [Except.bind_eq_ok, Except.mapError_eq_ok,
      Except.pure_eq_ok_iff, Option.some.injEq, exists_eq_right]
  have hdeclared : ∀ {id b'}, l.builder.parameter number type = .ok (id, b') →
      Graph.Entry.checkDeclared (argumentInstruction (type, number)) id b'
        = .ok () := by
    intro id b' hb
    obtain ⟨-, -, rfl, rfl⟩ := Builder.parameter_eq_ok.mp hb
    rw [Graph.Entry.checkDeclared_eq_ok rfl]
    simp
  rw [Graph.Entry.lowerInstruction_eq_ok_of_ne_tuple (by
    simp [argumentInstruction])]
  simp only [hvalue, lowerArgument_eq_ok]
  constructor
  · rintro ⟨id, b', hb, -, rfl⟩
    exact ⟨_, ⟨id, b', hb, rfl⟩, by simp [Lowering.asGraph]⟩
  · rintro ⟨_, ⟨id, b', hb, rfl⟩, rfl⟩
    exact ⟨id, b', hb, hdeclared hb, by simp [Lowering.asGraph]⟩

/-- An operand has a node exactly if it is there and its value does. -/
theorem operandNode_eq_ok {nodes : List Nat} :
    operandNode nodes op position = .ok id
      ↔ ∃ value, op.operands[position]? = some value
        ∧ nodes[value.toNat]? = some id := by
  unfold operandNode
  cases op.operands[position]? with
  | none => simp
  | some value =>
    cases hnode : nodes[value.toNat]? <;> simp [hnode]

/-- The instruction for an operation. -/
theorem operationInstruction_eq_ok :
    operationInstruction op = .ok i
      ↔ ∃ opcode, graphOpcode op = .ok opcode
        ∧ i = ⟨graphName op.result.toNat, .array op.resultType, opcode,
          op.operands.map UInt32.toNat⟩ := by
  unfold operationInstruction
  simp only [Except.bind_eq_ok, Except.pure_eq_ok_iff]
  exact exists_congr fun _ => and_congr_right' eq_comm

/-- **What an operation's instruction does**: it takes no parameter, and it
is no tuple. -/
theorem opcode_of_operationInstruction
    (hi : operationInstruction op = .ok i) :
    i.opcode ≠ .tuple ∧ ∀ number, i.opcode ≠ .parameter number := by
  obtain ⟨opcode, hopcode, rfl⟩ := operationInstruction_eq_ok.mp hi
  unfold graphOpcode at hopcode
  cases hkind : op.kind with
  | constant value =>
    simp only [hkind] at hopcode
    obtain ⟨literal, hliteral, rfl⟩ := Except.map_eq_ok.mp hopcode
    exact ⟨nofun, nofun⟩
  | unary unary =>
    simp only [hkind] at hopcode
    cases hopcode
    exact ⟨nofun, nofun⟩
  | binary binary =>
    simp only [hkind] at hopcode
    cases hopcode
    exact ⟨nofun, nofun⟩

/-- An operand has the same node in both forms. -/
theorem operandNode_asGraph
    (hoperands : i.operands = op.operands.map UInt32.toNat) :
    g.operandNode l.asGraph.nodes i position = .ok id
      ↔ operandNode l.nodes op position = .ok id := by
  rw [Graph.Entry.operandNode_eq_ok, operandNode_eq_ok, hoperands]
  simp only [List.getElem?_map, Lowering.asGraph, Option.map_eq_some_iff,
    Option.some.injEq, exists_eq_right, exists_exists_and_eq_and]

/-- **The node of an operation is the same in both forms.** -/
theorem lowerValue_asGraph (hi : operationInstruction op = .ok i) :
    g.lowerValue l.asGraph i = .ok (some (id, b'))
      ↔ lowerValue l op = .ok (id, b') := by
  obtain ⟨opcode, hopcode, rfl⟩ := operationInstruction_eq_ok.mp hi
  unfold graphOpcode at hopcode
  unfold lowerValue Graph.Entry.lowerValue
  cases hkind : op.kind with
  | constant value =>
    simp only [hkind] at hopcode
    obtain ⟨literal, hliteral, rfl⟩ := Except.map_eq_ok.mp hopcode
    simp only [hliteral, Except.bind_eq_ok, Except.mapError_eq_ok,
      Except.ok.injEq, Except.pure_eq_ok_iff, Option.some.injEq,
      exists_eq_left']
    rfl
  | unary unary =>
    simp only [hkind] at hopcode
    cases hopcode
    simp only [Except.bind_eq_ok, Except.mapError_eq_ok,
      Except.pure_eq_ok_iff, Option.some.injEq, exists_eq_right]
    refine exists_congr fun x => and_congr_left' ?_
    exact operandNode_asGraph rfl
  | binary binary =>
    simp only [hkind] at hopcode
    cases hopcode
    simp only [Except.bind_eq_ok, Except.mapError_eq_ok,
      Except.pure_eq_ok_iff, Option.some.injEq, exists_eq_right]
    refine exists_congr fun x => and_congr (operandNode_asGraph rfl) ?_
    refine exists_congr fun y => and_congr_left' ?_
    exact operandNode_asGraph rfl

/-- An operation that is lowered has an instruction. -/
theorem exists_operationInstruction
    (h : lowerValue l op = .ok (id, b')) :
    ∃ i, operationInstruction op = .ok i := by
  have hopcode : ∃ opcode, graphOpcode op = .ok opcode := by
    unfold graphOpcode
    unfold lowerValue at h
    cases hkind : op.kind with
    | constant value =>
      simp only [hkind, Except.bind_eq_ok, Except.mapError_eq_ok] at h
      obtain ⟨literal, hliteral, -⟩ := h
      exact ⟨.constant literal, Except.map_eq_ok.mpr ⟨literal, hliteral, rfl⟩⟩
    | unary unary => exact ⟨_, rfl⟩
    | binary binary => exact ⟨_, rfl⟩
  obtain ⟨opcode, hopcode⟩ := hopcode
  exact ⟨_, operationInstruction_eq_ok.mpr ⟨opcode, hopcode, rfl⟩⟩

/-- An operation is lowered exactly if its node has the type declared. -/
theorem lowerOperation_eq_ok :
    lowerOperation l op = .ok s
      ↔ ∃ id b', lowerValue l op = .ok (id, b')
        ∧ b'.nodes[id]?.map Node.shape = some op.resultType
        ∧ s = ⟨b', l.nodes ++ [id]⟩ := by
  unfold lowerOperation
  simp only [Except.bind_eq_ok, Except.mapError_eq_ok,
    Except.pure_eq_ok_iff, Prod.exists]
  constructor
  · rintro ⟨id, b', hvalue, _, hshape, rfl⟩
    exact ⟨id, b', hvalue, Builder.expectShape_eq_ok.mp hshape, rfl⟩
  · rintro ⟨id, b', hvalue, hshape, rfl⟩
    exact ⟨id, b', hvalue, (), Builder.expectShape_eq_ok.mpr hshape, rfl⟩

/-- **An operation is lowered in both forms or in none.** -/
theorem lowerInstruction_operation (hi : operationInstruction op = .ok i) :
    g.lowerInstruction l.asGraph (i, position) = .ok t
      ↔ ∃ s, lowerOperation l op = .ok s ∧ s.asGraph = t := by
  have hshape : i.shape = .array op.resultType := by
    obtain ⟨opcode, -, rfl⟩ := operationInstruction_eq_ok.mp hi
    rfl
  rw [Graph.Entry.lowerInstruction_eq_ok_of_ne_tuple
    (opcode_of_operationInstruction hi).1]
  simp only [lowerValue_asGraph hi, Graph.Entry.checkDeclared_eq_ok hshape,
    lowerOperation_eq_ok]
  constructor
  · rintro ⟨id, b', hvalue, hcheck, rfl⟩
    exact ⟨_, ⟨id, b', hvalue, hcheck, rfl⟩, by simp [Lowering.asGraph]⟩
  · rintro ⟨_, ⟨id, b', hvalue, hcheck, rfl⟩, rfl⟩
    exact ⟨id, b', hvalue, hcheck, by simp [Lowering.asGraph]⟩

end Func

/-! ## Parameters -/

namespace Lowering

/-- **A state whose parameters are some arguments**, each taken by the node
of its number. -/
structure Takes (arguments : List Shape) (l : Lowering) : Prop where
  /-- The builder is well-formed. -/
  wellFormed : l.builder.WellFormed
  /-- The parameters are the arguments. -/
  parameter_iff : ∀ {id number : Nat} {shape : Shape},
    l.builder.nodes[id]? = some ⟨.parameter number, shape⟩
      ↔ id = number ∧ arguments[number]? = some shape

variable {arguments : List Shape} {l s : Lowering} {g : Graph.Entry}

/-- One more argument. -/
theorem Takes.argument {k : Nat} {type : Shape}
    (h : l.Takes (arguments.take k)) (hlength : l.builder.nodes.length = k)
    (hk : arguments[k]? = some type)
    (hstep : Func.lowerArgument l (type, k) = .ok s) :
    s.Takes (arguments.take (k + 1))
      ∧ s.builder.nodes.length = k + 1 := by
  obtain ⟨id, b', hb, rfl⟩ := Func.lowerArgument_eq_ok.mp hstep
  refine ⟨⟨h.wellFormed.parameter hb, ?_⟩, ?_⟩
  all_goals obtain ⟨-, -, -, rfl⟩ := Builder.parameter_eq_ok.mp hb
  · intro id number shape
    have hmore : arguments.take (k + 1) = arguments.take k ++ [type] := by
      rw [List.take_add_one, hk, Option.toList_some]
    have hlt : k < arguments.length := (List.getElem?_eq_some_iff.mp hk).1
    rw [Builder.append_nodes, List.getElem?_concat_eq_some, h.parameter_iff,
      hlength, hmore, List.getElem?_concat_eq_some, List.length_take,
      Nat.min_eq_left (Nat.le_of_lt hlt), Node.mk.injEq,
      NodeOp.parameter.injEq]
    constructor
    · rintro (⟨rfl, hold⟩ | ⟨rfl, rfl, rfl⟩)
      · exact ⟨rfl, .inl hold⟩
      · exact ⟨rfl, .inr ⟨rfl, rfl⟩⟩
    · rintro ⟨rfl, hold | ⟨rfl, rfl⟩⟩
      · exact .inl ⟨rfl, hold⟩
      · exact .inr ⟨rfl, rfl, rfl⟩
  · simp [hlength]

/-- **All arguments are taken** once they have been lowered. -/
theorem takes_of_lowerArguments {name : String}
    (h : arguments.zipIdx.foldlM Func.lowerArgument
      ⟨Builder.empty name, []⟩ = .ok l) : l.Takes arguments := by
  have hall := List.foldlM_invariant (fun k l =>
    Takes (arguments.take k) l ∧ l.builder.nodes.length = k) ?_ ?_ h
  · rw [List.length_zipIdx, List.take_length] at hall
    exact hall.1
  · exact ⟨⟨Builder.wellFormed_empty name, by simp [Builder.empty]⟩, rfl⟩
  · rintro k hk l s ⟨hl, hlength⟩ hstep
    rw [List.length_zipIdx] at hk
    rw [List.getElem_zipIdx, Nat.zero_add] at hstep
    exact hl.argument hlength (List.getElem?_eq_getElem hk) hstep

/-- An operation takes no parameter. -/
theorem Takes.operation {op : Operation} (h : l.Takes arguments)
    (hstep : Func.lowerOperation l op = .ok s) : s.Takes arguments := by
  obtain ⟨id, b', hvalue, -, rfl⟩ := Func.lowerOperation_eq_ok.mp hstep
  obtain ⟨i, hi⟩ := Func.exists_operationInstruction hvalue
  obtain ⟨-, hparameter⟩ := Func.opcode_of_operationInstruction hi
  have hgraph : Graph.Entry.lowerValue ⟨"", none, none, [], 0⟩ l.asGraph i
      = .ok (some (id, b')) := (Func.lowerValue_asGraph hi).mpr hvalue
  obtain ⟨hb, nodeOp, shape, himpl, -, -, rfl⟩ :=
    Graph.Entry.implemented_of_lowerValue hgraph
  refine ⟨hb h.wellFormed, fun {id number shape'} => ?_⟩
  rw [← h.parameter_iff]
  show (l.builder.nodes ++ [_])[id]? = _ ↔ _
  rw [List.getElem?_concat_eq_some]
  refine or_iff_left ?_
  rintro ⟨-, heq⟩
  rw [Node.mk.injEq] at heq
  obtain ⟨rfl, -⟩ := heq
  exact hparameter number himpl

/-- Operations take no parameters. -/
theorem Takes.operations {body : List Operation} (h : l.Takes arguments)
    (hbody : body.foldlM Func.lowerOperation l = .ok s) :
    s.Takes arguments :=
  List.foldlM_invariant (fun _ s => Takes arguments s) h
    (fun _ _ _ _ hs hstep => hs.operation hstep) hbody

/-- **A signature with the arguments adds nothing.** -/
theorem Takes.addParameters (h : l.Takes arguments)
    {signature : List (String × Shape)}
    (hlength : signature.length ≤ arguments.length) :
    signature.zipIdx.foldlM Graph.Entry.addParameter l.builder
      = .ok l.builder := by
  have hall := List.foldlM_eq_ok_of_step
    (f := Graph.Entry.addParameter) (l := signature.zipIdx)
    (s := l.builder) (fun _ b => b = l.builder) rfl ?_
  · obtain ⟨_, hfold, rfl⟩ := hall
    exact hfold
  · rintro k hk _ rfl
    rw [List.length_zipIdx] at hk
    refine ⟨l.builder, ?_, rfl⟩
    have hnode := h.parameter_iff.mpr
      ⟨rfl, List.getElem?_eq_getElem (Nat.lt_of_lt_of_le hk hlength)⟩
    have htaken : l.builder.hasParameter k := by
      rw [Builder.hasParameter, Option.isSome_iff_ne_none]
      intro hnone
      exact Builder.ne_parameter_of_parameterNode? hnone hnode rfl
    rw [List.getElem_zipIdx, Nat.zero_add, Graph.Entry.addParameter,
      if_pos htaken]
    rfl

/-- **The parameters of the computation are the arguments.** -/
theorem Takes.parameterShapes (h : l.Takes arguments) {outputs : List Nat}
    {c : Computation} (hc : l.builder.build outputs = .ok c) :
    c.parameterShapes = arguments := by
  obtain ⟨hwf, -, hnodes, -⟩ := h.wellFormed.build hc
  refine List.ext_getElem? fun number => Option.ext fun shape => ?_
  constructor
  · intro hshape
    have hlt := (List.getElem?_eq_some_iff.mp hshape).1
    rw [hwf.length_parameterShapes] at hlt
    have hnode := hwf.getElem?_parameter_iff.mpr
      ⟨List.getElem?_eq_getElem hlt, hshape⟩
    rw [hnodes] at hnode
    exact (h.parameter_iff.mp hnode).2
  · intro hargument
    have hnode := h.parameter_iff.mpr ⟨rfl, hargument⟩
    rw [← hnodes] at hnode
    exact (hwf.getElem?_parameter_iff.mp hnode).2

end Lowering

/-! ## The whole function -/

namespace Func

variable {f : Func} {g : Graph.Entry} {c : Computation} {l : Lowering}

/-- **The graph form of a function** has an instruction for each value and
one for what is returned. -/
theorem toGraph_eq_ok : f.toGraph = .ok g
    ↔ ∃ operations, List.Forall₂ (fun op i => operationInstruction op = .ok i)
        f.body operations
      ∧ g = ⟨f.name, some f.graphSignature, some (.tuple f.resultTypes),
        f.arguments.zipIdx.map argumentInstruction ++ operations
          ++ [f.returnInstruction],
        (f.arguments.zipIdx.map argumentInstruction
          ++ operations).length⟩ := by
  unfold toGraph
  simp only [Except.bind_eq_ok, Except.pure_eq_ok_iff, List.mapM_eq_ok]
  exact exists_congr fun _ => and_congr_right' eq_comm

/-- What is returned is lowered as a tuple, which is the root. -/
theorem lowerInstruction_return {t t' : Graph.Lowering} :
    g.lowerInstruction t (f.returnInstruction, g.root) = .ok t'
      ↔ t' = ⟨t.builder, t.nodes ++ [none]⟩ := by
  have hvalue : g.lowerValue t f.returnInstruction = .ok none := rfl
  rw [Graph.Entry.lowerInstruction_eq_ok, hvalue]
  simp

/-- Arguments are lowered in both forms or in none. -/
theorem lowerArguments_asGraph {arguments : List (Shape × Nat)}
    {instructions : List (Graph.Instruction × Nat)} {t : Graph.Lowering}
    (h : List.Forall₂ (fun a i => argumentInstruction a = i.1) arguments
      instructions) :
    instructions.foldlM g.lowerInstruction l.asGraph = .ok t
      ↔ ∃ s, arguments.foldlM lowerArgument l = .ok s ∧ s.asGraph = t := by
  refine List.foldlM_lockstep ?_ h
  rintro a ⟨i, position⟩ s t rfl
  exact lowerInstruction_argument

/-- Operations are lowered in both forms or in none. -/
theorem lowerOperations_asGraph {body : List Operation}
    {instructions : List (Graph.Instruction × Nat)} {t : Graph.Lowering}
    (h : List.Forall₂ (fun op i => operationInstruction op = .ok i.1) body
      instructions) :
    instructions.foldlM g.lowerInstruction l.asGraph = .ok t
      ↔ ∃ s, body.foldlM lowerOperation l = .ok s ∧ s.asGraph = t := by
  refine List.foldlM_lockstep ?_ h
  rintro op ⟨i, position⟩ s t hi
  exact lowerInstruction_operation hi

/-- **The values of a function are lowered in both forms or in none**,
and what is returned has no node. -/
theorem lowerInstructions_toGraph (hg : f.toGraph = .ok g)
    {t : Graph.Lowering} :
    g.instructions.zipIdx.foldlM g.lowerInstruction
        ⟨Builder.empty g.name, []⟩ = .ok t
      ↔ ∃ a l, f.arguments.zipIdx.foldlM lowerArgument
          ⟨Builder.empty f.name, []⟩ = .ok a
        ∧ f.body.foldlM lowerOperation a = .ok l
        ∧ t = ⟨l.builder, l.nodes.map some ++ [none]⟩ := by
  obtain ⟨operations, hoperations, hg⟩ := toGraph_eq_ok.mp hg
  have hinstructions : g.instructions.zipIdx
      = (f.arguments.zipIdx.map argumentInstruction).zipIdx
        ++ operations.zipIdx f.arguments.length
        ++ [(f.returnInstruction, g.root)] := by
    rw [hg, List.zipIdx_append, List.zipIdx_append]
    simp
  have hstart : (⟨Builder.empty g.name, []⟩ : Graph.Lowering)
      = Lowering.asGraph ⟨Builder.empty f.name, []⟩ := by
    rw [hg]
    rfl
  -- the positions of the instructions do not matter
  have harguments : List.Forall₂ (fun a i => argumentInstruction a = i.1)
      f.arguments.zipIdx
      (f.arguments.zipIdx.map argumentInstruction).zipIdx := by
    rw [← List.forall₂_map_right_iff, List.zipIdx_map_fst,
      List.forall₂_map_right_iff, List.forall₂_same]
    exact fun _ _ => rfl
  have hbody : List.Forall₂ (fun op i => operationInstruction op = .ok i.1)
      f.body (operations.zipIdx f.arguments.length) := by
    rw [← List.zipIdx_map_fst f.arguments.length operations,
      List.forall₂_map_right_iff] at hoperations
    exact hoperations
  rw [hinstructions, hstart, List.foldlM_append, List.foldlM_append]
  simp only [Except.bind_eq_ok, List.foldlM_cons, List.foldlM_nil, bind_pure,
    lowerArguments_asGraph harguments]
  constructor
  · rintro ⟨_, ⟨_, ⟨a, ha, rfl⟩, hl⟩, ht⟩
    obtain ⟨l, hbody, rfl⟩ := (lowerOperations_asGraph hbody).mp hl
    exact ⟨a, l, ha, hbody, lowerInstruction_return.mp ht⟩
  · rintro ⟨a, l, ha, hl, ht⟩
    exact ⟨l.asGraph, ⟨a.asGraph, ⟨a, ha, rfl⟩,
      (lowerOperations_asGraph hbody).mpr ⟨l, hl, rfl⟩⟩,
      lowerInstruction_return.mpr ht⟩

/-- A returned value has a node exactly if it is there with its type. -/
theorem outputNode_eq_ok {result : UInt32 × Shape} {id : Nat} :
    f.outputNode l result = .ok id
      ↔ l.nodes[result.1.toNat]? = some id
        ∧ l.builder.nodes[id]?.map Node.shape = some result.2 := by
  unfold outputNode
  cases l.nodes[result.1.toNat]? with
  | none => simp
  | some found =>
    simp only [Except.bind_eq_ok, Except.mapError_eq_ok,
      Except.pure_eq_ok_iff, Option.some.injEq]
    constructor
    · rintro ⟨_, hshape, rfl⟩
      exact ⟨rfl, Builder.expectShape_eq_ok.mp hshape⟩
    · rintro ⟨rfl, hshape⟩
      exact ⟨(), Builder.expectShape_eq_ok.mpr hshape, rfl⟩

/-- **The computation of a function**, from its values and the nodes of
what it returns. -/
theorem toComputation_eq_ok : f.toComputation = .ok c
    ↔ ∃ a l outputs, f.arguments.zipIdx.foldlM lowerArgument
        ⟨Builder.empty f.name, []⟩ = .ok a
      ∧ f.body.foldlM lowerOperation a = .ok l
      ∧ f.returned.length = f.resultTypes.length
      ∧ List.Forall₂ (fun result id => l.nodes[result.1.toNat]? = some id
          ∧ l.builder.nodes[id]?.map Node.shape = some result.2)
        (f.returned.zip f.resultTypes) outputs
      ∧ l.builder.build outputs = .ok c := by
  unfold toComputation
  simp only [Except.bind_eq_ok]
  constructor
  · rintro ⟨a, ha, l, hl, hrest⟩
    split at hrest
    · cases hrest
    · rename_i hlength
      obtain ⟨outputs, houtputs, hc⟩ := Except.bind_eq_ok.mp hrest
      rw [Except.mapError_eq_ok] at hc
      rw [List.mapM_eq_ok] at houtputs
      exact ⟨a, l, outputs, ha, hl, Decidable.not_not.mp hlength,
        houtputs.imp fun _ _ => outputNode_eq_ok.mp, hc⟩
  · rintro ⟨a, l, outputs, ha, hl, hlength, houtputs, hc⟩
    refine ⟨a, ha, l, hl, ?_⟩
    rw [if_neg (Decidable.not_not.mpr hlength)]
    exact Except.bind_eq_ok.mpr ⟨outputs, List.mapM_eq_ok.mpr
      (houtputs.imp fun _ _ => outputNode_eq_ok.mpr), Except.mapError_eq_ok.mpr hc⟩

/-- The declared result of the graph form is that of its outputs exactly if
the types are. -/
theorem checkResult_toGraph (hg : f.toGraph = .ok g) :
    g.checkResult c = .ok () ↔ f.resultTypes = c.outputShapes := by
  obtain ⟨operations, -, rfl⟩ := toGraph_eq_ok.mp hg
  show (if decide (f.resultTypes = c.outputShapes) then _ else _) = _ ↔ _
  by_cases h : f.resultTypes = c.outputShapes
  · simp [h]
  · simp [h]

/-- The signature of the graph form is that of its parameters exactly if
the arguments are. -/
theorem checkParameters_toGraph (hg : f.toGraph = .ok g) :
    g.checkParameters c = .ok () ↔ f.arguments = c.parameterShapes := by
  obtain ⟨operations, -, rfl⟩ := toGraph_eq_ok.mp hg
  have hsignature : f.graphSignature.map Prod.snd = f.arguments := by
    rw [graphSignature, List.map_map]
    exact List.zipIdx_map_fst 0 f.arguments
  show (if f.graphSignature.map Prod.snd = c.parameterShapes then _
    else _) = _ ↔ _
  rw [hsignature]
  by_cases h : f.arguments = c.parameterShapes
  · simp [h]
  · simp [h]

/-- **The outputs of the graph form are the nodes of the returned
values.** -/
theorem outputNodes_toGraph (hg : f.toGraph = .ok g) {nodes outputs : List Nat} :
    g.outputNodes (nodes.map some ++ [none]) = .ok outputs
      ↔ List.Forall₂ (fun value id => nodes[value.toNat]? = some id)
        f.returned outputs := by
  have hnode : ∀ {k id : Nat},
      (nodes.map some ++ [none])[k]?.join = some id
        ↔ nodes[k]? = some id := by
    intro k id
    rw [Option.join_eq_some_iff, List.getElem?_concat_eq_some,
      List.getElem?_map]
    simp
  have hroot : g.instructions[g.root]? = some f.returnInstruction := by
    obtain ⟨operations, -, rfl⟩ := toGraph_eq_ok.mp hg
    exact List.getElem?_concat_length
  have htuple : f.returnInstruction.opcode = .tuple := rfl
  have hoperands : f.returnInstruction.operands
      = f.returned.map UInt32.toNat := rfl
  rw [Graph.Entry.outputNodes_eq_ok]
  simp only [hroot, Option.some.injEq, exists_eq_left', htuple, true_and,
    ne_eq, not_true_eq_false, false_and, or_false, hoperands, hnode,
    List.forall₂_map_left_iff]

/-- The operations that are lowered have instructions. -/
theorem exists_operationInstructions {body : List Operation} {a : Lowering}
    (h : body.foldlM lowerOperation a = .ok l) :
    ∃ operations, List.Forall₂
      (fun op i => operationInstruction op = .ok i) body operations := by
  induction body generalizing a with
  | nil => exact ⟨[], .nil⟩
  | cons op body ih =>
    rw [List.foldlM_cons, Except.bind_eq_ok] at h
    obtain ⟨s, hstep, hrest⟩ := h
    obtain ⟨id, b', hvalue, -, -⟩ := lowerOperation_eq_ok.mp hstep
    obtain ⟨i, hi⟩ := exists_operationInstruction hvalue
    obtain ⟨operations, hoperations⟩ := ih hrest
    exact ⟨i :: operations, .cons hi hoperations⟩

/-- **What is returned is checked in both forms or in none.** -/
theorem outputs_toGraph (hg : f.toGraph = .ok g) {outputs : List Nat}
    (hl : l.Takes f.arguments) (hc : l.builder.build outputs = .ok c) :
    (f.returned.length = f.resultTypes.length
      ∧ List.Forall₂ (fun result id => l.nodes[result.1.toNat]? = some id
          ∧ l.builder.nodes[id]?.map Node.shape = some result.2)
        (f.returned.zip f.resultTypes) outputs)
    ↔ g.outputNodes (l.nodes.map some ++ [none]) = .ok outputs
      ∧ g.checkResult c = .ok () := by
  obtain ⟨hwf, -, hnodes, houtputs⟩ := hl.wellFormed.build hc
  rw [outputNodes_toGraph hg, checkResult_toGraph hg,
    hwf.outputShapes_eq_iff, houtputs]
  unfold Computation.shape?
  rw [hnodes]
  constructor
  · rintro ⟨hlength, h⟩
    exact (List.forall₂_zip_iff hlength).mp h
  · rintro ⟨hreturned, htypes⟩
    have hlength : f.returned.length = f.resultTypes.length := by
      rw [hreturned.length_eq, htypes.length_eq]
    exact ⟨hlength, (List.forall₂_zip_iff hlength).mpr ⟨hreturned, htypes⟩⟩

/-- **A function and its graph form have the same computation.** -/
theorem toComputation_eq_ok_iff :
    f.toComputation = .ok c
      ↔ ∃ g, f.toGraph = .ok g ∧ g.toComputation = .ok c := by
  have hsignature : ∀ {g}, f.toGraph = .ok g →
      g.signature.getD [] = f.graphSignature := by
    intro g hg
    obtain ⟨operations, -, rfl⟩ := toGraph_eq_ok.mp hg
    rfl
  have hlength : f.graphSignature.length ≤ f.arguments.length := by
    simp [graphSignature]
  constructor
  · intro h
    obtain ⟨a, l, outputs, ha, hl, hcount, houtputs, hc⟩ :=
      toComputation_eq_ok.mp h
    have htakes := (Lowering.takes_of_lowerArguments ha).operations hl
    obtain ⟨operations, hoperations⟩ := exists_operationInstructions hl
    have hg := toGraph_eq_ok.mpr ⟨operations, hoperations, rfl⟩
    obtain ⟨hnodes, hresult⟩ :=
      (outputs_toGraph hg htakes hc).mp ⟨hcount, houtputs⟩
    refine ⟨_, hg, Graph.Entry.toComputation_eq_ok.mpr ⟨_, l.builder,
      outputs, (lowerInstructions_toGraph hg).mpr ⟨a, l, ha, hl, rfl⟩, ?_,
      hnodes, hc, ?_, hresult⟩⟩
    · exact htakes.addParameters hlength
    · exact (checkParameters_toGraph hg).mpr (htakes.parameterShapes hc).symm
  · rintro ⟨g, hg, h⟩
    obtain ⟨t, builder, outputs, ht, hbuilder, hnodes, hc, -, hresult⟩ :=
      Graph.Entry.toComputation_eq_ok.mp h
    obtain ⟨a, l, ha, hl, rfl⟩ := (lowerInstructions_toGraph hg).mp ht
    have htakes := (Lowering.takes_of_lowerArguments ha).operations hl
    rw [hsignature hg, htakes.addParameters hlength,
      Except.ok.injEq] at hbuilder
    subst hbuilder
    obtain ⟨hcount, houtputs⟩ :=
      (outputs_toGraph hg htakes hc).mpr ⟨hnodes, hresult⟩
    exact toComputation_eq_ok.mpr
      ⟨a, l, outputs, ha, hl, hcount, houtputs, hc⟩

/-- The constants of a function that has a graph form can be
materialized. -/
theorem exists_toLiteral (hg : f.toGraph = .ok g) {op : Operation}
    (hop : op ∈ f.body) {value : Dense} (hkind : op.kind = .constant value) :
    ∃ literal, value.toLiteral op.resultType = .ok literal := by
  obtain ⟨operations, hoperations, -⟩ := toGraph_eq_ok.mp hg
  obtain ⟨k, hk, rfl⟩ := List.getElem_of_mem hop
  have hi := hoperations.get hk (hoperations.length_eq ▸ hk)
  obtain ⟨opcode, hopcode, -⟩ := operationInstruction_eq_ok.mp hi
  unfold graphOpcode at hopcode
  simp only [List.get_eq_getElem, hkind] at hopcode
  obtain ⟨literal, hliteral, -⟩ := Except.map_eq_ok.mp hopcode
  exact ⟨literal, hliteral⟩

end Func

namespace Module

/-- **Both forms of a program have the same computation.** A module whose
entry is a function has a computation exactly if all constants of the
function can be materialized and a graph program with the graph form of the
function has that computation. -/
theorem toComputation_eq_ok_iff_toGraph {m : Module} {f : Func}
    (hentry : m.entry? = some f) (name : String) (c : Computation) :
    m.toComputation = .ok c
      ↔ (∀ op ∈ f.body, ∀ value, op.kind = .constant value →
          ∃ literal, value.toLiteral op.resultType = .ok literal)
        ∧ ∃ g, f.toGraph = .ok g
          ∧ (Graph.Module.mk name g).toComputation = .ok c := by
  have hm : m.toComputation = f.toComputation := by
    rw [toComputation, entry, hentry]
    rfl
  rw [hm, Func.toComputation_eq_ok_iff]
  constructor
  · rintro ⟨g, hg, hc⟩
    exact ⟨fun op hop value hkind => Func.exists_toLiteral hg hop hkind,
      g, hg, hc⟩
  · rintro ⟨-, g, hg, hc⟩
    exact ⟨g, hg, hc⟩

/-- A function that returns its argument and the triple of it. -/
def tripled : Func :=
  ⟨"main", [⟨.s32, [2]⟩], [⟨.s32, [2]⟩, ⟨.s32, [2]⟩],
    [⟨"mhlo.constant", .constant [.int 3], [], 1, ⟨.s32, [2]⟩⟩,
      ⟨"mhlo.multiply", .binary .multiply, [0, 1], 2, ⟨.s32, [2]⟩⟩],
    [0, 2]⟩

/-- The function is the entry of its module, and both forms of it have one
computation. -/
theorem tripled_toComputation :
    (Module.mk none [tripled]).toComputation = .ok ⟨"main",
        [⟨.parameter 0, ⟨.s32, [2]⟩⟩,
          ⟨.constant (.vector .s32 [(3 : Int32), (3 : Int32)]), ⟨.s32, [2]⟩⟩,
          ⟨.binary .multiply 0 1, ⟨.s32, [2]⟩⟩], [0], [0, 2]⟩
      ↔ (∀ op ∈ tripled.body, ∀ value, op.kind = .constant value →
          ∃ literal, value.toLiteral op.resultType = .ok literal)
        ∧ ∃ g, tripled.toGraph = .ok g
          ∧ (Graph.Module.mk "tripled" g).toComputation = .ok ⟨"main",
            [⟨.parameter 0, ⟨.s32, [2]⟩⟩,
              ⟨.constant (.vector .s32 [(3 : Int32), (3 : Int32)]),
                ⟨.s32, [2]⟩⟩,
              ⟨.binary .multiply 0 1, ⟨.s32, [2]⟩⟩], [0], [0, 2]⟩ := by
  have hentry : entry? (Module.mk none [tripled]) = some tripled := by
    decide
  exact toComputation_eq_ok_iff_toGraph hentry "tripled" _

end Module

end TensorBind.Structured
