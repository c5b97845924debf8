import TensorBind.Proofs.Graph.WellFormed
import TensorBind.Proofs.Structured.AsGraph
import TensorBind.Proofs.Structured.RoundTrip

/-!
# Structured programs that were read are well-formed

In a structured program that was read from a text every value is defined
once, in front of whatever reads it. The arguments of a function come first
and then the results of its operations, and values are numbered in that order;
an operation reads as many values as it takes, and all of them have smaller
numbers than its result (`Func.WellFormed`). A number is a word of 32 bits, so
this is said of functions with fewer values than there are words.

Nothing in such a program refers to something that is not there. Where there
are too many values for their numbers, a number stands for the place that is
left of it in 32 bits, and that is an earlier place as well. So no bound is
needed for the other half: when a program that was read is lowered to a
computation, this never fails because an operand, a value or a node is missing
(`Func.Legible.not_dangling_of_toComputation`).
-/

namespace List

/-- What is found for every member is what is found for some. -/
theorem map_eq_map_some_filterMap {α β : Type} {f : α → Option β}
    {l : List α} (h : ∀ a ∈ l, (f a).isSome) :
    l.map f = (l.filterMap f).map some := by
  induction l with
  | nil => rfl
  | cons a l ih =>
    rw [forall_mem_cons] at h
    obtain ⟨b, hb⟩ := Option.isSome_iff_exists.mp h.1
    rw [map_cons, filterMap_cons_some hb, map_cons, hb, ih h.2]

end List

namespace TensorBind.Structured

/-- **A cause that blames something that is not there**: an operand, a value
or a node. -/
def LoweringError.Dangling : LoweringError → Prop
  | .missingOperand .. => True
  | .usedBeforeDefined .. => True
  | .undefinedResult .. => True
  | .build cause => cause.Dangling
  | _ => False

/-! ## Well-formed functions -/

/-- How many values an operation reads. -/
def OpKind.operandCount : OpKind → Nat
  | .constant _ => 0
  | .unary _ => 1
  | .binary _ => 2

/-- **All types of a function**: those of its arguments and its results, and
those its operations are declared with. -/
def Func.types (f : Func) : List Shape :=
  f.arguments ++ f.resultTypes ++ f.body.map Operation.resultType

/-- **A well-formed function**, in which every value is defined once and in
front of what reads it. -/
structure Func.WellFormed (f : Func) : Prop where
  /-- Behind the arguments, values are numbered by the operations. -/
  result_eq : ∀ {k : Nat} {op : Operation}, f.body[k]? = some op →
    op.result.toNat = f.arguments.length + k
  /-- An operation reads values that are defined before it. -/
  operand_lt : ∀ {op : Operation}, op ∈ f.body →
    ∀ value ∈ op.operands, value < op.result
  /-- An operation reads as many values as it takes. -/
  length_operands : ∀ {op : Operation}, op ∈ f.body →
    op.operands.length = op.kind.operandCount
  /-- A constant has an element. -/
  dense_ne_nil : ∀ {op : Operation} {elements : Dense}, op ∈ f.body →
    op.kind = .constant elements → elements ≠ []
  /-- What is returned are values of the function. -/
  returned_lt : ∀ value ∈ f.returned,
    value.toNat < f.arguments.length + f.body.length
  /-- No dimension is negative, and every type has a size. -/
  sized : ∀ type ∈ f.types,
    (∀ d ∈ type.dims, 0 ≤ d) ∧ type.checkedByteSize.isSome

/-- The number of a value is less than that of the values, whether or not
they can all be numbered. -/
theorem IsValue.toNat_lt {count : Nat} {value : UInt32}
    (h : IsValue count value) : value.toNat < count := by
  obtain ⟨place, hplace, rfl⟩ := h
  rw [UInt32.toNat_ofNat']
  exact Nat.lt_of_le_of_lt (Nat.mod_le _ _) hplace

/-- What is read by a name takes a fixed number of values, and is no
constant. -/
theorem operandCount_of_kindOfName? {name : String} {kind : OpKind}
    {arity : Nat} (h : kindOfName? name = some (kind, arity)) :
    kind.operandCount = arity ∧ ∀ elements, kind ≠ .constant elements := by
  unfold kindOfName? at h
  split at h
  · cases h
    exact ⟨rfl, fun _ => OpKind.noConfusion⟩
  · obtain ⟨op, -, hop⟩ := Option.map_eq_some_iff.mp h
    cases hop
    exact ⟨rfl, fun _ => OpKind.noConfusion⟩

namespace Operation.Described

variable {count : Nat} {op : Operation}

theorem length_operands (h : op.Described count) :
    op.operands.length = op.kind.operandCount := by
  cases h with
  | constant elements _ hkind hoperands =>
    rw [hkind, hoperands]
    rfl
  | operation name arity _ _ hkind hlength =>
    rw [(operandCount_of_kindOfName? hkind).1, hlength]

theorem operand_lt (h : op.Described count) :
    ∀ value ∈ op.operands, value.toNat < count := by
  cases h with
  | constant elements _ _ hoperands =>
    rw [hoperands]
    exact fun _ hvalue => absurd hvalue List.not_mem_nil
  | operation name arity _ _ _ _ hoperands =>
    exact fun value hvalue => (hoperands value hvalue).toNat_lt

theorem dense_ne_nil (h : op.Described count) {elements : Dense}
    (hkind : op.kind = .constant elements) : elements ≠ [] := by
  cases h with
  | constant elements' _ hkind' _ hne =>
    rw [hkind] at hkind'
    cases hkind'
    exact hne
  | operation name arity _ _ hkind' =>
    exact absurd hkind ((operandCount_of_kindOfName? hkind').2 elements)

end Operation.Described

namespace Func

variable {f : Func}

theorem Legible.legible_of_mem (h : f.Legible) {op : Operation}
    (hop : op ∈ f.body) : ∃ k, f.body[k]? = some op
      ∧ op.Legible (f.arguments.length + k) := by
  obtain ⟨k, hk⟩ := List.mem_iff_getElem?.mp hop
  exact ⟨k, hk, h.body k op hk⟩

/-- The result of an operation has the next number. -/
theorem Legible.result_eq (h : f.Legible) (hcount : f.count < 2 ^ 32)
    {k : Nat} {op : Operation} (hk : f.body[k]? = some op) :
    op.result.toNat = f.arguments.length + k := by
  have hlt := (List.getElem?_eq_some_iff.mp hk).1
  rw [(h.body k op hk).result]
  refine UInt32.toNat_ofNat_of_lt' (Nat.lt_trans ?_ hcount)
  exact Nat.add_lt_add_left hlt _

/-- All types of a function that can be written have a size. -/
theorem Legible.sized (h : f.Legible) :
    ∀ type ∈ f.types, type.checkedByteSize.isSome := by
  unfold types
  rw [List.forall_mem_append, List.forall_mem_append, List.forall_mem_map]
  refine ⟨⟨h.arguments, h.resultTypes⟩, fun op hop => ?_⟩
  obtain ⟨k, -, hlegible⟩ := h.legible_of_mem hop
  exact hlegible.resultType

/-- **A function that can be written is well-formed** if its values can be
numbered. -/
theorem Legible.wellFormed (h : f.Legible) (hcount : f.count < 2 ^ 32) :
    f.WellFormed where
  result_eq := h.result_eq hcount
  operand_lt := by
    intro op hop value hvalue
    obtain ⟨k, hk, hlegible⟩ := h.legible_of_mem hop
    rw [UInt32.lt_iff_toNat_lt, h.result_eq hcount hk]
    exact hlegible.described.operand_lt value hvalue
  length_operands := by
    intro op hop
    obtain ⟨k, -, hlegible⟩ := h.legible_of_mem hop
    exact hlegible.described.length_operands
  dense_ne_nil := by
    intro op elements hop
    obtain ⟨k, -, hlegible⟩ := h.legible_of_mem hop
    exact hlegible.described.dense_ne_nil
  returned_lt := fun value hvalue => (h.returned value hvalue).toNat_lt
  sized := by
    intro type htype
    have hsize := h.sized type htype
    exact ⟨fun d hd => Int64.not_lt.mp
      (Shape.nonneg_of_checkedByteSize hsize d hd), hsize⟩

/-- **What a well-formed function returns has a type.** -/
theorem WellFormed.isSome_valueType? (h : f.WellFormed) :
    ∀ value ∈ f.returned, (f.valueType? value).isSome := by
  intro value hvalue
  have hlt : value.toNat
      < (f.arguments ++ f.body.map Operation.resultType).length := by
    rw [List.length_append, List.length_map]
    exact h.returned_lt value hvalue
  rw [valueType?, List.getElem?_eq_getElem hlt, Option.isSome_some]

end Func

/-! ## Nodes of values -/

namespace Lowering

/-- **A state in which each value so far has a node.** -/
structure Holds (count : Nat) (l : Lowering) : Prop where
  /-- There is an entry for each value. -/
  length_eq : l.nodes.length = count
  /-- It is a node that has been added. -/
  node_lt : ∀ id ∈ l.nodes, id < l.builder.nodes.length

variable {count : Nat} {l s : Lowering}

/-- One more value, with a node of its own. -/
theorem Holds.append (h : l.Holds count) (op : NodeOp) (shape : Shape) :
    Holds (count + 1)
      ⟨l.builder.append op shape, l.nodes ++ [l.builder.nodes.length]⟩ := by
  constructor
  · rw [List.length_append, h.length_eq, List.length_singleton]
  · rw [Builder.append_nodes, List.length_append, List.length_singleton,
      List.forall_mem_append, List.forall_mem_singleton]
    exact ⟨fun id hid => Nat.lt_succ_of_lt (h.node_lt id hid),
      Nat.lt_succ_self _⟩

/-- The node of a value. -/
theorem Holds.exists_node (h : l.Holds count) {value : UInt32}
    (hvalue : value.toNat < count) :
    ∃ id < l.builder.nodes.length, l.nodes[value.toNat]? = some id := by
  have hlt : value.toNat < l.nodes.length := by rwa [h.length_eq]
  exact ⟨_, h.node_lt _ (List.getElem_mem hlt), List.getElem?_eq_getElem hlt⟩

theorem Holds.argument {argument : Shape × Nat} (h : l.Holds count)
    (hstep : Func.lowerArgument l argument = .ok s) :
    s.Holds (count + 1) := by
  obtain ⟨id, b', hb, rfl⟩ := Func.lowerArgument_eq_ok.mp hstep
  obtain ⟨-, -, rfl, rfl⟩ := Builder.parameter_eq_ok.mp hb
  exact h.append _ _

/-- **Every argument has a node** once they have been lowered. -/
theorem holds_of_lowerArguments {name : String} {arguments : List Shape}
    (h : arguments.zipIdx.foldlM Func.lowerArgument
      ⟨Builder.empty name, []⟩ = .ok l) : l.Holds arguments.length := by
  rw [← List.length_zipIdx]
  exact List.foldlM_invariant Holds ⟨rfl, List.forall_mem_nil _⟩
    (fun _ _ _ _ hl hstep => hl.argument hstep) h

/-- The node of an operation is added behind all others. -/
theorem exists_append_of_lowerValue {op : Operation} {id : Nat}
    {b' : Builder} (h : Func.lowerValue l op = .ok (id, b')) :
    ∃ nodeOp shape, id = l.builder.nodes.length
      ∧ b' = l.builder.append nodeOp shape := by
  obtain ⟨i, hi⟩ := Func.exists_operationInstruction h
  have hgraph : Graph.Entry.lowerValue ⟨"", none, none, [], 0⟩ l.asGraph i
      = .ok (some (id, b')) := (Func.lowerValue_asGraph hi).mpr h
  obtain ⟨-, nodeOp, shape, -, -, hid, hb⟩ :=
    Graph.Entry.implemented_of_lowerValue hgraph
  exact ⟨nodeOp, shape, hid, hb⟩

theorem Holds.operation {op : Operation} (h : l.Holds count)
    (hstep : Func.lowerOperation l op = .ok s) : s.Holds (count + 1) := by
  obtain ⟨id, b', hvalue, -, rfl⟩ := Func.lowerOperation_eq_ok.mp hstep
  obtain ⟨nodeOp, shape, rfl, rfl⟩ := exists_append_of_lowerValue hvalue
  exact h.append _ _

/-- **Every value has a node** once the operations have been lowered. -/
theorem Holds.operations {body : List Operation} (h : l.Holds count)
    (hbody : body.foldlM Func.lowerOperation l = .ok s) :
    s.Holds (count + body.length) :=
  List.foldlM_invariant (fun k s => s.Holds (count + k)) h
    (fun _ _ _ _ hs hstep => hs.operation hstep) hbody

end Lowering

/-! ## Nothing is missing -/

namespace Func

variable {f : Func} {l : Lowering} {op : Operation} {count : Nat}
  {error : LoweringError}

/-- A refusal of the builder is passed on as it is. -/
theorem not_dangling_of_mapError_build {α : Type}
    {made : Except BuildError α}
    (hmade : ∀ cause, made = .error cause → ¬cause.Dangling)
    (h : made.mapError LoweringError.build = .error error) :
    ¬error.Dangling := by
  obtain ⟨cause, hcause, rfl⟩ := Except.mapError_eq_error.mp h
  exact hmade cause hcause

theorem not_dangling_of_lowerArgument {argument : Shape × Nat}
    (h : lowerArgument l argument = .error error) : ¬error.Dangling := by
  rcases Except.bind_eq_error.mp h with h | ⟨_, -, h⟩
  · exact not_dangling_of_mapError_build
      (fun _ => Builder.not_dangling_of_parameter) h
  · cases h

/-- **An operand that an operation takes has a node.** -/
theorem exists_operandNode (hl : l.Holds count) (hop : op.Described count)
    {position : Nat} (hposition : position < op.operands.length) :
    ∃ id < l.builder.nodes.length,
      operandNode l.nodes op position = .ok id := by
  obtain ⟨id, hid, hnode⟩ := hl.exists_node
    (hop.operand_lt _ (List.getElem_mem hposition))
  exact ⟨id, hid, operandNode_eq_ok.mpr
    ⟨_, List.getElem?_eq_getElem hposition, hnode⟩⟩

/-- **Lowering an operation** finds all that the operation reads. -/
theorem not_dangling_of_lowerValue (hl : l.Holds count)
    (hop : op.Described count) (h : lowerValue l op = .error error) :
    ¬error.Dangling := by
  have hlength := hop.length_operands
  unfold lowerValue at h
  cases hkind : op.kind with
  | constant elements =>
    simp only [hkind] at h
    rcases Except.bind_eq_error.mp h with h | ⟨_, -, h⟩
    · obtain ⟨cause, -, rfl⟩ := Except.mapError_eq_error.mp h
      exact not_false
    · cases h
  | unary unary =>
    rw [hkind, OpKind.operandCount] at hlength
    obtain ⟨x, hx, hnode⟩ := exists_operandNode hl hop
      (show 0 < op.operands.length by omega)
    simp only [hkind, hnode, Except.ok_bind] at h
    exact not_dangling_of_mapError_build
      (fun _ => Builder.not_dangling_of_unary hx) h
  | binary binary =>
    rw [hkind, OpKind.operandCount] at hlength
    obtain ⟨x, hx, hfirst⟩ := exists_operandNode hl hop
      (show 0 < op.operands.length by omega)
    obtain ⟨y, hy, hsecond⟩ := exists_operandNode hl hop
      (show 1 < op.operands.length by omega)
    simp only [hkind, hfirst, hsecond, Except.ok_bind] at h
    exact not_dangling_of_mapError_build
      (fun _ => Builder.not_dangling_of_binary hx hy) h

/-- **One operation** is lowered or refused for what it is. -/
theorem not_dangling_of_lowerOperation (hl : l.Holds count)
    (hop : op.Described count) (h : lowerOperation l op = .error error) :
    ¬error.Dangling := by
  rcases Except.bind_eq_error.mp h with h | ⟨⟨id, b'⟩, hvalue, h⟩
  · exact not_dangling_of_lowerValue hl hop h
  obtain ⟨nodeOp, shape, rfl, rfl⟩ :=
    Lowering.exists_append_of_lowerValue hvalue
  rcases Except.bind_eq_error.mp h with h | ⟨_, -, h⟩
  · refine not_dangling_of_mapError_build
      (fun _ => Builder.not_dangling_of_expectShape ?_) h
    rw [Builder.append_nodes, List.length_append]
    exact Nat.lt_succ_self _
  · cases h

/-- **The output for a value that is there** is its node, if that has the
type declared. -/
theorem exists_outputNode_eq (hl : l.Holds count)
    {result : UInt32 × Shape} (hresult : result.1.toNat < count) :
    ∃ id < l.builder.nodes.length, f.outputNode l result
      = (l.builder.expectShape id result.2 "returned value").mapError .build
        >>= fun _ => pure id := by
  obtain ⟨id, hid, hnode⟩ := hl.exists_node hresult
  refine ⟨id, hid, ?_⟩
  unfold outputNode
  rw [hnode]

theorem not_dangling_of_outputNode (hl : l.Holds count)
    {result : UInt32 × Shape} (hresult : result.1.toNat < count)
    (h : f.outputNode l result = .error error) : ¬error.Dangling := by
  obtain ⟨id, hid, houtput⟩ := exists_outputNode_eq hl hresult
  rw [houtput] at h
  rcases Except.bind_eq_error.mp h with h | ⟨_, -, h⟩
  · exact not_dangling_of_mapError_build
      (fun _ => Builder.not_dangling_of_expectShape hid) h
  · cases h

theorem lt_of_outputNode (hl : l.Holds count)
    {result : UInt32 × Shape} (hresult : result.1.toNat < count) {id : Nat}
    (h : f.outputNode l result = .ok id) : id < l.builder.nodes.length := by
  obtain ⟨id', hid, houtput⟩ := exists_outputNode_eq hl hresult
  rw [houtput] at h
  obtain ⟨_, -, h⟩ := Except.bind_eq_ok.mp h
  rwa [← (Except.pure_eq_ok_iff _ _).mp h]

/-- **A function that can be written is refused only for what it is**, and
not because something in it is missing. -/
theorem Legible.not_dangling_of_toComputation (hf : f.Legible)
    (h : f.toComputation = .error error) : ¬error.Dangling := by
  rcases Except.bind_eq_error.mp h with h | ⟨start, hstart, h⟩
  · obtain ⟨_, _, _, -, h⟩ := List.exists_of_foldlM_eq_error
      (fun _ _ => True) trivial (fun _ _ _ _ _ _ => trivial) h
    exact not_dangling_of_lowerArgument h
  have harguments := Lowering.holds_of_lowerArguments hstart
  rcases Except.bind_eq_error.mp h with h | ⟨l, hl, h⟩
  · obtain ⟨k, hk, l, hl, h⟩ := List.exists_of_foldlM_eq_error
      (fun k l => l.Holds (f.arguments.length + k)) harguments
      (fun _ _ _ _ hl hstep => hl.operation hstep) h
    exact not_dangling_of_lowerOperation hl
      (hf.body k _ (List.getElem?_eq_getElem hk)).described h
  have hall := harguments.operations hl
  have hreturned : ∀ result ∈ f.returned.zip f.resultTypes,
      result.1.toNat < f.arguments.length + f.body.length :=
    fun _ hresult => (hf.returned _ (List.of_mem_zip hresult).1).toNat_lt
  split at h
  · cases h
    exact not_false
  rcases Except.bind_eq_error.mp h with h | ⟨outputs, houtputs, h⟩
  · obtain ⟨result, hresult, h⟩ := List.exists_of_mapM_eq_error h
    exact not_dangling_of_outputNode hall (hreturned result hresult) h
  · refine not_dangling_of_mapError_build
      (fun _ => Builder.not_dangling_of_build ?_) h
    intro id hid
    obtain ⟨result, hresult, hnode⟩ :=
      (List.mapM_eq_ok.mp houtputs).flip.exists_of_mem hid
    exact lt_of_outputNode hall (hreturned result hresult) hnode

end Func

namespace Module

/-- The function that is compiled is one of the program. -/
theorem mem_of_entry {m : Module} {f : Func} (h : m.entry = .ok f) :
    f ∈ m.functions := by
  unfold entry entry? lookup? at h
  split at h
  · rename_i found hfound
    cases h
    split at hfound
    · rename_i main hmain
      cases hfound
      exact List.mem_of_find?_eq_some hmain
    · split at hfound
      · rename_i only honly
        cases hfound
        rw [honly]
        exact List.mem_singleton_self _
      · cases hfound
  · cases h

theorem Legible.not_dangling_of_toComputation {m : Module}
    {error : LoweringError} (hm : m.Legible)
    (h : m.toComputation = .error error) : ¬error.Dangling := by
  rcases Except.bind_eq_error.mp h with h | ⟨f, hf, h⟩
  · unfold entry at h
    split at h
    · cases h
    · cases h
      exact not_false
  · exact (hm.functions f (mem_of_entry hf)).not_dangling_of_toComputation h

/-- **A text that is accepted gives a program in which every value is
defined once and before it is read.** In a function whose values can be
numbered, each operation defines the next value and reads earlier ones, as
many as it takes; a constant has an element, only values of the function are
returned, and all types have a size. So each value that is returned has a
type, and the line of the return is written with one type for each value.

The program has a computation unless something other than a missing operand,
value or node speaks against it. For this its values need not have numbers
of their own. -/
theorem singleAssignment_of_parse {text : String} {m : Module}
    (h : parse text = .ok m) :
    (∀ f ∈ m.functions, f.arguments.length + f.body.length < 2 ^ 32 →
      f.WellFormed
      ∧ (∀ value ∈ f.returned, (f.valueType? value).isSome)
      ∧ ∃ types : List Shape, types.length = f.returned.length
        ∧ f.returned.map f.valueType? = types.map some
        ∧ f.renderReturn = if f.returned.isEmpty then "    return\n"
          else "    return " ++ renderValues f.returned ++ " : "
            ++ renderTypes types ++ "\n")
    ∧ ∀ error, m.toComputation = .error error → ¬error.Dangling := by
  have hlegible := legible_of_parse h
  refine ⟨fun f hf hcount => ?_,
    fun error => hlegible.not_dangling_of_toComputation⟩
  have hwell := (hlegible.functions f hf).wellFormed hcount
  have htypes := List.map_eq_map_some_filterMap hwell.isSome_valueType?
  refine ⟨hwell, hwell.isSome_valueType?, _, ?_, htypes, rfl⟩
  exact Func.length_returnTypes (hlegible.functions f hf) hcount

/-- A program in which a triple is negated, and too much is returned. -/
def negatedTriple : Module :=
  ⟨none, [⟨"main", [⟨.s32, [2]⟩], [⟨.s32, [2]⟩],
    [⟨"mhlo.constant", .constant [.int 3], [], 1, ⟨.s32, [2]⟩⟩,
      ⟨"mhlo.multiply", .binary .multiply, [0, 1], 2, ⟨.s32, [2]⟩⟩,
      ⟨"mhlo.negate", .unary .negate, [2], 3, ⟨.s32, [2]⟩⟩], [3, 0]⟩]⟩

/-- The program as it may be written by hand. -/
def negatedTripleText : String :=
  "func.func @main(%x: tensor<2xi32>) -> tensor<2xi32> \x7b\n"
    ++ "  %c = mhlo.constant dense<3> : tensor<2xi32>\n"
    ++ "  %s = mhlo.multiply %x, %c : tensor<2xi32>\n"
    ++ "  %n = mhlo.negate %s : tensor<2xi32>\n"
    ++ "  return %n, %x : tensor<2xi32>, tensor<2xi32>\n\x7d"

/-- The program has no computation, but all it refers to is there. -/
theorem negatedTriple_singleAssignment :
    parse negatedTripleText = .ok negatedTriple
      ∧ (∀ f ∈ negatedTriple.functions, f.WellFormed
        ∧ ∀ value ∈ f.returned, (f.valueType? value).isSome)
      ∧ negatedTriple.toComputation = .error (.resultCount "main" 2 1)
      ∧ ¬(LoweringError.resultCount "main" 2 1).Dangling := by
  have hm : parse negatedTripleText = .ok negatedTriple := by
    decide +kernel
  have herror : negatedTriple.toComputation
      = .error (.resultCount "main" 2 1) := by
    decide +kernel
  obtain ⟨hfunctions, hdangling⟩ := singleAssignment_of_parse hm
  refine ⟨hm, fun f hf => ?_, herror, hdangling _ herror⟩
  obtain ⟨hwell, htypes, -⟩ := hfunctions f hf (by
    rw [List.mem_singleton.mp hf]
    decide)
  exact ⟨hwell, htypes⟩

end Module

end TensorBind.Structured
