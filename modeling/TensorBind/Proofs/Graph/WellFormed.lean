import TensorBind.Proofs.Graph.Lowering
import TensorBind.Proofs.Graph.RoundTrip

/-!
# Graph programs that were read are well-formed

What a reader of graph programs checks piece by piece, while it goes
through a text, adds up to a computation that can be relied on as a whole
(`Entry.WellFormed`). Each instruction has a name of its own, refers to
earlier ones only and has as many operands as it takes, every shape has a
size, and there is a root.

Nothing in such a program refers to something that is not there. So its
text never calls an operand undefined, since it is made of names and of
marks that the word for it does not have (`isProgramText_renderModule`).
And when it is lowered to a computation, this never fails because an
operand, an instruction, a node or the root is missing
(`Entry.WellFormed.not_dangling_of_toComputation`).
-/

namespace TensorBind

/-! ## Causes that blame what is missing -/

/-- **A cause that blames a node that is not there.** -/
def BuildError.Dangling : BuildError → Prop
  | .missingNode .. => True
  | .missingOutput .. => True
  | _ => False

namespace Builder

variable {b : Builder} {cause : BuildError} {x y id : Nat}

theorem operandShape_of_lt (h : x < b.nodes.length) :
    b.operandShape x = .ok b.nodes[x].shape := by
  rw [operandShape_eq_ok, List.getElem?_eq_getElem h, Option.map_some]

theorem not_dangling_of_parameter {number : Nat} {shape : Shape}
    (h : b.parameter number shape = .error cause) : ¬cause.Dangling := by
  unfold parameter at h
  split at h
  · cases h
    exact not_false
  · split at h
    · cases h
      exact not_false
    · cases h

theorem not_dangling_of_unary {op : UnaryOp} (hx : x < b.nodes.length)
    (h : b.unary op x = .error cause) : ¬cause.Dangling := by
  rw [unary, operandShape_of_lt hx, Except.ok_bind] at h
  split at h
  · cases h
  · cases h
    exact not_false

theorem not_dangling_of_binary {op : BinaryOp} (hx : x < b.nodes.length)
    (hy : y < b.nodes.length) (h : b.binary op x y = .error cause) :
    ¬cause.Dangling := by
  rw [binary, operandShape_of_lt hx, Except.ok_bind, operandShape_of_lt hy,
    Except.ok_bind] at h
  split at h
  · cases h
    exact not_false
  · split at h
    · cases h
    · cases h
      exact not_false

theorem not_dangling_of_expectShape {declared : Shape} {what : String}
    (hid : id < b.nodes.length)
    (h : b.expectShape id declared what = .error cause) :
    ¬cause.Dangling := by
  rw [expectShape, operandShape_of_lt hid, Except.ok_bind] at h
  split at h
  · cases h
  · cases h
    exact not_false

theorem not_dangling_of_parametersFrom {number count : Nat}
    (h : b.parametersFrom number count = .error cause) :
    ¬cause.Dangling := by
  induction count generalizing number with
  | zero => cases h
  | succ count ih =>
    rw [parametersFrom] at h
    split at h
    · rcases Except.bind_eq_error.mp h with h | ⟨_, -, h⟩
      · exact ih h
      · cases h
    · cases h
      exact not_false

/-- **A computation whose outputs are nodes** may lack outputs or a
parameter, but no node. -/
theorem not_dangling_of_build {outputs : List Nat}
    (hlt : ∀ id ∈ outputs, id < b.nodes.length)
    (h : b.build outputs = .error cause) : ¬cause.Dangling := by
  unfold build at h
  split at h
  · cases h
    exact not_false
  · split at h
    · rename_i id hfind
      have hle : b.nodes.length ≤ id := by
        simpa using List.find?_some hfind
      have := hlt id (List.mem_of_find?_eq_some hfind)
      omega
    · rcases Except.bind_eq_error.mp h with h | ⟨_, -, h⟩
      · exact not_dangling_of_parametersFrom h
      · cases h

end Builder

namespace Graph

/-- **A cause that blames something that is not there**: an operand, an
instruction, the root or a node. -/
def LoweringError.Dangling : LoweringError → Prop
  | .missingOperand .. => True
  | .usedBeforeDefined .. => True
  | .rootOutOfRange .. => True
  | .build cause => cause.Dangling
  | _ => False

/-! ## Well-formed computations -/

/-- How many operands an instruction has, where that is fixed. -/
def Opcode.operandCount? : Opcode → Option Nat
  | .parameter _ => some 0
  | .constant _ => some 0
  | .unary _ => some 1
  | .binary _ => some 2
  | .tuple => none

/-- The shape of a constant. -/
def Opcode.literalShape? : Opcode → Option Shape
  | .constant value => some value.shape
  | _ => none

/-- **All shapes of a computation**: those of its header, those its
instructions are declared with and those of its constants. -/
def Entry.shapes (e : Entry) : List Shape :=
  (e.signature.getD []).map Prod.snd
    ++ e.resultShape.toList.flatMap DeclaredShape.arrays
    ++ e.instructions.flatMap (fun i => i.shape.arrays)
    ++ e.instructions.filterMap (fun i => i.opcode.literalShape?)

/-- **A well-formed computation** of the graph form. -/
structure Entry.WellFormed (e : Entry) : Prop where
  /-- There is an instruction. -/
  instructions_ne_nil : e.instructions ≠ []
  /-- The root is one of them. -/
  root_lt : e.root < e.instructions.length
  /-- No two have the same name. -/
  nodup_names : (e.instructions.map Instruction.name).Nodup
  /-- Operands stand before their readers. -/
  operand_lt : ∀ {k : Nat} {i : Instruction},
    e.instructions[k]? = some i → ∀ operand ∈ i.operands, operand < k
  /-- An instruction has as many operands as it takes. -/
  length_operands : ∀ {i : Instruction} {n : Nat}, i ∈ e.instructions →
    i.opcode.operandCount? = some n → i.operands.length = n
  /-- A constant has the array shape it is declared with. -/
  constant_shape : ∀ {i : Instruction} {value : Literal},
    i ∈ e.instructions → i.opcode = .constant value →
    i.shape = .array value.shape
  /-- No dimension is negative, and every shape has a size. -/
  sized : ∀ shape ∈ e.shapes,
    (∀ d ∈ shape.dims, 0 ≤ d) ∧ shape.checkedByteSize.isSome
  /-- A header has parameters and a result. -/
  header : e.signature.isSome = e.resultShape.isSome

variable {e : Entry} {i : Instruction}

/-- Parameters and constants are not among the operations with operands. -/
theorem operandCount?_of_opcodeOfName? {opcode : Opcode} {name : String}
    (h : opcodeOfName? name = some opcode) :
    opcode.operandCount? = arity? opcode := by
  unfold opcodeOfName? at h
  split at h
  · cases h
    rfl
  · split at h
    · cases h
      rfl
    · obtain ⟨op, -, rfl⟩ := Option.map_eq_some_iff.mp h
      rfl

theorem Instruction.Described.length_operands (h : i.Described) {n : Nat}
    (hn : i.opcode.operandCount? = some n) : i.operands.length = n := by
  cases h with
  | parameter number hopcode hoperands =>
    rw [hopcode] at hn
    cases hn
    rw [hoperands, List.length_nil]
  | constant value hopcode hoperands =>
    rw [hopcode] at hn
    cases hn
    rw [hoperands, List.length_nil]
  | operation hopcode harity =>
    rw [operandCount?_of_opcodeOfName? hopcode] at hn
    exact harity n hn

/-- No name of an operation is that of a constant. -/
theorem opcodeOfName?_ne_constant (name : String) (value : Literal) :
    opcodeOfName? name ≠ some (.constant value) := by
  unfold opcodeOfName?
  split
  · simp
  · split <;> simp

theorem Instruction.Described.constant_shape (h : i.Described)
    {value : Literal} (hvalue : i.opcode = .constant value) :
    i.shape = .array value.shape := by
  cases h with
  | parameter number hopcode =>
    rw [hopcode] at hvalue
    cases hvalue
  | constant value' hopcode _ hshape =>
    rw [hopcode] at hvalue
    cases hvalue
    exact hshape
  | operation hopcode =>
    rw [hvalue] at hopcode
    exact absurd hopcode (opcodeOfName?_ne_constant _ value)

theorem AreLegible.nodup_names {instructions : List Instruction}
    (h : AreLegible instructions) :
    (instructions.map Instruction.name).Nodup := by
  refine List.pairwise_map.mpr (List.pairwise_iff_getElem.mpr ?_)
  intro j k hj hk hjk
  refine (h k _ (List.getElem?_eq_getElem hk)).fresh _ ?_
  exact List.mem_take_iff_getElem.mpr ⟨j, by omega, rfl⟩

namespace Entry

theorem Legible.legible_of_mem (h : e.Legible) (hi : i ∈ e.instructions) :
    ∃ earlier, i.Legible earlier := by
  obtain ⟨k, hk⟩ := List.mem_iff_getElem?.mp hi
  exact ⟨_, h.instructions k i hk⟩

/-- All shapes of a computation that can be written have a size. -/
theorem Legible.sized (h : e.Legible) :
    ∀ shape ∈ e.shapes, shape.checkedByteSize.isSome := by
  have hdeclared : ∀ {i}, i ∈ e.instructions → i.shape.Sized := by
    intro i hi
    obtain ⟨earlier, hlegible⟩ := h.legible_of_mem hi
    exact hlegible.shape
  unfold shapes
  rw [List.forall_mem_append, List.forall_mem_append,
    List.forall_mem_append]
  refine ⟨⟨⟨?_, ?_⟩, ?_⟩, ?_⟩
  · rw [List.forall_mem_map]
    intro parameter hparameter
    cases hsignature : e.signature with
    | none =>
      rw [hsignature] at hparameter
      cases hparameter
    | some parameters =>
      rw [hsignature] at hparameter
      exact (h.signature parameters hsignature parameter hparameter).2
  · intro shape hshape
    obtain ⟨result, hresult, hshape⟩ := List.mem_flatMap.mp hshape
    exact h.resultShape result (Option.mem_toList.mp hresult) shape hshape
  · intro shape hshape
    obtain ⟨i, hi, hshape⟩ := List.mem_flatMap.mp hshape
    exact hdeclared hi shape hshape
  · intro shape hshape
    obtain ⟨i, hi, hliteral⟩ := List.mem_filterMap.mp hshape
    obtain ⟨earlier, hlegible⟩ := h.legible_of_mem hi
    cases hopcode : i.opcode with
    | constant value =>
      rw [hopcode] at hliteral
      cases hliteral
      have hsized := hdeclared hi
      rw [hlegible.described.constant_shape hopcode] at hsized
      exact hsized value.shape List.mem_cons_self
    | _ =>
      rw [hopcode] at hliteral
      cases hliteral

/-- **A computation that can be written is well-formed.** -/
theorem Legible.wellFormed (h : e.Legible) : e.WellFormed where
  instructions_ne_nil := List.ne_nil_of_length_pos
    (Nat.lt_of_le_of_lt (Nat.zero_le _) h.root_lt)
  root_lt := h.root_lt
  nodup_names := h.instructions.nodup_names
  operand_lt := by
    intro k i hi operand hoperand
    have hlt := (h.instructions k i hi).operand_lt operand hoperand
    exact Nat.lt_of_lt_of_le hlt (List.length_take_le _ _)
  length_operands := by
    intro i n hi hn
    obtain ⟨earlier, hlegible⟩ := h.legible_of_mem hi
    exact hlegible.described.length_operands hn
  constant_shape := by
    intro i value hi hvalue
    obtain ⟨earlier, hlegible⟩ := h.legible_of_mem hi
    exact hlegible.described.constant_shape hvalue
  sized := by
    intro shape hshape
    have hsize := h.sized shape hshape
    exact ⟨fun d hd => Int64.not_lt.mp
      (Shape.nonneg_of_checkedByteSize hsize d hd), hsize⟩
  header := h.header.symm

end Entry

/-! ## Nothing is missing -/

/-- The node of an instruction has been added. -/
theorem Lowering.Sound.node_lt {l : Lowering} {k position id : Nat}
    (h : l.Sound e k) (hk : k ≤ e.instructions.length)
    (hid : l.nodes[position]? = some (some id)) :
    id < l.builder.nodes.length := by
  have hlt := (List.getElem?_eq_some_iff.mp hid).1
  rw [h.length_eq] at hlt
  obtain ⟨node, hnode, -⟩ := h.implemented
    (List.getElem?_eq_getElem (Nat.lt_of_lt_of_le hlt hk)) hid
  exact (List.getElem?_eq_some_iff.mp hnode).1

namespace Entry

variable {l : Lowering} {error : LoweringError} {k position id : Nat}

/-- An operand that is there and stands before can only be a tuple. -/
theorem not_dangling_of_operandNode {nodes : List (Option Nat)}
    (hposition : position < i.operands.length)
    (hlt : ∀ operand ∈ i.operands, operand < nodes.length)
    (h : e.operandNode nodes i position = .error error) :
    ¬error.Dangling := by
  have hnode := hlt _ (List.getElem_mem hposition)
  unfold operandNode at h
  rw [List.getElem?_eq_getElem hposition] at h
  dsimp only at h
  rw [List.getElem?_eq_getElem hnode] at h
  cases hfound : nodes[i.operands[position]] with
  | none =>
    rw [hfound] at h
    cases h
    exact not_false
  | some id =>
    rw [hfound] at h
    cases h

/-- **Lowering an instruction** finds all that the instruction refers
to. -/
theorem WellFormed.not_dangling_of_lowerValue (he : e.WellFormed)
    (hl : l.Sound e k) (hi : e.instructions[k]? = some i)
    (h : e.lowerValue l i = .error error) : ¬error.Dangling := by
  have hk := Nat.le_of_lt (List.getElem?_eq_some_iff.mp hi).1
  have hmem := List.mem_of_getElem? hi
  have hlt : ∀ operand ∈ i.operands, operand < l.nodes.length := by
    rw [hl.length_eq]
    exact he.operand_lt hi
  have hnode : ∀ {position x}, e.operandNode l.nodes i position = .ok x →
      x < l.builder.nodes.length := by
    intro position x hx
    obtain ⟨operand, -, hfound⟩ := operandNode_eq_ok.mp hx
    exact hl.node_lt hk hfound
  -- a refusal of the builder is passed on as it is
  have hbuild : ∀ {made : Except BuildError (Nat × Builder)},
      (∀ cause, made = .error cause → ¬cause.Dangling) →
      (do return some (← made.mapError LoweringError.build))
        = (.error error : Except LoweringError (Option (Nat × Builder))) →
      ¬error.Dangling := by
    intro made hmade herror
    rcases Except.bind_eq_error.mp herror with herror | ⟨_, -, herror⟩
    · obtain ⟨cause, hcause, rfl⟩ := Except.mapError_eq_error.mp herror
      exact hmade cause hcause
    · cases herror
  unfold lowerValue at h
  cases hop : i.opcode with
  | tuple =>
    rw [hop] at h
    cases h
  | parameter number =>
    simp only [hop] at h
    rcases Except.bind_eq_error.mp h with h | ⟨shape, -, h⟩
    · unfold parameterShape at h
      split at h
      · cases h
      · cases h
        exact not_false
    · exact hbuild (fun _ => Builder.not_dangling_of_parameter) h
  | constant value =>
    simp only [hop] at h
    cases h
  | unary op =>
    have hlength : i.operands.length = 1 :=
      he.length_operands hmem (by rw [hop]; rfl)
    simp only [hop] at h
    rcases Except.bind_eq_error.mp h with h | ⟨x, hx, h⟩
    · exact not_dangling_of_operandNode (by omega) hlt h
    · exact hbuild (fun _ => Builder.not_dangling_of_unary (hnode hx)) h
  | binary op =>
    have hlength : i.operands.length = 2 :=
      he.length_operands hmem (by rw [hop]; rfl)
    simp only [hop] at h
    rcases Except.bind_eq_error.mp h with h | ⟨x, hx, h⟩
    · exact not_dangling_of_operandNode (by omega) hlt h
    rcases Except.bind_eq_error.mp h with h | ⟨y, hy, h⟩
    · exact not_dangling_of_operandNode (by omega) hlt h
    · exact hbuild
        (fun _ => Builder.not_dangling_of_binary (hnode hx) (hnode hy)) h

/-- **One instruction** is lowered or refused for what it is. -/
theorem WellFormed.not_dangling_of_lowerInstruction (he : e.WellFormed)
    (hl : l.Sound e k) (hi : e.instructions[k]? = some i)
    (h : e.lowerInstruction l (i, k) = .error error) :
    ¬error.Dangling := by
  unfold lowerInstruction at h
  dsimp only at h
  split at h
  · cases h
    exact not_false
  rcases Except.bind_eq_error.mp h with h | ⟨_ | ⟨id, b⟩, hvalue, h⟩
  · exact he.not_dangling_of_lowerValue hl hi h
  · cases h
  obtain ⟨-, op, shape, -, -, rfl, rfl⟩ := implemented_of_lowerValue hvalue
  rcases Except.bind_eq_error.mp h with h | ⟨_, -, h⟩
  · unfold checkDeclared at h
    split at h
    · obtain ⟨cause, hcause, rfl⟩ := Except.mapError_eq_error.mp h
      exact Builder.not_dangling_of_expectShape (by simp) hcause
    · cases h
  · cases h

theorem not_dangling_of_addParameter {b : Builder}
    {parameter : (String × Shape) × Nat}
    (h : addParameter b parameter = .error error) : ¬error.Dangling := by
  unfold addParameter at h
  split at h
  · cases h
  · rcases Except.bind_eq_error.mp h with h | ⟨_, -, h⟩
    · obtain ⟨cause, hcause, rfl⟩ := Except.mapError_eq_error.mp h
      exact Builder.not_dangling_of_parameter hcause
    · cases h

theorem WellFormed.not_dangling_of_outputNodes (he : e.WellFormed)
    {nodes : List (Option Nat)}
    (h : e.outputNodes nodes = .error error) : ¬error.Dangling := by
  unfold outputNodes rootInstruction? at h
  rw [List.getElem?_eq_getElem he.root_lt] at h
  dsimp only at h
  split at h
  · obtain ⟨operand, -, h⟩ := List.exists_of_mapM_eq_error h
    split at h
    · cases h
    · cases h
      exact not_false
  · split at h
    · cases h
    · cases h
      exact not_false

/-- The outputs are nodes that have been added. -/
theorem output_lt (hl : l.Sound e e.instructions.length)
    {outputs : List Nat} (h : e.outputNodes l.nodes = .ok outputs) :
    ∀ id ∈ outputs, id < l.builder.nodes.length := by
  obtain ⟨root, -, ⟨-, houtputs⟩ | ⟨-, id, hid, rfl⟩⟩ :=
    outputNodes_eq_ok.mp h
  · intro id hid
    obtain ⟨operand, -, hfound⟩ := houtputs.flip.exists_of_mem hid
    exact hl.node_lt (Nat.le_refl _) (Option.join_eq_some_iff.mp hfound)
  · rw [List.forall_mem_singleton]
    exact hl.node_lt (Nat.le_refl _) (Option.join_eq_some_iff.mp hid)

/-- **A well-formed computation is refused only for what it is**, and not
because something in it is missing. -/
theorem WellFormed.not_dangling_of_toComputation (he : e.WellFormed)
    (h : e.toComputation = .error error) : ¬error.Dangling := by
  rcases Except.bind_eq_error.mp h with h | ⟨l, hl, h⟩
  · obtain ⟨k, hk, l, hl, h⟩ := List.exists_of_foldlM_eq_error
      (fun k l => Lowering.Sound e k l) (Lowering.sound_start e)
      (fun _ hk _ _ hl hstep => hl.step_zipIdx hk hstep) h
    rw [List.length_zipIdx] at hk
    rw [List.getElem_zipIdx, Nat.zero_add] at h
    exact he.not_dangling_of_lowerInstruction hl
      (List.getElem?_eq_getElem hk) h
  have hsound := Lowering.sound_of_foldlM hl
  rcases Except.bind_eq_error.mp h with h | ⟨builder, hbuilder, h⟩
  · obtain ⟨_, _, _, -, h⟩ := List.exists_of_foldlM_eq_error
      (fun _ _ => True) trivial (fun _ _ _ _ _ _ => trivial) h
    exact not_dangling_of_addParameter h
  rcases Except.bind_eq_error.mp h with h | ⟨outputs, houtputs, h⟩
  · exact he.not_dangling_of_outputNodes h
  rcases Except.bind_eq_error.mp h with h | ⟨c, -, h⟩
  · obtain ⟨cause, hcause, rfl⟩ := Except.mapError_eq_error.mp h
    have hprefix := (prefix_of_addParameters hbuilder).2
    exact Builder.not_dangling_of_build (fun id hid => Nat.lt_of_lt_of_le
      (output_lt hsound houtputs id hid) hprefix.length_le) hcause
  rcases Except.bind_eq_error.mp h with h | ⟨_, -, h⟩
  · unfold checkParameters at h
    split at h
    · cases h
    · split at h
      · cases h
      · cases h
        exact not_false
  rcases Except.bind_eq_error.mp h with h | ⟨_, -, h⟩
  · unfold checkResult at h
    split at h
    · cases h
    · split at h
      · cases h
      · cases h
        exact not_false
  · cases h

end Entry

namespace Module

/-- **A text that is accepted gives a well-formed program.** There are
instructions, with names of their own, one of them the root; operands stand
before their readers, and there are as many as an instruction takes; a
constant has the shape it is declared with, all shapes have a size, and a
header is whole or missing.

So every operand is written as the name of an instruction and none as
undefined, and the program has a computation unless something other than a
missing operand, instruction, root or node speaks against it. -/
theorem wellFormed_of_parse {text : String} {m : Module}
    (h : parse text = .ok m) :
    m.entry.WellFormed
    ∧ (∀ i ∈ m.entry.instructions, ∀ operand ∈ i.operands,
      ∃ named, m.entry.instructions[operand]? = some named
        ∧ m.entry.operandName operand = named.name)
    ∧ ¬"<undefined>".toList <:+: m.render.toList
    ∧ ∀ error, m.toComputation = .error error → ¬error.Dangling := by
  have hlegible := legible_of_parse h
  have he := hlegible.entry.wellFormed
  refine ⟨he, ?_, ?_, ?_⟩
  · intro i hi operand hoperand
    obtain ⟨k, hk⟩ := List.mem_iff_getElem?.mp hi
    have hlt := Nat.lt_trans (he.operand_lt hk operand hoperand)
      (List.getElem?_eq_some_iff.mp hk).1
    have hnamed := List.getElem?_eq_getElem hlt
    exact ⟨_, hnamed, by rw [Entry.operandName, hnamed]⟩
  · intro hinfix
    have hmark : '<' ∈ m.render.toList := hinfix.subset (by decide)
    have hwritten := isProgramText_renderModule hlegible '<' hmark
    exact absurd hwritten (by decide)
  · exact fun error => he.not_dangling_of_toComputation

/-- The values of a constant. -/
def offsets : List (ElementType.Value .s32) := ([1, -2] : List Int32)

/-- A program in which a pair is negated. -/
def negatedPair : Module :=
  ⟨"m", ⟨"main", some [("x", ⟨.s32, [2]⟩)], some (.array ⟨.s32, [2]⟩),
    [⟨"x", .array ⟨.s32, [2]⟩, .parameter 0, []⟩,
      ⟨"c", .array ⟨.s32, [2]⟩, .constant (.vector .s32 offsets), []⟩,
      ⟨"y", .array ⟨.s32, [2]⟩, .binary .add, [0, 1]⟩,
      ⟨"t", .tuple [⟨.s32, [2]⟩, ⟨.s32, [2]⟩], .tuple, [2, 0]⟩,
      ⟨"r", .array ⟨.s32, [2]⟩, .unary .negate, [3]⟩], 4⟩⟩

/-- The program as it may be written by hand. -/
def negatedPairText : String :=
  "HloModule m\n\nENTRY %main(x: s32[2]) -> s32[2] \x7b\n"
    ++ "  %x = s32[2]\x7b0\x7d parameter(0)\n"
    ++ "  c = s32[2] constant(\x7b1, -2\x7d), metadata=none\n"
    ++ "  y = s32[2] add(s32[2] %x, c)\n"
    ++ "  t = (s32[2], s32[2]) tuple(y, x)\n"
    ++ "  ROOT r = s32[2] negate(t)\n\x7d"

/-- The program has no computation, but all it refers to is there. -/
theorem negatedPair_wellFormed :
    parse negatedPairText = .ok negatedPair
      ∧ negatedPair.entry.WellFormed
      ∧ negatedPair.entry.operandName 3 = "t"
      ∧ ¬"<undefined>".toList <:+: negatedPair.render.toList
      ∧ negatedPair.toComputation = .error (.tupleNotRoot "t")
      ∧ ¬(LoweringError.tupleNotRoot "t").Dangling := by
  have hm : parse negatedPairText = .ok negatedPair := by decide +kernel
  have herror : negatedPair.toComputation = .error (.tupleNotRoot "t") := by
    decide +kernel
  obtain ⟨he, hoperands, hundefined, hdangling⟩ := wellFormed_of_parse hm
  refine ⟨hm, he, ?_, hundefined, herror, hdangling _ herror⟩
  obtain ⟨named, hnamed, hname⟩ := hoperands
    ⟨"r", .array ⟨.s32, [2]⟩, .unary .negate, [3]⟩ (by decide) 3 (by decide)
  cases hnamed
  exact hname

end Module

end Graph

end TensorBind
