import TensorBind.Proofs.Graph.Reading
import TensorBind.Proofs.Number.Reading

/-!
# Graph programs that can be written

A program that was read from a text has names that are names, shapes that
have a size, and instructions that do what their opcodes say, each under a
name of its own (`Module.Legible`). The reader has checked all of it and it
is what makes the text of the program readable again, where it is.
-/

namespace TensorBind.Graph

open TensorBind.Parser

/-- **A declared shape whose arrays have a size.** -/
def DeclaredShape.Sized (s : DeclaredShape) : Prop :=
  ∀ shape ∈ s.arrays, shape.checkedByteSize.isSome

/-- **What an instruction does fits how it is declared.** -/
inductive Instruction.Described (i : Instruction) : Prop where
  /-- A parameter whose number is a word. -/
  | parameter (number : Nat) (opcode : i.opcode = .parameter number)
    (operands : i.operands = []) (fits : number < 2 ^ 64)
  /-- A constant of the declared shape. -/
  | constant (value : Literal) (opcode : i.opcode = .constant value)
    (operands : i.operands = []) (shape : i.shape = .array value.shape)
    (size : value.shape.literalByteSize.isSome)
  /-- An operation on as many operands as it takes. -/
  | operation (opcode : opcodeOfName? i.opcode.name = some i.opcode)
    (arity : ∀ n, arity? i.opcode = some n → i.operands.length = n)

/-- **An instruction that can be written** behind those before it. -/
structure Instruction.Legible (earlier : List Instruction)
    (i : Instruction) : Prop where
  /-- It has a name. -/
  name : IsName i.name
  /-- No instruction before it has this name. -/
  fresh : ∀ j ∈ earlier, j.name ≠ i.name
  /-- Its shape has a size. -/
  shape : i.shape.Sized
  /-- What it does fits how it is declared. -/
  described : i.Described
  /-- Its operands stand before it. -/
  operand_lt : ∀ operand ∈ i.operands, operand < earlier.length

/-- Instructions that can be written one behind the other. -/
def AreLegible (instructions : List Instruction) : Prop :=
  ∀ (position : Nat) (i : Instruction), instructions[position]? = some i →
    i.Legible (instructions.take position)

theorem AreLegible.take {instructions : List Instruction}
    (h : AreLegible instructions) (count : Nat) :
    AreLegible (instructions.take count) := by
  intro position i hi
  have hlt : position < count := Nat.lt_of_lt_of_le
    (List.getElem?_eq_some_iff.mp hi).1 (List.length_take_le _ _)
  rw [List.getElem?_take_of_lt hlt] at hi
  rw [List.take_take, Nat.min_eq_left (Nat.le_of_lt hlt)]
  exact h position i hi

theorem AreLegible.append {instructions : List Instruction}
    {i : Instruction} (h : AreLegible instructions)
    (hi : i.Legible instructions) : AreLegible (instructions ++ [i]) := by
  intro position j hj
  obtain hj | ⟨rfl, rfl⟩ := List.getElem?_concat_eq_some.mp hj
  · have hlt := (List.getElem?_eq_some_iff.mp hj).1
    rw [List.take_append_of_le_length (Nat.le_of_lt hlt)]
    exact h position j hj
  · rwa [List.take_left]

/-- **A computation that can be written**, with a header or without. -/
structure Entry.Legible (e : Entry) : Prop where
  /-- It has a name. -/
  name : IsName e.name
  /-- The parameters of its header have names and shapes. -/
  signature : ∀ parameters ∈ e.signature, ∀ parameter ∈ parameters,
    IsName parameter.1 ∧ parameter.2.checkedByteSize.isSome
  /-- The result of its header has a shape. -/
  resultShape : ∀ result ∈ e.resultShape, result.Sized
  /-- A header has parameters and a result. -/
  header : e.resultShape.isSome = e.signature.isSome
  /-- Its instructions can be written. -/
  instructions : AreLegible e.instructions
  /-- The root is one of its instructions. -/
  root_lt : e.root < e.instructions.length

/-- **A program that can be written.** -/
structure Module.Legible (m : Module) : Prop where
  /-- It has a name. -/
  name : IsName m.name
  /-- Its computation can be written. -/
  entry : m.entry.Legible

/-! ## Names and shapes -/

theorem readName_yields : Yields readName IsName := by
  refine Yields.after fun _ => Yields.after fun next => ?_
  exact Yields.ite (fun _ => Yields.after fun _ => word_yields)
    fun _ => word_yields

theorem readArrayShape_yields :
    Yields readArrayShape fun shape => shape.checkedByteSize.isSome := by
  unfold readArrayShape
  refine Yields.after fun name => ?_
  split
  · exact Yields.fail
  · refine Yields.after fun _ => Yields.after fun dims =>
      Yields.after fun _ => ?_
    refine Yields.ite (fun _ => Yields.fail) fun hsize => Yields.pure ?_
    rwa [Bool.not_eq_true, Option.isNone_eq_false_iff] at hsize

/-- **Shapes that were read have a size**, to any depth. -/
theorem readShapeWithin_yields (depth : Nat) :
    Yields (readShapeWithin depth) DeclaredShape.Sized := by
  induction depth with
  | zero =>
    intro c a next h
    cases h
  | succ depth ih =>
    unfold readShapeWithin
    refine Yields.after fun isTuple => Yields.ite (fun _ => ?_) fun _ => ?_
    · refine Yields.bind (listUntil_yields (ih.bind fun shape hshape => ?_))
        fun shapes (hshapes : ∀ s ∈ shapes, s.checkedByteSize.isSome) =>
          Yields.pure hshapes
      split
      · exact Yields.pure (hshape _ List.mem_cons_self)
      · exact Yields.fail
    · exact readArrayShape_yields.bind fun shape hshape =>
        Yields.pure (List.forall_mem_singleton.mpr hshape)

theorem readShape_yields : Yields readShape DeclaredShape.Sized :=
  fun c => readShapeWithin_yields (c.rest.length + 1) c

/-! ## Instructions -/

/-- Elements are read one from each token. -/
theorem length_readValues {t : ElementType} {tokens : List (List Char)}
    {values : List t.Value} (h : readValues t tokens = .ok values) :
    values.length = tokens.length := by
  induction tokens generalizing values with
  | nil =>
    cases h
    rfl
  | cons token tokens ih =>
    unfold readValues at h
    split at h
    · cases h
    · obtain ⟨rest, hrest, rfl⟩ := Except.map_eq_ok.mp h
      rw [List.length_cons, List.length_cons, ih hrest]

/-- **Elements that were read are laid out without fail**: there are as many
as the shape holds, and it may be materialized. -/
theorem ofElements_of_readValues {shape : Shape}
    {tokens : List (List Char)} {values : List shape.elementType.Value}
    (hsize : shape.literalByteSize.isSome)
    (hcount : ¬tokens.length ≠ shape.elementCount)
    (h : readValues shape.elementType tokens = .ok values) :
    ∃ hlength hfits, Literal.ofElements shape ⟨shape.elementType, values⟩
      = .ok ⟨shape, values, hlength, hfits⟩ := by
  have hlength : values.length = shape.elementCount :=
    (length_readValues h).trans (Decidable.not_not.mp hcount)
  exact ⟨hlength, Literal.ofElements_of_literalByteSize hsize hlength⟩

/-- A constant has the shape it is read with. -/
theorem readLiteral_yields_shape (shape : Shape) :
    Yields (readLiteral shape) fun value => value.shape = shape
      ∧ value.shape.literalByteSize.isSome := by
  unfold readLiteral
  refine Yields.after fun tokens => ?_
  refine Yields.ite (fun _ => Yields.fail) fun hsize => ?_
  refine Yields.ite (fun _ => Yields.fail) fun hcount => ?_
  split
  · exact Yields.fail
  · rename_i values hvalues
    rw [Bool.not_eq_true, Option.isNone_eq_false_iff] at hsize
    obtain ⟨hlength, hfits, hlaid⟩ :=
      ofElements_of_readValues hsize hcount hvalues
    simp only [hlaid]
    exact Yields.pure ⟨rfl, hsize⟩

/-- **An operation is found under its own name.** -/
theorem opcodeOfName?_name {name : String} {opcode : Opcode}
    (h : opcodeOfName? name = some opcode) : opcode.name = name := by
  unfold opcodeOfName? at h
  split at h
  · rename_i htuple
    cases h
    exact htuple.symm
  · split at h
    · rename_i op hop
      cases h
      have hname := List.find?_some hop
      exact of_decide_eq_true hname
    · obtain ⟨op, hop, rfl⟩ := Option.map_eq_some_iff.mp h
      have hname := List.find?_some hop
      exact of_decide_eq_true hname

theorem checkArity_yields (name : String) (opcode : Opcode)
    (operands : List Nat) :
    Yields (checkArity name opcode operands) fun _ =>
      ∀ n, arity? opcode = some n → operands.length = n := by
  unfold checkArity
  split
  · rename_i hnone
    refine Yields.pure fun n hn => ?_
    rw [hnone] at hn
    cases hn
  · rename_i expected hexpected
    refine Yields.ite (fun hlength => Yields.pure fun n hn => ?_)
      fun _ => Yields.fail
    rw [hexpected, Option.some.injEq] at hn
    exact hlength.trans hn

/-- **What an instruction does fits how it is declared**, whatever it is
called. -/
theorem readOpcode_yields_described (earlier : List Instruction)
    (shape : DeclaredShape) :
    Yields (readOpcode earlier shape) fun result => ∀ name : String,
      Instruction.Described ⟨name, shape, result.1, result.2⟩ := by
  unfold readOpcode
  refine Yields.after fun start => Yields.after fun opname =>
    Yields.after fun _ => ?_
  refine Yields.ite (fun _ => ?_) fun _ => Yields.ite (fun _ => ?_) fun _ => ?_
  · refine natural_yields.bind fun number hnumber =>
      Yields.after fun _ => Yields.pure fun name => ?_
    exact .parameter number rfl rfl hnumber
  · split
    · exact Yields.fail
    · rename_i shape
      refine (readLiteral_yields_shape shape).bind ?_
      rintro value ⟨rfl, hsize⟩
      refine Yields.after fun _ => Yields.pure fun name => ?_
      exact .constant value rfl rfl rfl hsize
  · unfold readOperation
    split
    · exact Yields.failAt
    · rename_i opcode hopcode
      refine Yields.after fun operands =>
        (checkArity_yields opname opcode operands).bind fun _ harity =>
          Yields.pure fun name => .operation ?_ harity
      rw [opcodeOfName?_name hopcode]
      exact hopcode

/-- **An instruction that was read can be written** if its name is new. -/
theorem readInstruction_yields_legible (earlier : List Instruction) :
    Yields (readInstruction earlier) fun i =>
      (∀ j ∈ earlier, j.name ≠ i.name) → i.Legible earlier := by
  unfold readInstruction
  refine readName_yields.bind fun name hname => Yields.after fun _ => ?_
  refine readShape_yields.bind fun shape hshape => ?_
  refine ((readOpcode_yields earlier shape).and
    (readOpcode_yields_described earlier shape)).bind ?_
  rintro ⟨opcode, operands⟩ ⟨hoperands, hdescribed⟩
  have hlegible : (∀ j ∈ earlier, j.name ≠ name) →
      Instruction.Legible earlier ⟨name, shape, opcode, operands⟩ :=
    fun hfresh => ⟨hname, hfresh, hshape, hdescribed name, hoperands⟩
  refine Yields.after fun comma => Yields.ite (fun _ => ?_) fun _ => ?_
  · exact Yields.after fun _ => Yields.pure hlegible
  · exact Yields.pure hlegible

/-! ## Computations -/

/-- Instructions that can be written, and a root that is one of them. -/
def LegibleBody (body : List Instruction × Option Nat) : Prop :=
  AreLegible body.1 ∧ ∀ root ∈ body.2, root < body.1.length

theorem readBody_yields_legible (name : String) :
    Yields (readBody name) LegibleBody := by
  unfold readBody
  refine Yields.loop LegibleBody ⟨fun _ _ h => absurd h (by simp), nofun⟩ ?_
  rintro ⟨instructions, root⟩ ⟨hinstructions, hroot⟩
  refine Yields.after fun closed => Yields.ite (fun _ => ?_) fun _ => ?_
  · exact Yields.pure ⟨hinstructions, hroot⟩
  refine Yields.after fun ended => Yields.ite (fun _ => Yields.fail) fun _ => ?_
  refine Yields.after fun isRoot => ?_
  refine (readInstruction_yields_legible instructions).bind fun i hi => ?_
  refine Yields.ite (fun _ => Yields.fail) fun hnew => ?_
  have hfresh : ∀ j ∈ instructions, j.name ≠ i.name := by
    intro j hj hname
    exact hnew (List.any_eq_true.mpr ⟨j, hj, decide_eq_true hname⟩)
  have hmore := hinstructions.append (hi hfresh)
  have hlength : (instructions ++ [i]).length = instructions.length + 1 :=
    List.length_append
  refine Yields.ite (fun _ => ?_) fun _ => Yields.pure ⟨hmore, ?_⟩
  · refine Yields.ite (fun _ => Yields.fail) fun _ => Yields.pure ⟨hmore, ?_⟩
    rintro _ ⟨⟩
    rw [hlength]
    exact Nat.lt_succ_self _
  · intro r hr
    rw [hlength]
    exact Nat.lt_succ_of_lt (hroot r hr)

/-- What the reader of a header gives. -/
theorem readSignature_yields : Yields readSignature fun header =>
    (∀ parameters ∈ header.1, ∀ parameter ∈ parameters,
      IsName parameter.1 ∧ parameter.2.checkedByteSize.isSome)
    ∧ (∀ result ∈ header.2, result.Sized)
    ∧ header.2.isSome = header.1.isSome := by
  unfold readSignature
  refine Yields.after fun listed => Yields.ite (fun _ => ?_)
    fun _ => Yields.pure ⟨nofun, nofun, rfl⟩
  have hparameter : Yields readParameter fun parameter =>
      IsName parameter.1 ∧ parameter.2.checkedByteSize.isSome := by
    unfold readParameter
    refine readName_yields.bind fun name hname => Yields.after fun _ => ?_
    exact readArrayShape_yields.bind fun shape hshape =>
      Yields.pure ⟨hname, hshape⟩
  refine (listUntil_yields hparameter).bind fun parameters hparameters => ?_
  refine Yields.after fun _ => Yields.after fun _ => ?_
  refine readShape_yields.bind fun result hresult => Yields.pure ⟨?_, ?_, rfl⟩
  · rintro _ ⟨⟩
    exact hparameters
  · rintro _ ⟨⟩
    exact hresult

/-- **A computation that was read can be written.** -/
theorem readComputation_yields_legible :
    Yields readComputation Entry.Legible := by
  unfold readComputation
  refine readName_yields.bind fun name hname => readSignature_yields.bind ?_
  rintro ⟨signature, resultShape⟩ ⟨hsignature, hresult, hheader⟩
  refine Yields.after fun _ => (readBody_yields_legible name).bind ?_
  rintro ⟨instructions, root⟩ ⟨hinstructions, hroot⟩
  refine Yields.ite (fun _ => Yields.fail) fun hne => Yields.pure ?_
  refine ⟨hname, hsignature, hresult, hheader, hinstructions, ?_⟩
  cases root with
  | none =>
    have hpos := List.length_pos_iff.mpr (mt List.isEmpty_iff.mpr hne)
    exact Nat.sub_lt hpos Nat.one_pos
  | some root => exact hroot root rfl

theorem readComputations_yields_legible :
    Yields readComputations fun found =>
      (∀ entry ∈ found.1, entry.Legible)
        ∧ ∀ entry ∈ found.2, entry.Legible := by
  unfold readComputations
  refine Yields.loop (fun found => (∀ entry ∈ found.1, entry.Legible)
    ∧ ∀ entry ∈ found.2, entry.Legible) (by simp) ?_
  rintro ⟨entry, others⟩ ⟨hentry, hothers⟩
  refine Yields.after fun ended => Yields.ite (fun _ => ?_) fun _ => ?_
  · exact Yields.pure ⟨hentry, hothers⟩
  refine Yields.after fun isEntry => ?_
  refine readComputation_yields_legible.bind fun computation hcomputation => ?_
  refine Yields.ite (fun _ => Yields.fail) fun _ => Yields.after fun _ => ?_
  refine Yields.ite (fun _ => ?_) fun _ => ?_
  · refine Yields.pure ⟨?_, hothers⟩
    rintro _ ⟨⟩
    exact hcomputation
  · exact Yields.pure ⟨hentry, List.forall_mem_append.mpr
      ⟨hothers, List.forall_mem_singleton.mpr hcomputation⟩⟩

/-- **A program that was read can be written.** -/
theorem Module.legible_of_parse {text : String} {m : Module}
    (h : parse text = .ok m) : m.Legible := by
  have hmodule : Yields readModule Legible := by
    unfold readModule
    refine Yields.after fun _ => readName_yields.bind fun name hname =>
      Yields.after fun _ => Yields.after fun _ => ?_
    refine readComputations_yields_legible.bind fun found hfound => ?_
    split
    · exact Yields.pure ⟨hname, hfound.1 _ rfl⟩
    · exact Yields.pure ⟨hname, hfound.2 _ List.mem_cons_self⟩
    · exact Yields.fail
  exact hmodule.onText h

end TensorBind.Graph
