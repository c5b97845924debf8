import TensorBind.Graph.Parser
import TensorBind.Proofs.Literal
import TensorBind.Proofs.Text.Yields

/-!
# What is true of graph programs that were read

A program that was read from a text is more than a list of instructions
with numbers in them. An operand is looked up among the instructions before
its reader, so it stands before it (`Ordered`). This is not checked again,
so what is done with a program afterwards rests on
`Module.ordered_of_parse`.
-/

namespace TensorBind.Graph

open TensorBind.Parser

/-- **An instruction in order** at a position: its operands stand before
it. -/
def Instruction.OrderedAt (position : Nat) (i : Instruction) : Prop :=
  ∀ operand ∈ i.operands, operand < position

/-- **Instructions in order.** -/
def Ordered (instructions : List Instruction) : Prop :=
  ∀ (position : Nat) (i : Instruction),
    instructions[position]? = some i → i.OrderedAt position

theorem Ordered.append {instructions : List Instruction} {i : Instruction}
    (h : Ordered instructions) (hi : i.OrderedAt instructions.length) :
    Ordered (instructions ++ [i]) := by
  intro position j hj
  obtain hj | ⟨rfl, rfl⟩ := List.getElem?_concat_eq_some.mp hj
  · exact h position j hj
  · exact hi

/-! ## Operands -/

/-- **An operand stands before its reader.** -/
theorem readOperand_yields (earlier : List Instruction) :
    Yields (readOperand earlier) (· < earlier.length) := by
  unfold readOperand
  refine Yields.after fun _ => Yields.after fun name => ?_
  split
  · rename_i position hposition
    exact Yields.pure (List.findIdx?_eq_some_iff_findIdx_eq.mp hposition).1
  · exact Yields.fail

theorem readOperands_yields (earlier : List Instruction) :
    Yields (readOperands earlier)
      fun operands => ∀ operand ∈ operands, operand < earlier.length := by
  unfold readOperands
  refine Yields.after fun closed => Yields.ite (fun _ => ?_) fun _ => ?_
  · exact Yields.pure fun _ h => absurd h List.not_mem_nil
  refine Yields.loop (fun operands => ∀ operand ∈ operands,
    operand < earlier.length) (fun _ h => absurd h List.not_mem_nil) ?_
  intro operands hoperands
  refine (readOperand_yields earlier).bind fun operand hoperand => ?_
  have hall : ∀ x ∈ operands ++ [operand], x < earlier.length := by
    intro x hx
    rcases List.mem_append.mp hx with hx | hx
    · exact hoperands x hx
    · exact List.mem_singleton.mp hx ▸ hoperand
  refine Yields.after fun closed => Yields.ite (fun _ => ?_) fun _ => ?_
  · exact Yields.pure hall
  · exact Yields.after fun _ => Yields.pure hall

/-- What an instruction reads stands before it. -/
theorem readOpcode_yields (earlier : List Instruction)
    (shape : DeclaredShape) :
    Yields (readOpcode earlier shape) fun result =>
      ∀ operand ∈ result.2, operand < earlier.length := by
  unfold readOpcode
  refine Yields.after fun start => Yields.after fun name =>
    Yields.after fun _ => ?_
  refine Yields.ite (fun _ => ?_) fun _ => Yields.ite (fun _ => ?_) fun _ => ?_
  · refine Yields.after fun number => Yields.after fun _ => Yields.pure ?_
    exact fun _ h => absurd h List.not_mem_nil
  · split
    · exact Yields.fail
    · refine Yields.after fun value => Yields.after fun _ => Yields.pure ?_
      exact fun _ h => absurd h List.not_mem_nil
  · unfold readOperation
    split
    · exact Yields.failAt
    · exact (readOperands_yields earlier).bind fun operands hoperands =>
        Yields.after fun _ => Yields.pure hoperands

/-- **An instruction is in order** behind those before it. -/
theorem readInstruction_yields (earlier : List Instruction) :
    Yields (readInstruction earlier)
      (Instruction.OrderedAt earlier.length) := by
  unfold readInstruction
  refine Yields.after fun name => Yields.after fun _ =>
    Yields.after fun shape => ?_
  refine (readOpcode_yields earlier shape).bind ?_
  rintro ⟨opcode, operands⟩ hoperands
  have hordered : Instruction.OrderedAt earlier.length
      ⟨name, shape, opcode, operands⟩ := hoperands
  refine Yields.after fun comma => Yields.ite (fun _ => ?_) fun _ => ?_
  · exact Yields.after fun _ => Yields.pure hordered
  · exact Yields.pure hordered

/-! ## Computations -/

/-- The instructions of a computation are in order. -/
theorem readBody_yields (name : String) :
    Yields (readBody name) fun body => Ordered body.1 := by
  unfold readBody
  refine Yields.loop (fun body => Ordered body.1)
    (fun _ _ h => absurd h (by simp)) ?_
  rintro ⟨instructions, root⟩ hordered
  refine Yields.after fun closed => Yields.ite (fun _ => ?_) fun _ => ?_
  · exact Yields.pure hordered
  refine Yields.after fun ended => Yields.ite (fun _ => Yields.fail) fun _ => ?_
  refine Yields.after fun isRoot => ?_
  refine (readInstruction_yields instructions).bind fun i hi => ?_
  have hmore : Ordered (instructions ++ [i]) := hordered.append hi
  refine Yields.ite (fun _ => Yields.fail) fun _ => ?_
  refine Yields.ite (fun _ => ?_) fun _ => Yields.pure hmore
  exact Yields.ite (fun _ => Yields.fail) fun _ => Yields.pure hmore

theorem readComputation_yields :
    Yields readComputation fun entry => Ordered entry.instructions := by
  unfold readComputation
  refine Yields.after fun name => Yields.after ?_
  rintro ⟨signature, resultShape⟩
  refine Yields.after fun _ => (readBody_yields name).bind ?_
  rintro ⟨instructions, root⟩ hordered
  exact Yields.ite (fun _ => Yields.fail) fun _ => Yields.pure hordered

/-- All computations of a module are in order. -/
theorem readComputations_yields :
    Yields readComputations fun found =>
      (∀ entry ∈ found.1, Ordered entry.instructions)
        ∧ ∀ entry ∈ found.2, Ordered entry.instructions := by
  unfold readComputations
  refine Yields.loop (fun found =>
    (∀ entry ∈ found.1, Ordered entry.instructions)
      ∧ ∀ entry ∈ found.2, Ordered entry.instructions) (by simp) ?_
  rintro ⟨entry, others⟩ ⟨hentry, hothers⟩
  refine Yields.after fun ended => Yields.ite (fun _ => ?_) fun _ => ?_
  · exact Yields.pure ⟨hentry, hothers⟩
  refine Yields.after fun isEntry => ?_
  refine readComputation_yields.bind fun computation hcomputation => ?_
  refine Yields.ite (fun _ => Yields.fail) fun _ => Yields.after fun _ => ?_
  refine Yields.ite (fun _ => ?_) fun _ => ?_
  · refine Yields.pure ⟨?_, hothers⟩
    rintro _ ⟨⟩
    exact hcomputation
  · refine Yields.pure ⟨hentry, fun other hother => ?_⟩
    rcases List.mem_append.mp hother with hother | hother
    · exact hothers other hother
    · exact List.mem_singleton.mp hother ▸ hcomputation

namespace Module

/-- **The instructions of a program that was read are in order.** -/
theorem ordered_of_parse {text : String} {m : Module}
    (h : parse text = .ok m) : Ordered m.entry.instructions := by
  have hmodule : Yields readModule
      fun m => Ordered m.entry.instructions := by
    unfold readModule
    refine Yields.after fun _ => Yields.after fun name =>
      Yields.after fun _ => Yields.after fun _ => ?_
    refine readComputations_yields.bind fun found hfound => ?_
    split
    · exact Yields.pure (hfound.1 _ rfl)
    · exact Yields.pure (hfound.2 _ List.mem_cons_self)
    · exact Yields.fail
  exact hmodule.onText h

end Module

end TensorBind.Graph
