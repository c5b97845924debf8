import TensorBind.Proofs.Client.Binding
import TensorBind.Proofs.SlotProgram.Shapes
import TensorBind.Proofs.SlotProgram.Text

/-!
# What a fingerprint is taken of

The text that an executable is fingerprinted by names the computation, the
topology and the assignment, and then says what the program is. Computations
of one name that are compiled with the same options for the same topology
have the same text exactly if their programs have the same instructions,
the same output slots and constants with the same texts
(`Executable.fingerprintText_eq_iff`). The number of slots follows from
these, and so do the shapes of the outputs once the parameters that are
read have the same shapes.

The shapes of parameters are not part of the text. A program that negates
an integer and one that negates a floating-point number have one
fingerprint (`Executable.negations_alike`).
-/

namespace TensorBind.Executable

variable {options : CompileOptions} {topology : Topology}
  {c d : Computation} {kind kind' : ProgramKind} {e f : Executable}

/-- The text that an executable is fingerprinted by. -/
def text (e : Executable) : String :=
  fingerprintText e.name e.topology e.assignment e.program

/-- What stands in front of the program does not depend on it. -/
theorem fingerprintText_eq_append (name : String) (topology : Topology)
    (assignment : Assignment) (p : SlotProgram) :
    fingerprintText name topology assignment p
      = name ++ "\n" ++ topology.render ++ "\n" ++ assignment.render ++ "\n"
        ++ p.text := by
  rw [fingerprintText, SlotProgram.text, String.append_assoc]

/-- Computations of one name that are compiled alike have the same text
exactly if their programs are printed alike. -/
theorem text_eq_iff (hname : c.name = d.name)
    (he : ofComputation c kind options topology = .ok e)
    (hf : ofComputation d kind' options topology = .ok f) :
    e.text = f.text
      ↔ e.program.instructions = f.program.instructions
        ∧ e.program.outputSlots = f.program.outputSlots
        ∧ e.program.constants.map Literal.render
          = f.program.constants.map Literal.render := by
  obtain ⟨hassignment, -, hename, -, hetopology, -⟩ :=
    ofComputation_eq_ok.mp he
  obtain ⟨hassignment', -, hfname, -, hftopology, -⟩ :=
    ofComputation_eq_ok.mp hf
  rw [hassignment, Except.ok.injEq] at hassignment'
  rw [text, text, fingerprintText_eq_append, fingerprintText_eq_append,
    hename, hfname, hname, hetopology, hftopology, hassignment',
    String.append_right_inj]
  exact SlotProgram.text_eq_iff

/-- A fingerprint is taken of the text. -/
theorem fingerprint_eq (he : ofComputation c kind options topology = .ok e) :
    e.fingerprint = TensorBind.fingerprint e.text := by
  obtain ⟨-, -, hname, -, htopology, hfingerprint⟩ :=
    ofComputation_eq_ok.mp he
  rw [hfingerprint, text, hname, htopology]

/-- Constants with the same texts have the same shapes. -/
theorem map_shape_eq {l m : List Literal}
    (h : l.map Literal.render = m.map Literal.render) :
    l.map Literal.shape = m.map Literal.shape := by
  rw [← List.forall₂_eq_eq_eq, List.forall₂_map_left_iff,
    List.forall₂_map_right_iff] at h ⊢
  exact h.imp fun _ _ => Literal.shape_eq_of_render_eq

/-- **What the fingerprinted text identifies.** -/
theorem fingerprintText_eq_iff (hc : c.Built) (hd : d.Built)
    (hname : c.name = d.name)
    (he : ofComputation c kind options topology = .ok e)
    (hf : ofComputation d kind' options topology = .ok f) :
    (e.fingerprint = TensorBind.fingerprint e.text
      ∧ f.fingerprint = TensorBind.fingerprint f.text)
    ∧ (e.text = f.text
      ↔ e.program.instructions = f.program.instructions
        ∧ e.program.outputSlots = f.program.outputSlots
        ∧ e.program.constants.map Literal.render
          = f.program.constants.map Literal.render)
    ∧ (e.text = f.text →
      e.program.slotCount = f.program.slotCount
      ∧ e.program.constants.map Literal.shape
        = f.program.constants.map Literal.shape
      ∧ ((∀ dst index, .parameter dst index ∈ e.program.instructions →
          e.program.parameterShapes[index]?
            = f.program.parameterShapes[index]?) →
        e.program.outputShapes = f.program.outputShapes)) := by
  refine ⟨⟨fingerprint_eq he, fingerprint_eq hf⟩, text_eq_iff hname he hf,
    fun h => ?_⟩
  obtain ⟨hinstructions, houtputs, hconstants⟩ :=
    (text_eq_iff hname he hf).mp h
  obtain ⟨-, hp, -⟩ := ofComputation_eq_ok.mp he
  obtain ⟨-, hq, -⟩ := ofComputation_eq_ok.mp hf
  have hcount := Computation.slotCount_eq hp hq hinstructions
  have hshapes := map_shape_eq hconstants
  refine ⟨hcount, hshapes, fun hparameters => ?_⟩
  -- The shapes that the slots hold in the end are the same in both runs,
  -- and the outputs are read from the same slots.
  have hslots :=
    SlotProgram.shapesAfter_congr hcount hshapes hparameters
  have hfirst := hc.wellFormed.forall₂_outputShapes hp
  have hsecond := hd.wellFormed.forall₂_outputShapes hq
  rw [hslots, hinstructions, houtputs] at hfirst
  rw [← List.forall₂_eq_eq_eq]
  refine hfirst.join hsecond fun slot shape shape' _ hshape hshape' => ?_
  exact Option.some.inj (Option.some.inj (hshape.symm.trans hshape'))

/-- One device of the host. -/
def oneDevice : Topology :=
  ⟨Topology.platformOfName "host", "host", "host_device", [0]⟩

/-- What has a program is compiled for one device. -/
theorem exists_ofComputation {p : SlotProgram} {stats : CompileStats}
    (h : c.toSlotProgram = .ok (p, stats)) :
    ∃ e, ofComputation c kind .default oneDevice = .ok e
      ∧ e.program = p := by
  let assignment : Assignment := ⟨1, 1, [0]⟩
  let text := fingerprintText c.name oneDevice assignment p
  refine ⟨⟨c.name, kind, oneDevice, assignment, p,
    TensorBind.fingerprint text, stats⟩, ?_, rfl⟩
  exact ofComputation_eq_ok.mpr ⟨rfl, h, rfl, rfl, rfl, rfl⟩

/-- A computation that negates its parameter. -/
def negation (shape : Shape) : Computation where
  name := "f"
  nodes := [⟨.parameter 0, shape⟩, ⟨.unary .negate 0, shape⟩]
  parameters := [0]
  outputs := [1]

theorem toSlotProgram_negation (shape : Shape) :
    (negation shape).toSlotProgram = .ok
      (⟨[.parameter 0 0, .unary .negate 0 0], [], [shape], [0], [shape], 1⟩,
        ⟨2, 0, 2, 1, 0, [("parameter", 1), ("negate", 1)]⟩) := by
  cbv

/-- A computation that negates the first of its two parameters. -/
def negationOfFirst : Computation where
  name := "f"
  nodes := [⟨.parameter 0, ⟨.s32, []⟩⟩, ⟨.parameter 1, ⟨.f32, [3]⟩⟩,
    ⟨.unary .negate 0, ⟨.s32, []⟩⟩]
  parameters := [0, 1]
  outputs := [2]

/-- A parameter that is not read leaves no trace in the text. -/
theorem negationOfFirst_fingerprintText_eq_iff :
    ∃ e f, ofComputation (negation ⟨.s32, []⟩) .graph .default oneDevice
        = .ok e
      ∧ ofComputation negationOfFirst .structured .default oneDevice = .ok f
      ∧ e.text = f.text
      ∧ e.program.parameterShapes ≠ f.program.parameterShapes
      ∧ e.program.slotCount = f.program.slotCount
      ∧ e.program.outputShapes = f.program.outputShapes := by
  have hc : (negation ⟨.s32, []⟩).Built :=
    ⟨"f", [.parameter 0 ⟨.s32, []⟩, .unary .negate 0], [1], rfl⟩
  have hd : negationOfFirst.Built :=
    ⟨"f", [.parameter 0 ⟨.s32, []⟩, .parameter 1 ⟨.f32, [3]⟩,
      .unary .negate 0], [2], rfl⟩
  have hprogram : negationOfFirst.toSlotProgram = .ok
      (⟨[.parameter 0 0, .unary .negate 0 0], [],
        [⟨.s32, []⟩, ⟨.f32, [3]⟩], [0], [⟨.s32, []⟩], 1⟩,
        ⟨2, 1, 2, 1, 0, [("parameter", 1), ("negate", 1)]⟩) := by
    cbv
  obtain ⟨e, he, hp⟩ := exists_ofComputation (toSlotProgram_negation _)
  obtain ⟨f, hf, hq⟩ := exists_ofComputation hprogram
  obtain ⟨-, htext, hsame⟩ := fingerprintText_eq_iff hc hd rfl he hf
  have heq : e.text = f.text := htext.mpr (by simp [hp, hq])
  obtain ⟨hcount, -, houtputs⟩ := hsame heq
  exact ⟨e, f, he, hf, heq, by simp [hp, hq], hcount,
    houtputs (by simp [hp, hq])⟩

/-- **The text does not say what shapes the parameters have.** Programs
that negate an integer and a floating-point number have the same text, but
neither their parameters nor their outputs have the same shapes. -/
theorem negations_alike :
    (negation ⟨.s32, []⟩).Built ∧ (negation ⟨.f32, []⟩).Built
      ∧ ∃ e f, ofComputation (negation ⟨.s32, []⟩) .graph .default oneDevice
          = .ok e
        ∧ ofComputation (negation ⟨.f32, []⟩) .graph .default oneDevice
          = .ok f
        ∧ e.text = f.text
        ∧ e.program.parameterShapes ≠ f.program.parameterShapes
        ∧ e.program.outputShapes ≠ f.program.outputShapes := by
  refine ⟨⟨"f", [.parameter 0 ⟨.s32, []⟩, .unary .negate 0], [1], rfl⟩,
    ⟨"f", [.parameter 0 ⟨.f32, []⟩, .unary .negate 0], [1], rfl⟩, ?_⟩
  obtain ⟨e, he, hp⟩ :=
    exists_ofComputation (toSlotProgram_negation ⟨.s32, []⟩)
  obtain ⟨f, hf, hq⟩ :=
    exists_ofComputation (toSlotProgram_negation ⟨.f32, []⟩)
  have hname : (negation ⟨.s32, []⟩).name = (negation ⟨.f32, []⟩).name := rfl
  exact ⟨e, f, he, hf, (text_eq_iff hname he hf).mpr (by simp [hp, hq]),
    by simp [hp, hq], by simp [hp, hq]⟩

end TensorBind.Executable
