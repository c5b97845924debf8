import TensorBind.Graph.Printer
import TensorBind.Proofs.Text.Encoding

/-!
# The ways a graph program can be written

The printer of graph programs leaves out whatever may be left out. Here is
what may be written besides: a mark in front of a name, the shape of an
operand in front of its name, a layout behind the dimensions of an array, and
attributes at the end of a line. A **spelling** (`Spelling`) says of every
single place in a program whether such a piece stands there, and which one.
A program has a text for each spelling (`Module.spell`), and the one with
nothing besides is the text that is printed (`Module.spell_plain`).
-/

namespace TensorBind.Graph

/-! ## What may be written besides -/

/-- A character of a layout: a digit or a comma. -/
def isLayoutChar (c : Char) : Bool := isDecimalDigit c || c == ','

/-- **A layout**, without its braces. -/
structure Layout where
  /-- What stands between the braces. -/
  text : String
  /-- It is made of digits and commas. -/
  isLayout : WrittenIn isLayoutChar text

/-- **Attributes**, which end with their line. -/
structure Attributes where
  /-- What stands behind the comma. -/
  text : String
  /-- It does not go on in another line. -/
  isLine : '\n' ∉ text.toList

/-- The layouts of the arrays of a declared shape, by their places. -/
abbrev Layouts := Nat → Option Layout

/-- How a parameter is written in a header. -/
structure ParameterSpelling where
  /-- Whether its name has a mark. -/
  marked : Bool
  /-- The layout of its shape. -/
  layout : Option Layout

/-- How an operand is written. -/
structure OperandSpelling where
  /-- Whether its name has a mark. -/
  marked : Bool
  /-- Whether its shape is written before it, and with which layouts. -/
  shape : Option Layouts

/-- How an instruction is written. -/
structure InstructionSpelling where
  /-- Whether its name has a mark. -/
  marked : Bool
  /-- The layouts of its shape. -/
  layouts : Layouts
  /-- How its operands are written, by their places. -/
  operands : Nat → OperandSpelling
  /-- The attributes at the end of its line. -/
  attributes : Option Attributes

/-- **A way to write a program.** -/
structure Spelling where
  /-- Whether the name of the module has a mark. -/
  marked : Bool
  /-- The attributes behind that name. -/
  attributes : Option Attributes
  /-- Whether the name of the computation has a mark. -/
  entryMarked : Bool
  /-- How the parameters of the header are written, by their places. -/
  parameters : Nat → ParameterSpelling
  /-- The layouts of the result. -/
  result : Layouts
  /-- How the instructions are written, by their places. -/
  instructions : Nat → InstructionSpelling

/-! ## The text for a spelling -/

/-- A name, with its mark or without. -/
def spellName (marked : Bool) (name : String) : String :=
  match marked with
  | true => "%" ++ name
  | false => name

/-- A layout, if there is one. -/
def spellLayout : Option Layout → String
  | some layout => "\x7b" ++ layout.text ++ "\x7d"
  | none => ""

/-- Attributes, if there are any. -/
def spellAttributes : Option Attributes → String
  | some attributes => ", " ++ attributes.text
  | none => ""

/-- The shape of an array and its layout. -/
def spellArray (shape : Shape) (layout : Option Layout) : String :=
  shape.render ++ spellLayout layout

/-- A declared shape with its layouts. -/
def DeclaredShape.spell (layouts : Layouts) : DeclaredShape → String
  | array shape => spellArray shape (layouts 0)
  | tuple shapes =>
    "(" ++ ", ".intercalate (shapes.zipIdx.map fun array =>
      spellArray array.1 (layouts array.2)) ++ ")"

/-- An instruction as it is referred to by an operand. -/
def Instruction.spellReference (i : Instruction) (s : OperandSpelling) :
    String :=
  (match s.shape with
    | some layouts => i.shape.spell layouts ++ " "
    | none => "")
    ++ spellName s.marked i.name

namespace Entry

/-- An operand. -/
def spellOperand (e : Entry) (s : OperandSpelling) (operand : Nat) :
    String :=
  match e.instructions[operand]? with
  | some instruction => instruction.spellReference s
  | none => e.operandName operand

/-- What stands between the parentheses of an instruction. -/
def spellOperands (e : Entry) (s : Nat → OperandSpelling)
    (instruction : Instruction) : String :=
  match instruction.opcode with
  | .parameter number => toString number
  | .constant value => value.renderValues
  | _ =>
    ", ".intercalate (instruction.operands.zipIdx.map fun operand =>
      e.spellOperand (s operand.2) operand.1)

/-- One instruction, to the parenthesis that closes it. -/
def spellLine (e : Entry) (s : InstructionSpelling)
    (instruction : Instruction) (position : Nat) : String :=
  "  " ++ (if position = e.root then "ROOT " else "")
    ++ spellName s.marked instruction.name ++ " = "
    ++ instruction.shape.spell s.layouts ++ " " ++ instruction.opcode.name
    ++ "(" ++ e.spellOperands s.operands instruction ++ ")"

/-- One instruction on a line of its own. -/
def spellInstruction (e : Entry) (s : InstructionSpelling)
    (instruction : Instruction) (position : Nat) : String :=
  e.spellLine s instruction position ++ spellAttributes s.attributes ++ "\n"

/-- A parameter of a header. -/
def spellParameter (s : ParameterSpelling) (parameter : String × Shape) :
    String :=
  spellName s.marked parameter.1 ++ ": " ++ spellArray parameter.2 s.layout

/-- The parameters of a header. -/
def spellSignature (s : Nat → ParameterSpelling)
    (signature : List (String × Shape)) : String :=
  ", ".intercalate (signature.zipIdx.map fun parameter =>
    spellParameter (s parameter.2) parameter.1)

/-- The shape of the result in a header, if there is one. -/
def spellResult (layouts : Layouts) : Option DeclaredShape → String
  | some result => " -> " ++ result.spell layouts
  | none => ""

/-- The header of a computation, up to the brace that opens its body. -/
def spellHeader (s : Spelling) (e : Entry) : String :=
  "ENTRY " ++ spellName s.entryMarked e.name ++ "("
    ++ spellSignature s.parameters (e.signature.getD []) ++ ")"
    ++ spellResult s.result e.resultShape ++ " \x7b\n"

/-- The text of a computation. -/
def spell (s : Spelling) (e : Entry) : String :=
  e.spellHeader s
    ++ String.join (e.instructions.zipIdx.map fun line =>
      e.spellInstruction (s.instructions line.2) line.1 line.2)
    ++ "\x7d"

end Entry

/-- **The text of a program for a spelling.** -/
def Module.spell (s : Spelling) (m : Module) : String :=
  "HloModule " ++ spellName s.marked m.name ++ spellAttributes s.attributes
    ++ "\n\n" ++ m.entry.spell s

/-! ## Nothing besides -/

/-- **The spelling with nothing besides.** -/
def Spelling.plain : Spelling where
  marked := false
  attributes := none
  entryMarked := false
  parameters := fun _ => ⟨false, none⟩
  result := fun _ => none
  instructions := fun _ => ⟨false, fun _ => none, fun _ => ⟨false, none⟩, none⟩

theorem spellArray_none (shape : Shape) :
    spellArray shape none = shape.render := String.append_empty

/-- Where all places are alike they do not matter. -/
theorem map_zipIdx {α β : Type} (f : α → β) (l : List α) :
    (l.zipIdx.map fun x => f x.1) = l.map f := by
  have hmap : (l.zipIdx.map fun x => f x.1) = (l.zipIdx.map Prod.fst).map f :=
    List.map_map.symm
  rw [hmap, List.zipIdx_map_fst]

theorem DeclaredShape.spell_none (s : DeclaredShape) :
    s.spell (fun _ => none) = s.render := by
  cases s with
  | array shape => exact spellArray_none shape
  | tuple shapes =>
    have hshapes := map_zipIdx (fun shape => spellArray shape none) shapes
    simp only [spellArray_none] at hshapes
    rw [spell, render]
    simp only [spellArray_none]
    rw [hshapes]

theorem Entry.spellOperand_plain (e : Entry) (operand : Nat) :
    e.spellOperand ⟨false, none⟩ operand = e.operandName operand := by
  unfold spellOperand
  split
  · rename_i i hi
    rw [operandName, hi, Instruction.spellReference, String.empty_append]
    rfl
  · rfl

theorem Entry.spellOperands_plain (e : Entry) (i : Instruction) :
    e.spellOperands (fun _ => ⟨false, none⟩) i = e.renderOperands i := by
  have hnames := map_zipIdx e.operandName i.operands
  unfold spellOperands renderOperands
  cases i.opcode with
  | parameter number => rfl
  | constant value => rfl
  | _ =>
    simp only [spellOperand_plain]
    rw [hnames]

theorem Entry.spellInstruction_plain (e : Entry) (i : Instruction)
    (position : Nat) :
    e.spellInstruction (Spelling.plain.instructions position) i position
      = e.renderInstruction i position := by
  unfold spellInstruction spellLine renderInstruction Spelling.plain
  dsimp only
  rw [spellOperands_plain, DeclaredShape.spell_none, spellAttributes,
    spellName, String.append_empty, String.append_assoc,
    show ")" ++ "\n" = ")\n" from rfl]

theorem Entry.spellHeader_plain (e : Entry) :
    e.spellHeader .plain = e.renderHeader := by
  have hsignature : ∀ signature,
      spellSignature Spelling.plain.parameters signature
        = renderSignature signature := by
    intro signature
    unfold spellSignature renderSignature spellParameter Spelling.plain
    simp only [spellArray_none]
    exact congrArg _ (map_zipIdx (fun parameter : String × Shape =>
      parameter.1 ++ ": " ++ parameter.2.render) signature)
  unfold spellHeader renderHeader
  rw [hsignature]
  cases e.resultShape with
  | none => rfl
  | some result =>
    dsimp only [spellResult]
    rw [show Spelling.plain.result = fun _ => none from rfl,
      DeclaredShape.spell_none]
    rfl

/-- **The spelling with nothing besides is what is printed.** -/
theorem Module.spell_plain (m : Module) : m.spell .plain = m.render := by
  unfold spell render Entry.spell Entry.render
  simp only [Entry.spellInstruction_plain, Entry.spellHeader_plain]
  rw [show spellAttributes Spelling.plain.attributes = "" from rfl,
    String.append_empty]
  rfl

end TensorBind.Graph
